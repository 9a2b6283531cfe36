import Mathlib.Data.List.Nodup

/-!
# Tables with a primary key

`KeyedRows Row key` are rows no two of which have the same key.  `find` reads a
row, `insert`, `update` and `restrict` change the table, and `find_insert`,
`find_update` and `find_restrict` say what is read afterwards.
-/

/-- Rows with different keys. -/
structure KeyedRows (Row : Type) {Key : Type} (key : Row → Key) where
  rows : List Row
  unique : (rows.map key).Nodup

namespace KeyedRows

variable {Row Key : Type} {key : Row → Key} {t u : KeyedRows Row key} {row : Row} {k j : Key}

def empty : KeyedRows Row key := ⟨[], List.nodup_nil⟩

variable [DecidableEq Key]

/-- The row with a key. -/
def find (t : KeyedRows Row key) (k : Key) : Option Row := t.rows.find? fun row => key row = k

/-- The table with one more row, unless its key is taken. -/
def insert (t : KeyedRows Row key) (row : Row) : Option (KeyedRows Row key) :=
  if taken : key row ∈ t.rows.map key then none
  else
    some ⟨t.rows ++ [row], by
      rw [List.map_append, List.map_singleton]
      exact t.unique.append (List.nodup_singleton _) (List.disjoint_singleton.mpr taken)⟩

/-- The table with the row of a key changed; the change keeps keys. -/
def update (t : KeyedRows Row key) (k : Key) (change : Row → Row)
    (keeps : ∀ row, key (change row) = key row) : KeyedRows Row key where
  rows := t.rows.map fun row => if key row = k then change row else row
  unique := by
    have keys : (t.rows.map fun row => if key row = k then change row else row).map key =
        t.rows.map key := by
      rw [List.map_map]
      refine List.map_congr_left fun row _ => ?_
      rw [Function.comp_apply]
      split
      · exact keeps row
      · rfl
    rw [keys]
    exact t.unique

omit [DecidableEq Key] in
/-- The rows that pass a test. -/
def restrict (t : KeyedRows Row key) (test : Row → Bool) : KeyedRows Row key where
  rows := t.rows.filter test
  unique := t.unique.sublist (List.filter_sublist.map key)

/-! ## What is read -/

theorem key_of_find (found : t.find k = some row) : key row = k := by
  have test := List.find?_some found
  exact of_decide_eq_true test

theorem mem_of_find (found : t.find k = some row) : row ∈ t.rows :=
  List.mem_of_find?_eq_some found

theorem find_of_mem (member : row ∈ t.rows) : t.find (key row) = some row := by
  cases found : t.find (key row) with
  | none =>
      have absent := List.find?_eq_none.mp found row member
      simp at absent
  | some other =>
      have same := List.inj_on_of_nodup_map t.unique (mem_of_find found) member (key_of_find found)
      rw [same]

theorem find_eq_some_iff : t.find k = some row ↔ row ∈ t.rows ∧ key row = k := by
  constructor
  · intro found
    exact ⟨mem_of_find found, key_of_find found⟩
  · intro held
    obtain ⟨member, same⟩ := held
    rw [← same]
    exact find_of_mem member

theorem find_eq_none_iff : t.find k = none ↔ k ∉ t.rows.map key := by
  unfold find
  rw [List.find?_eq_none]
  simp

theorem find_insert (done : t.insert row = some u) :
    u.find j = if j = key row then some row else t.find j := by
  unfold insert at done
  split at done
  · cases done
  · next free =>
    cases done
    unfold find
    rw [List.find?_append, List.find?_singleton]
    by_cases same : j = key row
    · have absent : t.find j = none := find_eq_none_iff.mpr (by rw [same]; exact free)
      rw [find] at absent
      rw [absent]
      simp [same]
    · simp [same, Ne.symm same]

theorem find_of_insert (done : t.insert row = some u) : t.find (key row) = none := by
  unfold insert at done
  split at done
  · cases done
  · next free => exact find_eq_none_iff.mpr free

theorem find_update {change : Row → Row} {keeps : ∀ row, key (change row) = key row} :
    (t.update k change keeps).find j = if j = k then (t.find j).map change else t.find j := by
  have tests : ((fun row => decide (key row = j)) ∘
      fun row => if key row = k then change row else row) = fun row => decide (key row = j) := by
    funext row
    rw [Function.comp_apply]
    split
    · rw [keeps]
    · rfl
  unfold find update
  rw [List.find?_map, tests]
  cases found : t.rows.find? fun row => key row = j with
  | none => simp
  | some row =>
      have same : key row = j := key_of_find found
      rw [Option.map_some, same, apply_ite some]
      rfl

theorem find_restrict {test : Row → Bool} : (t.restrict test).find k = (t.find k).filter test := by
  cases found : t.find k with
  | none =>
      rw [find_eq_none_iff] at found
      rw [Option.filter_none, find_eq_none_iff]
      intro member
      exact found ((List.filter_sublist.map key).subset member)
  | some row =>
      rw [find_eq_some_iff] at found
      cases passes : test row with
      | true =>
          rw [Option.filter_some_pos passes, find_eq_some_iff]
          exact ⟨List.mem_filter.mpr ⟨found.1, passes⟩, found.2⟩
      | false =>
          rw [Option.filter_some_neg passes, find_eq_none_iff]
          intro member
          obtain ⟨other, kept, same⟩ := List.mem_map.mp member
          obtain ⟨inRows, otherPasses⟩ := List.mem_filter.mp kept
          have eq := List.inj_on_of_nodup_map t.unique inRows found.1 (same.trans found.2.symm)
          rw [eq, passes] at otherPasses
          cases otherPasses

end KeyedRows
