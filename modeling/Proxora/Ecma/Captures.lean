import Proxora.Ecma.Regex

/-!
# What a search captures

`Ecma.Regex` says whether a pattern matches somewhere.  A program that reads the
groups of a match also depends on where the search stops first, which is the
leftmost position, and on which of the matches from there is tried first.
The lemmas below pass over a front in which no match begins (`execFrom_append`)
and follow the first end of each construct (`First`).
-/

namespace Ecma.Regex

variable {r s : Regex} {m e f : Found} {before after u w : Text} {groups : List (Nat × Text)}
  {accepts : Char → Bool}

/-! ## The leftmost match -/

theorem execFrom_of_head (first : (run r ⟨⟨before, after⟩, []⟩).head? = some e) :
    execFrom r before after = some e := by
  cases after with
  | nil => exact first
  | cons c rest => simp only [execFrom, first]

theorem execFrom_cons_of_run_eq_nil {c : Char}
    (misses : run r ⟨⟨before, c :: after⟩, []⟩ = []) :
    execFrom r before (c :: after) = execFrom r (c :: before) after := by
  simp only [execFrom, misses, List.head?_nil]

/-- A search passes over a front in which no match begins. -/
theorem execFrom_append {front : Text}
    (misses : ∀ a c b, front = a ++ c :: b →
      run r ⟨⟨a.reverse ++ before, c :: (b ++ after)⟩, []⟩ = []) :
    execFrom r before (front ++ after) = execFrom r (front.reverse ++ before) after := by
  induction front generalizing before with
  | nil => rfl
  | cons c front ih =>
      have here : run r ⟨⟨before, c :: (front ++ after)⟩, []⟩ = [] := misses [] c front rfl
      rw [List.cons_append, execFrom_cons_of_run_eq_nil here, ih, List.reverse_cons,
        List.append_assoc, List.singleton_append]
      intro a d b cut
      have there := misses (c :: a) d b (by rw [cut, List.cons_append])
      rwa [List.reverse_cons, List.append_assoc, List.singleton_append] at there

/-- A pattern that matches nowhere. -/
theorem exec_eq_none_iff {text : Text} : exec r text = none ↔ test r text = false := by
  rw [test, Option.isSome_eq_false_iff, Option.isNone_iff_eq_none]

/-! ## The first end of each construct -/

/-- The end that is tried first. -/
def First (r : Regex) (m e : Found) : Prop := (run r m).head? = some e

theorem run_cls_cons {c : Char} (accepted : accepts c = true) :
    run (.cls accepts) ⟨⟨before, c :: after⟩, groups⟩ = [⟨⟨c :: before, after⟩, groups⟩] := by
  simp only [run, if_pos accepted]

theorem First.cls {c : Char} (accepted : accepts c = true) :
    First (.cls accepts) ⟨⟨before, c :: after⟩, groups⟩ ⟨⟨c :: before, after⟩, groups⟩ := by
  rw [First, run_cls_cons accepted, List.head?_cons]

theorem First.seq (left : First r m e) (right : First s e f) : First (.seq r s) m f := by
  obtain ⟨rest, ends⟩ := List.head?_eq_some_iff.mp left
  rw [First, run, ends, List.flatMap_cons, List.head?_append, right, Option.some_or]

theorem First.alt_left (left : First r m e) : First (.alt r s) m e := by
  rw [First, run, List.head?_append, left, Option.some_or]

theorem First.alt_right (misses : run r m = []) (right : First s m e) : First (.alt r s) m e := by
  rw [First, run, misses, List.nil_append]
  exact right

theorem First.group {index : Nat} (body : First r m e)
    (read : readBetween m.toCursor e.toCursor = u) :
    First (.group index r) m { e with groups := (index, u) :: e.groups } := by
  rw [First, run, List.head?_map, body, Option.map_some, read]

/-- The text read between a position and the one behind `u`. -/
theorem readBetween_append {c d : Cursor} (ahead : d.before = u.reverse ++ c.before) :
    readBetween c d = u := by
  rw [readBetween, ahead, List.length_append, Nat.add_sub_cancel, List.take_left,
    List.reverse_reverse]

/-- A literal under the flag `i`. -/
theorem First.litI (same : u.map Char.toLower = w.map Char.toLower) :
    First (litI w) ⟨⟨before, u ++ after⟩, groups⟩ ⟨⟨u.reverse ++ before, after⟩, groups⟩ := by
  induction w generalizing u before with
  | nil =>
      obtain rfl := List.map_eq_nil_iff.mp same
      rfl
  | cons c w ih =>
      cases u with
      | nil => cases same
      | cons d u =>
          obtain ⟨head, tail⟩ := List.cons.inj same
          rw [List.reverse_cons, List.append_assoc, List.singleton_append]
          have one : First (.cls fun e => e.toLower == c.toLower) ⟨⟨before, d :: (u ++ after)⟩, groups⟩
              ⟨⟨d :: before, u ++ after⟩, groups⟩ := First.cls (beq_iff_eq.mpr head)
          exact one.seq (ih tail)

theorem First.lit : First (lit u) ⟨⟨before, u ++ after⟩, groups⟩
    ⟨⟨u.reverse ++ before, after⟩, groups⟩ := by
  induction u generalizing before with
  | nil => rfl
  | cons c u ih =>
      rw [List.reverse_cons, List.append_assoc, List.singleton_append]
      exact (First.cls (beq_self_eq_true c)).seq ih

/-- A star reads as long as its class accepts. -/
theorem First.star_cls (all : ∀ c ∈ u, accepts c = true)
    (stops : ∀ c ∈ after.head?, accepts c = false) :
    First (.star (.cls accepts)) ⟨⟨before, u ++ after⟩, groups⟩
      ⟨⟨u.reverse ++ before, after⟩, groups⟩ := by
  rw [First, run]
  generalize enough : (Found.mk ⟨before, u ++ after⟩ groups).after.length = fuel
  induction fuel generalizing u before with
  | zero =>
      obtain ⟨rfl, rfl⟩ := List.append_eq_nil_iff.mp (List.length_eq_zero_iff.mp enough)
      rfl
  | succ fuel ih =>
      cases u with
      | nil =>
          cases after with
          | nil => rfl
          | cons c after =>
              have stop : accepts c = false := stops c rfl
              simp [loop, run, stop]
      | cons c u =>
          have accepted : accepts c = true := all c List.mem_cons_self
          rw [loop, List.cons_append, run_cls_cons accepted,
            List.filter_cons_of_pos (by simp), List.filter_nil, List.flatMap_cons, List.flatMap_nil,
            List.append_nil, List.head?_append, List.reverse_cons, List.append_assoc,
            List.singleton_append, ih (fun d member => all d (List.mem_cons_of_mem c member))
              (Nat.succ.inj enough), Option.some_or]

theorem First.plus_cls (some_read : u ≠ []) (all : ∀ c ∈ u, accepts c = true)
    (stops : ∀ c ∈ after.head?, accepts c = false) :
    First (plus (.cls accepts)) ⟨⟨before, u ++ after⟩, groups⟩
      ⟨⟨u.reverse ++ before, after⟩, groups⟩ := by
  cases u with
  | nil => exact absurd rfl some_read
  | cons c u =>
      rw [List.reverse_cons, List.append_assoc, List.singleton_append]
      refine (First.cls (all c List.mem_cons_self)).seq (First.star_cls ?_ stops)
      exact fun d member => all d (List.mem_cons_of_mem c member)

/-! ## Constructs that do not match -/

theorem run_cls_eq_nil (refused : ∀ c ∈ m.after.head?, accepts c = false) :
    run (.cls accepts) m = [] := by
  obtain ⟨⟨before, after⟩, groups⟩ := m
  cases after with
  | nil => rfl
  | cons c after =>
      have no : accepts c = false := refused c rfl
      simp [run, no]

theorem run_seq_eq_nil (misses : run r m = []) : run (.seq r s) m = [] := by
  rw [run, misses, List.flatMap_nil]

theorem run_group_eq_nil {index : Nat} (misses : run r m = []) : run (.group index r) m = [] := by
  rw [run, misses, List.map_nil]

theorem run_seq_eq_nil_of_first (only : run r m = [e]) (misses : run s e = []) :
    run (.seq r s) m = [] := by
  rw [run, only, List.flatMap_cons, List.flatMap_nil, misses, List.append_nil]

end Ecma.Regex
