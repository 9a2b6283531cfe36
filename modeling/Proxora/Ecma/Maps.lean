import Mathlib.Data.List.Induction
import Proxora.Ecma.Value

/-!
# Maps

A `Map` with texts as keys is a `Record`: its entries in the order in which they were put in.
`get?_set`, `get?_delete` and `get?_filter` say what is read after a change, and `get?_groupBy`
which groups a map of lists has.
-/

namespace Ecma

variable {α : Type} {map : Record α} {key other : Text} {value : α}

/-- `map.delete(key)`. -/
def Record.delete (map : Record α) (key : Text) : Record α where
  entries := map.entries.filter fun entry => entry.1 ≠ key
  nodup := map.nodup.sublist (List.filter_sublist.map Prod.fst)

theorem Record.get?_set :
    (map.set key value).get? other = if other = key then some value else map.get? other :=
  lookup_setEntry map.entries key value other

theorem Record.get?_filter {keep : α → Bool} :
    (map.filter keep).get? other = (map.get? other).filter keep :=
  lookup_filter_entries map.nodup keep other

theorem lookup_delete_entries (entries : List (Text × α)) (key other : Text) :
    (entries.filter fun entry => entry.1 ≠ key).lookup other =
      if other = key then none else entries.lookup other := by
  induction entries with
  | nil => simp
  | cons entry rest ih =>
      obtain ⟨name, value⟩ := entry
      by_cases deleted : name = key
      · rw [List.filter_cons_of_neg (by simp [deleted]), ih, List.lookup_cons]
        split_ifs with same
        · rfl
        · have apart : (other == name) = false := by
            rw [deleted]
            exact beq_eq_false_iff_ne.mpr same
          rw [apart]
      · rw [List.filter_cons_of_pos (by simp [deleted]), List.lookup_cons, List.lookup_cons, ih]
        cases here : other == name with
        | true =>
            have apart : other ≠ key := eq_of_beq here ▸ deleted
            exact (if_neg apart).symm
        | false => rfl

theorem Record.get?_delete :
    (map.delete key).get? other = if other = key then none else map.get? other :=
  lookup_delete_entries map.entries key other

/-! ## Entries -/

/-- `map.values()`. -/
def Record.values (map : Record α) : List α := map.entries.map Prod.snd

theorem Record.get?_eq_some_iff : map.get? key = some value ↔ (key, value) ∈ map.entries := by
  constructor
  · intro found
    obtain ⟨front, back, cut, -⟩ := List.lookup_eq_some_iff.mp found
    rw [cut]
    exact List.mem_append_right front List.mem_cons_self
  · intro listed
    obtain ⟨front, back, cut⟩ := List.append_of_mem listed
    refine List.lookup_eq_some_iff.mpr ⟨front, back, cut, fun entry before => ?_⟩
    have apart := map.nodup
    rw [cut, List.map_append, List.map_cons] at apart
    have other := (List.nodup_append.mp apart).2.2 entry.1 (List.mem_map_of_mem before) key
      List.mem_cons_self
    exact bne_iff_ne.mpr other.symm

/-! ## Groups -/

/-- The list of a key, with one more item. -/
def Record.push (map : Record (List α)) (key : Text) (item : α) : Record (List α) :=
  map.set key ((map.get? key).getD [] ++ [item])

/-- The items by their keys, in order. -/
def Record.groupBy (key : α → Text) (items : List α) : Record (List α) :=
  items.foldl (fun map item => map.push (key item) item) Record.empty

/-- The group of a key has the items with this key, and there is no empty group. -/
theorem Record.get?_groupBy (key : α → Text) (items : List α) (k : Text) :
    (groupBy key items).get? k =
      if items.filter (key · = k) = [] then none else some (items.filter (key · = k)) := by
  induction items using List.reverseRecOn with
  | nil => rfl
  | append_singleton items item ih =>
      have step : groupBy key (items ++ [item]) = (groupBy key items).push (key item) item := by
        rw [groupBy, List.foldl_append]
        rfl
      rw [step, push, get?_set, List.filter_append]
      by_cases same : k = key item
      · have old : ((groupBy key items).get? (key item)).getD [] =
            items.filter (key · = key item) := by
          rw [← same, ih]
          split_ifs with empty
          · exact empty.symm
          · rfl
        have own : [item].filter (key · = key item) = [item] := by simp
        rw [if_pos same, old, same, own,
          if_neg (List.append_ne_nil_of_right_ne_nil _ (List.cons_ne_nil item []))]
      · have other : [item].filter (key · = k) = [] := by simp [Ne.symm same]
        rw [if_neg same, other, List.append_nil, ih]

theorem Record.mem_groupBy {key : α → Text} {items : List α} {group : Text × List α} :
    group ∈ (groupBy key items).entries ↔
      group.2 ≠ [] ∧ group.2 = items.filter (key · = group.1) := by
  obtain ⟨k, list⟩ := group
  rw [← get?_eq_some_iff, get?_groupBy]
  split_ifs with empty
  · rw [empty]
    exact iff_of_false (fun found => by cases found) fun held => held.1 held.2
  · constructor
    · intro found
      rw [← Option.some.inj found]
      exact ⟨empty, rfl⟩
    · intro held
      exact congrArg some held.2.symm

end Ecma
