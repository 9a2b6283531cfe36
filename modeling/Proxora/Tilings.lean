import Proxora.Files

/-!
# Tilings

Writes one behind the other: each begins where the one before ends. `Tiles.covers_iff` and
`Tiles.apart` say that they cover a range, each position once; `Tiles.concat` is the rule for one
write more.
-/

namespace Files

/-- The writes go from `low` to `high`, in this order. -/
def Tiles : Nat → List Write → Nat → Prop
  | low, [], high => low = high
  | low, w :: rest, high => w.start = low ∧ Tiles (low + w.bytes.length) rest high

namespace Tiles

variable {low high : Nat} {writes : List Write} {w : Write}

theorem le (tiles : Tiles low writes high) : low ≤ high := by
  induction writes generalizing low with
  | nil => exact le_of_eq tiles
  | cons w rest ih => exact (Nat.le_add_right _ _).trans (ih tiles.2)

/-- One write behind the others. -/
theorem concat (tiles : Tiles low writes high) (next : w.start = high) :
    Tiles low (writes ++ [w]) (high + w.bytes.length) := by
  induction writes generalizing low with
  | nil =>
      obtain rfl : low = high := tiles
      exact ⟨next, rfl⟩
  | cons v rest ih => exact ⟨tiles.1, ih tiles.2⟩

theorem start_ge (tiles : Tiles low writes high) (member : w ∈ writes) : low ≤ w.start := by
  induction writes generalizing low with
  | nil => cases member
  | cons v rest ih =>
      rcases List.mem_cons.mp member with rfl | later
      · exact tiles.1.ge
      · exact (Nat.le_add_right _ _).trans (ih tiles.2 later)

/-- No position is written twice. -/
theorem apart (tiles : Tiles low writes high) :
    writes.Pairwise fun v w => v.start + v.bytes.length ≤ w.start := by
  induction writes generalizing low with
  | nil => exact .nil
  | cons v rest ih =>
      obtain ⟨starts, later⟩ := tiles
      refine .cons (fun w member => ?_) (ih later)
      rw [starts]
      exact later.start_ge member

/-- Every position of the range is written, and no other. -/
theorem covers_iff (tiles : Tiles low writes high) (i : Nat) :
    Covers writes i ↔ low ≤ i ∧ i < high := by
  induction writes generalizing low with
  | nil =>
      obtain rfl : low = high := tiles
      refine iff_of_false ?_ (by omega)
      rintro ⟨w, member, -⟩
      cases member
  | cons v rest ih =>
      obtain ⟨starts, later⟩ := tiles
      have bound := later.le
      have here : Covers (v :: rest) i ↔
          (v.start ≤ i ∧ i < v.start + v.bytes.length) ∨ Covers rest i := by
        simp only [Covers, List.mem_cons, exists_eq_or_imp]
      rw [here, ih later, starts]
      omega

end Tiles

end Files
