import Mathlib.Algebra.Order.Floor.Div
import Mathlib.Data.List.Nodup
import Mathlib.Data.Nat.ModEq

/-!
# Windows of a cycle

`window n offset length` are the next `length` places of a cycle of `n` places, from `offset` on.
A rotation takes a window in every turn and carries its end over; `turns` are the windows of so
many turns.

`nodup_window` says that a window no longer than the cycle takes no place twice, and
`mem_turns_of_le` that the turns take every place when their windows are long enough together.
-/

namespace Cyclic

variable {n offset length limit rounds place : Nat}

/-- The next places of a cycle of `n`, from `offset` on. -/
def window (n offset length : Nat) : List Nat :=
  (List.range length).map fun i => (offset + i) % n

@[simp]
theorem length_window : (window n offset length).length = length := by
  rw [window, List.length_map, List.length_range]

/-- A window goes on where another one ends. -/
theorem window_add (more : Nat) :
    window n offset (length + more) =
      window n offset length ++ window n ((offset + length) % n) more := by
  have ahead : ∀ i, (offset + (length + i)) % n = ((offset + length) % n + i) % n := fun i => by
    rw [Nat.mod_add_mod, Nat.add_assoc]
  simp only [window, List.range_add, List.map_append, List.map_map, Function.comp_def, ahead]

/-- A window no longer than the cycle takes no place twice. -/
theorem nodup_window (short : length ≤ n) : (window n offset length).Nodup := by
  refine List.Nodup.map_on (fun i early j early' same => ?_) List.nodup_range
  have congruent : i ≡ j [MOD n] := Nat.ModEq.add_left_cancel' offset same
  exact congruent.eq_of_lt_of_lt ((List.mem_range.mp early).trans_le short)
    ((List.mem_range.mp early').trans_le short)

/-- A window as long as the cycle takes every place. -/
theorem mem_window_of_le (long : n ≤ length) (small : place < n) :
    place ∈ window n offset length := by
  have proper : 0 < n := Nat.zero_lt_of_lt small
  refine List.mem_map.mpr ⟨(place + n - offset % n) % n,
    List.mem_range.mpr ((Nat.mod_lt _ proper).trans_le long), ?_⟩
  have within : offset % n < n := Nat.mod_lt _ proper
  calc (offset + (place + n - offset % n) % n) % n
      = (offset % n + (place + n - offset % n)) % n := by rw [Nat.add_mod_mod, Nat.mod_add_mod]
    _ = (place + n) % n := by rw [Nat.add_sub_cancel' (by omega)]
    _ = place := by rw [Nat.add_mod_right, Nat.mod_eq_of_lt small]

/-! ## Rotations -/

/-- The places of one turn: all, when they are within the limit. -/
def turn (n offset limit : Nat) : List Nat :=
  if n ≤ limit then List.range n else window n offset limit

/-- Where the turn after it begins. -/
def nextOffset (n offset limit : Nat) : Nat := if n ≤ limit then 0 else (offset + limit) % n

/-- The places of so many turns. -/
def turns (n limit : Nat) : Nat → Nat → List (List Nat)
  | _, 0 => []
  | offset, rounds + 1 => turn n offset limit :: turns n limit (nextOffset n offset limit) rounds

theorem length_turn : (turn n offset limit).length = min n limit := by
  unfold turn
  split_ifs with all
  · rw [List.length_range, min_eq_left all]
  · rw [length_window, min_eq_right (Nat.le_of_not_le all)]

theorem nodup_turn : (turn n offset limit).Nodup := by
  unfold turn
  split_ifs with all
  · exact List.nodup_range
  · exact nodup_window (Nat.le_of_not_le all)

/-- Turns that do not take all places are one window after the other. -/
theorem flatten_turns (wide : ¬ n ≤ limit) (offset : Nat) :
    (turns n limit offset rounds).flatten = window n offset (rounds * limit) := by
  induction rounds generalizing offset with
  | zero => rw [turns, Nat.zero_mul, window, List.range_zero, List.map_nil, List.flatten_nil]
  | succ rounds ih =>
      rw [turns, List.flatten_cons, ih, turn, nextOffset, if_neg wide, if_neg wide, ← window_add,
        Nat.add_one_mul, Nat.add_comm]

theorem mem_turns_of_le (enough : n ≤ rounds * limit) (small : place < n) :
    ∃ places ∈ turns n limit offset rounds, place ∈ places := by
  by_cases all : n ≤ limit
  · cases rounds with
    | zero =>
        rw [Nat.zero_mul] at enough
        exact absurd small (Nat.not_lt_of_le (enough.trans (Nat.zero_le _)))
    | succ rounds =>
        refine ⟨turn n offset limit, List.mem_cons_self, ?_⟩
        rw [turn, if_pos all]
        exact List.mem_range.mpr small
  · have taken : place ∈ window n offset (rounds * limit) := mem_window_of_le enough small
    rw [← flatten_turns all] at taken
    exact List.mem_flatten.mp taken

end Cyclic
