import Mathlib.Logic.Basic
import Mathlib.Data.Nat.Init

/-!
# Loops

A loop by its body, which goes on with another state or leaves with a result. A run has fuel, and
no result where the fuel is used up; `Leaves` says that the loop has a result.

`leaves_of_trace` is the rule for a loop whose states are known: they are a sequence, the body goes
from each one to the next, and leaves at the last one.
-/

namespace Loops

variable {α β : Type}

def run (body : α → α ⊕ β) : Nat → α → Option β
  | 0, _ => none
  | fuel + 1, x =>
      match body x with
      | .inl next => run body fuel next
      | .inr result => some result

variable {body : α → α ⊕ β} {fuel : Nat} {x : α} {result : β}

theorem run_of_inl {next : α} (goes : body x = .inl next) :
    run body (fuel + 1) x = run body fuel next := by
  rw [run, goes]

theorem run_of_inr (leaves : body x = .inr result) : run body (fuel + 1) x = some result := by
  rw [run, leaves]

/-- **Trace rule.** -/
theorem run_of_trace (trace : Nat → α) {n : Nat}
    (goes : ∀ i < n, body (trace i) = .inl (trace (i + 1))) (leaves : body (trace n) = .inr result)
    (enough : n < fuel) : run body fuel (trace 0) = some result := by
  induction n generalizing trace fuel with
  | zero =>
      obtain ⟨fuel, rfl⟩ := Nat.exists_eq_add_of_lt enough
      rw [Nat.zero_add]
      exact run_of_inr leaves
  | succ n ih =>
      obtain ⟨fuel, rfl⟩ := Nat.exists_eq_add_of_lt (Nat.lt_of_le_of_lt (Nat.zero_le _) enough)
      rw [Nat.zero_add] at enough ⊢
      rw [run_of_inl (goes 0 (Nat.succ_pos n))]
      exact ih (fun i => trace (i + 1)) (fun i small => goes (i + 1) (Nat.succ_lt_succ small)) leaves
        (Nat.lt_of_succ_lt_succ enough)

/-- The loop leaves with the result, however much fuel there is from some amount on. -/
def Leaves (body : α → α ⊕ β) (x : α) (result : β) : Prop :=
  ∃ enough, ∀ fuel, enough ≤ fuel → run body fuel x = some result

theorem leaves_of_trace (trace : Nat → α) {n : Nat}
    (goes : ∀ i < n, body (trace i) = .inl (trace (i + 1)))
    (leaves : body (trace n) = .inr result) : Leaves body (trace 0) result :=
  ⟨n + 1, fun _ enough => run_of_trace trace goes leaves enough⟩

/-- A body that goes back to the same state never leaves. -/
theorem run_of_stuck (stuck : body x = .inl x) : run body fuel x = none := by
  induction fuel with
  | zero => rfl
  | succ fuel ih =>
      rw [run_of_inl stuck]
      exact ih

end Loops
