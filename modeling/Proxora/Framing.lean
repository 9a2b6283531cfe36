import Mathlib.Data.List.Basic

/-!
# Framed streams

A stream is written frame by frame, one for each value, and read off one frame after another.
`Frames` is what writing and reading have to agree on; `Frames.readAll_flatMap` says that the whole
stream then gives its values back, and `Frames.unique` that no other values have the same stream.
-/

namespace Framing

variable {α β : Type}

/-- The values of a stream of at most so many frames. -/
def readAll (readOne : List β → Option (α × List β)) : Nat → List β → Option (List α)
  | _, [] => some []
  | 0, _ :: _ => none
  | fuel + 1, unit :: rest =>
      match readOne (unit :: rest) with
      | none => none
      | some (value, others) => (readAll readOne fuel others).map (value :: ·)

/-- A frame is not empty, and is read off the front of any stream. -/
structure Frames (write : α → List β) (readOne : List β → Option (α × List β))
    (good : α → Prop) : Prop where
  some_unit : ∀ a, good a → write a ≠ []
  reads : ∀ a rest, good a → readOne (write a ++ rest) = some (a, rest)

namespace Frames

variable {write : α → List β} {readOne : List β → Option (α × List β)} {good : α → Prop}
  {values others : List α} {fuel : Nat}

theorem readAll_flatMap (frames : Frames write readOne good) (fine : ∀ a ∈ values, good a)
    (enough : values.length ≤ fuel) : readAll readOne fuel (values.flatMap write) = some values := by
  induction values generalizing fuel with
  | nil =>
      cases fuel <;> rfl
  | cons a values ih =>
      obtain ⟨fineHere, fineLater⟩ := List.forall_mem_cons.mp fine
      obtain ⟨unit, units, begins⟩ := List.exists_cons_of_ne_nil (frames.some_unit a fineHere)
      have here := frames.reads a (values.flatMap write) fineHere
      cases fuel with
      | zero => exact absurd enough (by simp)
      | succ fuel =>
          have later := ih fineLater (Nat.le_of_succ_le_succ enough)
          rw [List.flatMap_cons]
          rw [begins, List.cons_append] at here ⊢
          rw [readAll, here]
          exact congrArg (Option.map (a :: ·)) later

theorem length_le_flatMap (frames : Frames write readOne good) (fine : ∀ a ∈ values, good a) :
    values.length ≤ (values.flatMap write).length := by
  induction values with
  | nil => exact Nat.le_refl 0
  | cons a values ih =>
      obtain ⟨fineHere, fineLater⟩ := List.forall_mem_cons.mp fine
      have here := List.length_pos_of_ne_nil (frames.some_unit a fineHere)
      have later := ih fineLater
      rw [List.flatMap_cons, List.length_append, List.length_cons]
      omega

/-- The length of a stream is enough to read it. -/
theorem readAll_stream (frames : Frames write readOne good) (fine : ∀ a ∈ values, good a) :
    readAll readOne (values.flatMap write).length (values.flatMap write) = some values :=
  frames.readAll_flatMap fine (frames.length_le_flatMap fine)

/-- Two lists of values with one stream are the same. -/
theorem unique (frames : Frames write readOne good) (fine : ∀ a ∈ values, good a)
    (others_fine : ∀ a ∈ others, good a) (same : values.flatMap write = others.flatMap write) :
    values = others := by
  have first := frames.readAll_stream fine
  rw [same, frames.readAll_stream others_fine] at first
  exact (Option.some.inj first).symm

end Frames

end Framing
