import Mathlib.Data.Option.Basic

/-!
# A chain of writes

A value that is kept in memory and written to a store by writes that run one after the other. A
write takes the value that the memory has when it begins; one that fails may have reached the store
all the same. `Chain.UpToDate` is what a program keeps that queues a write with each change, and
`UpToDate.stored_eq` what it is good for: no write is left, the last one succeeded, and the store
has the value of the memory.
-/

namespace WriteChain

variable {Owner Value : Type}

structure Chain (Owner Value : Type) where
  /-- The writes to come, each with the one who awaits it. -/
  queue : List Owner
  /-- The write that runs, with the value that it took. -/
  writing : Option (Owner × Value)
  /-- Whether the last write to end succeeded. -/
  lastWrite : Option Bool
  stored : Value

namespace Chain

def start (stored : Value) : Chain Owner Value where
  queue := []
  writing := none
  lastWrite := none
  stored := stored

/-- One more write. -/
def save (c : Chain Owner Value) (owner : Owner) : Chain Owner Value :=
  { c with queue := c.queue ++ [owner] }

/-- The next write begins, when none runs. -/
def begins (c : Chain Owner Value) (memory : Value) : Option (Chain Owner Value) :=
  match c.writing, c.queue with
  | none, owner :: rest => some { c with queue := rest, writing := some (owner, memory) }
  | _, _ => none

/-- The write of a value ends. -/
def succeeds (c : Chain Owner Value) (value : Value) : Chain Owner Value :=
  { c with writing := none, lastWrite := some true, stored := value }

/-- The write of a value fails; it has `landed` in the store or not. -/
def fails (c : Chain Owner Value) (value : Value) (landed : Bool) : Chain Owner Value :=
  { c with
    writing := none, lastWrite := some false, stored := if landed then value else c.stored }

/-- No write is left, and the last one succeeded. -/
def Settled (c : Chain Owner Value) : Prop :=
  c.queue = [] ∧ c.writing = none ∧ c.lastWrite = some true

/-- A write is still to begin, or none runs and the last one did not succeed. -/
def Covered (c : Chain Owner Value) : Prop :=
  c.queue ≠ [] ∨ c.writing = none ∧ c.lastWrite ≠ some true

/-- The value on its way to the store, or in it. -/
def latest (c : Chain Owner Value) : Value := c.writing.elim c.stored Prod.snd

/-- What the writes know of the memory. -/
def UpToDate (c : Chain Owner Value) (memory : Value) : Prop :=
  c.Covered ∨ c.latest = memory

instance (c : Chain Owner Value) : Decidable c.Settled :=
  inferInstanceAs (Decidable (c.queue = [] ∧ c.writing = none ∧ c.lastWrite = some true))

instance (c : Chain Owner Value) : Decidable c.Covered :=
  inferInstanceAs (Decidable (c.queue ≠ [] ∨ c.writing = none ∧ c.lastWrite ≠ some true))

variable {c d : Chain Owner Value} {memory value : Value} {owner : Owner}

theorem covered_start (stored : Value) : (start stored : Chain Owner Value).Covered :=
  .inr ⟨rfl, nofun⟩

theorem covered_save (c : Chain Owner Value) (owner : Owner) : (c.save owner).Covered :=
  .inl (List.append_ne_nil_of_right_ne_nil _ (List.cons_ne_nil owner []))

theorem covered_fails (c : Chain Owner Value) (value : Value) (landed : Bool) :
    (c.fails value landed).Covered :=
  .inr ⟨rfl, nofun⟩

/-- Under a write to come the memory may change. -/
theorem Covered.upToDate (covered : c.Covered) (memory : Value) : c.UpToDate memory := .inl covered

theorem upToDate_of_begins (begun : c.begins memory = some d) : d.UpToDate memory := by
  unfold begins at begun
  split at begun
  · cases begun
    exact .inr rfl
  · cases begun

theorem UpToDate.succeeds (good : c.UpToDate memory) (runs : c.writing = some (owner, value)) :
    (c.succeeds value).UpToDate memory := by
  rcases good with (queued | ⟨idle, -⟩) | same
  · exact .inl (.inl queued)
  · rw [runs] at idle
    cases idle
  · rw [latest, runs] at same
    exact .inr same

theorem Settled.not_covered (settled : c.Settled) : ¬ c.Covered := by
  intro covered
  rcases covered with queued | ⟨-, other⟩
  · exact queued settled.1
  · exact other settled.2.2

theorem UpToDate.stored_eq (good : c.UpToDate memory) (settled : c.Settled) :
    c.stored = memory := by
  have same := good.resolve_left settled.not_covered
  rw [latest, settled.2.1] at same
  exact same

end Chain

end WriteChain
