import Mathlib.Logic.Function.Basic

/-!
# Runs of a system of events

A system is a partial step function: `step s e` is the state after the event
`e`, or `none` when `e` cannot happen in `s`.  `Reaches` is a run all of whose
events meet a condition on the event and the state that it finds; with the
condition `Unrestricted` it is any run.  `Reaches.keeps` is the rule for
invariants; `reaches_of_exec` and `reaches_of_guarded` turn a list of events
into a run.
-/

namespace Runs

variable {State Event : Type}

/-- The state after some events, each of which can happen. -/
def exec (step : State → Event → Option State) : State → List Event → Option State
  | s, [] => some s
  | s, e :: rest => (step s e).bind fun t => exec step t rest

/-- A run from `s` whose events all meet `allowed`. -/
inductive Reaches (step : State → Event → Option State) (allowed : State → Event → Prop)
    (s : State) : State → Prop
  | start : Reaches step allowed s s
  | next {t u : State} {e : Event} (before : Reaches step allowed s t) (meets : allowed t e)
      (happens : step t e = some u) : Reaches step allowed s u

/-- No condition on the events. -/
def Unrestricted (_ : State) (_ : Event) : Prop := True

variable {step : State → Event → Option State} {allowed : State → Event → Prop} {s t : State}

/-- **Invariant rule.** What every allowed event keeps holds along the run. -/
theorem Reaches.keeps {Inv : State → Prop} (run : Reaches step allowed s t) (start : Inv s)
    (kept : ∀ t e u, Inv t → allowed t e → step t e = some u → Inv u) : Inv t := by
  induction run with
  | start => exact start
  | next _ meets happens ih => exact kept _ _ _ ih meets happens

theorem Reaches.trans {u : State} (first : Reaches step allowed s t)
    (second : Reaches step allowed t u) : Reaches step allowed s u := by
  induction second with
  | start => exact first
  | next _ meets happens ih => exact ih.next meets happens

/-- The system in which an event can only happen where it meets `allowed`. -/
def guarded (step : State → Event → Option State) (allowed : State → Event → Prop)
    [∀ s e, Decidable (allowed s e)] (s : State) (e : Event) : Option State :=
  if allowed s e then step s e else none

/-- A list of events that can happen and meet the condition is a run. -/
theorem reaches_of_guarded [∀ s e, Decidable (allowed s e)] {events : List Event}
    (done : exec (guarded step allowed) s events = some t) : Reaches step allowed s t := by
  induction events generalizing s with
  | nil =>
      cases done
      exact .start
  | cons e rest ih =>
      obtain ⟨middle, happens, others⟩ := Option.bind_eq_some_iff.mp done
      rw [guarded] at happens
      split at happens
      · next meets => exact (Reaches.start.next meets happens).trans (ih others)
      · cases happens

/-- A list of events that can happen is a run. -/
theorem reaches_of_exec {events : List Event} (done : exec step s events = some t) :
    Reaches step Unrestricted s t := by
  induction events generalizing s with
  | nil =>
      cases done
      exact .start
  | cons e rest ih =>
      obtain ⟨middle, happens, others⟩ := Option.bind_eq_some_iff.mp done
      exact (Reaches.start.next trivial happens).trans (ih others)

/-! ## Tables in a state -/

/-- An entry of a table with one entry set. -/
theorem update_entry_eq_some {Key Value : Type} [DecidableEq Key] {table : Key → Option Value}
    {k key : Key} {entry : Option Value} {value : Value}
    (held : Function.update table k entry key = some value) :
    key = k ∧ entry = some value ∨ key ≠ k ∧ table key = some value := by
  by_cases same : key = k
  · rw [same, Function.update_self] at held
    exact .inl ⟨same, held⟩
  · rw [Function.update_of_ne same] at held
    exact .inr ⟨same, held⟩

/-- An entry of a table with one entry written. -/
theorem update_eq_some {Key Value : Type} [DecidableEq Key] {table : Key → Option Value}
    {k key : Key} {v value : Value} (held : Function.update table k (some v) key = some value) :
    key = k ∧ value = v ∨ key ≠ k ∧ table key = some value :=
  (update_entry_eq_some held).imp_left fun written => ⟨written.1, (Option.some.inj written.2).symm⟩

/-- An entry of a table with one entry deleted. -/
theorem update_none_eq_some {Key Value : Type} [DecidableEq Key] {table : Key → Option Value}
    {k key : Key} {value : Value} (held : Function.update table k none key = some value) :
    key ≠ k ∧ table key = some value := by
  rcases update_entry_eq_some held with ⟨-, written⟩ | earlier
  · cases written
  · exact earlier

end Runs
