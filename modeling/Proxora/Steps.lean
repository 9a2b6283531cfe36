import Mathlib.Logic.Basic

/-!
# Programs that may stop half-way

A `Program` works on a state and may stop with an error; whatever it has done
by then stays done, there is no rollback.  `call` is one request to the outside:
it either fails and leaves the state, or answers with a new one.

`Ends` is the weakest precondition of a statement about the outcome and the
state left behind.  Its rules follow the shape of the program: `ends_pure`,
`ends_fail`, `ends_call` and `ends_bind` for the steps, `Ends.forM` for a loop
with an invariant.  `OnError` is the instance that only looks at failed runs, `rescue` the handler
of such a run.
-/

namespace Steps

variable {σ ε α β : Type}

/-- A program over the state `σ`. -/
def Program (σ ε α : Type) : Type := σ → Except ε α × σ

namespace Program

/-- The program that does nothing. -/
def result (a : α) : Program σ ε α := fun s => (.ok a, s)

/-- The program that stops. -/
def fail (e : ε) : Program σ ε α := fun s => (.error e, s)

/-- One program after the other, unless the first one stops. -/
def andThen (p : Program σ ε α) (f : α → Program σ ε β) : Program σ ε β := fun s =>
  match p s with
  | (.ok a, t) => f a t
  | (.error e, t) => (.error e, t)

instance : Monad (Program σ ε) where
  pure := result
  bind := andThen

/-- One request: an error leaves the state as it is. -/
def call (answer : σ → Except ε (α × σ)) : Program σ ε α := fun s =>
  match answer s with
  | .ok (a, t) => (.ok a, t)
  | .error e => (.error e, s)

/-- A program with a handler: what was done before the error stays done. -/
def rescue (p : Program σ ε α) (handler : ε → Program σ ε α) : Program σ ε α := fun s =>
  match p s with
  | (.ok a, t) => (.ok a, t)
  | (.error e, t) => handler e t

/-- A program guarded by a test. -/
def onlyIf (test : Bool) (p : Program σ ε Unit) : Program σ ε Unit :=
  if test then p else result ()

/-- A program run once for each item, in order. -/
def each (items : List α) (body : α → Program σ ε Unit) : Program σ ε Unit :=
  match items with
  | [] => result ()
  | item :: rest => (body item).andThen fun _ => each rest body

theorem andThen_assoc {γ : Type} (p : Program σ ε α) (f : α → Program σ ε β)
    (g : β → Program σ ε γ) :
    (p.andThen f).andThen g = p.andThen fun a => (f a).andThen g := by
  funext s
  unfold andThen
  rcases p s with ⟨outcome, t⟩
  cases outcome <;> rfl

theorem onlyIf_andThen (test : Bool) (p : Program σ ε Unit) (f : Unit → Program σ ε β) :
    (onlyIf test p).andThen f = if test then p.andThen f else f () := by
  cases test <;> rfl

theorem call_eq_ok {answer : σ → Except ε (α × σ)} {s t : σ} {a : α} :
    call answer s = (.ok a, t) ↔ answer s = .ok (a, t) := by
  unfold call
  cases answer s with
  | error e => simp
  | ok done => simp [Prod.ext_iff]

/-- A sequence completes when both parts do. -/
theorem andThen_eq_ok {p : Program σ ε α} {f : α → Program σ ε β} {s u : σ} {b : β} :
    p.andThen f s = (.ok b, u) ↔ ∃ a t, p s = (.ok a, t) ∧ f a t = (.ok b, u) := by
  unfold andThen
  rcases p s with ⟨outcome, t⟩
  cases outcome <;> simp [and_assoc]

/-- Outcome and final state satisfy `Q`. -/
def Ends (Q : Except ε α → σ → Prop) (p : Program σ ε α) (s : σ) : Prop := Q (p s).1 (p s).2

/-- A run that stops with an error leaves a state with `Q`. -/
def OnError (Q : σ → Prop) (p : Program σ ε α) (s : σ) : Prop :=
  ∀ e, (p s).1 = .error e → Q (p s).2

variable {Q R : Except ε α → σ → Prop} {p : Program σ ε α} {s : σ}

@[simp] theorem ends_result {a : α} : Ends Q (result a) s ↔ Q (.ok a) s := Iff.rfl

@[simp] theorem ends_pure {a : α} : Ends Q (pure a : Program σ ε α) s ↔ Q (.ok a) s := Iff.rfl

@[simp] theorem ends_fail {e : ε} : Ends Q (fail e : Program σ ε α) s ↔ Q (.error e) s := Iff.rfl

theorem ends_andThen {f : α → Program σ ε β} {Q : Except ε β → σ → Prop} :
    Ends Q (p.andThen f) s ↔
      Ends (fun outcome t =>
        match outcome with
        | .ok a => Ends Q (f a) t
        | .error e => Q (.error e) t) p s := by
  unfold Ends andThen
  rcases p s with ⟨outcome, t⟩
  cases outcome <;> rfl

theorem ends_bind {f : α → Program σ ε β} {Q : Except ε β → σ → Prop} :
    Ends Q (p >>= f) s ↔
      Ends (fun outcome t =>
        match outcome with
        | .ok a => Ends Q (f a) t
        | .error e => Q (.error e) t) p s :=
  ends_andThen

theorem ends_call {answer : σ → Except ε (α × σ)} :
    Ends Q (call answer) s ↔
      match answer s with
      | .ok (a, t) => Q (.ok a) t
      | .error e => Q (.error e) s := by
  unfold Ends call
  split <;> rfl

theorem Ends.mono (ends : Ends Q p s) (weaker : ∀ outcome t, Q outcome t → R outcome t) :
    Ends R p s :=
  weaker _ _ ends

/-- **Loop rule.** What each pass keeps, whether it completes or stops, the
whole loop keeps. -/
theorem Ends.each {items : List α} {body : α → Program σ ε Unit} {I : σ → Prop}
    (pass : ∀ item ∈ items, ∀ t, I t → Ends (fun _ u => I u) (body item) t) (start : I s) :
    Ends (fun _ t => I t) (Program.each items body) s := by
  induction items generalizing s with
  | nil => exact start
  | cons item rest ih =>
      rw [Program.each, ends_andThen]
      refine (pass item List.mem_cons_self s start).mono fun outcome t kept => ?_
      cases outcome with
      | error e => exact kept
      | ok a => exact ih (fun other member => pass other (List.mem_cons_of_mem item member)) kept

@[simp] theorem onError_result {Q : σ → Prop} {a : α} :
    OnError Q (result a : Program σ ε α) s ↔ True := by
  simp [OnError, result]

@[simp] theorem onError_fail {Q : σ → Prop} {e : ε} :
    OnError Q (fail e : Program σ ε α) s ↔ Q s := by
  simp [OnError, fail]

/-- A failed request leaves the state it found. -/
theorem onError_call_andThen {answer : σ → Except ε (α × σ)} {f : α → Program σ ε β}
    {Q : σ → Prop} :
    OnError Q ((call answer).andThen f) s ↔
      match answer s with
      | .ok (a, t) => OnError Q (f a) t
      | .error _ => Q s := by
  unfold OnError andThen call
  cases answer s with
  | error e => simp
  | ok done => rfl

/-- A call that fails hands over to its handler, in the state it found. -/
theorem onError_rescue_call {answer : σ → Except ε (α × σ)} {handler : ε → Program σ ε α}
    {Q : σ → Prop} :
    OnError Q ((call answer).rescue handler) s ↔ ∀ e, answer s = .error e → OnError Q (handler e) s := by
  unfold OnError rescue call
  cases answer s with
  | error e => simp
  | ok done => simp

end Program

end Steps
