import Proxora.Runs

/-!
# Dialogues

A `Dialogue` is a program that puts questions to the outside, one after the
other; each answer decides how it goes on, until it ends with a result or an
error.  A `Talk` is a dialogue on its way, with the exchanges so far, the latest
one first, and `Talk.step` one answer to the open question.

`Abides` is the weakest precondition of a rule for questions: whatever fair
answers come, the dialogue only puts questions that it may put after what it has
heard, and it ends as the last argument says.  Its rules follow the shape of the
dialogue: `abides_andThen` and `abides_rescue` for the steps, `Abides.each` for a
loop with an invariant.  `Abides.open_of_reaches` turns it into a statement about
every run.
-/

namespace Dialogues

open Runs

variable {Question : Type} {Answer : Question → Type} {ε α β : Type}

/-- A program that asks. -/
inductive Dialogue (Question : Type) (Answer : Question → Type) (ε α : Type) : Type
  | result (a : α)
  | fail (e : ε)
  | ask (q : Question) (next : Answer q → Dialogue Question Answer ε α)

/-- A question and what came back. -/
structure Exchange (Answer : Question → Type) : Type where
  question : Question
  answer : Answer question

/-- The exchanges so far, the latest one first. -/
abbrev History (Answer : Question → Type) : Type := List (Exchange Answer)

namespace Dialogue

/-- One question, its answer being the result. -/
def question (q : Question) : Dialogue Question Answer ε (Answer q) := .ask q .result

/-- One dialogue after the other, unless the first one fails. -/
def andThen (d : Dialogue Question Answer ε α) (f : α → Dialogue Question Answer ε β) :
    Dialogue Question Answer ε β :=
  match d with
  | .result a => f a
  | .fail e => .fail e
  | .ask q next => .ask q fun answer => (next answer).andThen f

/-- A dialogue with a handler for its failure. -/
def rescue (d : Dialogue Question Answer ε α) (handler : ε → Dialogue Question Answer ε α) :
    Dialogue Question Answer ε α :=
  match d with
  | .result a => .result a
  | .fail e => handler e
  | .ask q next => .ask q fun answer => (next answer).rescue handler

instance : Monad (Dialogue Question Answer ε) where
  pure := .result
  bind := andThen

/-- How the dialogue ends when every question gets the answer that `reply` has for it. -/
def outcome (reply : ∀ q, Answer q) : Dialogue Question Answer ε α → Except ε α
  | .result a => .ok a
  | .fail e => .error e
  | .ask q next => (next (reply q)).outcome reply

/-- How the dialogue ends with a party that keeps a state, and the state that it leaves. -/
def against {σ : Type} (reply : σ → ∀ q, Answer q × σ) :
    Dialogue Question Answer ε α → σ → Except ε α × σ
  | .result a, s => (.ok a, s)
  | .fail e, s => (.error e, s)
  | .ask q next, s => (next (reply s q).1).against reply (reply s q).2

/-- A dialogue held once for each item, in order. -/
def each (items : List α) (body : α → Dialogue Question Answer ε Unit) :
    Dialogue Question Answer ε Unit :=
  match items with
  | [] => .result ()
  | item :: rest => (body item).andThen fun _ => each rest body

theorem outcome_bind {reply : ∀ q, Answer q} {d : Dialogue Question Answer ε α}
    {f : α → Dialogue Question Answer ε β} :
    (d >>= f).outcome reply =
      match d.outcome reply with
      | .ok a => (f a).outcome reply
      | .error e => .error e := by
  induction d with
  | result a => rfl
  | fail e => rfl
  | ask q next ih => exact ih (reply q)

section Against

variable {σ : Type} {reply : σ → ∀ q, Answer q × σ} {s : σ}

theorem against_rescue {d : Dialogue Question Answer ε α}
    {handler : ε → Dialogue Question Answer ε α} :
    (d.rescue handler).against reply s =
      match d.against reply s with
      | (.ok a, s') => (.ok a, s')
      | (.error e, s') => (handler e).against reply s' := by
  induction d generalizing s with
  | result a => rfl
  | fail e => rfl
  | ask q next ih => exact ih (reply s q).1

end Against

end Dialogue

/-! ## Runs -/

/-- A dialogue on its way. -/
structure Talk (Question : Type) (Answer : Question → Type) (ε α : Type) : Type where
  rest : Dialogue Question Answer ε α
  past : History Answer

namespace Talk

variable {Fair : History Answer → Exchange Answer → Prop} {May : History Answer → Question → Prop}

/-- The open question gets the answer that `reply` has for it. -/
def step (t : Talk Question Answer ε α) (reply : ∀ q, Answer q) :
    Option (Talk Question Answer ε α) :=
  match t.rest with
  | .ask q next => some ⟨next (reply q), ⟨q, reply q⟩ :: t.past⟩
  | _ => none

/-- The answer to the open question is a fair one. -/
def Fairly (Fair : History Answer → Exchange Answer → Prop) (t : Talk Question Answer ε α)
    (reply : ∀ q, Answer q) : Prop :=
  match t.rest with
  | .ask q _ => Fair t.past ⟨q, reply q⟩
  | _ => True

instance [∀ past e, Decidable (Fair past e)] :
    ∀ (t : Talk Question Answer ε α) (reply : ∀ q, Answer q), Decidable (Fairly Fair t reply)
  | ⟨.ask q _, past⟩, reply => inferInstanceAs (Decidable (Fair past ⟨q, reply q⟩))
  | ⟨.result _, _⟩, _ => .isTrue trivial
  | ⟨.fail _, _⟩, _ => .isTrue trivial

/-- The open question may be put. -/
def Open (May : History Answer → Question → Prop) (t : Talk Question Answer ε α) : Prop :=
  match t.rest with
  | .ask q _ => May t.past q
  | _ => True

end Talk

/-! ## What a dialogue abides by -/

namespace Dialogue

/-- Whatever fair answers come, every question may be put and the end is as `Post` says. -/
def Abides (Fair : History Answer → Exchange Answer → Prop) (May : History Answer → Question → Prop)
    (Post : History Answer → Except ε α → Prop) :
    Dialogue Question Answer ε α → History Answer → Prop
  | .result a, past => Post past (.ok a)
  | .fail e, past => Post past (.error e)
  | .ask q next, past =>
      May past q ∧ ∀ answer, Fair past ⟨q, answer⟩ →
        (next answer).Abides Fair May Post (⟨q, answer⟩ :: past)

variable {Fair : History Answer → Exchange Answer → Prop} {May : History Answer → Question → Prop}
  {Post Weaker : History Answer → Except ε α → Prop} {d : Dialogue Question Answer ε α}
  {past : History Answer}

@[simp] theorem abides_result {a : α} :
    (result a : Dialogue Question Answer ε α).Abides Fair May Post past ↔ Post past (.ok a) :=
  Iff.rfl

@[simp] theorem abides_pure {a : α} :
    (pure a : Dialogue Question Answer ε α).Abides Fair May Post past ↔ Post past (.ok a) :=
  Iff.rfl

@[simp] theorem abides_fail {e : ε} :
    (fail e : Dialogue Question Answer ε α).Abides Fair May Post past ↔ Post past (.error e) :=
  Iff.rfl

theorem Abides.mono (abides : d.Abides Fair May Post past)
    (weaker : ∀ past outcome, Post past outcome → Weaker past outcome) :
    d.Abides Fair May Weaker past := by
  induction d generalizing past with
  | result a => exact weaker _ _ abides
  | fail e => exact weaker _ _ abides
  | ask q next ih => exact ⟨abides.1, fun answer fair => ih answer (abides.2 answer fair)⟩

/-- The exchanges only get more. -/
theorem Abides.grows (abides : d.Abides Fair May Post past) :
    d.Abides Fair May (fun now outcome => Post now outcome ∧ past <:+ now) past := by
  induction d generalizing past with
  | result a => exact ⟨abides, List.suffix_rfl⟩
  | fail e => exact ⟨abides, List.suffix_rfl⟩
  | ask q next ih =>
      refine ⟨abides.1, fun answer fair => ?_⟩
      refine (ih answer (abides.2 answer fair)).mono fun now outcome ends => ⟨ends.1, ?_⟩
      exact (List.suffix_cons _ past).trans ends.2

theorem abides_andThen {f : α → Dialogue Question Answer ε β}
    {Post : History Answer → Except ε β → Prop} :
    (d.andThen f).Abides Fair May Post past ↔
      d.Abides Fair May (fun past outcome =>
        match outcome with
        | .ok a => (f a).Abides Fair May Post past
        | .error e => Post past (.error e)) past := by
  induction d generalizing past with
  | result a => exact Iff.rfl
  | fail e => exact Iff.rfl
  | ask q next ih =>
      refine and_congr_right fun _ => forall_congr' fun answer => ?_
      exact imp_congr_right fun _ => ih answer

theorem abides_bind {f : α → Dialogue Question Answer ε β}
    {Post : History Answer → Except ε β → Prop} :
    (d >>= f).Abides Fair May Post past ↔
      d.Abides Fair May (fun past outcome =>
        match outcome with
        | .ok a => (f a).Abides Fair May Post past
        | .error e => Post past (.error e)) past :=
  abides_andThen

/-- **Sequence rule**, where a failure of the first part is no matter. -/
theorem Abides.bind {f : α → Dialogue Question Answer ε β}
    {Post : History Answer → Except ε β → Prop}
    (first : d.Abides Fair May
      (fun now outcome => ∀ a, outcome = .ok a → (f a).Abides Fair May Post now) past)
    (failed : ∀ now e, Post now (.error e)) : (d >>= f).Abides Fair May Post past := by
  rw [abides_bind]
  refine first.mono fun now outcome goesOn => ?_
  cases outcome with
  | error e => exact failed now e
  | ok a => exact goesOn a rfl

theorem abides_rescue {handler : ε → Dialogue Question Answer ε α} :
    (d.rescue handler).Abides Fair May Post past ↔
      d.Abides Fair May (fun past outcome =>
        match outcome with
        | .ok a => Post past (.ok a)
        | .error e => (handler e).Abides Fair May Post past) past := by
  induction d generalizing past with
  | result a => exact Iff.rfl
  | fail e => exact Iff.rfl
  | ask q next ih =>
      refine and_congr_right fun _ => forall_congr' fun answer => ?_
      exact imp_congr_right fun _ => ih answer

/-- **Loop rule.** What each pass keeps, whether it completes or fails, the whole
loop keeps. -/
theorem Abides.each {items : List α} {body : α → Dialogue Question Answer ε Unit}
    {Inv : History Answer → Prop}
    (pass : ∀ item ∈ items, ∀ past, Inv past →
      (body item).Abides Fair May (fun past _ => Inv past) past) (start : Inv past) :
    (Dialogue.each items body).Abides Fair May (fun past _ => Inv past) past := by
  induction items generalizing past with
  | nil => exact start
  | cons item rest ih =>
      rw [Dialogue.each, abides_andThen]
      refine (pass item List.mem_cons_self past start).mono fun past outcome kept => ?_
      cases outcome with
      | error e => exact kept
      | ok a => exact ih (fun other member => pass other (List.mem_cons_of_mem item member)) kept

end Dialogue

/-! ## Every run -/

namespace Talk

/-- What is left of the dialogue abides. -/
def Abides (Fair : History Answer → Exchange Answer → Prop) (May : History Answer → Question → Prop)
    (Post : History Answer → Except ε α → Prop) (t : Talk Question Answer ε α) : Prop :=
  t.rest.Abides Fair May Post t.past

variable {Fair : History Answer → Exchange Answer → Prop} {May : History Answer → Question → Prop}
  {Post : History Answer → Except ε α → Prop} {t u : Talk Question Answer ε α}

/-- **Step lemma.** A fair answer leaves a dialogue that abides. -/
theorem Abides.step {reply : ∀ q, Answer q} (abides : t.Abides Fair May Post)
    (fair : Fairly Fair t reply) (happens : t.step reply = some u) : u.Abides Fair May Post := by
  obtain ⟨rest, past⟩ := t
  cases rest with
  | result a => cases happens
  | fail e => cases happens
  | ask q next =>
      cases happens
      exact abides.2 (reply q) fair

theorem Abides.mayAsk (abides : t.Abides Fair May Post) : t.Open May := by
  obtain ⟨rest, past⟩ := t
  cases rest with
  | result a => trivial
  | fail e => trivial
  | ask q next => exact abides.1

end Talk

/-- **Run rule.** A dialogue that abides puts no question that it may not put, at any
time of any run with fair answers. -/
theorem Dialogue.Abides.open_of_reaches {Fair : History Answer → Exchange Answer → Prop}
    {May : History Answer → Question → Prop} {Post : History Answer → Except ε α → Prop}
    {d : Dialogue Question Answer ε α} {past : History Answer} {t : Talk Question Answer ε α}
    (abides : d.Abides Fair May Post past)
    (run : Reaches Talk.step (Talk.Fairly Fair) ⟨d, past⟩ t) : t.Open May := by
  have kept : t.Abides Fair May Post :=
    run.keeps abides fun _ _ _ before fair happens => before.step fair happens
  exact kept.mayAsk

/-! ## What is never asked -/

namespace Dialogue

/-- Whatever is answered, every question is one of those that may be put. -/
def OnlyAsks (May : Question → Prop) (d : Dialogue Question Answer ε α) : Prop :=
  ∀ past, d.Abides (fun _ _ => True) (fun _ => May) (fun _ _ => True) past

variable {May : Question → Prop} {d : Dialogue Question Answer ε α}

theorem onlyAsks_result {a : α} : (result a : Dialogue Question Answer ε α).OnlyAsks May :=
  fun _ => trivial

theorem onlyAsks_fail {e : ε} : (fail e : Dialogue Question Answer ε α).OnlyAsks May :=
  fun _ => trivial

theorem OnlyAsks.ask {q : Question} {next : Answer q → Dialogue Question Answer ε α}
    (may : May q) (rest : ∀ answer, (next answer).OnlyAsks May) : (ask q next).OnlyAsks May :=
  fun _ => ⟨may, fun answer _ => rest answer _⟩

theorem OnlyAsks.bind {f : α → Dialogue Question Answer ε β} (first : d.OnlyAsks May)
    (rest : ∀ a, (f a).OnlyAsks May) : (d >>= f).OnlyAsks May :=
  fun past => Abides.bind ((first past).mono fun _ _ _ a _ => rest a _) fun _ _ => trivial

theorem OnlyAsks.rescue {handler : ε → Dialogue Question Answer ε α} (first : d.OnlyAsks May)
    (rest : ∀ e, (handler e).OnlyAsks May) : (d.rescue handler).OnlyAsks May := by
  refine fun past => abides_rescue.mpr ((first past).mono fun now outcome _ => ?_)
  cases outcome with
  | ok a => trivial
  | error e => exact rest e now

theorem OnlyAsks.each {items : List α} {body : α → Dialogue Question Answer ε Unit}
    (pass : ∀ item ∈ items, (body item).OnlyAsks May) :
    (Dialogue.each items body).OnlyAsks May :=
  fun _ => Abides.each (fun item member now _ => pass item member now) trivial

/-- In no run is another question open. -/
theorem OnlyAsks.open_of_reaches {past : History Answer} {t : Talk Question Answer ε α}
    (asks : d.OnlyAsks May)
    (run : Reaches Talk.step (Talk.Fairly fun _ _ => True) ⟨d, past⟩ t) : t.Open fun _ => May :=
  (asks past).open_of_reaches run

end Dialogue

end Dialogues
