import Proxora.Ecma.Text

/-!
# Regular expressions by backtracking

`Regex.run` is the ECMAScript matcher: from a position it lists every end
position in the order in which the engine tries them, so the head of the list
is the match that `exec` reports.  `Regex.Matches` is the same notion without
the order, and `exists_run_iff` says that the two agree; `test_iff` carries
that to the unanchored search `test`.

Most patterns of a program consume a piece of text that can be described on
its own.  `Consumes r L` says that `r` consumes exactly the texts of `L`,
`ConsumesRest r L` that it does so and only at the end of the input.  The
rules below compute `L` for the usual combinators, and `Consumes.test_iff`
and `ConsumesRest.test_iff` turn a search into a statement about a cut of the
text.
-/

namespace Ecma

/-- A position in a text: the characters read, the last one first, and the
characters ahead. -/
structure Cursor where
  before : Text
  after : Text
deriving DecidableEq

/-- A position together with the groups captured on the way, the latest first. -/
structure Found extends Cursor where
  groups : List (Nat × Text)
deriving DecidableEq

/-- What a group captured in a match. -/
def Found.group (found : Found) (index : Nat) : Option Text := found.groups.lookup index

/-- Patterns.  A character class is given by its test. -/
inductive Regex : Type
  | eps
  | cls (accepts : Char → Bool)
  | bos
  | eos
  | seq (first second : Regex)
  | alt (first second : Regex)
  | star (body : Regex)
  | group (index : Nat) (body : Regex)

namespace Regex

/-! ## The matcher -/

/-- Greedy iteration of one pass `step`; a pass that reads nothing ends it. -/
def loop (step : Found → List Found) : Nat → Found → List Found
  | 0, m => [m]
  | fuel + 1, m =>
      ((step m).filter fun e => e.after.length < m.after.length).flatMap (loop step fuel) ++ [m]

/-- The text read between two positions of one match. -/
def readBetween (start stop : Cursor) : Text :=
  (stop.before.take (stop.before.length - start.before.length)).reverse

/-- Every end position of a match that starts at `m`, in the order tried. -/
def run : Regex → Found → List Found
  | .eps, m => [m]
  | .cls accepts, m =>
      match m.after with
      | [] => []
      | c :: rest => if accepts c then [⟨⟨c :: m.before, rest⟩, m.groups⟩] else []
  | .bos, m => if m.before = [] then [m] else []
  | .eos, m => if m.after = [] then [m] else []
  | .seq first second, m => (run first m).flatMap (run second)
  | .alt first second, m => run first m ++ run second m
  | .star body, m => loop (run body) m.after.length m
  | .group index body, m =>
      (run body m).map fun e =>
        { e with groups := (index, readBetween m.toCursor e.toCursor) :: e.groups }

/-- The first match at or after a position. -/
def execFrom (r : Regex) : Text → Text → Option Found
  | before, [] => (run r ⟨⟨before, []⟩, []⟩).head?
  | before, c :: after =>
      match (run r ⟨⟨before, c :: after⟩, []⟩).head? with
      | some found => some found
      | none => execFrom r (c :: before) after

/-- `r.exec(s)`. -/
def exec (r : Regex) (s : Text) : Option Found := execFrom r [] s

/-- `r.test(s)`. -/
def test (r : Regex) (s : Text) : Bool := (exec r s).isSome

/-! ## Matching without the order -/

/-- `r` can match from the first position to the second. -/
def Matches : Regex → Cursor → Cursor → Prop
  | .eps, c, d => c = d
  | .cls accepts, c, d => ∃ ch rest, c.after = ch :: rest ∧ accepts ch = true ∧
      d = ⟨ch :: c.before, rest⟩
  | .bos, c, d => c = d ∧ c.before = []
  | .eos, c, d => c = d ∧ c.after = []
  | .seq first second, c, d => ∃ e, Matches first c e ∧ Matches second e d
  | .alt first second, c, d => Matches first c d ∨ Matches second c d
  | .star body, c, d => Relation.ReflTransGen
      (fun a b => Matches body a b ∧ b.after.length < a.after.length) c d
  | .group _ body, c, d => Matches body c d

/-- A loop with enough fuel reaches what the iterated pass reaches. -/
theorem exists_loop_iff {step : Found → List Found} {pass : Cursor → Cursor → Prop}
    (sound : ∀ m d, (∃ e ∈ step m, e.toCursor = d) ↔ pass m.toCursor d) :
    ∀ (fuel : Nat) (m : Found) (d : Cursor), m.after.length ≤ fuel →
      ((∃ e ∈ loop step fuel m, e.toCursor = d) ↔
        Relation.ReflTransGen (fun a b => pass a b ∧ b.after.length < a.after.length)
          m.toCursor d) := by
  intro fuel
  induction fuel with
  | zero =>
      intro m d bound
      simp only [loop, List.mem_singleton, exists_eq_left]
      constructor
      · rintro rfl
        exact .refl
      · intro reach
        cases reach.cases_head with
        | inl same => exact same
        | inr first =>
            obtain ⟨c, ⟨_, shorter⟩, _⟩ := first
            omega
  | succ fuel ih =>
      intro m d bound
      simp only [loop, List.mem_append, List.mem_flatMap, List.mem_filter, decide_eq_true_eq,
        List.mem_singleton]
      constructor
      · rintro ⟨e, inside | rfl, rfl⟩
        · obtain ⟨next, ⟨taken, shorter⟩, later⟩ := inside
          have tail := (ih next e.toCursor (by omega)).mp ⟨e, later, rfl⟩
          exact .head ⟨(sound m next.toCursor).mp ⟨next, taken, rfl⟩, shorter⟩ tail
        · exact .refl
      · intro reach
        cases reach.cases_head with
        | inl same => exact ⟨m, Or.inr rfl, same⟩
        | inr first =>
            obtain ⟨c, ⟨passed, shorter⟩, tail⟩ := first
            obtain ⟨next, taken, rfl⟩ := (sound m c).mpr passed
            obtain ⟨e, later, endEq⟩ := (ih next d (by omega)).mpr tail
            exact ⟨e, Or.inl ⟨next, ⟨taken, shorter⟩, later⟩, endEq⟩

/-- The matcher finds exactly the matches. -/
theorem exists_run_iff (r : Regex) :
    ∀ (m : Found) (d : Cursor), (∃ e ∈ run r m, e.toCursor = d) ↔ Matches r m.toCursor d := by
  induction r with
  | eps => intro m d; simp [run, Matches]
  | cls accepts =>
      intro m d
      rw [Matches, run]
      split
      · rename_i stop
        simp [stop]
      · rename_i ch rest ahead
        simp only [ahead, List.cons.injEq]
        constructor
        · rintro ⟨e, taken, rfl⟩
          split at taken
          · rename_i accepted
            rw [List.mem_singleton] at taken
            subst taken
            exact ⟨ch, rest, ⟨rfl, rfl⟩, accepted, rfl⟩
          · cases taken
        · rintro ⟨_, _, ⟨rfl, rfl⟩, accepted, rfl⟩
          rw [if_pos accepted]
          exact ⟨_, List.mem_singleton_self _, rfl⟩
  | bos => intro m d; by_cases start : m.before = [] <;> simp [run, Matches, start]
  | eos => intro m d; by_cases stop : m.after = [] <;> simp [run, Matches, stop]
  | seq first second ihFirst ihSecond =>
      intro m d
      simp only [run, Matches, List.mem_flatMap]
      constructor
      · rintro ⟨e, ⟨middle, taken, later⟩, endEq⟩
        exact ⟨middle.toCursor, (ihFirst m middle.toCursor).mp ⟨middle, taken, rfl⟩,
          (ihSecond middle d).mp ⟨e, later, endEq⟩⟩
      · rintro ⟨c, left, right⟩
        obtain ⟨middle, taken, rfl⟩ := (ihFirst m c).mpr left
        obtain ⟨e, later, endEq⟩ := (ihSecond middle d).mpr right
        exact ⟨e, ⟨middle, taken, later⟩, endEq⟩
  | alt first second ihFirst ihSecond =>
      intro m d
      rw [Matches, ← ihFirst, ← ihSecond]
      simp only [run, List.mem_append, or_and_right, exists_or]
  | star body ih => intro m d; exact exists_loop_iff ih m.after.length m d le_rfl
  | group index body ih =>
      intro m d
      rw [Matches, ← ih]
      simp [run]

theorem isSome_execFrom_iff (r : Regex) :
    ∀ (after before : Text), (execFrom r before after).isSome = true ↔
      ∃ front back d, after = front ++ back ∧ Matches r ⟨front.reverse ++ before, back⟩ d := by
  have here : ∀ before after : Text, (run r ⟨⟨before, after⟩, []⟩).head?.isSome = true ↔
      ∃ d, Matches r ⟨before, after⟩ d := by
    intro before after
    rw [List.isSome_head?]
    constructor
    · intro found
      obtain ⟨e, taken⟩ := List.exists_mem_of_ne_nil _ found
      exact ⟨e.toCursor, (exists_run_iff r _ _).mp ⟨e, taken, rfl⟩⟩
    · rintro ⟨d, matched⟩ none
      obtain ⟨e, taken, _⟩ := (exists_run_iff r ⟨⟨before, after⟩, []⟩ d).mpr matched
      rw [none] at taken
      cases taken
  intro after
  induction after with
  | nil =>
      intro before
      rw [execFrom, here]
      constructor
      · rintro ⟨d, matched⟩
        exact ⟨[], [], d, rfl, matched⟩
      · rintro ⟨front, back, d, cut, matched⟩
        obtain ⟨rfl, rfl⟩ := List.append_eq_nil_iff.mp cut.symm
        exact ⟨d, matched⟩
  | cons c after ih =>
      intro before
      have first := here before (c :: after)
      rw [execFrom]
      split
      · rename_i found headEq
        rw [headEq] at first
        obtain ⟨d, matched⟩ := first.mp rfl
        exact ⟨fun _ => ⟨[], c :: after, d, rfl, matched⟩, fun _ => rfl⟩
      · rename_i headEq
        rw [headEq] at first
        rw [ih]
        constructor
        · rintro ⟨front, back, d, cut, matched⟩
          refine ⟨c :: front, back, d, by rw [cut]; rfl, ?_⟩
          simpa [List.append_assoc] using matched
        · rintro ⟨front, back, d, cut, matched⟩
          cases front with
          | nil =>
              rw [List.nil_append] at cut
              subst cut
              exact absurd (first.mpr ⟨d, matched⟩) (by simp)
          | cons b front =>
              rw [List.cons_append, List.cons.injEq] at cut
              obtain ⟨rfl, rfl⟩ := cut
              exact ⟨front, back, d, rfl, by simpa [List.append_assoc] using matched⟩

/-- A search succeeds when the pattern matches at some position. -/
theorem test_iff (r : Regex) (s : Text) :
    test r s = true ↔ ∃ front back d, s = front ++ back ∧ Matches r ⟨front.reverse, back⟩ d := by
  rw [test, exec, isSome_execFrom_iff]
  simp only [List.append_nil]

/-! ## Patterns as text -/

/-- A literal. -/
def lit (w : Text) : Regex := w.foldr (fun c r => .seq (.cls (· == c)) r) .eps

/-- A literal under the flag `i`, for an ASCII pattern. -/
def litI (w : Text) : Regex :=
  w.foldr (fun c r => .seq (.cls fun d => d.toLower == c.toLower) r) .eps

/-- `r+`. -/
def plus (r : Regex) : Regex := .seq r (.star r)

/-- `r?`. -/
def opt (r : Regex) : Regex := .alt r .eps

/-- `[^…]`. -/
def noneOf (cs : Text) : Regex := .cls fun c => !cs.contains c

/-- `\d`. -/
def digit : Regex := .cls Char.isDigit

/-- Patterns one after the other. -/
def cat : List Regex → Regex
  | [] => .eps
  | [r] => r
  | r :: rs => .seq r (cat rs)

/-- `(a|b|…)` without capture. -/
def alts : List Regex → Regex
  | [] => .cls fun _ => false
  | [r] => r
  | r :: rs => .alt r (alts rs)

/-- Two positions with the text `u` between them. -/
def Between (u : Text) (c d : Cursor) : Prop :=
  c.after = u ++ d.after ∧ d.before = u.reverse ++ c.before

theorem between_nil {c d : Cursor} : Between [] c d ↔ c = d := by
  cases c
  cases d
  simp [Between, and_comm, eq_comm]

theorem between_cons {ch : Char} {u : Text} {c d : Cursor} :
    Between (ch :: u) c d ↔
      ∃ rest, c.after = ch :: rest ∧ Between u ⟨ch :: c.before, rest⟩ d := by
  simp [Between, List.append_assoc, List.cons_append]

theorem between_append {u v : Text} {c d : Cursor} :
    Between (u ++ v) c d ↔ ∃ e, Between u c e ∧ Between v e d := by
  constructor
  · rintro ⟨ahead, behind⟩
    refine ⟨⟨u.reverse ++ c.before, v ++ d.after⟩, ⟨?_, rfl⟩, rfl, ?_⟩
    · rw [ahead, List.append_assoc]
    · rw [behind, List.reverse_append, List.append_assoc]
  · rintro ⟨e, ⟨ahead, behind⟩, ahead', behind'⟩
    refine ⟨?_, ?_⟩
    · rw [ahead, ahead', List.append_assoc]
    · rw [behind', behind, List.reverse_append, List.append_assoc]

/-- `r` consumes exactly the texts of `L`, wherever it stands. -/
def Consumes (r : Regex) (L : Text → Prop) : Prop :=
  ∀ c d, Matches r c d ↔ ∃ u, L u ∧ Between u c d

/-- `r` consumes exactly the texts of `L`, and only up to the end of the input. -/
def ConsumesRest (r : Regex) (L : Text → Prop) : Prop :=
  ∀ c d, Matches r c d ↔ L c.after ∧ Between c.after c d ∧ d.after = []

theorem Consumes.congr {r : Regex} {L M : Text → Prop} (consumes : Consumes r L)
    (same : ∀ u, L u ↔ M u) : Consumes r M := by
  intro c d
  simp only [consumes c d, same]

theorem Consumes.eps : Consumes .eps (· = []) := by
  intro c d
  simp only [Matches, exists_eq_left, between_nil]

theorem Consumes.cls (accepts : Char → Bool) :
    Consumes (.cls accepts) (fun u => ∃ ch, accepts ch = true ∧ u = [ch]) := by
  intro c d
  constructor
  · rintro ⟨ch, rest, ahead, accepted, rfl⟩
    exact ⟨[ch], ⟨ch, accepted, rfl⟩, between_cons.mpr ⟨rest, ahead, between_nil.mpr rfl⟩⟩
  · rintro ⟨_, ⟨ch, accepted, rfl⟩, between⟩
    obtain ⟨rest, ahead, tail⟩ := between_cons.mp between
    exact ⟨ch, rest, ahead, accepted, (between_nil.mp tail).symm⟩

theorem Consumes.seq {r s : Regex} {L M : Text → Prop} (first : Consumes r L)
    (second : Consumes s M) :
    Consumes (.seq r s) (fun u => ∃ v w, u = v ++ w ∧ L v ∧ M w) := by
  intro c d
  simp only [Matches, first c, second _ d]
  constructor
  · rintro ⟨e, ⟨v, inL, left⟩, w, inM, right⟩
    exact ⟨v ++ w, ⟨v, w, rfl, inL, inM⟩, between_append.mpr ⟨e, left, right⟩⟩
  · rintro ⟨_, ⟨v, w, rfl, inL, inM⟩, between⟩
    obtain ⟨e, left, right⟩ := between_append.mp between
    exact ⟨e, ⟨v, inL, left⟩, w, inM, right⟩

theorem Consumes.alt {r s : Regex} {L M : Text → Prop} (first : Consumes r L)
    (second : Consumes s M) : Consumes (.alt r s) (fun u => L u ∨ M u) := by
  intro c d
  simp only [Matches, first c d, second c d, or_and_right, exists_or]

/-- A repeated character class consumes the texts made of its characters. -/
theorem Consumes.star_cls (accepts : Char → Bool) :
    Consumes (.star (.cls accepts)) (fun u => ∀ ch ∈ u, accepts ch = true) := by
  intro c d
  constructor
  · intro reach
    induction reach using Relation.ReflTransGen.head_induction_on with
    | refl => exact ⟨[], by simp, between_nil.mpr rfl⟩
    | head pass _ ih =>
        obtain ⟨⟨ch, rest, ahead, accepted, rfl⟩, _⟩ := pass
        obtain ⟨u, all, between⟩ := ih
        exact ⟨ch :: u, by simpa [accepted] using all, between_cons.mpr ⟨rest, ahead, between⟩⟩
  · rintro ⟨u, all, between⟩
    induction u generalizing c with
    | nil =>
        rw [between_nil.mp between]
        exact .refl
    | cons ch u ih =>
        obtain ⟨rest, ahead, tail⟩ := between_cons.mp between
        refine .head ⟨⟨ch, rest, ahead, all ch List.mem_cons_self, rfl⟩, ?_⟩
          (ih ⟨ch :: c.before, rest⟩ (fun b member => all b (List.mem_cons_of_mem ch member)) tail)
        rw [ahead]
        simp

theorem Consumes.plus_cls (accepts : Char → Bool) :
    Consumes (plus (.cls accepts)) (fun u => u ≠ [] ∧ ∀ ch ∈ u, accepts ch = true) := by
  refine ((Consumes.cls accepts).seq (Consumes.star_cls accepts)).congr fun u => ?_
  constructor
  · rintro ⟨_, w, rfl, ⟨ch, accepted, rfl⟩, all⟩
    exact ⟨by simp, by simpa [accepted] using all⟩
  · rintro ⟨some, all⟩
    obtain ⟨ch, w, rfl⟩ := List.exists_cons_of_ne_nil some
    exact ⟨[ch], w, rfl, ⟨ch, all ch List.mem_cons_self, rfl⟩,
      fun b member => all b (List.mem_cons_of_mem ch member)⟩

/-- A literal compared character by character. -/
theorem Consumes.foldr_cls (same : Char → Char → Bool) (w : Text) :
    Consumes (w.foldr (fun c r => .seq (.cls (same c)) r) .eps)
      (List.Forall₂ (fun c d => same c d = true) w) := by
  induction w with
  | nil => exact Consumes.eps.congr fun u => by simp
  | cons c w ih =>
      refine ((Consumes.cls (same c)).seq ih).congr fun u => ?_
      rw [List.forall₂_cons_left_iff]
      constructor
      · rintro ⟨_, v, rfl, ⟨ch, equal, rfl⟩, tail⟩
        exact ⟨ch, v, equal, tail, rfl⟩
      · rintro ⟨ch, v, equal, tail, rfl⟩
        exact ⟨[ch], v, rfl, ⟨ch, equal, rfl⟩, tail⟩

theorem Consumes.lit (w : Text) : Consumes (lit w) (· = w) := by
  refine (Consumes.foldr_cls (fun c d => d == c) w).congr fun u => ?_
  simp only [beq_iff_eq]
  rw [← List.forall₂_eq_eq_eq]
  exact ⟨fun h => h.flip, fun h => h.flip⟩

theorem Consumes.litI (w : Text) :
    Consumes (litI w) (fun u => u.map Char.toLower = w.map Char.toLower) := by
  refine (Consumes.foldr_cls (fun c d => d.toLower == c.toLower) w).congr fun u => ?_
  simp only [beq_iff_eq]
  rw [eq_comm, ← List.forall₂_eq_eq_eq, List.forall₂_map_left_iff, List.forall₂_map_right_iff]
  simp only [eq_comm]

theorem ConsumesRest.eos : ConsumesRest .eos (· = []) := by
  intro c d
  constructor
  · rintro ⟨rfl, stop⟩
    exact ⟨stop, by rw [stop]; exact between_nil.mpr rfl, stop⟩
  · rintro ⟨stop, between, _⟩
    rw [stop] at between
    exact ⟨between_nil.mp between, stop⟩

/-- A search for a pattern that consumes a piece of text finds it inside the text. -/
theorem Consumes.test_iff {r : Regex} {L : Text → Prop} (consumes : Consumes r L) (s : Text) :
    test r s = true ↔ ∃ a u b, s = a ++ u ++ b ∧ L u := by
  simp only [Regex.test_iff, consumes _ _]
  constructor
  · rintro ⟨front, back, d, rfl, u, inL, ahead, _⟩
    exact ⟨front, u, d.after, by rw [List.append_assoc, ← ahead], inL⟩
  · rintro ⟨a, u, b, rfl, inL⟩
    exact ⟨a, u ++ b, ⟨u.reverse ++ a.reverse, b⟩, List.append_assoc a u b, u, inL, rfl, rfl⟩

/-- A search for a pattern that consumes the rest finds it at the end of the text. -/
theorem ConsumesRest.test_iff {r : Regex} {L : Text → Prop} (consumes : ConsumesRest r L)
    (s : Text) : test r s = true ↔ ∃ a u, s = a ++ u ∧ L u := by
  simp only [Regex.test_iff, consumes _ _]
  constructor
  · rintro ⟨front, back, d, cut, inL, _⟩
    exact ⟨front, back, cut, inL⟩
  · rintro ⟨a, u, cut, inL⟩
    exact ⟨a, u, ⟨u.reverse ++ a.reverse, []⟩, cut, inL, ⟨by simp, rfl⟩, rfl⟩

end Regex

end Ecma
