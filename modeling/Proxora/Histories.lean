import Mathlib.Data.List.Induction

/-!
# Histories

A history is the list of all events so far, and a predicate on an event sees the events before it.
`Happened P past later` says that one of the events after `past` meets `P`, and
`Since begins ends` that something has begun and nothing has ended it since.

`since_snoc` is the step for the newest event; `iff_since` is the rule for a state that is kept up
to date event by event.

`Followed begins ends` looks the other way: what an event begins one of the events after it ends.
`followed_iff_last` says it by the last event of every key.
-/

namespace Histories

variable {Event : Type} {P begins ends : List Event → Event → Prop}
  {history past later : List Event} {e x : Event}

/-- An event of `later` meets `P`; it sees `past` and the events before it. -/
def Happened (P : List Event → Event → Prop) (past later : List Event) : Prop :=
  ∃ middle e rest, later = middle ++ e :: rest ∧ P (past ++ middle) e

/-- An event has begun it, and none after that has ended it. -/
def Since (begins ends : List Event → Event → Prop) (history : List Event) : Prop :=
  ∃ past e later, history = past ++ e :: later ∧ begins past e ∧
    ¬ Happened ends (past ++ [e]) later

/-- A place in a history is the newest event or a place before it. -/
theorem snoc_eq_append_cons :
    history ++ [e] = past ++ x :: later ↔
      (past = history ∧ x = e ∧ later = []) ∨
        ∃ rest, later = rest ++ [e] ∧ history = past ++ x :: rest := by
  induction later using List.reverseRecOn with
  | nil =>
      rw [List.append_singleton_inj]
      constructor
      · intro same
        exact .inl ⟨same.1.symm, same.2.symm, rfl⟩
      · intro place
        rcases place with ⟨before, newest, -⟩ | ⟨others, same, -⟩
        · exact ⟨before.symm, newest.symm⟩
        · exact absurd same.symm (List.append_ne_nil_of_right_ne_nil others (List.cons_ne_nil e []))
  | append_singleton rest y _ =>
      rw [← List.cons_append, ← List.append_assoc, List.append_singleton_inj]
      constructor
      · intro same
        obtain ⟨before, rfl⟩ := same
        exact .inr ⟨rest, rfl, before⟩
      · intro place
        rcases place with ⟨-, -, newest⟩ | ⟨others, same, before⟩
        · exact absurd newest (List.append_ne_nil_of_right_ne_nil rest (List.cons_ne_nil y []))
        · obtain ⟨rfl, rfl⟩ := List.append_singleton_inj.mp same
          exact ⟨before, rfl⟩

theorem not_happened_nil : ¬ Happened P past [] := by
  intro happened
  obtain ⟨middle, e, rest, empty, -⟩ := happened
  exact List.append_ne_nil_of_right_ne_nil middle (List.cons_ne_nil e rest) empty.symm

theorem happened_snoc :
    Happened P past (later ++ [e]) ↔ Happened P past later ∨ P (past ++ later) e := by
  constructor
  · intro happened
    obtain ⟨middle, x, rest, place, meets⟩ := happened
    rcases snoc_eq_append_cons.mp place with ⟨rfl, rfl, -⟩ | ⟨others, -, before⟩
    · exact .inr meets
    · exact .inl ⟨middle, x, others, before, meets⟩
  · intro happened
    rcases happened with ⟨middle, x, rest, place, meets⟩ | meets
    · exact ⟨middle, x, rest ++ [e], snoc_eq_append_cons.mpr (.inr ⟨rest, rfl, place⟩), meets⟩
    · exact ⟨later, e, [], rfl, meets⟩

theorem not_happened_singleton (calm : ¬ P past e) : ¬ Happened P past [e] := by
  rw [← List.nil_append [e], happened_snoc, List.append_nil]
  exact not_or.mpr ⟨not_happened_nil, calm⟩

theorem Happened.of_imp {Q : List Event → Event → Prop} (happened : Happened P past later)
    (imp : ∀ middle e rest, later = middle ++ e :: rest → P (past ++ middle) e →
      Q (past ++ middle) e) : Happened Q past later := by
  obtain ⟨middle, e, rest, place, meets⟩ := happened
  exact ⟨middle, e, rest, place, imp middle e rest place meets⟩

theorem not_since_nil : ¬ Since begins ends [] := by
  intro since
  obtain ⟨past, e, later, empty, -⟩ := since
  exact List.append_ne_nil_of_right_ne_nil past (List.cons_ne_nil e later) empty.symm

/-- The newest event begins it, or it has begun before and the newest event does not end it. -/
theorem since_snoc :
    Since begins ends (history ++ [e]) ↔
      begins history e ∨ Since begins ends history ∧ ¬ ends history e := by
  constructor
  · intro since
    obtain ⟨past, x, later, place, begun, lasts⟩ := since
    rcases snoc_eq_append_cons.mp place with ⟨rfl, rfl, -⟩ | ⟨rest, rfl, before⟩
    · exact .inl begun
    · rw [happened_snoc, List.append_assoc, List.singleton_append, ← before] at lasts
      exact .inr ⟨⟨past, x, rest, before, begun, fun ended => lasts (.inl ended)⟩,
        fun ended => lasts (.inr ended)⟩
  · intro since
    rcases since with begun | ⟨⟨past, x, later, place, begun, lasts⟩, kept⟩
    · exact ⟨history, e, [], rfl, begun, not_happened_nil⟩
    · refine ⟨past, x, later ++ [e], snoc_eq_append_cons.mpr (.inr ⟨later, rfl, place⟩), begun, ?_⟩
      rw [happened_snoc, List.append_assoc, List.singleton_append, ← place]
      intro ended
      rcases ended with before | now
      · exact lasts before
      · exact kept now

/-- What holds after an event has begun with it or later, or the event does not end it. -/
theorem Since.from_event (since : Since begins ends (past ++ e :: later)) :
    (∃ middle x rest, later = middle ++ x :: rest ∧ begins (past ++ e :: middle) x) ∨
      begins past e ∨ ¬ ends past e := by
  induction later using List.reverseRecOn with
  | nil =>
      rcases since_snoc.mp since with begun | ⟨-, kept⟩
      · exact .inr (.inl begun)
      · exact .inr (.inr kept)
  | append_singleton later y ih =>
      rw [← List.cons_append, ← List.append_assoc] at since
      rcases since_snoc.mp since with begun | ⟨before, -⟩
      · exact .inl ⟨later, y, [], rfl, begun⟩
      · rcases ih before with ⟨middle, x, rest, place, begun⟩ | start
        · exact .inl ⟨middle, x, rest ++ [y], by rw [place, List.append_assoc]; rfl, begun⟩
        · exact .inr start

/-- What has not been ended later still holds. -/
theorem Since.append (since : Since begins ends past) (lasts : ¬ Happened ends past later) :
    Since begins ends (past ++ later) := by
  induction later using List.reverseRecOn with
  | nil =>
      rw [List.append_nil]
      exact since
  | append_singleton later e ih =>
      rw [happened_snoc, not_or] at lasts
      rw [← List.append_assoc]
      exact since_snoc.mpr (.inr ⟨ih lasts.1, lasts.2⟩)

/-- **Table rule.** What every event begins, ends or keeps holds if it has begun and nothing has
ended it since. -/
theorem iff_since (Held : List Event → Prop) (start : ¬ Held [])
    (step : ∀ history e, Held (history ++ [e]) ↔
      begins history e ∨ Held history ∧ ¬ ends history e)
    (history : List Event) : Held history ↔ Since begins ends history := by
  induction history using List.reverseRecOn with
  | nil => exact iff_of_false start not_since_nil
  | append_singleton history e ih => rw [step, since_snoc, ih]

/-! ## What follows an event -/

/-- Every event meets `P` with the events after it. -/
def Each (P : Event → List Event → Prop) : List Event → Prop
  | [] => True
  | e :: later => P e later ∧ Each P later

/-- Every event that begins something is followed by one that ends it. -/
def Followed (begins : Event → Prop) (ends : Event → Event → Prop) : List Event → Prop :=
  Each fun e later => begins e → ∃ x ∈ later, ends e x

variable {A B C : Event → List Event → Prop}

instance Each.decidable [∀ e later, Decidable (A e later)] : ∀ events, Decidable (Each A events)
  | [] => inferInstanceAs (Decidable True)
  | e :: later =>
      have : Decidable (Each A later) := Each.decidable later
      inferInstanceAs (Decidable (A e later ∧ Each A later))

theorem Each.imp {events : List Event} (first : Each A events) (second : Each B events)
    (imp : ∀ e later, A e later → B e later → C e later) : Each C events := by
  induction events with
  | nil => trivial
  | cons e later ih => exact ⟨imp e later first.1 second.1, ih first.2 second.2⟩

theorem followed_congr {begins begins' : Event → Prop} {ends ends' : Event → Event → Prop}
    {events : List Event} (same : ∀ e, begins e ↔ begins' e)
    (agree : ∀ e x, begins e → (ends e x ↔ ends' e x)) :
    Followed begins ends events ↔ Followed begins' ends' events := by
  induction events with
  | nil => exact Iff.rfl
  | cons e later ih =>
      refine and_congr (imp_congr_ctx (same e) fun begun => exists_congr fun x => ?_) ih
      exact and_congr_right fun _ => agree e x ((same e).mpr begun)

/-- What is said of the events that are read is said of those that they are read from. -/
theorem followed_filterMap {Source : Type} {read : Source → Option Event} {begins : Event → Prop}
    {ends : Event → Event → Prop} {sources : List Source} :
    Followed begins ends (sources.filterMap read) ↔
      Followed (fun s => ∃ e, read s = some e ∧ begins e)
        (fun s t => ∀ e, read s = some e → ∃ x, read t = some x ∧ ends e x) sources := by
  induction sources with
  | nil => exact Iff.rfl
  | cons s sources ih =>
      cases here : read s with
      | none =>
          rw [List.filterMap_cons_none here, ih]
          refine (and_iff_right ?_).symm
          intro begun
          rcases begun with ⟨e, some, -⟩
          cases here.symm.trans some
      | some e =>
          rw [List.filterMap_cons_some here]
          refine and_congr ⟨fun follows begun => ?_, fun follows begins => ?_⟩ ih
          · rcases begun with ⟨e', same, begins⟩
            cases here.symm.trans same
            rcases follows begins with ⟨x, inside, ends⟩
            rcases List.mem_filterMap.mp inside with ⟨t, member, reads⟩
            refine ⟨t, member, fun e' same => ?_⟩
            cases here.symm.trans same
            exact ⟨x, reads, ends⟩
          · rcases follows ⟨e, here, begins⟩ with ⟨t, member, reads⟩
            rcases reads e here with ⟨x, read, ends⟩
            exact ⟨x, List.mem_filterMap.mpr ⟨t, member, read⟩, ends⟩

/-- Events with a key, of which some begin it and the others end it: each is ended that is begun
when the last event of every key is one that ends it. -/
theorem followed_iff_last {Key : Type} [DecidableEq Key] {key : Event → Option Key}
    {begins : Event → Bool} {events : List Event} :
    Followed (fun e => begins e = true ∧ key e ≠ none)
        (fun e x => begins x = false ∧ key x = key e) events ↔
      ∀ k last, (events.filter (key · = some k)).getLast? = some last → begins last = false := by
  induction events with
  | nil => exact iff_of_true trivial fun k last none => by cases none
  | cons e later ih =>
      rw [Followed, Each, ← Followed, ih]
      constructor
      · intro both k last found
        rcases both with ⟨follows, held⟩
        by_cases own : key e = some k
        · rw [List.filter_cons_of_pos (by simpa using own), List.getLast?_cons] at found
          cases newest : (later.filter (key · = some k)).getLast? with
          | some x =>
              rw [newest] at found
              cases found
              exact held k x newest
          | none =>
              rw [newest] at found
              cases found
              refine Bool.eq_false_iff.mpr fun begun => ?_
              rcases follows ⟨begun, own ▸ Option.some_ne_none k⟩ with ⟨x, inside, -, same⟩
              have none := List.getLast?_eq_none_iff.mp newest
              have member : x ∈ later.filter (key · = some k) :=
                List.mem_filter.mpr ⟨inside, decide_eq_true (same.trans own)⟩
              rw [none] at member
              cases member
        · rw [List.filter_cons_of_neg (by simpa using own)] at found
          exact held k last found
      · intro held
        refine ⟨fun begun => ?_, fun k last found => ?_⟩
        · rcases begun with ⟨begun, keyed⟩
          rcases Option.ne_none_iff_exists'.mp keyed with ⟨k, own⟩
          have newest := held k
          rw [List.filter_cons_of_pos (by simpa using own), List.getLast?_cons] at newest
          cases last : (later.filter (key · = some k)).getLast? with
          | none =>
              rw [last] at newest
              cases begun.symm.trans (newest e rfl)
          | some x =>
              rw [last] at newest
              rcases List.mem_filter.mp (List.mem_of_getLast? last) with ⟨inside, same⟩
              exact ⟨x, inside, newest x rfl, (of_decide_eq_true same).trans own.symm⟩
        · refine held k last ?_
          by_cases own : key e = some k
          · rw [List.filter_cons_of_pos (by simpa using own), List.getLast?_cons, found]
            rfl
          · rw [List.filter_cons_of_neg (by simpa using own)]
            exact found

end Histories
