import Mathlib.Data.List.Basic

/-!
# Alarms with recovery

A watch observes readings of keys and may notify at an observation.  A log holds
its observations, the latest one first.  `Spaced` says that between two
notifications of a key the key was observed recovered; `Calm` that a
notification would keep it so.  `Tracks` ties a flag per key to the log: where
the flag is down the key is calm.
-/

namespace Alarms

variable {Key Reading : Type}

structure Observation (Key Reading : Type) where
  key : Key
  reading : Reading
  notified : Bool

variable {recovered : Reading → Prop} {log : List (Observation Key Reading)}
  {o : Observation Key Reading} {k : Key}

/-- The key was observed recovered since its last notification, if there was one. -/
def Calm (recovered : Reading → Prop) (k : Key) : List (Observation Key Reading) → Prop
  | [] => True
  | o :: earlier =>
      (o.key = k → o.notified = false) ∧
        (o.key = k ∧ recovered o.reading ∨ Calm recovered k earlier)

/-- Between two notifications of a key there is an observation of it recovered. -/
def Spaced (recovered : Reading → Prop) (log : List (Observation Key Reading)) : Prop :=
  ∀ later o between p earlier, log = later ++ o :: (between ++ p :: earlier) → o.key = p.key →
    o.notified = true → p.notified = true → ∃ r ∈ between, r.key = o.key ∧ recovered r.reading

theorem calm_nil : Calm recovered k ([] : List (Observation Key Reading)) := trivial

theorem Calm.cons_of_ne (calm : Calm recovered k log) (other : o.key ≠ k) :
    Calm recovered k (o :: log) :=
  ⟨fun same => absurd same other, .inr calm⟩

theorem Calm.cons_of_silent (calm : Calm recovered k log) (silent : o.notified = false) :
    Calm recovered k (o :: log) :=
  ⟨fun _ => silent, .inr calm⟩

/-- Observations that do not notify of the key leave it calm. -/
theorem Calm.append {latest : List (Observation Key Reading)} (calm : Calm recovered k log)
    (silent : ∀ o ∈ latest, o.key = k → o.notified = false) :
    Calm recovered k (latest ++ log) := by
  induction latest with
  | nil => exact calm
  | cons first rest ih =>
      have before := ih fun o member => silent o (List.mem_cons_of_mem first member)
      exact ⟨silent first List.mem_cons_self, .inr before⟩

theorem calm_cons_of_recovered (silent : o.notified = false) (healthy : recovered o.reading) :
    Calm recovered o.key (o :: log) :=
  ⟨fun _ => silent, .inl ⟨rfl, healthy⟩⟩

/-- A calm key has recovered after each of its notifications. -/
theorem Calm.exists_recovered {between earlier : List (Observation Key Reading)}
    (calm : Calm recovered k (between ++ o :: earlier)) (key : o.key = k)
    (notified : o.notified = true) : ∃ r ∈ between, r.key = k ∧ recovered r.reading := by
  induction between with
  | nil =>
      have silent := calm.1 key
      rw [notified] at silent
      cases silent
  | cons first rest ih =>
      rcases calm.2 with ⟨same, healthy⟩ | before
      · exact ⟨first, List.mem_cons_self, same, healthy⟩
      · obtain ⟨r, member, facts⟩ := ih before
        exact ⟨r, List.mem_cons_of_mem first member, facts⟩

theorem spaced_nil : Spaced recovered ([] : List (Observation Key Reading)) := by
  intro later o between p earlier split
  simp at split

/-- A notification of a calm key keeps the log spaced. -/
theorem Spaced.cons (spaced : Spaced recovered log)
    (calm : o.notified = true → Calm recovered o.key log) : Spaced recovered (o :: log) := by
  intro later first between p earlier split same notified before
  cases later with
  | nil =>
      rw [List.nil_append, List.cons.injEq] at split
      rw [← split.1] at same notified ⊢
      have isCalm := calm notified
      rw [split.2] at isCalm
      exact isCalm.exists_recovered same.symm before
  | cons head rest =>
      rw [List.cons_append, List.cons.injEq] at split
      exact spaced rest first between p earlier split.2 same notified before

/-- Where the flag is down the key is calm. -/
def Tracks (recovered : Reading → Prop) (flag : Key → Bool)
    (log : List (Observation Key Reading)) : Prop :=
  ∀ k, flag k = false → Calm recovered k log

theorem tracks_nil {flag : Key → Bool} :
    Tracks recovered flag ([] : List (Observation Key Reading)) := fun _ _ => calm_nil

/-- An observation whose flag is down afterwards only where it was down or the key
has recovered. -/
theorem Tracks.observe {flag after : Key → Bool} (tracks : Tracks recovered flag log)
    (others : ∀ k, k ≠ o.key → after k = flag k)
    (down : after o.key = false →
      o.notified = false ∧ (flag o.key = false ∨ recovered o.reading)) :
    Tracks recovered after (o :: log) := by
  intro k isDown
  by_cases same : k = o.key
  · rw [same] at isDown ⊢
    obtain ⟨silent, wasDown | healthy⟩ := down isDown
    · exact (tracks o.key wasDown).cons_of_silent silent
    · exact calm_cons_of_recovered silent healthy
  · rw [others k same] at isDown
    exact (tracks k isDown).cons_of_ne (Ne.symm same)

end Alarms
