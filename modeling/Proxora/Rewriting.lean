import Mathlib.Data.List.Basic
import Mathlib.Data.List.Infix

/-!
# Rewriting from left to right

A pattern finds, at the front of a list, what is to be replaced, and says what stands for it.
`Pattern.replace` goes through a list once, from left to right, and goes on behind each match.

What a pass leaves as it is (`prefix_replace_iff`, `replace_append_of_none`) and what stands in
its result (`guarded_replace`) is said in terms of words: `Guarded t us` says that wherever the
word `t` stands, one of the words `us` stands.
-/

namespace Proxora

/-- What is found at the front of a list: the piece that stands for it, and what follows. -/
structure Pattern (α : Type*) where
  find : List α → Option (List α × List α)
  reads : ∀ {s piece rest}, find s = some (piece, rest) → ∃ read, read ≠ [] ∧ s = read ++ rest

namespace Pattern

variable {α : Type*} (p : Pattern α)

/-- The pass, with the number of elements that are read already. -/
def replaceFrom : Nat → List α → List α
  | _, [] => []
  | skip + 1, _ :: s => replaceFrom skip s
  | 0, c :: s =>
      match p.find (c :: s) with
      | none => c :: replaceFrom 0 s
      | some (piece, rest) => piece ++ replaceFrom (s.length - rest.length) s

def replace (s : List α) : List α := p.replaceFrom 0 s

/-- `token` becomes `replacement`. -/
def word [DecidableEq α] (token replacement : List α) : Pattern α where
  find s := if token ≠ [] ∧ token <+: s then some (replacement, s.drop token.length) else none
  reads := by
    intro s piece rest found
    split at found
    · next starts =>
        cases found
        refine ⟨token, starts.1, ?_⟩
        exact List.prefix_iff_eq_append.mp starts.2 |>.symm
    · cases found

variable {p} {s piece rest : List α} {c : α}

theorem replaceFrom_eq (k : Nat) (s : List α) : p.replaceFrom k s = p.replace (s.drop k) := by
  induction k generalizing s with
  | zero => rfl
  | succ k ih =>
      cases s with
      | nil => rfl
      | cons c s => exact ih s

theorem replace_nil : p.replace [] = [] := rfl

theorem replace_of_none (plain : p.find (c :: s) = none) :
    p.replace (c :: s) = c :: p.replace s := by
  unfold replace
  rw [replaceFrom, plain]

theorem replace_of_some (found : p.find s = some (piece, rest)) :
    p.replace s = piece ++ p.replace rest := by
  obtain ⟨read, some_read, rfl⟩ := p.reads found
  obtain ⟨c, read, rfl⟩ := List.exists_cons_of_ne_nil some_read
  have behind : (read ++ rest).length - rest.length = read.length := by
    rw [List.length_append]
    omega
  rw [replace, List.cons_append, replaceFrom, ← List.cons_append, found]
  dsimp only
  rw [replaceFrom_eq, behind, List.drop_left]

/-- The parts of a pass: what is copied, and what is replaced. -/
theorem replace_induction {motive : List α → Prop} (nil : motive [])
    (plain : ∀ c s, p.find (c :: s) = none → motive s → motive (c :: s))
    (found : ∀ s piece rest, p.find s = some (piece, rest) → motive rest → motive s)
    (s : List α) : motive s := by
  induction long : s.length using Nat.strong_induction_on generalizing s with
  | _ n ih =>
      subst long
      cases s with
      | nil => exact nil
      | cons c s =>
          cases matched : p.find (c :: s) with
          | none => exact plain c s matched (ih s.length (Nat.lt_succ_self _) s rfl)
          | some both =>
              obtain ⟨piece, rest⟩ := both
              obtain ⟨read, some_read, same⟩ := p.reads matched
              have shorter : rest.length < (c :: s).length := by
                rw [same, List.length_append]
                have := List.length_pos_iff.mpr some_read
                omega
              exact found _ piece rest matched (ih rest.length shorter rest rfl)

/-! ## What is left as it is -/

/-- A pass over a list whose matches are replaced by themselves. -/
theorem replace_eq_self
    (same : ∀ t, t <:+ s → ∀ piece rest, p.find t = some (piece, rest) → piece ++ rest = t) :
    p.replace s = s := by
  induction s using replace_induction (p := p) with
  | nil => rfl
  | plain c s plain ih =>
      rw [replace_of_none plain, ih fun t behind => same t (behind.trans (List.suffix_cons c s))]
  | found s piece rest found ih =>
      have behind : rest <:+ s := by
        obtain ⟨read, -, rfl⟩ := p.reads found
        exact List.suffix_append read rest
      rw [replace_of_some found, ih fun t inside => same t (inside.trans behind)]
      exact same s (List.suffix_refl s) piece rest found

/-- A word in which nothing is found is copied. -/
theorem replace_append_of_none {w y : List α}
    (plain : ∀ v, v <:+ w → v ≠ [] → p.find (v ++ y) = none) :
    p.replace (w ++ y) = w ++ p.replace y := by
  induction w with
  | nil => rfl
  | cons c w ih =>
      have here := plain (c :: w) (List.suffix_refl _) (List.cons_ne_nil c w)
      rw [List.cons_append] at here ⊢
      rw [replace_of_none here, ih fun v inside => plain v (inside.trans (List.suffix_cons c w))]
      rfl

/-- What is found begins with `opening`, and so does the piece that stands for it. -/
def Opens (p : Pattern α) (opening : List α) : Prop :=
  ∀ ⦃s piece rest⦄, p.find s = some (piece, rest) → opening <+: s ∧ opening <+: piece

theorem word_reads [DecidableEq α] {token replacement : List α}
    (found : (word token replacement).find s = some (piece, rest)) :
    s = token ++ rest ∧ piece = replacement := by
  unfold word at found
  dsimp only at found
  split at found
  · next starts =>
      cases found
      exact ⟨(List.prefix_iff_eq_append.mp starts.2).symm, rfl⟩
  · cases found

theorem word_find [DecidableEq α] {token : List α} (some_token : token ≠ [])
    (replacement rest : List α) :
    (word token replacement).find (token ++ rest) = some (replacement, rest) := by
  unfold word
  dsimp only
  rw [if_pos ⟨some_token, List.prefix_append _ _⟩, List.drop_left]

theorem word_opens [DecidableEq α] {token replacement opening : List α} (read : opening <+: token)
    (written : opening <+: replacement) : (word token replacement).Opens opening := by
  intro s piece rest found
  obtain ⟨rfl, rfl⟩ := word_reads found
  exact ⟨read.trans (List.prefix_append _ _), written⟩

/-- Where nothing opens, nothing is replaced. -/
theorem replace_of_absent {opening : List α} (opens : p.Opens opening)
    (absent : ¬opening <:+: s) : p.replace s = s := by
  refine replace_eq_self fun t inside piece rest found => absurd ?_ absent
  exact (opens found).1.isInfix.trans inside.isInfix

/-- Behind the opening, a word that goes no further is not decided. -/
theorem prefix_opening_iff {opening w x y : List α} (free : ¬opening <:+: w.dropLast)
    (left : opening <+: x) (right : opening <+: y) : w <+: x ↔ w <+: y := by
  -- of two beginnings of one list one begins the other; the word is not the longer one
  have short : ∀ {z}, opening <+: z → w <+: z → w <+: opening := by
    intro z starts begins
    rcases List.prefix_or_prefix_of_prefix starts begins with longer | shorter
    · obtain ⟨tail, rfl⟩ := longer
      cases tail using List.reverseRecOn with
      | nil => rw [List.append_nil]
      | append_singleton tail c =>
          refine absurd ?_ free
          rw [← List.append_assoc, List.dropLast_concat]
          exact (List.prefix_append opening tail).isInfix
    · exact shorter
  exact ⟨fun begins => (short left begins).trans right,
    fun begins => (short right begins).trans left⟩

theorem dropLast_infix_cons (c : α) (w : List α) : w.dropLast <:+: (c :: w).dropLast := by
  cases w with
  | nil => exact List.nil_infix
  | cons d w =>
      rw [List.dropLast_cons_cons]
      exact (List.suffix_cons c _).isInfix

/-- A word that the opening is not inside of begins the result where it began the list. -/
theorem prefix_replace_iff {opening w : List α} (opens : p.Opens opening)
    (free : ¬opening <:+: w.dropLast) (s : List α) : w <+: p.replace s ↔ w <+: s := by
  induction w generalizing s with
  | nil => exact iff_of_true List.nil_prefix List.nil_prefix
  | cons c w ih =>
      have rest_free : ¬opening <:+: w.dropLast := fun inside =>
        free (inside.trans (dropLast_infix_cons c w))
      cases s with
      | nil => rw [replace_nil]
      | cons d s =>
          cases matched : p.find (d :: s) with
          | none =>
              rw [replace_of_none matched, List.cons_prefix_cons, List.cons_prefix_cons,
                ih rest_free]
          | some both =>
              obtain ⟨piece, rest⟩ := both
              obtain ⟨starts, stands⟩ := opens matched
              rw [replace_of_some matched]
              exact prefix_opening_iff free (stands.trans (List.prefix_append _ _)) starts

/-- The same behind something that is copied. -/
theorem prefix_append_replace_iff {opening w : List α} (opens : p.Opens opening)
    (free : ¬opening <:+: w.dropLast) (v s : List α) :
    w <+: v ++ p.replace s ↔ w <+: v ++ s := by
  induction v generalizing w with
  | nil => exact prefix_replace_iff opens free s
  | cons c v ih =>
      cases w with
      | nil => exact iff_of_true List.nil_prefix List.nil_prefix
      | cons d w =>
          have rest_free : ¬opening <:+: w.dropLast := fun inside =>
            free (inside.trans (dropLast_infix_cons d w))
          rw [List.cons_append, List.cons_append, List.cons_prefix_cons, List.cons_prefix_cons,
            ih rest_free]

end Pattern

/-! ## Words that stand in front of others -/

/-- Wherever `t` stands in `x`, one of `us` stands. -/
def Guarded {α : Type*} (t : List α) (us : List (List α)) (x : List α) : Prop :=
  ∀ s, s <:+ x → t <+: s → ∃ u ∈ us, u <+: s

section Guarded

variable {α : Type*} {t x y : List α} {us : List (List α)}

theorem Guarded.suffix (guarded : Guarded t us x) (behind : y <:+ x) : Guarded t us y :=
  fun s inside => guarded s (inside.trans behind)

theorem guarded_nil_iff : Guarded t [] x ↔ ¬t <:+: x := by
  unfold Guarded
  rw [List.infix_iff_prefix_suffix]
  simp only [List.not_mem_nil, false_and, exists_false]
  exact ⟨fun guarded ⟨s, begins, inside⟩ => guarded s inside begins,
    fun free s inside begins => free ⟨s, begins, inside⟩⟩

theorem head_mem_of_isPrefix {c : α} (some_front : x ≠ []) (begins : c :: t <+: x ++ y) : c ∈ x := by
  obtain ⟨d, x, rfl⟩ := List.exists_cons_of_ne_nil some_front
  obtain ⟨rfl, -⟩ := List.cons_prefix_cons.mp begins
  exact List.mem_cons_self

theorem suffix_append_cases (behind : t <:+ x ++ y) : t <:+ y ∨ ∃ v, v <:+ x ∧ t = v ++ y := by
  obtain ⟨front, same⟩ := behind
  rcases List.append_eq_append_iff.mp same with ⟨v, rfl, rfl⟩ | ⟨v, rfl, rfl⟩
  · exact .inr ⟨v, List.suffix_append front v, rfl⟩
  · exact .inl (List.suffix_append v t)

theorem prefix_append_cases (begins : t <+: x ++ y) : t <+: x ∨ ∃ v, t = x ++ v ∧ v <+: y := by
  obtain ⟨behind, same⟩ := begins
  rcases List.append_eq_append_iff.mp same with ⟨v, rfl, rfl⟩ | ⟨v, rfl, rfl⟩
  · exact .inl (List.prefix_append t v)
  · exact .inr ⟨v, rfl, List.prefix_append v behind⟩

/-- **What stands in the result of a pass**: it is enough to look at the places the pass comes
to, and at those inside a piece. -/
theorem Pattern.guarded_replace {p : Pattern α}
    (whole : ∀ s, s <:+ x → t <+: p.replace s → ∃ u ∈ us, u <+: p.replace s)
    (inside : ∀ s piece rest, s <:+ x → p.find s = some (piece, rest) →
      ∀ v, v <:+ piece → v ≠ [] → v ≠ piece → t <+: v ++ p.replace rest →
        ∃ u ∈ us, u <+: v ++ p.replace rest) :
    Guarded t us (p.replace x) := by
  induction x using Pattern.replace_induction (p := p) with
  | nil =>
      intro s behind
      rw [Pattern.replace_nil, List.suffix_nil] at behind
      subst behind
      exact whole [] (List.suffix_refl _)
  | plain c x plain ih =>
      intro s behind
      rw [Pattern.replace_of_none plain, List.suffix_cons_iff] at behind
      have tail : x <:+ c :: x := List.suffix_cons c x
      rcases behind with rfl | behind
      · rw [← Pattern.replace_of_none plain]
        exact whole (c :: x) (List.suffix_refl _)
      · exact ih (fun s within => whole s (within.trans tail))
          (fun s piece rest within => inside s piece rest (within.trans tail)) s behind
  | found x piece rest found ih =>
      intro s behind begins
      have tail : rest <:+ x := by
        obtain ⟨read, -, rfl⟩ := p.reads found
        exact List.suffix_append read rest
      have later := ih (fun s within => whole s (within.trans tail))
        fun s piece rest within => inside s piece rest (within.trans tail)
      rw [Pattern.replace_of_some found] at behind
      rcases suffix_append_cases behind with inRest | ⟨v, within, rfl⟩
      · exact later s inRest begins
      · by_cases empty : v = []
        · subst empty
          exact later _ (List.suffix_refl _) begins
        · by_cases complete : v = piece
          · subst complete
            rw [← Pattern.replace_of_some found] at begins ⊢
            exact whole x (List.suffix_refl _) begins
          · exact inside x piece rest (List.suffix_refl _) found v within empty complete begins

end Guarded

end Proxora
