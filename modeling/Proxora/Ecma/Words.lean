import Proxora.Ecma.Lines

/-!
# The words of a text

`s.split(/[…]+/).filter(Boolean)`: what stands between the breaks of a text. The words of
two texts with a break between them are those of both (`words_append_cons`), and the rest
follows: breaks at the ends do not count, and words that were put together come apart again.
-/

namespace Ecma

variable {isBreak : Char → Bool} {s t : Text} {c : Char}

def words (isBreak : Char → Bool) (s : Text) : List Text :=
  (s.splitOnP isBreak).filter (· ≠ [])

@[simp] theorem words_nil : words isBreak [] = [] := rfl

theorem words_append_cons (s t : Text) (breaks : isBreak c = true) :
    words isBreak (s ++ c :: t) = words isBreak s ++ words isBreak t := by
  rw [words, List.splitOnP_append_cons s t breaks, List.filter_append]
  rfl

theorem words_cons_break (t : Text) (breaks : isBreak c = true) :
    words isBreak (c :: t) = words isBreak t :=
  words_append_cons [] t breaks

theorem words_append_break (s : Text) (breaks : isBreak c = true) :
    words isBreak (s ++ [c]) = words isBreak s := by
  rw [words_append_cons s [] breaks, words_nil, List.append_nil]

/-- A text without breaks is one word, or none. -/
theorem words_of_free (free : ∀ c ∈ s, isBreak c = false) :
    words isBreak s = [s].filter (· ≠ []) := by
  rw [words, List.splitOnP_eq_singleton free]

theorem words_singleton (some_char : s ≠ []) (free : ∀ c ∈ s, isBreak c = false) :
    words isBreak s = [s] := by
  rw [words_of_free free]
  exact List.filter_cons_of_pos (decide_eq_true some_char)

theorem words_dropWhile (blank : ∀ c, isSpace c = true → isBreak c = true) (s : Text) :
    words isBreak (s.dropWhile isSpace) = words isBreak s := by
  induction s with
  | nil => rfl
  | cons c s ih =>
      cases space : isSpace c with
      | true => rw [List.dropWhile_cons_of_pos space, ih, words_cons_break s (blank c space)]
      | false => rw [List.dropWhile_cons_of_neg (by rw [space]; exact Bool.false_ne_true)]

/-- Where white space is a break, trimming leaves the words. -/
theorem words_trim (blank : ∀ c, isSpace c = true → isBreak c = true) (s : Text) :
    words isBreak (trim s) = words isBreak s := by
  have back : ∀ spaces : Text, (∀ c ∈ spaces, isSpace c = true) → ∀ t : Text,
      words isBreak (t ++ spaces) = words isBreak t := by
    intro spaces
    induction spaces with
    | nil =>
        intro _ t
        rw [List.append_nil]
    | cons c spaces ih =>
        intro all t
        have breaks : isBreak c = true := blank c (all c List.mem_cons_self)
        have rest := ih (fun d member => all d (List.mem_cons_of_mem c member)) []
        rw [words_append_cons t spaces breaks, ← List.nil_append spaces, rest, words_nil,
          List.append_nil]
  obtain ⟨spaces, form, all⟩ := trimRight_append (s.dropWhile isSpace)
  rw [trim_eq, ← words_dropWhile blank s]
  conv_rhs => rw [form, back spaces all]

/-- Words that are put together with a break come apart again. -/
theorem words_join (breaks : isBreak c = true) {items : List Text}
    (proper : ∀ word ∈ items, word ≠ [] ∧ ∀ d ∈ word, isBreak d = false) :
    words isBreak (join c items) = items := by
  induction items with
  | nil => rfl
  | cons word items ih =>
      obtain ⟨some_char, free⟩ := proper word List.mem_cons_self
      have rest := ih fun other member => proper other (List.mem_cons_of_mem word member)
      cases items with
      | nil => exact words_singleton some_char free
      | cons next items =>
          rw [join_cons (List.cons_ne_nil next items), words_append_cons _ _ breaks,
            words_singleton some_char free, rest, List.singleton_append]

/-- A character that is no break is in a word. -/
theorem exists_word_of_mem (inside : isBreak c = false) {w : Text}
    (free : ∀ d ∈ w, isBreak d = false) (member : c ∈ w ++ s) :
    ∃ word ∈ words isBreak (w ++ s), c ∈ word := by
  induction s generalizing w with
  | nil =>
      rw [List.append_nil] at member ⊢
      rw [words_singleton (List.ne_nil_of_mem member) free]
      exact ⟨w, List.mem_singleton_self w, member⟩
  | cons d s ih =>
      cases breaks : isBreak d with
      | true =>
          rw [words_append_cons w s breaks]
          rcases List.mem_append.mp member with front | back
          · rw [words_singleton (List.ne_nil_of_mem front) free]
            exact ⟨w, List.mem_append_left _ (List.mem_singleton_self w), front⟩
          · have later : c ∈ s := by
              refine (List.mem_cons.mp back).resolve_left fun same => ?_
              rw [same, breaks] at inside
              cases inside
            have nothing : ∀ e ∈ ([] : Text), isBreak e = false := fun e none => absurd none
              List.not_mem_nil
            obtain ⟨word, found, holds⟩ := ih nothing later
            exact ⟨word, List.mem_append_right _ found, holds⟩
      | false =>
          have longer : ∀ e ∈ w ++ [d], isBreak e = false := by
            intro e given
            rcases List.mem_append.mp given with front | last
            · exact free e front
            · rwa [List.mem_singleton.mp last]
          have moved : w ++ d :: s = (w ++ [d]) ++ s := by
            rw [List.append_assoc]
            rfl
          rw [moved] at member ⊢
          exact ih longer member

end Ecma
