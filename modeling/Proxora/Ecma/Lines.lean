import Proxora.Ecma.Text

/-!
# Texts read line by line

A reader that trims every line and passes over those it can make nothing of.  What it reads
does not depend on the line ends, nor on the white space around the text; a text that is
joined from pieces is read piece by piece (`readLines_join`), also when a piece has line
breaks of its own.
-/

namespace Ecma

/-- `s.replace(/^\uFEFF/, "")`. -/
def withoutBom (s : Text) : Text := if s.head? = some (Char.ofNat 0xFEFF) then s.tail else s

/-- `s.replace(/\r\n/g, "\n")`. -/
def crlfToLf : Text → Text
  | '\r' :: '\n' :: s => '\n' :: crlfToLf s
  | c :: s => c :: crlfToLf s
  | [] => []

/-- The text without the white space at its end. -/
def trimRight (s : Text) : Text := s.rdropWhile isSpace

/-! ## Trimming -/

theorem trim_eq (s : Text) : trim s = trimRight (s.dropWhile isSpace) := rfl

theorem trim_cons_space {c : Char} (space : isSpace c = true) (s : Text) :
    trim (c :: s) = trim s := by
  rw [trim_eq, List.dropWhile_cons_of_pos space]
  rfl

theorem trimRight_append_space (s : Text) {c : Char} (space : isSpace c = true) :
    trimRight (s ++ [c]) = trimRight s :=
  List.rdropWhile_concat_pos isSpace s c space

theorem trimRight_append_spaces (s : Text) {spaces : Text}
    (blank : ∀ c ∈ spaces, isSpace c = true) : trimRight (s ++ spaces) = trimRight s := by
  induction spaces using List.reverseRecOn with
  | nil => rw [List.append_nil]
  | append_singleton spaces c ih =>
      rw [← List.append_assoc, trimRight_append_space _ (blank c (by simp))]
      exact ih fun d member => blank d (List.mem_append_left [c] member)

theorem trim_append_space (s : Text) {c : Char} (space : isSpace c = true) :
    trim (s ++ [c]) = trim s := by
  induction s with
  | nil => rw [List.nil_append, trim_cons_space space]
  | cons d s ih =>
      by_cases blank : isSpace d = true
      · rw [List.cons_append, trim_cons_space blank, trim_cons_space blank, ih]
      · rw [trim_eq, trim_eq, List.cons_append, List.dropWhile_cons_of_neg blank,
          List.dropWhile_cons_of_neg blank, ← List.cons_append, trimRight_append_space _ space]

theorem trim_append_spaces (s : Text) {spaces : Text} (blank : ∀ c ∈ spaces, isSpace c = true) :
    trim (s ++ spaces) = trim s := by
  induction spaces generalizing s with
  | nil => rw [List.append_nil]
  | cons c spaces ih =>
      have moved : s ++ c :: spaces = (s ++ [c]) ++ spaces := by
        rw [List.append_assoc]
        rfl
      rw [moved, ih (s ++ [c]) fun d member => blank d (List.mem_cons_of_mem c member),
        trim_append_space s (blank c List.mem_cons_self)]

/-- The end that `trimRight` takes away. -/
theorem trimRight_append (s : Text) :
    ∃ spaces : Text, s = trimRight s ++ spaces ∧ ∀ c ∈ spaces, isSpace c = true := by
  refine ⟨s.rtakeWhile isSpace, List.rdropWhile_append_rtakeWhile.symm, ?_⟩
  intro c member
  exact List.mem_rtakeWhile_imp member

theorem mem_of_mem_trimRight_cons {c d : Char} {s : Text} (member : d ∈ trimRight (c :: s)) :
    d = c ∨ d ∈ trimRight s := by
  obtain ⟨spaces, form, blank⟩ := trimRight_append s
  have cut : trimRight (c :: s) = trimRight (c :: trimRight s) := by
    rw [← trimRight_append_spaces (c :: trimRight s) blank, List.cons_append, ← form]
  rw [cut] at member
  exact List.mem_cons.mp ((List.rdropWhile_prefix isSpace _).subset member)

theorem trim_trimRight (s : Text) : trim (trimRight s) = trim s := by
  obtain ⟨spaces, form, blank⟩ := trimRight_append s
  rw [form, trim_append_spaces _ blank, ← form]

/-- A text that starts with a mark is trimmed at its end only. -/
theorem trim_of_head {c : Char} (mark : isSpace c = false) (s : Text) :
    trim (c :: s) = trimRight (c :: s) := by
  rw [trim_eq, List.dropWhile_cons_of_neg (by rw [mark]; exact Bool.false_ne_true)]

/-- What is dropped at the end stands behind everything that is kept. -/
theorem rdropWhile_append_cons {α : Type} {p : α → Bool} {c : α} (kept : p c = false)
    (s t : List α) : (s ++ c :: t).rdropWhile p = s ++ c :: t.rdropWhile p := by
  induction t using List.reverseRecOn with
  | nil => exact List.rdropWhile_concat_neg p s c (by rw [kept]; exact Bool.false_ne_true)
  | append_singleton t d ih =>
      have moved : s ++ c :: (t ++ [d]) = (s ++ c :: t) ++ [d] := by
        rw [List.append_assoc]
        rfl
      by_cases dropped : p d = true
      · rw [moved, List.rdropWhile_concat_pos p _ d dropped,
          List.rdropWhile_concat_pos p t d dropped, ih]
      · rw [moved, List.rdropWhile_concat_neg p _ d dropped,
          List.rdropWhile_concat_neg p t d dropped, List.append_assoc]
        rfl

/-- White space is taken from behind a mark only. -/
theorem trimRight_append_mark (s : Text) {c : Char} (mark : isSpace c = false) (t : Text) :
    trimRight (s ++ c :: t) = s ++ c :: trimRight t :=
  rdropWhile_append_cons mark s t

theorem blank_of_trim_eq_nil {s : Text} (nothing : trim s = []) :
    ∀ c ∈ s, isSpace c = true := by
  induction s with
  | nil => exact fun c member => absurd member List.not_mem_nil
  | cons d s ih =>
      by_cases space : isSpace d = true
      · rw [trim_cons_space space] at nothing
        intro c member
        rcases List.mem_cons.mp member with rfl | member
        · exact space
        · exact ih nothing c member
      · rw [Bool.not_eq_true] at space
        rw [trim_of_head space, ← List.nil_append (d :: s), trimRight_append_mark [] space]
          at nothing
        cases nothing

/-- Between the digits and the last letter there is no white space. -/
theorem isSpace_of_le {c : Char} (low : 48 ≤ c.toNat) (high : c.toNat ≤ 122) :
    isSpace c = false := by
  simp only [isSpace]
  simp
  omega

theorem isSpace_of_isAlpha {c : Char} (letter : c.isAlpha = true) : isSpace c = false := by
  simp only [Char.isAlpha, Char.isUpper, Char.isLower, Bool.or_eq_true, Bool.and_eq_true,
    decide_eq_true_eq, ge_iff_le, UInt32.le_iff_toNat_le] at letter
  have value : c.val.toNat = c.toNat := rfl
  rw [value] at letter
  simp at letter
  exact isSpace_of_le (by omega) (by omega)

theorem isSpace_of_isDigit {c : Char} (digit : c.isDigit = true) : isSpace c = false := by
  simp only [Char.isDigit, Bool.and_eq_true, decide_eq_true_eq, ge_iff_le,
    UInt32.le_iff_toNat_le] at digit
  exact isSpace_of_le digit.1 (digit.2.trans (by decide))

/-- A text between two marks is not trimmed. -/
theorem trim_of_marks {s : Text} (first : ∀ c ∈ s.head?, isSpace c = false)
    (last : ∀ c ∈ s.getLast?, isSpace c = false) : trim s = s := by
  have keeps (t : Text) (mark : ∀ c ∈ t.head?, isSpace c = false) : t.dropWhile isSpace = t := by
    cases t with
    | nil => rfl
    | cons c t => exact List.dropWhile_cons_of_neg (by rw [mark c rfl]; exact Bool.false_ne_true)
  rw [trim, keeps s first, keeps s.reverse (by rwa [List.head?_reverse]), List.reverse_reverse]

theorem trim_of_notSpace {s : Text} (marks : ∀ c ∈ s, isSpace c = false) : trim s = s := by
  have front : s.dropWhile isSpace = s := by
    cases s with
    | nil => rfl
    | cons c s =>
        exact List.dropWhile_cons_of_neg (by rw [marks c List.mem_cons_self]; decide)
  rw [trim_eq, front, trimRight, List.rdropWhile_eq_self_iff]
  intro some
  rw [marks _ (List.getLast_mem some)]
  decide

/-- What trimming leaves does not begin with white space. -/
theorem head_trim {s rest : Text} {c : Char} (form : trim s = c :: rest) : isSpace c = false := by
  have again : trim (c :: rest) = c :: rest := by rw [← form, trim_trim]
  by_contra space
  rw [Bool.not_eq_false] at space
  rw [trim_cons_space space] at again
  have shorter : (trim rest).length ≤ rest.length := by
    rw [trim_eq]
    exact Nat.le_trans (List.rdropWhile_prefix isSpace _).length_le
      (List.dropWhile_suffix isSpace).length_le
  rw [again, List.length_cons] at shorter
  omega

theorem trim_isInfix (s : Text) : trim s <:+: s :=
  (List.rdropWhile_prefix isSpace _).isInfix.trans (List.dropWhile_suffix isSpace).isInfix

theorem mem_of_mem_trim {s : Text} {c : Char} (member : c ∈ trim s) : c ∈ s :=
  (trim_isInfix s).subset member

theorem mem_of_mem_trimRight {s : Text} {c : Char} (member : c ∈ trimRight s) : c ∈ s :=
  (List.rdropWhile_prefix isSpace s).subset member

/-- Only white space is trimmed to nothing. -/
theorem exists_mark {s : Text} (some_text : trim s ≠ []) : ∃ c ∈ s, isSpace c = false := by
  by_contra blank
  push Not at blank
  refine some_text ?_
  have nothing : s.dropWhile isSpace = [] :=
    List.dropWhile_eq_nil_iff.mpr fun c inside => Bool.eq_true_of_not_eq_false (blank c inside)
  rw [trim, nothing]
  rfl

/-! ## Splitting -/

theorem mem_intercalate {α : Type} {words : List (List α)} {word sep : List α} {a : α}
    (listed : word ∈ words) (inside : a ∈ word) : a ∈ List.intercalate sep words := by
  induction words with
  | nil => cases listed
  | cons w words ih =>
      cases words with
      | nil =>
          rw [List.mem_singleton.mp listed] at inside
          rw [List.intercalate_singleton]
          exact inside
      | cons v words =>
          rw [List.intercalate_cons_cons, List.append_assoc, List.mem_append, List.mem_append]
          rcases List.mem_cons.mp listed with same | listed
          · exact .inl (same ▸ inside)
          · exact .inr (.inr (ih listed))

/-- A last character goes to the last word. -/
theorem split_append_last {sep c : Char} (other : c ≠ sep) (s : Text) :
    ∃ (front : List Text) (last : Text),
      split sep s = front ++ [last] ∧ split sep (s ++ [c]) = front ++ [last ++ [c]] := by
  induction s with
  | nil => exact ⟨[], [], rfl, split_cons_ne other rfl⟩
  | cons d s ih =>
      obtain ⟨front, last, before, after⟩ := ih
      by_cases same : d = sep
      · refine ⟨[] :: front, last, ?_, ?_⟩
        · rw [split, if_pos same, before]
          rfl
        · rw [List.cons_append, split, if_pos same, after]
          rfl
      · cases front with
        | nil => exact ⟨[], d :: last, split_cons_ne same before, split_cons_ne same after⟩
        | cons word front =>
            exact ⟨(d :: word) :: front, last, split_cons_ne same before,
              split_cons_ne same after⟩

/-- The first word is the text up to the first separator. -/
theorem split_eq_cons (sep : Char) (s : Text) :
    ∃ words, split sep s = s.takeWhile (· ≠ sep) :: words := by
  induction s with
  | nil => exact ⟨[], rfl⟩
  | cons c s ih =>
      obtain ⟨words, rest⟩ := ih
      by_cases same : c = sep
      · exact ⟨split sep s, by rw [split, if_pos same, List.takeWhile_cons_of_neg (by simp [same])]⟩
      · exact ⟨words, by rw [split_cons_ne same rest, List.takeWhile_cons_of_pos (by simp [same])]⟩

/-! ## Reading -/

variable {α : Type} (read : Text → Option α)

/-- What is read from the lines of a text. -/
def readLines (s : Text) : List α := (split '\n' s).filterMap read

theorem readLines_of_notMem {line : Text} (free : '\n' ∉ line) :
    readLines read line = (read line).toList := by
  rw [readLines, split_of_notMem free, List.filterMap_cons]
  cases read line <;> rfl

theorem readLines_append_break (s t : Text) :
    readLines read (s ++ '\n' :: t) = readLines read s ++ readLines read t := by
  rw [readLines, split_append_cons, List.filterMap_append]
  rfl

theorem readLines_join {pieces : List Text} (some : pieces ≠ []) :
    readLines read (join '\n' pieces) = pieces.flatMap (readLines read) := by
  induction pieces with
  | nil => exact (some rfl).elim
  | cons piece pieces ih =>
      by_cases last : pieces = []
      · rw [last, List.flatMap_singleton]
        rfl
      · rw [join_cons last, readLines_append_break, ih last, List.flatMap_cons]

/-- Everything that is read stands on one line. -/
theorem line_of_mem_readLines {s : Text} {entry : α} (member : entry ∈ readLines read s) :
    ∃ line, '\n' ∉ line ∧ read line = some entry := by
  obtain ⟨line, within, here⟩ := List.mem_filterMap.mp member
  exact ⟨line, sep_notMem_of_mem_split within, here⟩

/-- Of a piece the first line is read first. -/
theorem readLines_eq_append (s : Text) :
    ∃ more, readLines read s = (read (s.takeWhile (· ≠ '\n'))).toList ++ more := by
  obtain ⟨words, form⟩ := split_eq_cons '\n' s
  refine ⟨words.filterMap read, ?_⟩
  rw [readLines, form, List.filterMap_cons]
  cases read (s.takeWhile (· ≠ '\n')) <;> rfl

variable {read} (trims : ∀ line, read (trim line) = read line) (blank : read [] = none)

include trims

/-- Lines that trim to the same text are read alike. -/
theorem read_congr {line other : Text} (same : trim line = trim other) :
    read line = read other := by
  rw [← trims line, same, trims other]

theorem filterMap_read_snoc (front : List Text) (last : Text) {c : Char}
    (space : isSpace c = true) :
    (front ++ [last ++ [c]]).filterMap read = (front ++ [last]).filterMap read := by
  rw [List.filterMap_append, List.filterMap_append, List.filterMap_cons, List.filterMap_cons,
    read_congr trims (trim_append_space last space)]

/-- The way the lines end does not matter. -/
theorem readLines_crlfToLf (s : Text) : readLines read (crlfToLf s) = readLines read s := by
  -- A line loses its carriage return or stays as it is.
  have shape (s : Text) : List.Forall₂ (fun line other => line = other ∨ line = other ++ ['\r'])
      (split '\n' s) (split '\n' (crlfToLf s)) := by
    fun_induction crlfToLf s with
    | case1 s ih => exact .cons (.inr rfl) ih
    | case2 c s other ih =>
        by_cases same : c = '\n'
        · rw [split, if_pos same, split, if_pos same]
          exact .cons (.inl rfl) ih
        · obtain ⟨word, words, before⟩ := List.exists_cons_of_ne_nil (split_ne_nil '\n' s)
          obtain ⟨first, rest, after⟩ :=
            List.exists_cons_of_ne_nil (split_ne_nil '\n' (crlfToLf s))
          rw [before, after, List.forall₂_cons] at ih
          rw [split_cons_ne same before, split_cons_ne same after]
          refine .cons ?_ ih.2
          rcases ih.1 with rfl | rfl
          · exact .inl rfl
          · exact .inr rfl
    | case3 => exact .cons (.inl rfl) .nil
  have alike {lines others : List Text}
      (given : List.Forall₂ (fun line other => line = other ∨ line = other ++ ['\r']) lines
        others) : others.filterMap read = lines.filterMap read := by
    induction given with
    | nil => rfl
    | cons line _ ih =>
        rw [List.filterMap_cons, List.filterMap_cons, ih]
        rcases line with rfl | rfl
        · rfl
        · rw [read_congr trims (trim_append_space _ (by decide))]
  exact alike (shape s)

include blank

theorem readLines_cons_space {c : Char} (space : isSpace c = true) (s : Text) :
    readLines read (c :: s) = readLines read s := by
  by_cases ends : c = '\n'
  · subst ends
    rw [readLines, split, if_pos rfl, List.filterMap_cons, blank]
    rfl
  · obtain ⟨word, words, form⟩ := List.exists_cons_of_ne_nil (split_ne_nil '\n' s)
    rw [readLines, readLines, split_cons_ne ends form, form, List.filterMap_cons,
      List.filterMap_cons, read_congr trims (trim_cons_space space word)]

theorem readLines_append_space (s : Text) {c : Char} (space : isSpace c = true) :
    readLines read (s ++ [c]) = readLines read s := by
  by_cases ends : c = '\n'
  · subst ends
    rw [readLines_append_break, readLines_of_notMem read List.not_mem_nil, blank]
    exact List.append_nil _
  · obtain ⟨front, last, before, after⟩ := split_append_last ends s
    rw [readLines, readLines, before, after, filterMap_read_snoc trims front last space]

theorem readLines_trimRight (s : Text) : readLines read (trimRight s) = readLines read s := by
  induction s using List.reverseRecOn with
  | nil => rfl
  | append_singleton s c ih =>
      by_cases space : isSpace c = true
      · rw [trimRight_append_space s space, ih, readLines_append_space trims blank s space]
      · rw [trimRight, List.rdropWhile_concat_neg isSpace s c space]

theorem readLines_trim (s : Text) : readLines read (trim s) = readLines read s := by
  rw [trim_eq, readLines_trimRight trims blank]
  induction s with
  | nil => rfl
  | cons c s ih =>
      by_cases space : isSpace c = true
      · rw [List.dropWhile_cons_of_pos space, ih, readLines_cons_space trims blank space]
      · rw [List.dropWhile_cons_of_neg space]

end Ecma
