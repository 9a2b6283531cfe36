import Mathlib.Data.List.Infix
import Mathlib.Algebra.BigOperators.Group.List.Basic

/-!
# Lines that end with a carriage return and a line feed

The lines of a text in the protocols of the internet: only the two characters together end a line,
either of them alone belongs to it. `lines_append` cuts at a known end, `join_lines` is the round
trip, and a text is one line when it holds no line end (`lines_of_whole`).
-/

namespace Crlf

def crlf : List Char := ['\r', '\n']

/-- A character before the first line. -/
def extend (c : Char) : List (List Char) → List (List Char)
  | [] => [[c]]
  | line :: more => (c :: line) :: more

/-- The pieces between line ends; the last one is not ended. -/
def lines : List Char → List (List Char)
  | [] => [[]]
  | [c] => [[c]]
  | c :: d :: rest =>
      if c = '\r' ∧ d = '\n' then [] :: lines rest else extend c (lines (d :: rest))

/-- The pieces with line ends between them. -/
def join : List (List Char) → List Char
  | [] => []
  | [line] => line
  | line :: next :: more => line ++ crlf ++ join (next :: more)

/-- Without a line end. -/
def Whole (s : List Char) : Prop := ¬crlf <:+: s

instance instDecidableWhole (s : List Char) : Decidable (Whole s) :=
  inferInstanceAs (Decidable (¬crlf <:+: s))

variable {s t : List Char} {c d : Char}

theorem lines_ne_nil (s : List Char) : lines s ≠ [] := by
  have extended (c : Char) (pieces : List (List Char)) : extend c pieces ≠ [] := by
    cases pieces with
    | nil => exact List.cons_ne_nil _ _
    | cons line more => exact List.cons_ne_nil _ _
  cases s with
  | nil => exact List.cons_ne_nil _ _
  | cons c s =>
      cases s with
      | nil => exact List.cons_ne_nil _ _
      | cons d rest =>
          rw [lines]
          split
          · exact List.cons_ne_nil _ _
          · exact extended c _

theorem lines_crlf (s : List Char) : lines ('\r' :: '\n' :: s) = [] :: lines s := by
  rw [lines, if_pos ⟨rfl, rfl⟩]

/-- A character that begins no line end. -/
theorem lines_cons (other : ¬(c = '\r' ∧ s.head? = some '\n')) :
    lines (c :: s) = extend c (lines s) := by
  cases s with
  | nil => rfl
  | cons d rest =>
      have apart : ¬(c = '\r' ∧ d = '\n') := by
        rintro ⟨rfl, rfl⟩
        exact other ⟨rfl, rfl⟩
      rw [lines, if_neg apart]

theorem extend_append {pieces more : List (List Char)} (some : pieces ≠ []) :
    extend c (pieces ++ more) = extend c pieces ++ more := by
  obtain ⟨line, rest, rfl⟩ := List.exists_cons_of_ne_nil some
  rfl

/-- A text is empty, begins with a line end, or with another character. -/
theorem cut_induction {P : List Char → Prop} (empty : P [])
    (ended : ∀ s, P s → P ('\r' :: '\n' :: s))
    (other : ∀ c s, ¬(c = '\r' ∧ s.head? = some '\n') → P s → P (c :: s)) (s : List Char) :
    P s := by
  induction s using lines.induct with
  | case1 => exact empty
  | case2 c => exact other c [] (fun both => by cases both.2) empty
  | case3 c d rest ends ih =>
      obtain ⟨rfl, rfl⟩ := ends
      exact ended rest ih
  | case4 c d rest apart ih =>
      refine other c (d :: rest) ?_ ih
      rintro ⟨same, first⟩
      exact apart ⟨same, Option.some.inj first⟩

/-- Cutting at a line end. -/
theorem lines_append (s t : List Char) : lines (s ++ crlf ++ t) = lines s ++ lines t := by
  induction s using cut_induction with
  | empty => rfl
  | ended s ih =>
      rw [lines_crlf, List.cons_append, List.cons_append, List.cons_append, List.cons_append,
        lines_crlf, ih, List.cons_append]
  | other c s apart ih =>
      have later : ¬(c = '\r' ∧ (s ++ crlf ++ t).head? = some '\n') := by
        rintro ⟨same, first⟩
        cases s with
        | nil => cases first
        | cons d rest => exact apart ⟨same, first⟩
      rw [List.cons_append, List.cons_append, lines_cons later, ih, lines_cons apart,
        extend_append (lines_ne_nil s)]

/-- A text without line ends is one line. -/
theorem lines_of_whole (whole : Whole s) : lines s = [s] := by
  induction s using cut_induction with
  | empty => rfl
  | ended s ih => exact absurd ⟨[], s, rfl⟩ whole
  | other c s apart ih =>
      have rest : Whole s := fun inside => whole (inside.trans (List.suffix_cons c s).isInfix)
      rw [lines_cons apart, ih rest]
      rfl

/-- The first line begins the text. -/
theorem first_isPrefix {line : List Char} {more : List (List Char)}
    (pieces : lines s = line :: more) : line <+: s := by
  induction s using cut_induction generalizing line more with
  | empty =>
      obtain ⟨rfl, -⟩ := List.cons.inj pieces
      exact List.prefix_refl _
  | ended s ih =>
      rw [lines_crlf] at pieces
      obtain ⟨rfl, -⟩ := List.cons.inj pieces
      exact List.nil_prefix
  | other c s apart ih =>
      obtain ⟨first, rest, tail⟩ := List.exists_cons_of_ne_nil (lines_ne_nil s)
      rw [lines_cons apart, tail, extend] at pieces
      obtain ⟨rfl, -⟩ := List.cons.inj pieces
      exact List.cons_prefix_cons.mpr ⟨rfl, ih tail⟩

/-- No line has a line end. -/
theorem whole_of_mem_lines {line : List Char} (listed : line ∈ lines s) : Whole line := by
  have nothing : Whole [] := by decide
  induction s using cut_induction generalizing line with
  | empty =>
      rw [List.mem_singleton.mp listed]
      exact nothing
  | ended s ih =>
      rw [lines_crlf] at listed
      rcases List.mem_cons.mp listed with rfl | later
      · exact nothing
      · exact ih later
  | other c s apart ih =>
      obtain ⟨first, rest, tail⟩ := List.exists_cons_of_ne_nil (lines_ne_nil s)
      rw [lines_cons apart, tail, extend] at listed
      rw [tail] at ih
      rcases List.mem_cons.mp listed with rfl | later
      · intro inside
        rcases List.infix_cons_iff.mp inside with begins | later
        · obtain ⟨same, next⟩ := List.cons_prefix_cons.mp begins
          obtain ⟨more, form⟩ := next
          obtain ⟨behind, whole⟩ := first_isPrefix tail
          refine apart ⟨same.symm, ?_⟩
          rw [← whole, ← form]
          rfl
        · exact ih List.mem_cons_self later
      · exact ih (List.mem_cons_of_mem _ later)

theorem join_lines (s : List Char) : join (lines s) = s := by
  induction s using cut_induction with
  | empty => rfl
  | ended s ih =>
      obtain ⟨line, more, pieces⟩ := List.exists_cons_of_ne_nil (lines_ne_nil s)
      rw [pieces] at ih
      rw [lines_crlf, pieces, join, ih]
      rfl
  | other c s apart ih =>
      obtain ⟨line, more, pieces⟩ := List.exists_cons_of_ne_nil (lines_ne_nil s)
      rw [pieces] at ih
      rw [lines_cons apart, pieces, extend]
      cases more with
      | nil =>
          rw [join] at ih ⊢
          rw [ih]
      | cons next more =>
          rw [join] at ih ⊢
          rw [List.cons_append, List.cons_append, ih]

/-- The lines of the pieces in turn. -/
theorem lines_join_flatMap {pieces : List (List Char)} (given : pieces ≠ []) :
    lines (join pieces) = pieces.flatMap lines := by
  induction pieces using join.induct with
  | case1 => exact absurd rfl given
  | case2 line => exact (List.append_nil _).symm
  | case3 line next more ih =>
      rw [join, lines_append, ih (List.cons_ne_nil _ _)]
      rfl

/-- Lines without line ends are read back. -/
theorem lines_join {pieces : List (List Char)} (given : pieces ≠ [])
    (whole : ∀ line ∈ pieces, Whole line) : lines (join pieces) = pieces := by
  have each : pieces.flatMap lines = pieces.flatMap fun line => [line] :=
    List.flatMap_congr fun line member => lines_of_whole (whole line member)
  rw [lines_join_flatMap given, each, List.flatMap_singleton']

/-- The same where each piece is ended. -/
theorem lines_flatMap (pieces : List (List Char)) :
    lines (pieces.flatMap (· ++ crlf)) = pieces.flatMap lines ++ [[]] := by
  induction pieces with
  | nil => rfl
  | cons piece pieces ih =>
      rw [List.flatMap_cons, lines_append, ih, List.flatMap_cons, List.append_assoc]

/-- A part of one line. -/
theorem Whole.of_isInfix (whole : Whole t) (inside : s <:+: t) : Whole s :=
  fun ended => whole (ended.trans inside)

/-- Behind characters that begin no line end. -/
theorem Whole.append_left (whole : Whole s) (other : '\r' ∉ t) : Whole (t ++ s) := by
  induction t with
  | nil => exact whole
  | cons c t ih =>
      rw [List.mem_cons, not_or] at other
      intro ended
      rcases List.infix_cons_iff.mp ended with begins | later
      · exact other.1 (List.cons_prefix_cons.mp begins).1
      · exact ih other.2 later

/-- Before a character that ends no line. -/
theorem Whole.concat (whole : Whole s) (other : c ≠ '\n') : Whole (s ++ [c]) := by
  intro ended
  rcases List.infix_concat_iff.mp ended with ends | before
  · have last := (List.suffix_concat_iff.mp ends).resolve_left (List.cons_ne_nil _ _)
    obtain ⟨front, form, -⟩ := last
    have same := congrArg List.getLast? form
    rw [List.getLast?_concat] at same
    exact other (Option.some.inj same).symm
  · exact whole before

/-- A line is ended by both characters: without one of them there is one line. -/
theorem whole_of_notMem (c : Char) (member : c ∈ crlf) (without : c ∉ s) : Whole s :=
  fun ended => without (ended.subset member)

end Crlf
