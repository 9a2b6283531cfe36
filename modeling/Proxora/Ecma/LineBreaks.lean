import Proxora.Ecma.Text

/-!
# Line breaks

A text cut at line feeds, with or without a carriage return before them. `splitLines_lines` is the
round trip for lines that are ended one by one.
-/

namespace Ecma

/-- `s.replace(/\r$/, "")`. -/
def dropCr (s : Text) : Text := if s.getLast? = some '\r' then s.dropLast else s

/-- `s.split(/\r?\n/)`. -/
def splitLines (s : Text) : List Text :=
  (split '\n' s).dropLast.map dropCr ++ (split '\n' s).getLast?.toList

variable {s : Text}

theorem dropCr_append {front : Text} (clean : front.getLast? ≠ some '\r') (s : Text) :
    dropCr (front ++ s) = front ++ dropCr s := by
  cases s using List.reverseRecOn with
  | nil =>
      rw [List.append_nil, dropCr, if_neg clean]
      exact (List.append_nil front).symm
  | append_singleton s c =>
      rw [dropCr, dropCr, ← List.append_assoc, List.getLast?_concat, List.getLast?_concat,
        List.dropLast_concat, List.dropLast_concat]
      split
      · rfl
      · exact List.append_assoc _ _ _

theorem dropCr_of_clean (clean : s.getLast? ≠ some '\r') : dropCr s = s := if_neg clean

theorem dropCr_isPrefix (s : Text) : dropCr s <+: s := by
  rw [dropCr]
  split
  · exact List.dropLast_prefix s
  · exact List.prefix_refl s

/-- Dropping twice shortens a text that ends in a carriage return. -/
theorem dropCr_twice (s : Text) : (dropCr (dropCr s)).length ≤ s.length ∧
    ((dropCr (dropCr s)).length = s.length → s.getLast? ≠ some '\r') := by
  have outer := (dropCr_isPrefix (dropCr s)).length_le
  have inner := (dropCr_isPrefix s).length_le
  refine ⟨outer.trans inner, ?_⟩
  intro same ends
  have some : s ≠ [] := by
    rintro rfl
    cases ends
  have shorter : (dropCr s).length = s.length - 1 := by
    rw [dropCr, if_pos ends, List.length_dropLast]
  have positive := List.length_pos_of_ne_nil some
  omega

/-- Lines that are ended one by one. -/
theorem split_lines {lines : List Text} (whole : ∀ line ∈ lines, '\n' ∉ line) :
    split '\n' (lines.flatMap (· ++ ['\n'])) = lines ++ [[]] := by
  induction lines with
  | nil => rfl
  | cons line rest ih =>
      rw [List.flatMap_cons, List.append_assoc, List.singleton_append, split_append_cons,
        split_of_notMem (whole line List.mem_cons_self),
        ih fun other listed => whole other (List.mem_cons_of_mem line listed)]
      rfl

theorem splitLines_lines {lines : List Text} (whole : ∀ line ∈ lines, '\n' ∉ line) :
    splitLines (lines.flatMap (· ++ ['\n'])) = lines.map dropCr ++ [[]] := by
  rw [splitLines, split_lines whole, List.dropLast_concat, List.getLast?_concat]
  rfl

/-- The first line, and the others. -/
theorem splitLines_cons {line : Text} (whole : '\n' ∉ line) (t : Text) :
    splitLines (line ++ '\n' :: t) = dropCr line :: splitLines t := by
  obtain ⟨first, rest, pieces⟩ := List.exists_cons_of_ne_nil (split_ne_nil '\n' t)
  rw [splitLines, split_append_cons, split_of_notMem whole, List.singleton_append, splitLines,
    pieces, List.dropLast_cons_cons, List.getLast?_cons_cons, List.map_cons, List.cons_append]

/-- A text without line breaks is one line. -/
theorem splitLines_of_notMem (whole : '\n' ∉ s) : splitLines s = [s] := by
  rw [splitLines, split_of_notMem whole]
  rfl

/-- A text that begins with a character of a line has a line. -/
theorem exists_line {c : Char} (noBreak : c ≠ '\n') (noReturn : c ≠ '\r') (s : Text) :
    ∃ line ∈ splitLines (c :: s), line ≠ [] := by
  obtain ⟨word, words, tail⟩ := List.exists_cons_of_ne_nil (split_ne_nil '\n' s)
  rw [splitLines, split_cons_ne noBreak tail]
  cases words with
  | nil => exact ⟨c :: word, List.mem_singleton_self _, List.cons_ne_nil c word⟩
  | cons next words =>
      refine ⟨dropCr (c :: word), List.mem_append_left _ (List.mem_map_of_mem (by simp)), ?_⟩
      have kept : dropCr ([c] ++ word) = [c] ++ dropCr word :=
        dropCr_append (by simpa using noReturn) word
      rw [List.singleton_append] at kept
      rw [kept]
      exact List.cons_ne_nil c _

/-- A piece of a text between line breaks has none. -/
theorem break_notMem_of_mem_splitLines {line : Text} (listed : line ∈ splitLines s) :
    '\n' ∉ line := by
  rcases List.mem_append.mp listed with front | last
  · obtain ⟨piece, member, rfl⟩ := List.mem_map.mp front
    intro inside
    exact sep_notMem_of_mem_split (List.dropLast_subset _ member)
      ((dropCr_isPrefix piece).subset inside)
  · exact sep_notMem_of_mem_split (List.mem_of_getLast? (Option.mem_toList.mp last))

end Ecma
