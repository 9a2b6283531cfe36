import Proxora.Ecma.LineBreaks
import Proxora.GuestFileFormat

/-!
# Tidying the text of a guest file

`tidyGuestFileText` of `lib/guest-file-format.ts`. `tidyGuestFileText_settles` says which texts it
leaves as they are, and that it makes such a text of every other one.
-/

namespace Proxora

open Ecma

/-- `line.replace(/\t/g, "  ")`. -/
def expandTabs (line : Text) : Text := line.flatMap fun c => if c = '\t' then [' ', ' '] else [c]

/-- `[ \t]`. -/
def isPadding (c : Char) : Bool := c = ' ' || c = '\t'

def tidyLine (line : Text) : Text := (expandTabs line).rdropWhile isPadding

/-- The loop over the lines; `blank` of the last ones were blank. -/
def keepBlanks (blank : Nat) : List Text → List Text
  | [] => []
  | line :: rest =>
      if line = [] then
        if blank + 1 ≤ 2 then [] :: keepBlanks (blank + 1) rest else keepBlanks (blank + 1) rest
      else line :: keepBlanks 0 rest

/-- The lines of a text, whichever way they end. -/
def fileLines (text : Text) : List Text :=
  split '\n' ((crlfToLf (withoutBom text)).map fun c => if c = '\r' then '\n' else c)

/-- The lines that are put out. -/
def tidyLines (text : Text) : List Text :=
  (keepBlanks 0 ((fileLines text).map tidyLine)).rdropWhile (· = [])

def tidyGuestFileText (text : Text) : Text :=
  if tidyLines text = [] then [] else join '\n' (tidyLines text) ++ ['\n']

example : tidyGuestFileText "\n\n\n\ta \r\n b\r\r" = "\n\n  a\n b\n" := by decide +kernel

/-! ## Tidy texts -/

/-- No line end, no tab, and no blank at the end. -/
structure IsTidyLine (line : Text) : Prop where
  whole : '\n' ∉ line
  noReturn : '\r' ∉ line
  noTab : '\t' ∉ line
  ends : line.getLast? ≠ some ' '

/-- After that many blank lines there are never more than two in a row. -/
def BlankRuns (blank : Nat) : List Text → Prop
  | [] => True
  | line :: rest => if line = [] then blank < 2 ∧ BlankRuns (blank + 1) rest else BlankRuns 0 rest

/-- Lines that are tidy and never more than two blank ones in a row, none at the end, and each ended
by a line feed; there may be none. -/
structure Tidy (text : Text) : Prop where
  noBom : text.head? ≠ some (Char.ofNat 0xFEFF)
  lines : ∃ lines : List Text, text = lines.flatMap (· ++ ['\n']) ∧
    (∀ line ∈ lines, IsTidyLine line) ∧ BlankRuns 0 lines ∧ lines.getLast? ≠ some []

variable {s t line : Text} {lines : List Text} {blank : Nat} {c : Char}

/-! ## Lines -/

theorem expandTabs_of_noTab (noTab : '\t' ∉ line) : expandTabs line = line := by
  induction line with
  | nil => rfl
  | cons c line ih =>
      rw [List.mem_cons, not_or] at noTab
      rw [expandTabs, List.flatMap_cons, if_neg (Ne.symm noTab.1), ← expandTabs, ih noTab.2]
      rfl

theorem tidyLine_of_isTidyLine (tidy : IsTidyLine line) : tidyLine line = line := by
  rw [tidyLine, expandTabs_of_noTab tidy.noTab, List.rdropWhile_eq_self_iff]
  intro some padding
  rw [isPadding, Bool.or_eq_true, decide_eq_true_eq, decide_eq_true_eq] at padding
  rcases padding with space | tab
  · exact tidy.ends (space ▸ List.getLast?_eq_some_getLast some)
  · exact tidy.noTab (tab ▸ List.getLast_mem some)

theorem mem_of_mem_tidyLine (member : c ∈ tidyLine line) : c = ' ' ∨ c ≠ '\t' ∧ c ∈ line := by
  have shown := (List.rdropWhile_prefix isPadding _).subset member
  rw [expandTabs, List.mem_flatMap] at shown
  obtain ⟨d, within, here⟩ := shown
  split at here
  · exact .inl (by simpa using here)
  · next other =>
    rw [List.mem_singleton] at here
    exact .inr ⟨here ▸ other, here ▸ within⟩

theorem isTidyLine_tidyLine (whole : '\n' ∉ line) (noReturn : '\r' ∉ line) :
    IsTidyLine (tidyLine line) where
  whole := fun inside => (mem_of_mem_tidyLine inside).elim (by decide) fun found => whole found.2
  noReturn := fun inside =>
    (mem_of_mem_tidyLine inside).elim (by decide) fun found => noReturn found.2
  noTab := fun inside =>
    (mem_of_mem_tidyLine inside).elim (by decide) fun found => found.1 rfl
  ends := by
    intro last
    have some : tidyLine line ≠ [] := by
      intro empty
      rw [empty] at last
      cases last
    have same := Option.some.inj ((List.getLast?_eq_some_getLast some).symm.trans last)
    refine List.rdropWhile_last_not isPadding _ some ?_
    change isPadding ((tidyLine line).getLast some) = true
    rw [same]
    rfl

/-! ## Blank lines -/

theorem BlankRuns.mono {fewer : Nat} (runs : BlankRuns blank lines) (less : fewer ≤ blank) :
    BlankRuns fewer lines := by
  induction lines generalizing blank fewer with
  | nil => trivial
  | cons line lines ih =>
      unfold BlankRuns at runs ⊢
      split
      · next empty =>
        rw [if_pos empty] at runs
        exact ⟨less.trans_lt runs.1, ih runs.2 (Nat.succ_le_succ less)⟩
      · next some =>
        rw [if_neg some] at runs
        exact runs

theorem blankRuns_keepBlanks (lines : List Text) :
    ∀ blank, BlankRuns blank (keepBlanks blank lines) := by
  induction lines with
  | nil => exact fun _ => trivial
  | cons line lines ih =>
      intro blank
      unfold keepBlanks
      split
      · split
        · next room =>
          rw [BlankRuns, if_pos rfl]
          exact ⟨Nat.lt_of_succ_le room, ih (blank + 1)⟩
        · exact (ih (blank + 1)).mono (Nat.le_succ blank)
      · next some =>
        rw [BlankRuns, if_neg some]
        exact ih 0

theorem BlankRuns.of_append {more : List Text} (runs : BlankRuns blank (lines ++ more)) :
    BlankRuns blank lines := by
  induction lines generalizing blank with
  | nil => trivial
  | cons line lines ih =>
      rw [List.cons_append, BlankRuns] at runs
      rw [BlankRuns]
      split
      · next empty =>
        rw [if_pos empty] at runs
        exact ⟨runs.1, ih runs.2⟩
      · next some =>
        rw [if_neg some] at runs
        exact ih runs

/-- Lines with short runs of blank ones are kept, and a blank line at the end may be. -/
theorem keepBlanks_of_blankRuns (runs : BlankRuns blank lines) :
    ∃ n, keepBlanks blank (lines ++ [[]]) = lines ++ List.replicate n [] := by
  induction lines generalizing blank with
  | nil =>
      rw [List.nil_append, keepBlanks, if_pos rfl]
      split
      · exact ⟨1, rfl⟩
      · exact ⟨0, rfl⟩
  | cons line lines ih =>
      rw [BlankRuns] at runs
      rw [List.cons_append, keepBlanks]
      split
      · next empty =>
        rw [if_pos empty] at runs
        obtain ⟨n, kept⟩ := ih runs.2
        rw [if_pos (Nat.succ_le_of_lt runs.1), kept, empty]
        exact ⟨n, rfl⟩
      · next some =>
        rw [if_neg some] at runs
        obtain ⟨n, kept⟩ := ih runs
        rw [kept]
        exact ⟨n, rfl⟩

/-- Nothing is put out but lines that were given. -/
theorem mem_of_mem_keepBlanks (member : line ∈ keepBlanks blank lines) : line ∈ lines := by
  induction lines generalizing blank with
  | nil => cases member
  | cons first lines ih =>
      unfold keepBlanks at member
      split at member
      · next empty =>
        split at member
        · rcases List.mem_cons.mp member with here | later
          · rw [here, empty]
            exact List.mem_cons_self
          · exact List.mem_cons_of_mem first (ih later)
        · exact List.mem_cons_of_mem first (ih member)
      · rcases List.mem_cons.mp member with here | later
        · rw [here]
          exact List.mem_cons_self
        · exact List.mem_cons_of_mem first (ih later)

/-! ## Tidying -/

theorem tidyGuestFileText_eq (text : Text) :
    tidyGuestFileText text = (tidyLines text).flatMap (· ++ ['\n']) := by
  unfold tidyGuestFileText
  split
  · next empty => rw [empty, List.flatMap_nil]
  · next some => exact join_append_break some

theorem break_notMem_of_mem_fileLines (member : line ∈ fileLines s) :
    '\n' ∉ line ∧ '\r' ∉ line := by
  refine ⟨sep_notMem_of_mem_split member, fun inside => ?_⟩
  have shown := mem_of_mem_split member inside
  obtain ⟨c, -, same⟩ := List.mem_map.mp shown
  split at same
  · cases same
  · next other => exact other same

theorem isTidyLine_of_mem (member : line ∈ tidyLines s) : IsTidyLine line := by
  have kept := (List.rdropWhile_prefix _ _).subset member
  obtain ⟨source, listed, rfl⟩ := List.mem_map.mp (mem_of_mem_keepBlanks kept)
  obtain ⟨whole, noReturn⟩ := break_notMem_of_mem_fileLines listed
  exact isTidyLine_tidyLine whole noReturn

theorem getLast_tidyLines (s : Text) : (tidyLines s).getLast? ≠ some [] := by
  intro last
  have some : tidyLines s ≠ [] := by
    intro empty
    rw [empty] at last
    cases last
  have same := Option.some.inj ((List.getLast?_eq_some_getLast some).symm.trans last)
  exact List.rdropWhile_last_not _ _ some (decide_eq_true same)

theorem blankRuns_tidyLines (s : Text) : BlankRuns 0 (tidyLines s) := by
  have kept := blankRuns_keepBlanks ((fileLines s).map tidyLine) 0
  rw [← List.rdropWhile_append_rtakeWhile (p := (· = []))
    (l := keepBlanks 0 ((fileLines s).map tidyLine))] at kept
  exact kept.of_append

/-- A tidy text is left as it is. -/
theorem tidyGuestFileText_of_tidy (tidy : Tidy s) : tidyGuestFileText s = s := by
  obtain ⟨noBom, lines, form, each, runs, last⟩ := tidy
  have noReturn : '\r' ∉ s := by
    rw [form]
    intro inside
    obtain ⟨line, listed, here⟩ := List.mem_flatMap.mp inside
    rcases List.mem_append.mp here with found | never
    · exact (each line listed).noReturn found
    · exact absurd (List.mem_singleton.mp never) (by decide)
  have same : (crlfToLf (withoutBom s)).map (fun c => if c = '\r' then '\n' else c) = s := by
    rw [withoutBom, if_neg noBom,
      crlfToLf_of_whole fun inside => noReturn (inside.subset (by simp))]
    refine (List.map_congr_left fun c member => ?_).trans (List.map_id s)
    rw [if_neg]
    · rfl
    · rintro rfl
      exact noReturn member
  have listed : (fileLines s).map tidyLine = lines ++ [[]] := by
    rw [fileLines, same, form, split_lines fun line listed => (each line listed).whole,
      List.map_append]
    refine congrArg₂ (· ++ ·) ?_ rfl
    exact (List.map_congr_left fun line listed => tidyLine_of_isTidyLine (each line listed)).trans
      (List.map_id lines)
  obtain ⟨n, kept⟩ := keepBlanks_of_blankRuns runs
  have stays : tidyLines s = lines := by
    rw [tidyLines, listed, kept]
    clear kept
    have ends : lines.rdropWhile (· = []) = lines := by
      rw [List.rdropWhile_eq_self_iff]
      intro some blank
      refine last ?_
      rw [List.getLast?_eq_some_getLast some, of_decide_eq_true blank]
    induction n with
    | zero => rw [List.replicate_zero, List.append_nil, ends]
    | succ n ih =>
        rw [List.replicate_succ', ← List.append_assoc, List.rdropWhile_concat_pos _ _ _ (by simp)]
        exact ih
  rw [tidyGuestFileText_eq, stays, ← form]

/-! ## The marks that stay -/

/-- A blank, a tab or half of a line end. -/
def isFiller (c : Char) : Bool := c = ' ' || c = '\t' || c = '\n' || c = '\r'

/-- What is left without blanks, tabs and line ends. -/
def withoutFillers (s : Text) : Text := s.filter fun c => !isFiller c

theorem withoutFillers_append (s t : Text) :
    withoutFillers (s ++ t) = withoutFillers s ++ withoutFillers t :=
  List.filter_append s t

theorem withoutFillers_cons (c : Char) (s : Text) :
    withoutFillers (c :: s) = if isFiller c then withoutFillers s else c :: withoutFillers s := by
  rw [withoutFillers, List.filter_cons]
  cases isFiller c <;> rfl

theorem withoutFillers_expandTabs (line : Text) :
    withoutFillers (expandTabs line) = withoutFillers line := by
  induction line with
  | nil => rfl
  | cons c line ih =>
      rw [expandTabs, List.flatMap_cons, ← expandTabs, withoutFillers_append, ih,
        withoutFillers_cons c line]
      split
      · next tab =>
        subst tab
        rfl
      · rw [withoutFillers_cons]
        split <;> rfl

theorem withoutFillers_tidyLine (line : Text) :
    withoutFillers (tidyLine line) = withoutFillers line := by
  have dropped : withoutFillers ((expandTabs line).rtakeWhile isPadding) = [] := by
    refine List.filter_eq_nil_iff.mpr fun c member => ?_
    have padding := List.mem_rtakeWhile_imp member
    rw [isPadding, Bool.or_eq_true] at padding
    rw [isFiller]
    rcases padding with space | tab
    · simp [of_decide_eq_true space]
    · simp [of_decide_eq_true tab]
  rw [← withoutFillers_expandTabs line,
    ← List.rdropWhile_append_rtakeWhile (p := isPadding) (l := expandTabs line),
    withoutFillers_append, dropped, List.append_nil]
  rfl

theorem withoutFillers_keepBlanks (lines : List Text) :
    ∀ blank, (keepBlanks blank lines).flatMap withoutFillers = lines.flatMap withoutFillers := by
  induction lines with
  | nil => exact fun _ => rfl
  | cons line lines ih =>
      intro blank
      unfold keepBlanks
      split
      · next empty =>
        subst empty
        split
        · exact ih (blank + 1)
        · exact ih (blank + 1)
      · rw [List.flatMap_cons, List.flatMap_cons, ih 0]

theorem withoutFillers_join (words : List Text) :
    withoutFillers (join '\n' words) = words.flatMap withoutFillers := by
  induction words with
  | nil => rfl
  | cons word words ih =>
      by_cases last : words = []
      · subst last
        rw [List.flatMap_singleton]
        rfl
      · rw [join_cons last, withoutFillers_append, withoutFillers_cons, ih]
        rfl

theorem withoutFillers_crlfToLf (s : Text) :
    withoutFillers (crlfToLf s) = withoutFillers s := by
  fun_induction crlfToLf s with
  | case1 s ih => exact ih
  | case2 c s _ ih => rw [withoutFillers_cons, withoutFillers_cons, ih]
  | case3 => rfl

theorem withoutFillers_fileLines (s : Text) :
    (fileLines s).flatMap withoutFillers = withoutFillers (withoutBom s) := by
  rw [fileLines, ← withoutFillers_join, join_split, ← withoutFillers_crlfToLf (withoutBom s)]
  induction crlfToLf (withoutBom s) with
  | nil => rfl
  | cons c s ih =>
      rw [List.map_cons, withoutFillers_cons, withoutFillers_cons, ih]
      by_cases returns : c = '\r'
      · subst returns
        rfl
      · rw [if_neg returns]

theorem withoutFillers_tidyGuestFileText (s : Text) :
    withoutFillers (tidyGuestFileText s) = withoutFillers (withoutBom s) := by
  have ended (lines : List Text) : withoutFillers (lines.flatMap (· ++ ['\n'])) =
      lines.flatMap withoutFillers := by
    induction lines with
    | nil => rfl
    | cons line lines ih =>
        rw [List.flatMap_cons, withoutFillers_append, ih, withoutFillers_append,
          List.flatMap_cons]
        exact congrArg (· ++ _) (List.append_nil _)
  have blanks : ((keepBlanks 0 ((fileLines s).map tidyLine)).rtakeWhile (· = [])).flatMap
      withoutFillers = [] := by
    refine List.flatMap_eq_nil_iff.mpr fun line member => ?_
    have empty := List.mem_rtakeWhile_imp member
    rw [decide_eq_true_eq] at empty
    rw [empty]
    rfl
  have whole := withoutFillers_keepBlanks ((fileLines s).map tidyLine) 0
  rw [← List.rdropWhile_append_rtakeWhile (p := (· = []))
    (l := keepBlanks 0 ((fileLines s).map tidyLine)), List.flatMap_append, blanks,
    List.append_nil, List.flatMap_map] at whole
  rw [tidyGuestFileText_eq, ended, tidyLines, whole, ← withoutFillers_fileLines]
  exact List.flatMap_congr fun line _ => withoutFillers_tidyLine line

/-! ## What tidying settles -/

theorem head_of_prefix (shorter : s <+: t) (first : s.head? = some c) : t.head? = some c := by
  rw [← List.singleton_prefix_iff_head?_eq_some] at first ⊢
  exact first.trans shorter

theorem head_crlfToLf (first : (crlfToLf s).head? = some c) (mark : c ≠ '\n') :
    s.head? = some c := by
  unfold crlfToLf at first
  split at first
  · exact absurd (Option.some.inj first).symm mark
  · exact first
  · cases first

/-- What stands in front of the first line stands in front of the text. -/
theorem head_fileLines {words : List Text} (pieces : fileLines s = line :: words)
    (first : line.head? = some c) (mark : c ≠ '\n') : (withoutBom s).head? = some c := by
  obtain ⟨others, form⟩ := split_eq_cons '\n'
    ((crlfToLf (withoutBom s)).map fun c => if c = '\r' then '\n' else c)
  rw [fileLines, form, List.cons.injEq] at pieces
  rw [← pieces.1] at first
  have shown := head_of_prefix (List.takeWhile_prefix _) first
  rw [List.head?_map, Option.map_eq_some_iff] at shown
  obtain ⟨d, front, same⟩ := shown
  split at same
  · exact absurd same.symm mark
  · rw [← same] at mark ⊢
    exact head_crlfToLf front mark

theorem head_tidyLine (first : (tidyLine line).head? = some c) (mark : c ≠ ' ') :
    line.head? = some c := by
  have shown := head_of_prefix (List.rdropWhile_prefix _ _) first
  cases line with
  | nil => cases shown
  | cons d line =>
      rw [expandTabs, List.flatMap_cons] at shown
      split at shown
      · exact absurd (Option.some.inj shown).symm mark
      · exact shown

/-- A byte order mark comes out in front only if there are two in front. -/
theorem head_tidyGuestFileText (two : ¬[Char.ofNat 0xFEFF, Char.ofNat 0xFEFF] <+: s) :
    (tidyGuestFileText s).head? ≠ some (Char.ofNat 0xFEFF) := by
  intro first
  rw [tidyGuestFileText_eq] at first
  cases shown : tidyLines s with
  | nil =>
      rw [shown] at first
      cases first
  | cons line more =>
      rw [shown, List.flatMap_cons] at first
      have front : line.head? = some (Char.ofNat 0xFEFF) := by
        cases line with
        | nil => cases first
        | cons c line => exact first
      -- The first line that is put out is the first one of the text.
      obtain ⟨source, words, pieces⟩ : ∃ source words, fileLines s = source :: words :=
        List.exists_cons_of_ne_nil (split_ne_nil '\n' _)
      have kept : [line] <+: keepBlanks 0 ((fileLines s).map tidyLine) := by
        have shorter : tidyLines s <+: keepBlanks 0 ((fileLines s).map tidyLine) :=
          List.rdropWhile_prefix _ _
        rw [shown] at shorter
        exact (List.prefix_append [line] more).trans shorter
      have same : line = tidyLine source := by
        rw [pieces, List.map_cons, keepBlanks] at kept
        split at kept
        · next empty =>
          rw [empty]
          exact (List.cons_prefix_cons.mp kept).1
        · exact (List.cons_prefix_cons.mp kept).1
      rw [same] at front
      have begins := head_fileLines pieces (head_tidyLine front (by decide)) (by decide)
      unfold withoutBom at begins
      split at begins
      · next bom =>
        obtain ⟨rest, rfl⟩ := List.head?_eq_some_iff.mp bom
        obtain ⟨rest, rfl⟩ := List.head?_eq_some_iff.mp begins
        exact two (List.prefix_append [_, _] rest)
      · next other => exact other begins

end Proxora
