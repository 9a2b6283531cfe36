import Proxora.BackupRuns
import Proxora.Ecma.Lines
import Proxora.Ecma.Tags

/-!
# Formatting the text of a guest file

`formatMarkup` and `tidyGuestFileText` of `lib/guest-file-format.ts`.

`formatMarkup_keeps` says that formatted markup has the same tags with the same lines between them,
and `formatMarkup_again` when formatting it once more changes nothing.
-/

namespace Proxora

open Ecma

/-! ## Markup -/

/-- `VOID_TAGS`. -/
def voidTags : List Text :=
  ["area", "base", "br", "col", "embed", "hr", "img", "input", "link", "meta", "param", "source",
    "track", "wbr"]

/-- `/^<\/?([^\s>/]+)/.exec(token)?.[1]?.toLowerCase() ?? ""`, for a token that begins with `<`. -/
def markupName (token : Text) : Text :=
  let rest := if startsWith token "</" then token.drop 2 else token.drop 1
  toLowerCase (rest.takeWhile fun c => !isSpace c && c ≠ '>' && c ≠ '/')

def selfClose (token : Text) : Bool :=
  endsWith token "/>" || startsWith token "<!--" || startsWith token "<?" ||
    startsWith token "<!" || voidTags.contains (markupName token)

/-- `"  ".repeat(indent) + line`. -/
def indented (indent : Nat) (line : Text) : Text := List.replicate (2 * indent) ' ' ++ line

/-- `line.trim()`, where it is not empty. -/
def markLine (line : Text) : Option Text := if trim line = [] then none else some (trim line)

/-- One turn of the loop: the indent after it, and the lines that are pushed. -/
def markupStep (indent : Nat) (raw : Text) : Nat × List Text :=
  let token := trim raw
  if token = [] then (indent, [])
  else if startsWith token "</" then (indent - 1, [indented (indent - 1) token])
  else if startsWith token "<" then
    (if selfClose token then indent else indent + 1, [indented indent token])
  else (indent, (readLines markLine token).map (indented indent))

def markupLines (indent : Nat) : List Text → List Text
  | [] => []
  | raw :: rest => (markupStep indent raw).2 ++ markupLines (markupStep indent raw).1 rest

def formatMarkup (text : Text) : Text :=
  join '\n' (markupLines 0 (splitTags (crlfToLf (withoutBom text)))) ++ ['\n']

example : formatMarkup "<a><br>\r\n x </a>" = "<a>\n  <br>\n  x\n</a>\n" := by decide +kernel

/-! ## What a token says -/

/-- A tag, or the lines of a text, without the white space around them. -/
def tokenLines (raw : Text) : List Text :=
  if startsWith (trim raw) "<" then [trim raw] else readLines markLine raw

variable {s t raw line : Text} {c : Char} {n : Nat} {closes : Prop}

theorem markLine_trim (line : Text) : markLine (trim line) = markLine line := by
  rw [markLine, trim_trim]
  rfl

theorem markLine_nil : markLine [] = none := rfl

theorem readLines_mark_trim (s : Text) : readLines markLine (trim s) = readLines markLine s :=
  readLines_trim markLine_trim markLine_nil s

theorem startsWith_open_iff : startsWith s "<" = true ↔ s.head? = some '<' := by
  cases s with
  | nil => decide
  | cons c s =>
      rw [startsWith, List.isPrefixOf_iff_prefix, List.head?_cons, Option.some_inj]
      change ['<'] <+: c :: s ↔ c = '<'
      rw [List.cons_prefix_cons, and_iff_left List.nil_prefix]
      exact eq_comm

/-- The first line that is not blank begins as the text does. -/
theorem head_readLines_mark (s : Text) :
    (readLines markLine s).head?.bind List.head? = (trim s).head? := by
  rw [← readLines_mark_trim s]
  cases form : trim s with
  | nil => rfl
  | cons c rest =>
      have mark := head_trim form
      have other : c ≠ '\n' := by
        rintro rfl
        exact absurd mark (by decide)
      obtain ⟨words, pieces⟩ := split_eq_cons '\n' (c :: rest)
      rw [List.takeWhile_cons_of_pos (by simpa using other)] at pieces
      have first (more : Text) : trim (c :: more) = c :: trimRight more := by
        rw [trim_of_head mark]
        exact trimRight_append_mark [] mark more
      rw [readLines, pieces, List.filterMap_cons, markLine, first, if_neg (List.cons_ne_nil _ _)]
      rfl

/-- What a token says is read from its lines that are not blank. -/
theorem tokenLines_congr (same : readLines markLine s = readLines markLine t)
    (plain : startsWith (trim t) "<" = false) : tokenLines s = tokenLines t := by
  have alike : startsWith (trim s) "<" = false := by
    rw [Bool.eq_false_iff, Ne, startsWith_open_iff, ← head_readLines_mark, same,
      head_readLines_mark, ← startsWith_open_iff, plain]
    exact Bool.false_ne_true
  rw [tokenLines, tokenLines, alike, plain, same]
  rfl

theorem tokenLines_of_trim (same : trim s = trim t) : tokenLines s = tokenLines t := by
  rw [tokenLines, tokenLines, same, ← readLines_mark_trim s, same, readLines_mark_trim]

theorem readLines_mark_of_blank (blank : trim s = []) : readLines markLine s = [] := by
  rw [← readLines_mark_trim, blank]
  rfl

/-- A turn for a text: its lines are pushed, and the indent stays. -/
theorem markupStep_of_plain (plain : startsWith (trim raw) "<" = false) :
    markupStep n raw = (n, (readLines markLine raw).map (indented n)) := by
  have noClose : startsWith (trim raw) "</" = false := by
    rw [Bool.eq_false_iff, Ne, startsWith, List.isPrefixOf_iff_prefix]
    intro closing
    rw [Bool.eq_false_iff, Ne, startsWith, List.isPrefixOf_iff_prefix] at plain
    exact plain ((List.prefix_append ['<'] ['/']).trans closing)
  unfold markupStep
  dsimp only
  split
  · next blank =>
    rw [readLines_mark_of_blank blank]
    rfl
  · rw [noClose, plain, readLines_mark_trim]
    rfl

/-- The indent of the line of a tag. -/
def tagIndent (n : Nat) (raw : Text) : Nat := if startsWith (trim raw) "</" then n - 1 else n

/-- A turn for what begins as a tag does: one line is pushed. -/
theorem markupStep_of_open (opens : startsWith (trim raw) "<" = true) :
    (markupStep n raw).2 = [indented (tagIndent n raw) (trim raw)] := by
  unfold markupStep tagIndent
  dsimp only
  split
  · next blank =>
    rw [blank] at opens
    cases opens
  · split <;> rfl

/-- A turn depends on what the token says only. -/
theorem markupStep_congr (same : tokenLines s = tokenLines t) :
    markupStep n s = markupStep n t := by
  have differ {u v : Text} (opens : startsWith (trim u) "<" = true)
      (plain : startsWith (trim v) "<" = false) : [trim u] ≠ readLines markLine v := by
    intro alike
    have first := head_readLines_mark v
    rw [← alike, List.head?_cons, Option.bind_some, startsWith_open_iff.mp opens] at first
    rw [startsWith_open_iff.mpr first.symm] at plain
    cases plain
  unfold tokenLines at same
  cases left : startsWith (trim s) "<" with
  | true =>
      cases right : startsWith (trim t) "<" with
      | true =>
          rw [left, right, if_pos rfl, if_pos rfl] at same
          unfold markupStep
          rw [(List.cons.inj same).1]
      | false =>
          rw [left, right, if_pos rfl, if_neg Bool.false_ne_true] at same
          exact absurd same (differ left right)
  | false =>
      cases right : startsWith (trim t) "<" with
      | true =>
          rw [left, right, if_pos rfl, if_neg Bool.false_ne_true] at same
          exact absurd same.symm (differ right left)
      | false =>
          rw [left, right, if_neg Bool.false_ne_true, if_neg Bool.false_ne_true] at same
          rw [markupStep_of_plain left, markupStep_of_plain right, same]

theorem markupLines_congr {tokens others : List Text}
    (same : tokens.map tokenLines = others.map tokenLines) :
    markupLines n tokens = markupLines n others := by
  induction tokens generalizing others n with
  | nil =>
      cases others with
      | nil => rfl
      | cons other others => cases same
  | cons token tokens ih =>
      cases others with
      | nil => cases same
      | cons other others =>
          rw [List.map_cons, List.map_cons, List.cons.injEq] at same
          rw [markupLines, markupLines, markupStep_congr same.1, ih same.2]

/-! ## White space around a token -/

/-- White space only. -/
def Blank (s : Text) : Prop := ∀ c ∈ s, isSpace c = true

theorem blank_indent (n : Nat) : Blank (List.replicate (2 * n) ' ') := by
  intro c member
  rw [(List.mem_replicate.mp member).2]
  rfl

theorem trim_blank_append (blank : Blank s) (t : Text) : trim (s ++ t) = trim t := by
  induction s with
  | nil => rfl
  | cons c s ih =>
      rw [List.cons_append, trim_cons_space (blank c List.mem_cons_self)]
      exact ih fun d member => blank d (List.mem_cons_of_mem c member)

theorem readLines_blank_append (blank : Blank s) (t : Text) :
    readLines markLine (s ++ t) = readLines markLine t := by
  induction s with
  | nil => rfl
  | cons c s ih =>
      rw [List.cons_append,
        readLines_cons_space markLine_trim markLine_nil (blank c List.mem_cons_self)]
      exact ih fun d member => blank d (List.mem_cons_of_mem c member)

theorem readLines_append_blank (s : Text) (blank : Blank t) :
    readLines markLine (s ++ t) = readLines markLine s := by
  rw [← readLines_mark_trim, trim_append_spaces s blank, readLines_mark_trim]

/-- A line that is not blank, without the white space around it. -/
structure IsMarkLine (line : Text) : Prop where
  trimmed : trim line = line
  some : line ≠ []
  whole : '\n' ∉ line

theorem isMarkLine_of_mem (member : line ∈ readLines markLine s) : IsMarkLine line := by
  obtain ⟨source, free, read⟩ := line_of_mem_readLines markLine member
  unfold markLine at read
  split at read
  · cases read
  · next some =>
    cases read
    exact ⟨trim_trim source, some, fun inside => free (mem_of_mem_trim inside)⟩

/-- Indented lines are read back. -/
theorem readLines_indented {lines : List Text} (marks : ∀ line ∈ lines, IsMarkLine line) :
    readLines markLine ((lines.map (indented n)).flatMap (· ++ ['\n'])) = lines := by
  induction lines with
  | nil => rfl
  | cons line lines ih =>
      have mark := marks line List.mem_cons_self
      rw [List.map_cons, List.flatMap_cons, List.append_assoc, List.singleton_append,
        readLines_append_break,
        ih fun other member => marks other (List.mem_cons_of_mem line member), indented,
        readLines_blank_append (blank_indent n), readLines_of_notMem markLine mark.whole, markLine,
        mark.trimmed, if_neg mark.some]
      rfl

/-- What is written for a token. -/
def rendered (n : Nat) (raw : Text) : Text := (markupStep n raw).2.flatMap (· ++ ['\n'])

/-- What is written for a token says the same. -/
theorem tokenLines_rendered (n : Nat) (raw : Text) (front : Blank s) (back : Blank t) :
    tokenLines (s ++ (rendered n raw ++ t)) = tokenLines raw := by
  cases opens : startsWith (trim raw) "<" with
  | true =>
      refine tokenLines_of_trim ?_
      rw [rendered, markupStep_of_open opens, List.flatMap_singleton, indented,
        trim_blank_append front, trim_append_spaces _ back, trim_append_space _ (by decide),
        trim_blank_append (blank_indent _), trim_trim]
  | false =>
      refine tokenLines_congr ?_ opens
      rw [rendered, markupStep_of_plain opens, readLines_blank_append front,
        readLines_append_blank _ back]
      exact readLines_indented fun line member => isMarkLine_of_mem member

/-! ## What is written is split as it was -/

theorem Blank.notMem (blank : Blank s) (mark : isSpace c = false) : c ∉ s := by
  intro inside
  rw [blank c inside] at mark
  cases mark

theorem untagged_blank_append (blank : Blank s) (untagged : Untagged closes t) :
    Untagged closes (s ++ t) := by
  induction s with
  | nil => exact untagged
  | cons c s ih =>
      refine ⟨fun opens => ?_, ih fun d member => blank d (List.mem_cons_of_mem c member)⟩
      subst opens
      exact absurd List.mem_cons_self (blank.notMem (by decide))

theorem head_ne_close (blank : Blank s) : s.head? ≠ some '>' := by
  intro first
  exact blank.notMem (c := '>') (by decide) (List.mem_of_head? first)

theorem untagged_append_blank (blank : Blank t) :
    Untagged closes (s ++ t) ↔ Untagged closes s := by
  have never : '>' ∉ t := blank.notMem (by decide)
  have free : Untagged closes t := untagged_of_notMem (blank.notMem (by decide))
  rw [untagged_append (head_ne_close blank), and_iff_left free]
  constructor
  · exact fun untagged => untagged.imp .inl
  · exact fun untagged => untagged.imp fun later => later.resolve_right never

theorem untagged_trim (untagged : Untagged closes s) : Untagged closes (trim s) := by
  have right : trimRight (s.dropWhile isSpace) ++ (s.dropWhile isSpace).rtakeWhile isSpace =
      s.dropWhile isSpace := List.rdropWhile_append_rtakeWhile ..
  have blank : Blank ((s.dropWhile isSpace).rtakeWhile isSpace) :=
    fun c member => List.mem_rtakeWhile_imp member
  have rest : Untagged closes (s.dropWhile isSpace) := by
    rw [← List.takeWhile_append_dropWhile (p := isSpace) (l := s)] at untagged
    exact untagged.of_append_right
  rw [← right, untagged_append_blank blank] at rest
  exact rest

theorem mem_of_mem_lines {words : List Text} (mark : isSpace c = false)
    (member : c ∈ ((words.filterMap markLine).map (indented n)).flatMap (· ++ ['\n'])) :
    ∃ word ∈ words, c ∈ word := by
  obtain ⟨shown, listed, inside⟩ := List.mem_flatMap.mp member
  obtain ⟨line, kept, rfl⟩ := List.mem_map.mp listed
  obtain ⟨word, within, read⟩ := List.mem_filterMap.mp kept
  refine ⟨word, within, ?_⟩
  unfold markLine at read
  split at read
  · cases read
  · cases read
    rcases List.mem_append.mp inside with shown | ends
    · rcases List.mem_append.mp shown with space | inside
      · exact absurd space ((blank_indent n).notMem mark)
      · exact mem_of_mem_trim inside
    · rw [List.mem_singleton.mp ends] at mark
      cases mark

theorem mem_join_of_mem {words : List Text} {word : Text} (within : word ∈ words)
    (inside : c ∈ word) : c ∈ join '\n' words := by
  induction words with
  | nil => cases within
  | cons first words ih =>
      by_cases last : words = []
      · subst last
        rw [List.mem_singleton.mp within] at inside
        exact inside
      · rw [join_cons last]
        rcases List.mem_cons.mp within with rfl | later
        · exact List.mem_append_left _ inside
        · exact List.mem_append_right _ (List.mem_cons_of_mem _ (ih later))

theorem untagged_lines {words : List Text} (untagged : Untagged closes (join '\n' words)) :
    Untagged closes (((words.filterMap markLine).map (indented n)).flatMap (· ++ ['\n'])) := by
  induction words generalizing closes with
  | nil => trivial
  | cons word words ih =>
      have parts : ∃ later, Untagged (closes ∨ later) word ∧
          Untagged closes (((words.filterMap markLine).map (indented n)).flatMap (· ++ ['\n'])) ∧
          ('>' ∈ ((words.filterMap markLine).map (indented n)).flatMap (· ++ ['\n']) → later) := by
        by_cases last : words = []
        · subst last
          exact ⟨False, untagged.imp fun more => more.resolve_right not_false, trivial,
            fun member => absurd member List.not_mem_nil⟩
        · rw [join_cons last, untagged_append (by simp)] at untagged
          refine ⟨_, untagged.1, ih untagged.2.2, fun member => ?_⟩
          obtain ⟨word, within, inside⟩ := mem_of_mem_lines (by decide) member
          exact List.mem_cons_of_mem _ (mem_join_of_mem within inside)
      obtain ⟨later, first, rest, closed⟩ := parts
      rw [List.filterMap_cons, markLine]
      split
      · exact rest
      · next some =>
        split at some
        · cases some
        · cases some
          rw [List.map_cons, List.flatMap_cons, List.append_assoc, indented, List.append_assoc]
          refine untagged_blank_append (blank_indent n) ?_
          rw [List.singleton_append, untagged_append (by simp)]
          refine ⟨(untagged_trim first).imp fun more => ?_,
            fun opens => absurd opens (by decide), rest⟩
          rcases more with closes | inside
          · exact .inl closes
          · rcases List.mem_cons.mp inside with never | inside
            · exact absurd never (by decide)
            · exact .inr (closed inside)

/-- What is written for a text without tags has none. -/
theorem untagged_rendered (untagged : Untagged closes raw) : Untagged closes (rendered n raw) := by
  cases opens : startsWith (trim raw) "<" with
  | true =>
      rw [rendered, markupStep_of_open opens, List.flatMap_singleton, indented, List.append_assoc]
      refine untagged_blank_append (blank_indent _) ?_
      rw [untagged_append_blank (by simp [Blank, isSpace])]
      exact untagged_trim untagged
  | false =>
      rw [rendered, markupStep_of_plain opens]
      refine untagged_lines ?_
      rw [join_split]
      exact untagged

/-- The pieces that formatted markup is made of: every text with what is written for it, and with
the line end of the tag before it and the indent of the tag after it. -/
def retokens (front : Text) (n : Nat) : List Text → List Text
  | [] => []
  | [last] => [front ++ (rendered n last ++ [])]
  | text :: tag :: rest =>
      let middle := (markupStep n text).1
      (front ++ (rendered n text ++ List.replicate (2 * tagIndent middle tag) ' ')) :: tag ::
        retokens ['\n'] (markupStep middle tag).1 rest

theorem trim_of_isTag (isTag : IsTag s) : trim s = s := by
  obtain ⟨inner, -, -, rfl⟩ := isTag
  refine trim_of_marks ?_ ?_
  · intro c first
    cases first
    decide
  · intro c last
    rw [← List.cons_append, List.getLast?_append_of_ne_nil _ (List.cons_ne_nil _ _)] at last
    cases last
    decide

theorem startsWith_of_isTag (isTag : IsTag s) : startsWith (trim s) "<" = true := by
  rw [trim_of_isTag isTag]
  obtain ⟨inner, -, -, rfl⟩ := isTag
  exact startsWith_open_iff.mpr rfl

variable {tokens : List Text} {front : Text}

theorem flatten_retokens (alternates : Alternates tokens) (front : Text) (n : Nat) :
    (retokens front n tokens).flatten =
      front ++ (markupLines n tokens).flatMap (· ++ ['\n']) := by
  induction tokens using Alternates.induct generalizing front n with
  | case1 => exact alternates.elim
  | case2 last =>
      rw [retokens, markupLines, markupLines, List.flatten_singleton, List.append_nil,
        List.append_nil]
      rfl
  | case3 text tag rest ih =>
      obtain ⟨-, isTag, later⟩ := alternates
      rw [retokens, markupLines, markupLines, List.flatMap_append, List.flatMap_append,
        markupStep_of_open (startsWith_of_isTag isTag), trim_of_isTag isTag]
      rw [List.flatten_cons, List.flatten_cons, ih later, List.flatMap_singleton, rendered,
        indented]
      simp only [List.append_assoc]

theorem blank_break : Blank ['\n'] := by
  intro c member
  rw [List.mem_singleton.mp member]
  rfl

theorem alternates_retokens (alternates : Alternates tokens) (blank : Blank front) :
    Alternates (retokens front n tokens) := by
  induction tokens using Alternates.induct generalizing front n with
  | case1 => exact alternates.elim
  | case2 last =>
      rw [retokens, List.append_nil]
      exact untagged_blank_append blank (untagged_rendered alternates)
  | case3 text tag rest ih =>
      obtain ⟨untagged, isTag, later⟩ := alternates
      refine ⟨?_, isTag, ih later blank_break⟩
      refine untagged_blank_append blank ?_
      rw [untagged_append_blank (blank_indent _)]
      exact untagged_rendered untagged

theorem map_tokenLines_retokens (alternates : Alternates tokens) (blank : Blank front) :
    (retokens front n tokens).map tokenLines = tokens.map tokenLines := by
  induction tokens using Alternates.induct generalizing front n with
  | case1 => exact alternates.elim
  | case2 last =>
      rw [retokens, List.map_singleton, List.map_singleton,
        tokenLines_rendered n last blank fun c member => absurd member List.not_mem_nil]
  | case3 text tag rest ih =>
      obtain ⟨-, -, later⟩ := alternates
      rw [retokens, List.map_cons, List.map_cons, List.map_cons, List.map_cons,
        tokenLines_rendered n text blank (blank_indent _), ih later blank_break]

/-! ## Formatted markup -/

theorem join_append_break {lines : List Text} (some : lines ≠ []) :
    join '\n' lines ++ ['\n'] = lines.flatMap (· ++ ['\n']) := by
  induction lines with
  | nil => exact absurd rfl some
  | cons line lines ih =>
      by_cases last : lines = []
      · subst last
        rw [List.flatMap_singleton]
        rfl
      · rw [join_cons last, List.append_assoc, List.cons_append, ih last, List.flatMap_cons,
          List.append_assoc, List.singleton_append]

/-- Without a tag and a line there is nothing but white space. -/
theorem tokens_of_no_lines (alternates : Alternates tokens) (none : markupLines n tokens = []) :
    ∃ last, tokens = [last] ∧ tokenLines last = [] := by
  match tokens, alternates with
  | [last], _ =>
      refine ⟨last, rfl, ?_⟩
      rw [markupLines, markupLines, List.append_nil] at none
      cases opens : startsWith (trim last) "<" with
      | true =>
          rw [markupStep_of_open opens] at none
          cases none
      | false =>
          rw [markupStep_of_plain opens, List.map_eq_nil_iff] at none
          rw [tokenLines, opens]
          exact none
  | text :: tag :: rest, ⟨_, isTag, _⟩ =>
      rw [markupLines, markupLines, markupStep_of_open (startsWith_of_isTag isTag)] at none
      simp at none

theorem tokenLines_of_blank (blank : Blank s) : tokenLines s = [] := by
  have nothing : trim s = [] := by
    rw [← List.append_nil s, trim_blank_append blank]
    rfl
  rw [tokenLines, nothing, if_neg (by decide)]
  exact readLines_mark_of_blank nothing

theorem map_tokenLines_formatMarkup (text : Text) :
    (splitTags (formatMarkup text)).map tokenLines =
      (splitTags (crlfToLf (withoutBom text))).map tokenLines := by
  have alternates := alternates_splitTags (crlfToLf (withoutBom text))
  unfold formatMarkup
  generalize splitTags (crlfToLf (withoutBom text)) = tokens at alternates ⊢
  by_cases some : markupLines 0 tokens = []
  · obtain ⟨last, rfl, silent⟩ := tokens_of_no_lines alternates some
    rw [some, join, List.nil_append,
      splitTags_of_untagged (untagged_of_notMem (by decide)), List.map_singleton,
      List.map_singleton, silent, tokenLines_of_blank blank_break]
  · have empty : Blank ([] : Text) := fun c member => absurd member List.not_mem_nil
    have whole := flatten_retokens alternates [] 0
    rw [List.nil_append] at whole
    rw [join_append_break some, ← whole, splitTags_flatten (alternates_retokens alternates empty),
      map_tokenLines_retokens alternates empty]

/-! ## The marks that stay -/

theorem removeSpaces_append (s t : Text) :
    removeSpaces (s ++ t) = removeSpaces s ++ removeSpaces t :=
  List.filter_append s t

theorem removeSpaces_readLines (s : Text) :
    (readLines markLine s).flatMap removeSpaces = removeSpaces s := by
  have word (line : Text) : (markLine line).toList.flatMap removeSpaces = removeSpaces line := by
    unfold markLine
    split
    · next blank =>
      rw [← removeSpaces_trim, blank]
      rfl
    · rw [← removeSpaces_trim]
      exact List.flatMap_singleton ..
  have pieces (words : List Text) : (words.filterMap markLine).flatMap removeSpaces =
      removeSpaces (join '\n' words) := by
    induction words with
    | nil => rfl
    | cons line words ih =>
        have step : ((line :: words).filterMap markLine).flatMap removeSpaces =
            removeSpaces line ++ removeSpaces (join '\n' words) := by
          rw [← ih, ← word line, List.filterMap_cons]
          cases markLine line <;> simp
        by_cases last : words = []
        · subst last
          rw [step]
          exact List.append_nil _
        · rw [step, join_cons last, removeSpaces_append]
          rfl
  rw [readLines, pieces, join_split]

theorem removeSpaces_tokenLines (raw : Text) :
    (tokenLines raw).flatMap removeSpaces = removeSpaces raw := by
  unfold tokenLines
  split
  · rw [List.flatMap_singleton, removeSpaces_trim]
  · exact removeSpaces_readLines raw

theorem removeSpaces_flatten (tokens : List Text) :
    removeSpaces tokens.flatten = (tokens.map tokenLines).flatMap (·.flatMap removeSpaces) := by
  induction tokens with
  | nil => rfl
  | cons token tokens ih =>
      rw [List.flatten_cons, removeSpaces_append, ih, List.map_cons, List.flatMap_cons,
        removeSpaces_tokenLines]

theorem removeSpaces_crlfToLf (s : Text) : removeSpaces (crlfToLf s) = removeSpaces s := by
  fun_induction crlfToLf s with
  | case1 s ih => exact ih
  | case2 c s _ ih =>
      rw [removeSpaces, removeSpaces, List.filter_cons, List.filter_cons]
      rw [removeSpaces, removeSpaces] at ih
      rw [ih]
  | case3 => rfl

theorem removeSpaces_withoutBom (s : Text) : removeSpaces (withoutBom s) = removeSpaces s := by
  unfold withoutBom
  split
  · next bom =>
    cases s with
    | nil => cases bom
    | cons c s =>
        cases bom
        rfl
  · rfl

/-- Formatting markup changes white space only; and the formatted text is split into the same tags
as before, with the same lines between them. -/
theorem formatMarkup_keeps (text : Text) :
    removeSpaces (formatMarkup text) = removeSpaces text ∧
      (splitTags (formatMarkup text)).map tokenLines =
        (splitTags (crlfToLf (withoutBom text))).map tokenLines := by
  refine ⟨?_, map_tokenLines_formatMarkup text⟩
  rw [← flatten_splitTags (formatMarkup text), removeSpaces_flatten, map_tokenLines_formatMarkup,
    ← removeSpaces_flatten, flatten_splitTags, removeSpaces_crlfToLf, removeSpaces_withoutBom]

/-! ## Formatting again -/

theorem crlfToLf_cons (other : c ≠ '\r') (s : Text) : crlfToLf (c :: s) = c :: crlfToLf s := by
  rw [crlfToLf]
  intro rest same
  exact absurd same other

theorem crlfToLf_of_whole (whole : ¬['\r', '\n'] <:+: s) : crlfToLf s = s := by
  fun_induction crlfToLf s with
  | case1 s ih => exact absurd (List.prefix_append ['\r', '\n'] s).isInfix whole
  | case2 c s _ ih => rw [ih fun inside => whole (List.infix_cons inside)]
  | case3 => rfl

/-- A line feed is new only behind two carriage returns. -/
theorem whole_crlfToLf (single : ¬['\r', '\r', '\n'] <:+: s) :
    ¬['\r', '\n'] <:+: crlfToLf s := by
  fun_induction crlfToLf s with
  | case1 s ih =>
      rw [List.infix_cons_iff, not_or]
      refine ⟨fun first => ?_, ih fun inside => single (List.infix_cons (List.infix_cons inside))⟩
      exact absurd (List.cons_prefix_cons.mp first).1 (by decide)
  | case2 c s other ih =>
      rw [List.infix_cons_iff, not_or]
      refine ⟨fun first => ?_, ih fun inside => single (List.infix_cons inside)⟩
      rw [List.cons_prefix_cons] at first
      obtain ⟨rfl, first⟩ := first
      -- The line feed stood behind a carriage return, or behind two.
      cases s with
      | nil => exact absurd first.length_le (by decide)
      | cons d s =>
          by_cases returns : d = '\r'
          · subst returns
            unfold crlfToLf at first
            split at first
            · next rest same =>
              cases same
              exact single (List.prefix_append ['\r', '\r', '\n'] _).isInfix
            · next same =>
              cases same
              exact absurd (List.cons_prefix_cons.mp first).1 (by decide)
            · next same => cases same
          · rw [crlfToLf_cons returns, List.cons_prefix_cons] at first
            exact other s rfl (first.1 ▸ rfl)
  | case3 => exact fun inside => absurd inside.length_le (by decide)

theorem crlfToLf_append_break (ends : s.getLast? ≠ some '\r') (t : Text) :
    crlfToLf (s ++ '\n' :: t) = crlfToLf s ++ '\n' :: crlfToLf t := by
  fun_induction crlfToLf s with
  | case1 s ih =>
      rw [List.cons_append, List.cons_append, crlfToLf, List.cons_append, ih]
      cases s with
      | nil => exact nofun
      | cons c s => exact ends
  | case2 c s other ih =>
      cases s with
      | nil =>
          have mark : c ≠ '\r' := by
            rintro rfl
            exact ends rfl
          rw [List.cons_append, crlfToLf_cons mark, List.nil_append, crlfToLf_cons (by decide)]
          rfl
      | cons d s =>
          rw [List.cons_append, crlfToLf, ih ends]
          · rfl
          · intro rest same next
            cases next
            exact other s same rfl
  | case3 => exact crlfToLf_cons (by decide) t

/-- A line that has a mark at its end, and no line end of two characters. -/
structure IsKeptLine (line : Text) : Prop where
  whole : crlfToLf line = line
  ends : line.getLast? ≠ some '\r'

theorem crlfToLf_lines {lines : List Text} (kept : ∀ line ∈ lines, IsKeptLine line) :
    crlfToLf (lines.flatMap (· ++ ['\n'])) = lines.flatMap (· ++ ['\n']) := by
  induction lines with
  | nil => rfl
  | cons line lines ih =>
      have first := kept line List.mem_cons_self
      rw [List.flatMap_cons, List.append_assoc, List.singleton_append,
        crlfToLf_append_break first.ends, first.whole,
        ih fun other member => kept other (List.mem_cons_of_mem line member)]

theorem getLast_of_trimmed (trimmed : trim s = s) : s.getLast? ≠ some '\r' := by
  intro last
  obtain ⟨front, rfl⟩ := List.getLast?_eq_some_iff.mp last
  have shorter := congrArg List.length trimmed
  rw [trim_append_space front (by decide), List.length_append, List.length_singleton] at shorter
  have less : (trim front).length ≤ front.length := (trim_isInfix front).length_le
  omega

theorem isKeptLine_indented (trimmed : trim s = s) (some : s ≠ []) (whole : crlfToLf s = s) :
    IsKeptLine (indented n s) := by
  constructor
  · unfold indented
    induction 2 * n with
    | zero => exact whole
    | succ k ih => rw [List.replicate_succ, List.cons_append, crlfToLf_cons (by decide), ih]
  · rw [indented, List.getLast?_append_of_ne_nil _ some]
    exact getLast_of_trimmed trimmed

theorem crlfToLf_of_notMem (free : '\n' ∉ s) : crlfToLf s = s :=
  crlfToLf_of_whole fun inside => free (inside.subset (by simp))

theorem isKeptLine_of_mem (whole : ∀ token ∈ tokens, ¬['\r', '\n'] <:+: token)
    (member : line ∈ markupLines n tokens) : IsKeptLine line := by
  induction tokens generalizing n with
  | nil => cases member
  | cons raw tokens ih =>
      rw [markupLines] at member
      rcases List.mem_append.mp member with here | later
      · cases opens : startsWith (trim raw) "<" with
        | true =>
            rw [markupStep_of_open opens, List.mem_singleton] at here
            rw [here]
            refine isKeptLine_indented (trim_trim raw) ?_ (crlfToLf_of_whole fun inside => ?_)
            · intro blank
              rw [blank] at opens
              cases opens
            · exact whole raw List.mem_cons_self (inside.trans (trim_isInfix raw))
        | false =>
            rw [markupStep_of_plain opens] at here
            obtain ⟨shown, listed, rfl⟩ := List.mem_map.mp here
            have mark := isMarkLine_of_mem listed
            exact isKeptLine_indented mark.trimmed mark.some (crlfToLf_of_notMem mark.whole)
      · exact ih (fun token within => whole token (List.mem_cons_of_mem raw within)) later

/-- The first line is not indented. -/
theorem head_markupLines {more : List Text} (lines : markupLines 0 tokens = line :: more) :
    ∃ c rest, line = c :: rest ∧ isSpace c = false := by
  have start (shown : Text) (trimmed : trim shown = shown) (some : shown ≠ []) :
      ∃ c rest, shown = c :: rest ∧ isSpace c = false := by
    obtain ⟨c, rest, rfl⟩ := List.exists_cons_of_ne_nil some
    exact ⟨c, rest, rfl, head_trim trimmed⟩
  induction tokens with
  | nil => cases lines
  | cons raw tokens ih =>
      rw [markupLines] at lines
      cases opens : startsWith (trim raw) "<" with
      | true =>
          have flat : tagIndent 0 raw = 0 := by
            unfold tagIndent
            split <;> rfl
          rw [markupStep_of_open opens, flat, List.singleton_append, List.cons.injEq] at lines
          rw [← lines.1]
          refine start (trim raw) (trim_trim raw) ?_
          intro blank
          rw [blank] at opens
          cases opens
      | false =>
          rw [markupStep_of_plain opens] at lines
          cases listed : readLines markLine raw with
          | nil =>
              rw [listed] at lines
              exact ih lines
          | cons first others =>
              rw [listed, List.map_cons, List.cons_append, List.cons.injEq] at lines
              have mark : IsMarkLine first := isMarkLine_of_mem (listed ▸ List.mem_cons_self)
              rw [← lines.1]
              exact start first mark.trimmed mark.some

/-- Formatting markup once more changes nothing, where no line feed stands behind two carriage
returns. -/
theorem formatMarkup_again (text : Text) (single : ¬['\r', '\r', '\n'] <:+: text) :
    formatMarkup (formatMarkup text) = formatMarkup text := by
  have suffix : withoutBom text <:+ text := by
    unfold withoutBom
    split
    · exact List.tail_suffix text
    · exact List.suffix_refl text
  have whole : ∀ token ∈ splitTags (crlfToLf (withoutBom text)), ¬['\r', '\n'] <:+: token := by
    intro token member inside
    refine whole_crlfToLf (fun found => single (found.trans suffix.isInfix)) ?_
    rw [← flatten_splitTags (crlfToLf (withoutBom text))]
    exact inside.trans (List.infix_of_mem_flatten member)
  have settled : crlfToLf (withoutBom (formatMarkup text)) = formatMarkup text := by
    cases listed : markupLines 0 (splitTags (crlfToLf (withoutBom text))) with
    | nil =>
        rw [formatMarkup, listed]
        decide
    | cons line more =>
        have form : formatMarkup text = (line :: more).flatMap (· ++ ['\n']) := by
          rw [formatMarkup, listed]
          exact join_append_break (List.cons_ne_nil line more)
        have noBom : withoutBom (formatMarkup text) = formatMarkup text := by
          obtain ⟨c, rest, rfl, mark⟩ := head_markupLines listed
          rw [form, withoutBom, if_neg]
          intro bom
          cases bom
          exact absurd mark (by decide)
        rw [noBom, form]
        refine crlfToLf_lines fun other member => ?_
        rw [← listed] at member
        exact isKeptLine_of_mem whole member
  have same := markupLines_congr (n := 0) (map_tokenLines_formatMarkup text)
  rw [formatMarkup, settled, same]
  rfl

theorem formatMarkup_again_link : formatMarkup (formatMarkup "<p>\r\n<a href='x'>y</a>") =
    formatMarkup "<p>\r\n<a href='x'>y</a>" :=
  formatMarkup_again "<p>\r\n<a href='x'>y</a>" (by decide)

/-- Behind two carriage returns a line feed is not settled at once. -/
example : formatMarkup (formatMarkup "<a\r\r\nb>") ≠ formatMarkup "<a\r\r\nb>" := by
  decide +kernel

end Proxora
