import Proxora.Ecma.Uri

/-!
# Paths of special URLs

The path and query states of the URL parser for an `http` or `https` URL,
started after the authority: tabs and line breaks are dropped, the path ends at
`?` or `#`, a backslash counts as a slash, and dot segments are resolved.

`parsePath_of_plain` reads a path whose characters need no treatment as its
segments, `walk_of_noDots` and `isDots_of_mem_walk` say what the dot segments
do to them.
-/

namespace Ecma

/-- Dropped wherever they stand. -/
def isTabOrNewline (c : Char) : Bool := c = '\t' || c = '\n' || c = '\r'

/-- What the parser reads: no tabs or line breaks, no trailing control or space. -/
def urlInput (s : Text) : Text :=
  ((s.filter fun c => !isTabOrNewline c).reverse.dropWhile fun c => c.toNat ≤ 0x20).reverse

/-- The path percent-encode set. -/
def inPathSet (c : Char) : Bool :=
  c.toNat ≤ 0x20 || 0x7E < c.toNat || "\"#<>?^`{}".toList.contains c

/-- A single-dot URL path segment. -/
def isSingleDot (segment : Text) : Bool :=
  segment.map Char.toLower = "." || segment.map Char.toLower = "%2e"

/-- A double-dot URL path segment. -/
def isDoubleDot (segment : Text) : Bool :=
  ([".." , ".%2e", "%2e.", "%2e%2e"] : List Text).contains (segment.map Char.toLower)

/-- A segment that the path state does not keep. -/
def isDots (segment : Text) : Bool := isSingleDot segment || isDoubleDot segment

/-- The path state, over the segments still to read and the path built so far. -/
def walk (path : List Text) : List Text → List Text
  | [] => path
  | [last] =>
      if isDoubleDot last then path.dropLast ++ [[]]
      else if isSingleDot last then path ++ [[]]
      else path ++ [last]
  | segment :: next :: rest =>
      if isDoubleDot segment then walk path.dropLast (next :: rest)
      else if isSingleDot segment then walk path (next :: rest)
      else walk (path ++ [segment]) (next :: rest)

/-- The part of the input that is its path. -/
def pathPart (input : Text) : Text := input.takeWhile fun c => c ≠ '?' && c ≠ '#'

/-- The query of the input, without its question mark; empty when there is none. -/
def queryPart (input : Text) : Text :=
  match (input.takeWhile (· ≠ '#')).dropWhile (· ≠ '?') with
  | [] => []
  | _ :: query => query

/-- The path of a URL whose text after the authority is `s`. -/
def parsePath (s : Text) : List Text :=
  let slashes := (pathPart (urlInput s)).map fun c => if c = '\\' then '/' else c
  let encoded := percentEncode (fun c => !inPathSet c) slashes
  match encoded with
  | '/' :: rest => walk [] (split '/' rest)
  | rest => walk [] (split '/' rest)

/-- A character the path state copies. -/
def isPlain (c : Char) : Bool := uriEncoded c || c == '/'

theorem plain_bounds {c : Char} (plain : isPlain c = true) : 0x20 < c.toNat ∧ c.toNat ≤ 0x7E := by
  have bounded : ∀ n < 128, isPlain (Char.ofNat n) = true → 0x20 < n ∧ n ≤ 0x7E := by decide
  have ascii : c.toNat < 128 := by
    simp only [isPlain, Bool.or_eq_true, beq_iff_eq] at plain
    rcases plain with encoded | rfl
    · exact ascii_of_uriEncoded encoded
    · decide
  exact bounded c.toNat ascii (by rwa [Char.ofNat_toNat])

/-! ## From the text to its segments -/

/-- The end of the input is trimmed back to the last character that is no
control or space. -/
def trimEnd (s : Text) : Text := (s.reverse.dropWhile fun c => c.toNat ≤ 0x20).reverse

theorem trimEnd_append_cons (x y : Text) {c : Char} (visible : 0x20 < c.toNat) :
    ∃ t, trimEnd (x ++ c :: y) = x ++ c :: t ∧ (y = [] → t = []) := by
  have stop : ¬(c.toNat ≤ 0x20 : Bool) = true := by simpa using visible
  rw [trimEnd, List.reverse_append, List.reverse_cons, List.append_assoc, List.singleton_append,
    List.dropWhile_append]
  split
  · refine ⟨[], ?_, fun _ => rfl⟩
    rw [List.dropWhile_cons_of_neg (p := fun c : Char => c.toNat ≤ 0x20) stop]
    simp
  · refine ⟨(y.reverse.dropWhile fun c => c.toNat ≤ 0x20).reverse, by simp, ?_⟩
    rintro rfl
    rfl

/-- What the parser sees of a base path. -/
def seenBase (base : Text) : Text := base.filter fun c => !isTabOrNewline c

theorem plain_keeps {c : Char} (plain : isPlain c = true) :
    isTabOrNewline c = false ∧ (c ≠ '?' && c ≠ '#') = true ∧ c ≠ '\\' ∧ inPathSet c = false := by
  have bounded : ∀ n < 128, isPlain (Char.ofNat n) = true →
      isTabOrNewline (Char.ofNat n) = false ∧
        (Char.ofNat n ≠ '?' && Char.ofNat n ≠ '#') = true ∧ Char.ofNat n ≠ '\\' ∧
        inPathSet (Char.ofNat n) = false := by decide
  have bounds := plain_bounds plain
  have entry := bounded c.toNat (by omega)
  rw [Char.ofNat_toNat] at entry
  exact entry plain

/-- The path of a target made of a base without query, a plain path and a search. -/
theorem pathPart_urlInput {base rest search : Text}
    (baseFree : ∀ c ∈ base, c ≠ '?' ∧ c ≠ '#') (plain : ∀ c ∈ rest, isPlain c = true)
    (searchShape : search = [] ∨ ∃ query, search = '?' :: query) :
    pathPart (urlInput (base ++ '/' :: rest ++ search)) = seenBase base ++ '/' :: rest := by
  have slash : isPlain '/' = true := by decide
  have kept : ('/' :: rest).filter (fun c => !isTabOrNewline c) = '/' :: rest := by
    rw [List.filter_eq_self]
    intro c member
    have all : isPlain c = true := by
      rcases List.mem_cons.mp member with rfl | inside
      · exact slash
      · exact plain c inside
    rw [(plain_keeps all).1]
    rfl
  have free : ∀ c ∈ seenBase base ++ '/' :: rest, (c ≠ '?' && c ≠ '#') = true := by
    intro c member
    rcases List.mem_append.mp member with inBase | inRest
    · simpa using baseFree c (List.mem_of_mem_filter inBase)
    · rcases List.mem_cons.mp inRest with rfl | inside
      · rfl
      · exact (plain_keeps (plain c inside)).2.1
  have filtered : (base ++ '/' :: rest ++ search).filter (fun c => !isTabOrNewline c) =
      (seenBase base ++ '/' :: rest) ++ search.filter (fun c => !isTabOrNewline c) := by
    rw [List.filter_append, List.filter_append, kept]
    rfl
  rw [urlInput, filtered, ← trimEnd, pathPart]
  rcases searchShape with rfl | ⟨query, rfl⟩
  · -- without a search the path ends in a plain character
    obtain ⟨front, last, cut⟩ := List.eq_nil_or_concat ('/' :: rest) |>.resolve_left (by simp)
    have lastPlain : isPlain last = true := by
      have member : last ∈ '/' :: rest := by rw [cut]; simp
      rcases List.mem_cons.mp member with rfl | inside
      · exact slash
      · exact plain last inside
    obtain ⟨t, trimmed, none⟩ := trimEnd_append_cons (seenBase base ++ front) []
      (plain_bounds lastPlain).1
    rw [none rfl] at trimmed
    rw [List.filter_nil, List.append_nil]
    have whole : seenBase base ++ '/' :: rest = (seenBase base ++ front) ++ [last] := by
      rw [cut]
      simp
    rw [whole, trimmed, ← whole]
    exact List.takeWhile_eq_self_iff.mpr free
  · have mark : ('?' :: query).filter (fun c => !isTabOrNewline c) =
        '?' :: query.filter fun c => !isTabOrNewline c := by
      rw [List.filter_cons_of_pos (by decide)]
    obtain ⟨t, trimmed, _⟩ := trimEnd_append_cons (seenBase base ++ '/' :: rest)
      (query.filter fun c => !isTabOrNewline c) (c := '?') (by decide)
    rw [mark, trimmed, List.takeWhile_append_of_pos free, List.takeWhile_cons_of_neg (by decide),
      List.append_nil]

/-- The state of the path once the segments have been read and more follow. -/
def walkOn (path : List Text) : List Text → List Text
  | [] => path
  | segment :: rest =>
      if isDoubleDot segment then walkOn path.dropLast rest
      else if isSingleDot segment then walkOn path rest
      else walkOn (path ++ [segment]) rest

theorem walk_append {rest : List Text} (more : rest ≠ []) :
    ∀ (front path : List Text), walk path (front ++ rest) = walk (walkOn path front) rest := by
  intro front
  induction front with
  | nil => exact fun _ => rfl
  | cons segment front ih =>
      intro path
      obtain ⟨next, tail, cut⟩ :=
        List.exists_cons_of_ne_nil (List.append_ne_nil_of_right_ne_nil front more)
      rw [List.cons_append, cut, walk, walkOn, ← cut]
      split_ifs
      · exact ih _
      · exact ih _
      · exact ih _

/-- Segments that are no dots are kept. -/
theorem walk_of_noDots {segments : List Text} (noDots : ∀ s ∈ segments, isDots s = false) :
    ∀ path : List Text, walk path segments = path ++ segments := by
  induction segments with
  | nil => simp [walk]
  | cons segment rest ih =>
      intro path
      have head := noDots segment List.mem_cons_self
      rw [isDots, Bool.or_eq_false_iff] at head
      have tail := ih fun s member => noDots s (List.mem_cons_of_mem segment member)
      cases rest with
      | nil => simp [walk, head]
      | cons next rest =>
          rw [walk, if_neg (by simp [head.2]), if_neg (by simp [head.1]), tail]
          simp

theorem isDots_of_mem_walkOn (segments : List Text) :
    ∀ {path : List Text}, (∀ s ∈ path, isDots s = false) →
      ∀ s ∈ walkOn path segments, isDots s = false := by
  induction segments with
  | nil => exact fun clean => clean
  | cons segment rest ih =>
      intro path clean
      rw [walkOn]
      split_ifs with double single
      · exact ih fun s member => clean s (List.dropLast_subset path member)
      · exact ih clean
      · refine ih fun s member => ?_
        rcases List.mem_append.mp member with inPath | here
        · exact clean s inPath
        · rw [List.mem_singleton] at here
          subst here
          simp [isDots, double, single]

/-- **No dots come out.** -/
theorem isDots_of_mem_walk (segments : List Text) :
    ∀ {path : List Text}, (∀ s ∈ path, isDots s = false) →
      ∀ s ∈ walk path segments, isDots s = false := by
  intro path clean
  rcases List.eq_nil_or_concat segments with rfl | ⟨front, last, rfl⟩
  · exact clean
  · rw [List.concat_eq_append, walk_append (by simp), walk]
    have front := isDots_of_mem_walkOn front clean
    have empty : isDots [] = false := by decide
    intro s member
    split_ifs at member with double single
    · rcases List.mem_append.mp member with kept | here
      · exact front s (List.dropLast_subset _ kept)
      · rw [List.mem_singleton.mp here, empty]
    · rcases List.mem_append.mp member with kept | here
      · exact front s kept
      · rw [List.mem_singleton.mp here, empty]
    · rcases List.mem_append.mp member with kept | here
      · exact front s kept
      · rw [List.mem_singleton.mp here]
        simp [isDots, double, single]

/-- The segments a base path leaves. -/
def baseSegments (base : Text) : List Text :=
  let slashes := (seenBase base).map fun c => if c = '\\' then '/' else c
  match percentEncode (fun c => !inPathSet c) slashes with
  | [] => []
  | '/' :: rest => walkOn [] (split '/' rest)
  | rest => walkOn [] (split '/' rest)

theorem isDots_of_mem_baseSegments (base : Text) : ∀ s ∈ baseSegments base, isDots s = false := by
  unfold baseSegments
  simp only
  split
  · simp
  · exact isDots_of_mem_walkOn _ (by simp)
  · exact isDots_of_mem_walkOn _ (by simp)

theorem percentEncode_append (keep : Char → Bool) (s t : Text) :
    percentEncode keep (s ++ t) = percentEncode keep s ++ percentEncode keep t :=
  List.flatMap_append

theorem percentEncode_of_keep {keep : Char → Bool} {s : Text} (kept : ∀ c ∈ s, keep c = true) :
    percentEncode keep s = s := by
  induction s with
  | nil => rfl
  | cons c rest ih =>
      have tail := ih fun d member => kept d (List.mem_cons_of_mem c member)
      rw [percentEncode] at tail ⊢
      rw [List.flatMap_cons, tail, percentEncodeChar, if_pos (kept c List.mem_cons_self)]
      rfl

/-- **The path of a target**: what the base leaves, then the segments of the
plain path with their dots resolved. -/
theorem parsePath_target {base rest search : Text} (baseFree : ∀ c ∈ base, c ≠ '?' ∧ c ≠ '#')
    (plain : ∀ c ∈ rest, isPlain c = true)
    (searchShape : search = [] ∨ ∃ query, search = '?' :: query) :
    parsePath (base ++ '/' :: rest ++ search) = walk (baseSegments base) (split '/' rest) := by
  have slashRest : ('/' :: rest).map (fun c => if c = '\\' then '/' else c) = '/' :: rest := by
    refine (List.map_congr_left fun c member => ?_).trans (List.map_id _)
    rcases List.mem_cons.mp member with rfl | inside
    · rfl
    · exact if_neg (plain_keeps (plain c inside)).2.2.1
  have encodedRest : percentEncode (fun c => !inPathSet c) ('/' :: rest) = '/' :: rest := by
    refine percentEncode_of_keep fun c member => ?_
    rcases List.mem_cons.mp member with rfl | inside
    · rfl
    · rw [(plain_keeps (plain c inside)).2.2.2]
      rfl
  have more := split_ne_nil '/' rest
  rw [parsePath, pathPart_urlInput baseFree plain searchShape, List.map_append, slashRest,
    baseSegments, percentEncode_append, encodedRest]
  generalize percentEncode (fun c => !inPathSet c)
    ((seenBase base).map fun c => if c = '\\' then '/' else c) = encodedBase
  cases encodedBase with
  | nil => rfl
  | cons c base =>
      by_cases slash : c = '/'
      · subst slash
        simp only [List.cons_append]
        rw [split_append_cons, walk_append more]
      · simp only [List.cons_append]
        split
        · rename_i same
          exact (slash (List.cons.inj same).1).elim
        · split
          · rename_i same
            cases same
          · rename_i same
            exact (slash (List.cons.inj same).1).elim
          · rw [← List.cons_append, split_append_cons, walk_append more]

/-! ## Dots and encoded arguments -/

/-- The characters with a given lower case. -/
theorem eq_of_toLower {c d : Char} (lower : c.toLower = d) : c = d ∨ c = d.toUpper := by
  by_cases capital : 'A' ≤ c ∧ c ≤ 'Z'
  · have bounded : ∀ n < 128, Char.ofNat n = (Char.ofNat n).toLower ∨
        Char.ofNat n = (Char.ofNat n).toLower.toUpper := by decide
    have small : c.toNat < 128 :=
      lt_of_le_of_lt (UInt32.le_iff_toNat_le.mp capital.2) (by decide)
    have entry := bounded c.toNat small
    rwa [Char.ofNat_toNat, lower] at entry
  · have same : c.toLower = c := by
      unfold Char.toLower
      split
      · rename_i upper
        exact absurd upper capital
      · rfl
    exact Or.inl (same.symm.trans lower)

/-- The texts of one dot. -/
def dotTexts : List Text := [".", "%2e", "%2E"]

theorem mem_dotTexts_iff {s : Text} : s ∈ dotTexts ↔ isSingleDot s = true := by
  constructor
  · have all : ∀ t ∈ dotTexts, isSingleDot t = true := by decide
    exact all s
  · intro dot
    simp only [isSingleDot, Bool.or_eq_true, decide_eq_true_eq] at dot
    rcases dot with one | escaped
    · obtain ⟨c, rest, rfl, lower, none⟩ := List.map_eq_cons_iff.mp one
      rw [List.map_eq_nil_iff.mp none]
      rcases eq_of_toLower lower with rfl | rfl <;> decide
    · obtain ⟨c, rest, rfl, lower, more⟩ := List.map_eq_cons_iff.mp escaped
      obtain ⟨c₂, rest, rfl, lower₂, more⟩ := List.map_eq_cons_iff.mp more
      obtain ⟨c₃, rest, rfl, lower₃, none⟩ := List.map_eq_cons_iff.mp more
      rw [List.map_eq_nil_iff.mp none]
      rcases eq_of_toLower lower with rfl | rfl <;>
        rcases eq_of_toLower lower₂ with rfl | rfl <;>
          rcases eq_of_toLower lower₃ with rfl | rfl <;> decide

theorem isDoubleDot_iff {s : Text} :
    isDoubleDot s = true ↔ ∃ a ∈ dotTexts, ∃ b ∈ dotTexts, s = a ++ b := by
  constructor
  · intro dots
    have halves : ∃ u ∈ (["." , "%2e"] : List Text), ∃ v ∈ (["." , "%2e"] : List Text),
        s.map Char.toLower = u ++ v := by
      simp only [isDoubleDot, List.contains_iff_mem, List.mem_cons, List.not_mem_nil,
        or_false] at dots
      rcases dots with eq | eq | eq | eq
      · exact ⟨".", by simp, ".", by simp, eq⟩
      · exact ⟨".", by simp, "%2e", by simp, eq⟩
      · exact ⟨"%2e", by simp, ".", by simp, eq⟩
      · exact ⟨"%2e", by simp, "%2e", by simp, eq⟩
    obtain ⟨u, inU, v, inV, eq⟩ := halves
    obtain ⟨a, b, rfl, mapA, mapB⟩ := List.map_eq_append_iff.mp eq
    have dot : ∀ t w : Text, w ∈ (["." , "%2e"] : List Text) → t.map Char.toLower = w →
        t ∈ dotTexts := by
      intro t w member same
      rw [mem_dotTexts_iff, isSingleDot, same]
      simp only [List.mem_cons, List.not_mem_nil, or_false] at member
      rcases member with rfl | rfl <;> decide
    exact ⟨a, dot a u inU mapA, b, dot b v inV mapB, rfl⟩
  · rintro ⟨a, inA, b, inB, rfl⟩
    have all : ∀ t ∈ dotTexts, ∀ u ∈ dotTexts, isDoubleDot (t ++ u) = true := by decide
    exact all a inA b inB

theorem percentDecode_dot {a : Text} (dot : a ∈ dotTexts) (rest : Text) :
    percentDecode (a ++ rest) = 0x2E :: percentDecode rest := by
  simp only [dotTexts, List.mem_cons, List.not_mem_nil, or_false] at dot
  rcases dot with rfl | rfl | rfl
  · exact percentDecode_cons_of_ne (by decide) rest
  · exact percentDecode_escape (a := '2') (b := 'e') 2 14 (by decide) (by decide) rest
  · exact percentDecode_escape (a := '2') (b := 'E') 2 14 (by decide) (by decide) rest

theorem exists_dot_of_percentDecode {s : Text} {bytes : List UInt8}
    (decoded : percentDecode s = 0x2E :: bytes) :
    ∃ a ∈ dotTexts, ∃ rest, s = a ++ rest ∧ percentDecode rest = bytes := by
  rcases percentDecode_eq_cons (d := '.') (by decide) decoded with
    ⟨rest, rfl, tail⟩ | ⟨a, b, rest, rfl, high, low, tail⟩
  · exact ⟨".", by decide, rest, rfl, tail⟩
  · refine ⟨['%', a, b], ?_, rest, rfl, tail⟩
    rcases eq_of_hexValue high with rfl | rfl <;> rcases eq_of_hexValue low with rfl | rfl <;>
      decide

theorem eq_nil_of_percentDecode {s : Text} (decoded : percentDecode s = []) : s = [] := by
  unfold percentDecode at decoded
  split at decoded
  · rfl
  · split at decoded <;> cases decoded
  · exact absurd (List.append_eq_nil_iff.mp decoded).1 String.utf8EncodeChar_ne_nil

/-- The dot segments are the segments that decode to one or two dots. -/
theorem isDots_iff {s : Text} :
    isDots s = true ↔ percentDecode s = utf8Encode "." ∨ percentDecode s = utf8Encode ".." := by
  have one : utf8Encode "." = [0x2E] := by decide
  have two : utf8Encode ".." = [0x2E, 0x2E] := by decide
  have none : percentDecode [] = [] := rfl
  rw [isDots, Bool.or_eq_true, ← mem_dotTexts_iff, isDoubleDot_iff, one, two]
  constructor
  · rintro (dot | ⟨a, inA, b, inB, rfl⟩)
    · have decoded := percentDecode_dot dot []
      rw [List.append_nil, none] at decoded
      exact Or.inl decoded
    · have decoded := percentDecode_dot inB []
      rw [List.append_nil, none] at decoded
      exact Or.inr (by rw [percentDecode_dot inA, decoded])
  · rintro (single | double)
    · obtain ⟨a, inA, rest, rfl, tail⟩ := exists_dot_of_percentDecode single
      rw [eq_nil_of_percentDecode tail, List.append_nil]
      exact Or.inl inA
    · obtain ⟨a, inA, rest, rfl, tail⟩ := exists_dot_of_percentDecode double
      obtain ⟨b, inB, rest, rfl, last⟩ := exists_dot_of_percentDecode tail
      rw [eq_nil_of_percentDecode last, List.append_nil]
      exact Or.inr ⟨a, inA, b, inB, rfl⟩

/-- The arguments whose encoding the path state does not keep. -/
theorem isDots_encodeURIComponent {a : Text} :
    isDots (encodeURIComponent a) = true ↔ a = "." ∨ a = ".." := by
  rw [isDots_iff, percentDecode_encodeURIComponent, utf8Encode_injective.eq_iff,
    utf8Encode_injective.eq_iff]

end Ecma
