import Proxora.Ecma.Regex

/-!
# Patterns over path segments

Many patterns of a router spell out consecutive path segments: a literal word,
one of several words, or `[^/]+`, each after a slash, followed by the end of
the text or by another slash.  `slashed` builds such a pattern from `Piece`s.

`matches_slashed` describes all of them at once; `test_endsIn`, `test_inside`
and `test_insideOrEnd` then read a search as a test on the list of segments,
`split '/'` of the text, which `includes_slashes` does for a plain infix.
-/

namespace Ecma

/-- What a pattern asks of one path segment. -/
inductive Piece : Type
  | oneOf (choices : List Text)
  | name

/-- A fixed word. -/
def Piece.word (w : Text) : Piece := .oneOf [w]

/-- The pattern of one piece, under the flag `i`. -/
def Piece.regex : Piece → Regex
  | .oneOf choices => Regex.alts (choices.map Regex.litI)
  | .name => Regex.plus (Regex.noneOf ['/'])

/-- The same test on a segment, a text without slash. -/
def Piece.accepts : Piece → Text → Bool
  | .oneOf choices, segment =>
      choices.any fun w => segment.map Char.toLower = w.map Char.toLower
  | .name, segment => !segment.isEmpty

/-- The words of the piece hold no slash. -/
def Piece.Plain : Piece → Prop
  | .oneOf choices => ∀ w ∈ choices, '/' ∉ w.map Char.toLower
  | .name => True

instance (p : Piece) : Decidable p.Plain :=
  match p with
  | .oneOf choices => List.decidableBAll (fun w : Text => '/' ∉ w.map Char.toLower) choices
  | .name => .isTrue trivial

/-- Each piece after a slash, then `tail`. -/
def slashed (pieces : List Piece) (tail : Regex) : Regex :=
  pieces.foldr (fun p r => .seq (.cls (· == '/')) (.seq p.regex r)) tail

/-- `/\/piece\/…\/piece$/i`. -/
def endsIn (pieces : List Piece) : Regex := slashed pieces .eos

/-- `/\/piece\//i`. -/
def inside (p : Piece) : Regex := slashed [p] (.cls (· == '/'))

/-- `/\/piece(\/|$)/i`; nothing reads the group. -/
def insideOrEnd (p : Piece) : Regex := slashed [p] (.alt (.cls (· == '/')) .eos)

/-! ## Matching -/

theorem Regex.Consumes.alts {α : Type} {f : α → Regex} {L : α → Text → Prop}
    (consumes : ∀ a, Consumes (f a) (L a)) (choices : List α) :
    Consumes (Regex.alts (choices.map f)) (fun u => ∃ a ∈ choices, L a u) := by
  induction choices with
  | nil => exact (Consumes.cls _).congr fun u => by simp
  | cons a rest ih =>
      cases rest with
      | nil => exact (consumes a).congr fun u => by simp
      | cons b rest => exact ((consumes a).alt ih).congr fun u => by simp

theorem Piece.notMem_of_accepts {choices : List Text} (plain : (Piece.oneOf choices).Plain)
    {u : Text} (accepted : (Piece.oneOf choices).accepts u = true) : '/' ∉ u := by
  intro slash
  simp only [Piece.accepts, List.any_eq_true, decide_eq_true_eq] at accepted
  obtain ⟨w, member, same⟩ := accepted
  refine plain w member ?_
  rw [← same]
  exact List.mem_map.mpr ⟨'/', slash, by decide⟩

/-- A piece consumes the segments it accepts. -/
theorem Piece.consumes {p : Piece} (plain : p.Plain) :
    p.regex.Consumes (fun u => p.accepts u = true ∧ '/' ∉ u) := by
  cases p with
  | oneOf choices =>
      refine (Regex.Consumes.alts Regex.Consumes.litI choices).congr fun u => ?_
      constructor
      · rintro ⟨w, member, same⟩
        have accepted : (Piece.oneOf choices).accepts u = true := by
          simp only [Piece.accepts, List.any_eq_true, decide_eq_true_eq]
          exact ⟨w, member, same⟩
        exact ⟨accepted, Piece.notMem_of_accepts plain accepted⟩
      · rintro ⟨accepted, _⟩
        simpa only [Piece.accepts, List.any_eq_true, decide_eq_true_eq] using accepted
  | name =>
      refine (Regex.Consumes.plus_cls fun c => !(['/'].contains c)).congr fun u => ?_
      constructor
      · rintro ⟨some, free⟩
        refine ⟨by simpa [Piece.accepts] using some, fun slash => ?_⟩
        exact absurd (free '/' slash) (by decide)
      · rintro ⟨some, free⟩
        refine ⟨by simpa [Piece.accepts] using some, fun ch member => ?_⟩
        have other : ch ≠ '/' := by
          rintro rfl
          exact free member
        simp [other]

/-- The text of consecutive segments, each after a slash. -/
def slashText (words : List Text) : Text := words.flatMap ('/' :: ·)

/-- The segments are accepted one by one. -/
def AcceptsAll (pieces : List Piece) (words : List Text) : Prop :=
  List.Forall₂ (fun p w => p.accepts w = true ∧ '/' ∉ w) pieces words

open Regex in
/-- A slashed pattern reads accepted segments and goes on with its tail. -/
theorem matches_slashed {pieces : List Piece} (plain : ∀ p ∈ pieces, p.Plain) (tail : Regex)
    (c d : Cursor) :
    Matches (slashed pieces tail) c d ↔
      ∃ words e, AcceptsAll pieces words ∧ Between (slashText words) c e ∧ Matches tail e d := by
  induction pieces generalizing c with
  | nil =>
      constructor
      · intro matched
        exact ⟨[], c, .nil, between_nil.mpr rfl, matched⟩
      · rintro ⟨words, e, accepted, between, matched⟩
        cases accepted
        rw [between_nil.mp between]
        exact matched
  | cons p rest ih =>
      have head := Piece.consumes (plain p List.mem_cons_self)
      have tailIff := ih fun q member => plain q (List.mem_cons_of_mem p member)
      constructor
      · rintro ⟨c₁, slash, c₂, piece, matched⟩
        obtain ⟨_, ⟨ch, isSlash, rfl⟩, between₁⟩ := (Consumes.cls (· == '/') c c₁).mp slash
        obtain ⟨w, accepted, between₂⟩ := (head c₁ c₂).mp piece
        obtain ⟨words, e, all, between₃, ended⟩ := (tailIff c₂).mp matched
        rw [beq_iff_eq] at isSlash
        subst isSlash
        refine ⟨w :: words, e, .cons accepted all, ?_, ended⟩
        exact between_append.mpr ⟨c₂, between_append.mpr ⟨c₁, between₁, between₂⟩, between₃⟩
      · rintro ⟨_, e, all, between, ended⟩
        obtain ⟨w, words, accepted, rest, rfl⟩ := List.forall₂_cons_left_iff.mp all
        obtain ⟨c₂, front, between₃⟩ := between_append (u := '/' :: w).mp between
        obtain ⟨c₁, between₁, between₂⟩ := between_append (u := ['/']).mp front
        refine ⟨c₁, (Consumes.cls (· == '/') c c₁).mpr ⟨_, ⟨'/', rfl, rfl⟩, between₁⟩, c₂, ?_, ?_⟩
        · exact (head c₁ c₂).mpr ⟨w, accepted, between₂⟩
        · exact (tailIff c₂).mpr ⟨words, e, rest, between₃, ended⟩

/-- The search for a slashed pattern. -/
theorem test_slashed {pieces : List Piece} (plain : ∀ p ∈ pieces, p.Plain) {tail : Regex}
    (ends : Text → Prop)
    (tailIff : ∀ e, (∃ d, Regex.Matches tail e d) ↔ ends e.after) (s : Text) :
    Regex.test (slashed pieces tail) s = true ↔
      ∃ front words back, s = front ++ slashText words ++ back ∧ AcceptsAll pieces words ∧
        ends back := by
  rw [Regex.test_iff]
  constructor
  · rintro ⟨front, back, d, rfl, matched⟩
    obtain ⟨words, e, all, between, ended⟩ := (matches_slashed plain tail _ d).mp matched
    have ahead : back = slashText words ++ e.after := between.1
    exact ⟨front, words, e.after, by rw [ahead, List.append_assoc], all,
      (tailIff e).mp ⟨d, ended⟩⟩
  · rintro ⟨front, words, back, rfl, all, ended⟩
    let stop : Cursor := ⟨(slashText words).reverse ++ front.reverse, back⟩
    obtain ⟨d, matched⟩ := (tailIff stop).mpr ended
    exact ⟨front, slashText words ++ back, d, List.append_assoc _ _ _,
      (matches_slashed plain tail _ d).mpr ⟨words, stop, all, ⟨rfl, rfl⟩, matched⟩⟩

/-! ## Segments -/

theorem split_append_slashText (s : Text) {words : List Text} (free : ∀ w ∈ words, '/' ∉ w) :
    split '/' (s ++ slashText words) = split '/' s ++ words := by
  induction words generalizing s with
  | nil => simp [slashText]
  | cons w words ih =>
      have head := split_of_notMem (free w List.mem_cons_self)
      have tail := ih (s ++ '/' :: w) fun v member => free v (List.mem_cons_of_mem w member)
      have text : s ++ slashText (w :: words) = (s ++ '/' :: w) ++ slashText words := by
        simp [slashText]
      rw [text, tail, split_append_cons, head, List.append_assoc, List.singleton_append]

theorem join_append_slashText {front : List Text} (some : front ≠ []) (words : List Text) :
    join '/' (front ++ words) = join '/' front ++ slashText words := by
  induction words generalizing front with
  | nil => simp [slashText]
  | cons w words ih =>
      have tail := ih (List.append_ne_nil_of_right_ne_nil front (List.cons_ne_nil w []))
      rw [List.append_assoc, List.singleton_append] at tail
      rw [tail, join_append some (by simp)]
      simp [slashText, join]

theorem AcceptsAll.free {pieces : List Piece} {words : List Text}
    (all : AcceptsAll pieces words) : ∀ w ∈ words, '/' ∉ w := by
  induction all with
  | nil => simp
  | cons accepted _ ih =>
      intro w member
      rcases List.mem_cons.mp member with rfl | member
      · exact accepted.2
      · exact ih w member

/-- `AcceptsAll` on segments, as a test. -/
def acceptsAll : List Piece → List Text → Bool
  | [], [] => true
  | p :: pieces, w :: words => p.accepts w && acceptsAll pieces words
  | _, _ => false

theorem acceptsAll_iff {pieces : List Piece} {words : List Text}
    (free : ∀ w ∈ words, '/' ∉ w) : acceptsAll pieces words = true ↔ AcceptsAll pieces words := by
  induction pieces generalizing words with
  | nil => cases words <;> simp [acceptsAll, AcceptsAll]
  | cons p pieces ih =>
      cases words with
      | nil => simp [acceptsAll, AcceptsAll]
      | cons w words =>
          have tail := ih fun v member => free v (List.mem_cons_of_mem w member)
          have head := free w List.mem_cons_self
          rw [acceptsAll, Bool.and_eq_true, tail, AcceptsAll, AcceptsAll, List.forall₂_cons]
          exact ⟨fun ⟨accepted, all⟩ => ⟨⟨accepted, head⟩, all⟩,
            fun ⟨⟨accepted, _⟩, all⟩ => ⟨accepted, all⟩⟩

/-- The last segments are accepted, and a slash stands before them. -/
def endsInSegments (pieces : List Piece) (segments : List Text) : Bool :=
  pieces.length < segments.length &&
    acceptsAll pieces (segments.drop (segments.length - pieces.length))

theorem endsInSegments_append {pieces : List Piece} {front last : List Text} (some : front ≠ [])
    (length : pieces.length = last.length) :
    endsInSegments pieces (front ++ last) = acceptsAll pieces last := by
  have some := List.length_pos_of_ne_nil some
  have longer : pieces.length < (front ++ last).length := by
    rw [List.length_append]
    omega
  have cut : (front ++ last).length - pieces.length = front.length := by
    rw [List.length_append]
    omega
  rw [endsInSegments, decide_eq_true longer, Bool.true_and, cut, List.drop_left]

/-- The last piece is met by the last segment. -/
theorem accepts_of_endsInSegments {front : List Piece} {p : Piece} {segments : List Text}
    (ends : endsInSegments (front ++ [p]) segments = true) :
    ∃ before last, segments = before ++ [last] ∧ p.accepts last = true := by
  have tail : ∀ {pieces : List Piece} {words : List Text},
      acceptsAll (pieces ++ [p]) words = true →
        ∃ before last, words = before ++ [last] ∧ p.accepts last = true := by
    intro pieces
    induction pieces with
    | nil =>
        rintro (_ | ⟨w, _ | ⟨v, words⟩⟩) all
        · cases all
        · rw [List.nil_append, acceptsAll, acceptsAll, Bool.and_true] at all
          exact ⟨[], w, rfl, all⟩
        · simp [acceptsAll] at all
    | cons q pieces ih =>
        rintro (_ | ⟨w, words⟩) all
        · cases all
        · rw [List.cons_append, acceptsAll, Bool.and_eq_true] at all
          obtain ⟨before, last, rfl, accepted⟩ := ih all.2
          exact ⟨w :: before, last, rfl, accepted⟩
  rw [endsInSegments, Bool.and_eq_true] at ends
  obtain ⟨before, last, cut, accepted⟩ := tail ends.2
  generalize segments.length - (front ++ [p]).length = n at cut
  refine ⟨segments.take n ++ before, last, ?_, accepted⟩
  rw [List.append_assoc, ← cut, List.take_append_drop]

/-- The segments with a slash on both sides. -/
def innerSegments (segments : List Text) : List Text := (segments.drop 1).dropLast

theorem drop_free {s : Text} (n : Nat) : ∀ w ∈ (split '/' s).drop n, '/' ∉ w :=
  fun _ member => sep_notMem_of_mem_split (List.mem_of_mem_drop member)

theorem test_endsIn {pieces : List Piece} (plain : ∀ p ∈ pieces, p.Plain) (s : Text) :
    Regex.test (endsIn pieces) s = endsInSegments pieces (split '/' s) := by
  have tailIff : ∀ e : Cursor, (∃ d, Regex.Matches .eos e d) ↔ e.after = [] := by
    intro e
    simp [Regex.Matches]
  rw [Bool.eq_iff_iff, endsIn, test_slashed plain (· = []) tailIff, endsInSegments, Bool.and_eq_true,
    decide_eq_true_eq, acceptsAll_iff (drop_free _)]
  constructor
  · rintro ⟨front, words, back, rfl, all, rfl⟩
    have some := List.length_pos_of_ne_nil (split_ne_nil '/' front)
    rw [List.append_nil, split_append_slashText front all.free, List.length_append,
      all.length_eq, Nat.add_sub_cancel, List.drop_left]
    exact ⟨by omega, all⟩
  · rintro ⟨longer, all⟩
    generalize cut : (split '/' s).length - pieces.length = n at all
    have some : (split '/' s).take n ≠ [] := by
      intro none
      have empty := congrArg List.length none
      rw [List.length_take, List.length_nil] at empty
      omega
    refine ⟨join '/' ((split '/' s).take n), (split '/' s).drop n, [], ?_, all, rfl⟩
    rw [List.append_nil, ← join_append_slashText some, List.take_append_drop, join_split]

/-- Reading a segment with something after it off the text. -/
theorem exists_cut_iff {s : Text} (accepted : Text → Prop) :
    (∃ front w back, s = front ++ '/' :: w ++ '/' :: back ∧ '/' ∉ w ∧ accepted w) ↔
      ∃ w ∈ innerSegments (split '/' s), accepted w := by
  constructor
  · rintro ⟨front, w, back, rfl, free, holds⟩
    refine ⟨w, ?_, holds⟩
    obtain ⟨first, more, splitFront⟩ := List.exists_cons_of_ne_nil (split_ne_nil '/' front)
    have last := split_ne_nil '/' back
    rw [split_append_cons, split_append_cons, split_of_notMem free, splitFront, innerSegments]
    simp only [List.cons_append, List.drop_one, List.tail_cons]
    rw [List.dropLast_append_of_ne_nil last]
    simp
  · rintro ⟨w, member, holds⟩
    have free : '/' ∉ w :=
      drop_free 1 w (List.dropLast_subset _ member)
    obtain ⟨first, rest, segments⟩ := List.exists_cons_of_ne_nil (split_ne_nil '/' s)
    rw [innerSegments, segments, List.drop_one, List.tail_cons] at member
    obtain ⟨before, after, cut⟩ := List.append_of_mem member
    have some : rest ≠ [] := by
      rintro rfl
      simp at member
    have restEq := List.dropLast_append_getLast some
    generalize rest.getLast some = last at restEq
    have whole : split '/' s = (first :: before) ++ w :: (after ++ [last]) := by
      rw [segments, ← restEq, cut]
      simp
    refine ⟨join '/' (first :: before), w, join '/' (after ++ [last]), ?_, free, holds⟩
    have tail : join '/' (w :: (after ++ [last])) = w ++ '/' :: join '/' (after ++ [last]) :=
      join_cons (by simp)
    rw [← join_split s, whole, join_append (by simp) (by simp), tail]
    simp

theorem test_inside {p : Piece} (plain : p.Plain) (s : Text) :
    Regex.test (inside p) s = (innerSegments (split '/' s)).any p.accepts := by
  have tailIff : ∀ e : Cursor, (∃ d, Regex.Matches (.cls (· == '/')) e d) ↔
      ∃ rest, e.after = '/' :: rest := by
    intro e
    simp [Regex.Matches]
  have plains : ∀ q ∈ [p], q.Plain := by simpa using plain
  rw [Bool.eq_iff_iff, inside, test_slashed plains (fun t => ∃ rest, t = '/' :: rest) tailIff,
    List.any_eq_true, ← exists_cut_iff]
  constructor
  · rintro ⟨front, words, _, rfl, all, back, rfl⟩
    obtain ⟨w, _, ⟨accepted, free⟩, none, rfl⟩ := List.forall₂_cons_left_iff.mp all
    cases none
    exact ⟨front, w, back, by simp [slashText], free, accepted⟩
  · rintro ⟨front, w, back, rfl, free, accepted⟩
    exact ⟨front, [w], '/' :: back, by simp [slashText], .cons ⟨accepted, free⟩ .nil, back, rfl⟩

theorem test_insideOrEnd {p : Piece} (plain : p.Plain) (s : Text) :
    Regex.test (insideOrEnd p) s = ((split '/' s).drop 1).any p.accepts := by
  have tailIff : ∀ e : Cursor, (∃ d, Regex.Matches (.alt (.cls (· == '/')) .eos) e d) ↔
      (∃ rest, e.after = '/' :: rest) ∨ e.after = [] := by
    intro e
    simp [Regex.Matches, exists_or]
  have plains : ∀ q ∈ [p], q.Plain := by simpa using plain
  rw [Bool.eq_iff_iff, insideOrEnd,
    test_slashed plains (fun t => (∃ rest, t = '/' :: rest) ∨ t = []) tailIff, List.any_eq_true]
  constructor
  · rintro ⟨front, words, back, rfl, all, ends⟩
    obtain ⟨w, _, ⟨accepted, free⟩, none, rfl⟩ := List.forall₂_cons_left_iff.mp all
    cases none
    refine ⟨w, ?_, accepted⟩
    obtain ⟨first, more, splitFront⟩ := List.exists_cons_of_ne_nil (split_ne_nil '/' front)
    rcases ends with ⟨rest, rfl⟩ | rfl
    · have text : front ++ slashText [w] ++ '/' :: rest = front ++ '/' :: (w ++ '/' :: rest) := by
        simp [slashText]
      rw [text, split_append_cons, split_append_cons, split_of_notMem free, splitFront]
      simp
    · have text : front ++ slashText [w] ++ [] = front ++ '/' :: w := by simp [slashText]
      rw [text, split_append_cons, split_of_notMem free, splitFront]
      simp
  · rintro ⟨w, member, accepted⟩
    have free := drop_free 1 w member
    obtain ⟨first, rest, segments⟩ := List.exists_cons_of_ne_nil (split_ne_nil '/' s)
    rw [segments, List.drop_one, List.tail_cons] at member
    obtain ⟨before, after, cut⟩ := List.append_of_mem member
    have whole : s = join '/' (first :: before) ++ slashText [w] ++ slashText after := by
      rw [← join_append_slashText (by simp), ← join_append_slashText (by simp), ← join_split s,
        segments, cut]
      simp
    refine ⟨join '/' (first :: before), [w], slashText after, whole, .cons ⟨accepted, free⟩ .nil, ?_⟩
    cases after with
    | nil => exact Or.inr rfl
    | cons v after => exact Or.inl ⟨v ++ slashText after, rfl⟩

/-- `s.includes("/w/")`. -/
theorem includes_slashes {w : Text} (free : '/' ∉ w) (s : Text) :
    includes s ('/' :: w ++ ['/']) = (innerSegments (split '/' s)).contains w := by
  rw [Bool.eq_iff_iff, includes_iff, List.contains_iff_mem]
  have cut := exists_cut_iff (s := s) fun segment => segment = w
  simp only [exists_eq_right] at cut
  rw [← cut]
  constructor
  · rintro ⟨front, back, rfl⟩
    exact ⟨front, w, back, by simp, free, rfl⟩
  · rintro ⟨front, _, back, rfl, _, rfl⟩
    exact ⟨front, back, by simp⟩

/-! ## Tests on a text built from segments -/

section Built

variable {words : List Text} (free : ∀ w ∈ words, '/' ∉ w)

include free

theorem split_slashText : split '/' (slashText words) = [] :: words :=
  split_append_slashText [] free

theorem test_endsIn_slashText {pieces : List Piece} (plain : ∀ p ∈ pieces, p.Plain) :
    Regex.test (endsIn pieces) (slashText words) = endsInSegments pieces ([] :: words) := by
  rw [test_endsIn plain, split_slashText free]

theorem test_inside_slashText {p : Piece} (plain : p.Plain) :
    Regex.test (inside p) (slashText words) = words.dropLast.any p.accepts := by
  rw [test_inside plain, split_slashText free]
  rfl

theorem test_insideOrEnd_slashText {p : Piece} (plain : p.Plain) :
    Regex.test (insideOrEnd p) (slashText words) = words.any p.accepts := by
  rw [test_insideOrEnd plain, split_slashText free]
  rfl

theorem includes_slashes_slashText {w : Text} (bare : '/' ∉ w) :
    includes (slashText words) ('/' :: w ++ ['/']) = words.dropLast.contains w := by
  rw [includes_slashes bare, split_slashText free]
  rfl

end Built

/-- On a segment without capitals a piece looks the segment up. -/
theorem Piece.accepts_oneOf {choices : List Text} {segment : Text} (lower : Lower segment)
    (lowers : ∀ w ∈ choices, Lower w) :
    (Piece.oneOf choices).accepts segment = choices.contains segment := by
  have same : ∀ t : Text, Lower t → t.map Char.toLower = t := by
    intro t all
    exact (List.map_congr_left all).trans (List.map_id t)
  rw [Bool.eq_iff_iff, Piece.accepts, List.any_eq_true, List.contains_iff_mem]
  constructor
  · rintro ⟨w, member, accepted⟩
    rw [decide_eq_true_eq, same segment lower, same w (lowers w member)] at accepted
    exact accepted ▸ member
  · intro member
    exact ⟨segment, member, decide_eq_true rfl⟩

theorem Piece.accepts_word {w segment : Text} (lower : Lower segment) (lowers : Lower w) :
    (Piece.word w).accepts segment = decide (segment = w) := by
  rw [Piece.word, Piece.accepts_oneOf lower (by simpa using lowers), Bool.eq_iff_iff]
  simp

theorem Piece.accepts_name (segment : Text) : Piece.name.accepts segment = !segment.isEmpty := rfl

theorem any_accepts_word {words : List Text} {w : Text} (lowers : ∀ v ∈ words, Lower v)
    (lower : Lower w) : words.any (Piece.word w).accepts = words.contains w := by
  rw [Bool.eq_iff_iff, List.any_eq_true, List.contains_iff_mem]
  constructor
  · rintro ⟨v, member, accepted⟩
    rw [Piece.accepts_word (lowers v member) lower, decide_eq_true_eq] at accepted
    exact accepted ▸ member
  · intro member
    refine ⟨w, member, ?_⟩
    rw [Piece.accepts_word lower lower, decide_eq_true_eq]

end Ecma
