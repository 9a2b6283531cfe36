import Proxora.Ecma.Lines
import Proxora.Ecma.Url

/-!
# Paths below a path

What the path state of the URL parser makes of a path that is read on from another one.
`Climb` is the path as far as it does not depend on where it is read from: the levels that
its dots go up, and the names that it comes down again.  `walk_eq_reach` splits a walk into
the two, and `prefix_walk_iff` says when a walk ends below a given path.

A path of a URL is a `UrlPath`: its segments stand for themselves, so that writing and
reading it again changes nothing (`pathSegments_pathText`).
-/

namespace Ecma

/-! ## Climbing -/

/-- Levels up, and then names down. -/
structure Climb where
  levels : Nat
  names : List Text
deriving DecidableEq, Repr

namespace Climb

/-- One level up. -/
def up (climb : Climb) : Climb :=
  if climb.names = [] then { climb with levels := climb.levels + 1 }
  else { climb with names := climb.names.dropLast }

/-- One name down. -/
def down (climb : Climb) (name : Text) : Climb :=
  { climb with names := climb.names ++ [name] }

/-- The path state, without the path it starts from. -/
def read (climb : Climb) : List Text → Climb
  | [] => climb
  | [last] =>
      if isDoubleDot last then climb.up.down []
      else if isSingleDot last then climb.down []
      else climb.down last
  | segment :: next :: rest =>
      if isDoubleDot segment then climb.up.read (next :: rest)
      else if isSingleDot segment then climb.read (next :: rest)
      else (climb.down segment).read (next :: rest)

/-- Where a climb from a path ends. -/
def reach (climb : Climb) (start : List Text) : List Text :=
  start.take (start.length - climb.levels) ++ climb.names

theorem reach_up (climb : Climb) (start : List Text) :
    climb.up.reach start = (climb.reach start).dropLast := by
  rw [up]
  split_ifs with none
  · rw [reach, reach, none, List.append_nil, List.append_nil, List.dropLast_eq_take,
      List.length_take, List.take_take]
    show start.take (start.length - (climb.levels + 1)) = _
    congr 1
    omega
  · rw [reach, reach, List.dropLast_append_of_ne_nil none]

theorem reach_down (climb : Climb) (name : Text) (start : List Text) :
    (climb.down name).reach start = climb.reach start ++ [name] :=
  (List.append_assoc _ _ _).symm

/-- A walk goes where its climb leads. -/
theorem walk_reach (segments start : List Text) (climb : Climb) :
    walk (climb.reach start) segments = (climb.read segments).reach start := by
  induction segments generalizing climb with
  | nil => rfl
  | cons segment rest ih =>
      cases rest with
      | nil =>
          rw [walk, read]
          split_ifs
          · rw [reach_down, reach_up]
          · rw [reach_down]
          · rw [reach_down]
      | cons next rest =>
          rw [walk, read]
          split_ifs
          · rw [← reach_up, ih]
          · rw [ih]
          · rw [← reach_down, ih]

/-- Names without dots go down. -/
theorem read_of_noDots {segments : List Text} (noDots : ∀ s ∈ segments, isDots s = false)
    (climb : Climb) :
    climb.read segments = ⟨climb.levels, climb.names ++ segments⟩ := by
  induction segments generalizing climb with
  | nil => rw [List.append_nil]; rfl
  | cons segment rest ih =>
      have head := noDots segment List.mem_cons_self
      rw [isDots, Bool.or_eq_false_iff] at head
      cases rest with
      | nil =>
          rw [read, if_neg (by rw [head.2]; decide), if_neg (by rw [head.1]; decide)]
          rfl
      | cons next rest =>
          rw [read, if_neg (by rw [head.2]; decide), if_neg (by rw [head.1]; decide),
            ih fun s member => noDots s (List.mem_cons_of_mem segment member)]
          exact congrArg (Climb.mk climb.levels) (List.append_assoc _ _ _)

end Climb

/-- The climb of a path. -/
def climbOf (segments : List Text) : Climb := Climb.read ⟨0, []⟩ segments

theorem walk_eq_reach (start segments : List Text) :
    walk start segments = (climbOf segments).reach start := by
  have whole : (Climb.mk 0 []).reach start = start := by
    rw [Climb.reach, Nat.sub_zero, List.take_length, List.append_nil]
  rw [climbOf, ← Climb.walk_reach, whole]

/-- The names of the path begin with those of `mount` that it has climbed over, or that lie
beyond its start. -/
def ReturnsTo (mount start segments : List Text) : Prop :=
  mount.drop (start.length - (climbOf segments).levels) <+: (climbOf segments).names

instance (mount start segments : List Text) : Decidable (ReturnsTo mount start segments) :=
  inferInstanceAs (Decidable (mount.drop _ <+: (climbOf segments).names))

/-- A walk from within `mount` ends in it exactly when it returns to it. -/
theorem prefix_walk_iff {mount start : List Text} (within : start <+: mount)
    (segments : List Text) :
    mount <+: walk start segments ↔ ReturnsTo mount start segments := by
  rw [walk_eq_reach, Climb.reach, ReturnsTo]
  generalize (climbOf segments).levels = levels
  have shared : start.take (start.length - levels) = mount.take (start.length - levels) := by
    obtain ⟨more, rfl⟩ := within
    rw [List.take_append_of_le_length (by omega)]
  rw [shared]
  have step : mount.take (start.length - levels) ++ mount.drop (start.length - levels) <+:
      mount.take (start.length - levels) ++ (climbOf segments).names ↔
        mount.drop (start.length - levels) <+: (climbOf segments).names :=
    List.prefix_append_right_inj _
  rwa [List.take_append_drop] at step

/-! ## The text of a path -/

/-- Every segment after a slash. -/
def pathText (segments : List Text) : Text := segments.flatMap ('/' :: ·)

theorem pathText_cons (segment : Text) (segments : List Text) :
    pathText (segment :: segments) = '/' :: segment ++ pathText segments :=
  List.flatMap_cons

theorem pathText_append (front back : List Text) :
    pathText (front ++ back) = pathText front ++ pathText back :=
  List.flatMap_append

theorem split_pathText {segments : List Text} (free : ∀ s ∈ segments, '/' ∉ s) :
    split '/' (pathText segments) = [] :: segments := by
  induction segments with
  | nil => rfl
  | cons segment segments ih =>
      have tail := ih fun s member => free s (List.mem_cons_of_mem segment member)
      have head := split_of_notMem (free segment List.mem_cons_self)
      rw [pathText_cons, List.cons_append, split, if_pos rfl]
      cases segments with
      | nil =>
          show [] :: split '/' (segment ++ []) = _
          rw [List.append_nil, head]
      | cons next segments =>
          rw [pathText_cons, List.cons_append, split, if_pos rfl] at tail
          rw [pathText_cons, List.cons_append, split_append_cons, head, (List.cons.inj tail).2]
          rfl

/-- A path at another one or below it. -/
def AtOrBelow (mount pathname : Text) : Prop := pathname = mount ∨ mount ++ ['/'] <+: pathname

instance (mount pathname : Text) : Decidable (AtOrBelow mount pathname) :=
  inferInstanceAs (Decidable (_ = _ ∨ _ <+: _))

theorem atOrBelow_pathText {mount segments : List Text} (mountFree : ∀ s ∈ mount, '/' ∉ s)
    (free : ∀ s ∈ segments, '/' ∉ s) :
    AtOrBelow (pathText mount) (pathText segments) ↔ mount <+: segments := by
  constructor
  · rintro (same | ⟨more, below⟩)
    · have parts := split_pathText free
      rw [same, split_pathText mountFree] at parts
      rw [(List.cons.inj parts).2]
    · have parts := split_pathText free
      rw [← below, List.append_assoc, List.singleton_append, split_append_cons,
        split_pathText mountFree] at parts
      exact ⟨split '/' more, (List.cons.inj parts).2⟩
  · rintro ⟨more, rfl⟩
    rw [pathText_append]
    cases more with
    | nil => exact .inl (List.append_nil _)
    | cons segment more =>
        refine .inr ⟨segment ++ pathText more, ?_⟩
        rw [pathText_cons, List.append_assoc]
        rfl

/-! ## Clean segments -/

/-- A character that the path state copies into a segment. -/
def isPathChar (c : Char) : Bool := !inPathSet c && c ≠ '/' && c ≠ '\\'

theorem isPathChar_bounds {c : Char} (copied : isPathChar c = true) :
    0x20 < c.toNat ∧ c.toNat ≤ 0x7E ∧ c ≠ '/' ∧ c ≠ '\\' ∧ c ≠ '?' ∧ c ≠ '#' := by
  simp only [isPathChar, Bool.and_eq_true, Bool.not_eq_true', decide_eq_true_eq, inPathSet,
    Bool.or_eq_false_iff, decide_eq_false_iff_not] at copied
  obtain ⟨⟨⟨⟨low, high⟩, marks⟩, slash⟩, backslash⟩ := copied
  refine ⟨by omega, by omega, slash, backslash, ?_, ?_⟩
  · rintro rfl
    exact absurd marks (by decide)
  · rintro rfl
    exact absurd marks (by decide)

/-- A segment that stands for itself. -/
structure CleanSegment (s : Text) : Prop where
  chars : ∀ c ∈ s, isPathChar c = true
  noDots : isDots s = false

theorem CleanSegment.slash_notMem {s : Text} (clean : CleanSegment s) : '/' ∉ s :=
  fun member => absurd (clean.chars '/' member) (by decide)

/-- A backslash counts as a slash. -/
def forwardSlashed (s : Text) : Text := s.map fun c => if c = '\\' then '/' else c

def encodedPath (s : Text) : Text := percentEncode (fun c => !inPathSet c) (forwardSlashed s)

/-- The segments that the path state reads. -/
def pathSegments (s : Text) : List Text := split '/' (encodedPath s)

theorem encodedPath_append (s t : Text) :
    encodedPath (s ++ t) = encodedPath s ++ encodedPath t := by
  rw [encodedPath, forwardSlashed, List.map_append, percentEncode_append]
  rfl

/-- Characters that are copied, and slashes. -/
theorem encodedPath_of_copied {s : Text} (copied : ∀ c ∈ s, isPathChar c = true ∨ c = '/') :
    encodedPath s = s := by
  have plain : forwardSlashed s = s := by
    refine (List.map_congr_left fun c member => if_neg ?_).trans (List.map_id s)
    rcases copied c member with copy | rfl
    · exact (isPathChar_bounds copy).2.2.2.1
    · decide
  rw [encodedPath, plain]
  refine percentEncode_of_keep fun c member => ?_
  rcases copied c member with copy | rfl
  · rw [isPathChar, Bool.and_eq_true, Bool.and_eq_true] at copy
    exact copy.1.1
  · decide

theorem isPathChar_of_mem_pathSegments {s word : Text} (member : word ∈ pathSegments s)
    {c : Char} (inside : c ∈ word) : isPathChar c = true := by
  have other : c ≠ '/' := by
    rintro rfl
    exact sep_notMem_of_mem_split member inside
  obtain ⟨d, from_slashes, here⟩ := List.mem_flatMap.mp (mem_of_mem_split member inside)
  have hex : ∀ n < 16, isPathChar (hexDigit n) = true := by decide
  by_cases kept : (!inPathSet d) = true
  · rw [percentEncodeChar, if_pos kept, List.mem_singleton] at here
    subst here
    have straight : c ≠ '\\' := by
      rintro rfl
      obtain ⟨e, _, same⟩ := List.mem_map.mp from_slashes
      split_ifs at same with back
      · exact absurd same (by decide)
      · exact back same
    rw [isPathChar, kept, decide_eq_true other, decide_eq_true straight]
    rfl
  · rw [percentEncodeChar, if_neg kept] at here
    obtain ⟨b, _, digit⟩ := List.mem_flatMap.mp here
    have bound : b.toNat < 256 := b.toNat_lt
    simp only [percentEncodeByte, List.mem_cons, List.not_mem_nil, or_false] at digit
    rcases digit with rfl | rfl | rfl
    · decide
    · exact hex _ (by omega)
    · exact hex _ (by omega)

theorem mem_walk {start segments : List Text} {s : Text} (member : s ∈ walk start segments) :
    s ∈ start ∨ s ∈ segments ∨ s = [] := by
  induction segments generalizing start with
  | nil => exact .inl member
  | cons segment rest ih =>
      cases rest with
      | nil =>
          rw [walk] at member
          split_ifs at member with double single
          · rcases List.mem_append.mp member with kept | last
            · exact .inl (List.dropLast_subset _ kept)
            · exact .inr (.inr (List.mem_singleton.mp last))
          · rcases List.mem_append.mp member with kept | last
            · exact .inl kept
            · exact .inr (.inr (List.mem_singleton.mp last))
          · rcases List.mem_append.mp member with kept | last
            · exact .inl kept
            · exact .inr (.inl last)
      | cons next rest =>
          have later {path : List Text} (within : s ∈ walk path (next :: rest)) :
              s ∈ path ∨ s ∈ segment :: next :: rest ∨ s = [] := by
            rcases ih within with kept | inside | empty
            · exact .inl kept
            · exact .inr (.inl (List.mem_cons_of_mem segment inside))
            · exact .inr (.inr empty)
          rw [walk] at member
          split_ifs at member with double single
          · rcases later member with kept | rest
            · exact .inl (List.dropLast_subset _ kept)
            · exact .inr rest
          · exact later member
          · rcases later member with kept | rest
            · rcases List.mem_append.mp kept with kept | here
              · exact .inl kept
              · exact .inr (.inl (List.mem_singleton.mp here ▸ List.mem_cons_self))
            · exact .inr rest

/-- What the path state leaves is clean, when it starts from a clean path. -/
theorem cleanSegment_of_mem_walk {start : List Text} (clean : ∀ s ∈ start, CleanSegment s)
    {s w : Text} (member : w ∈ walk start (pathSegments s)) : CleanSegment w where
  chars c inside := by
    rcases mem_walk member with kept | read | rfl
    · exact (clean w kept).chars c inside
    · exact isPathChar_of_mem_pathSegments read inside
    · exact absurd inside List.not_mem_nil
  noDots := isDots_of_mem_walk _ (fun s member => (clean s member).noDots) w member

/-- Clean segments are read as they were written. -/
theorem pathSegments_pathText {segment : Text} {segments : List Text}
    (clean : ∀ s ∈ segment :: segments, CleanSegment s) :
    pathSegments (segment ++ pathText segments) = segment :: segments := by
  have copied : ∀ c ∈ segment ++ pathText segments, isPathChar c = true ∨ c = '/' := by
    intro c member
    rcases List.mem_append.mp member with head | tail
    · exact .inl ((clean segment List.mem_cons_self).chars c head)
    · obtain ⟨s, listed, inside⟩ := List.mem_flatMap.mp tail
      rcases List.mem_cons.mp inside with slash | inside
      · exact .inr slash
      · exact .inl ((clean s (List.mem_cons_of_mem segment listed)).chars c inside)
  have parts := split_pathText fun s member => (clean s member).slash_notMem
  rw [pathText_cons, List.cons_append, split, if_pos rfl] at parts
  rw [pathSegments, encodedPath_of_copied copied, (List.cons.inj parts).2]

theorem walk_ne_nil {start segments : List Text} (some : segments ≠ []) :
    walk start segments ≠ [] := by
  obtain ⟨front, last, rfl⟩ := (List.eq_nil_or_concat segments).resolve_left some
  rw [List.concat_eq_append, walk_append (List.cons_ne_nil last []), walk]
  split_ifs <;> simp

/-- The path of a URL. -/
structure UrlPath where
  segments : List Text
  clean : ∀ s ∈ segments, CleanSegment s
  some : segments ≠ []

namespace UrlPath

/-- The path that is read on from another one. -/
def read (start : List Text) (clean : ∀ s ∈ start, CleanSegment s) (s : Text) : UrlPath where
  segments := walk start (pathSegments s)
  clean _ member := cleanSegment_of_mem_walk clean member
  some := walk_ne_nil (split_ne_nil '/' _)

/-- A path from its root; a first slash or backslash opens its first segment. -/
def root (s : Text) : UrlPath :=
  read [] (fun _ member => absurd member List.not_mem_nil)
    (if s.head?.any fun c => c = '/' || c = '\\' then s.tail else s)

/-- A path relative to another one: it takes the place of its last segment. -/
def relative (base : UrlPath) (s : Text) : UrlPath :=
  read base.segments.dropLast (fun w member => base.clean w (List.dropLast_subset _ member)) s

def text (path : UrlPath) : Text := pathText path.segments

end UrlPath

end Ecma
