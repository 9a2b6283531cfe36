import Proxora.GuestPaths

/-!
# The algebra of guest paths

`guestPathParent`, `guestPathCrumbs` and `guestRenameDest` of `lib/guest-files.ts` beside
`resolveGuestPath` and `guestFileName`. A path that `resolveGuestPath` returns is the root or
`slashed parts` for plain segments; what the other functions make of it is read off the segments.
-/

namespace Proxora

open Ecma

/-! ## Definitions -/

/-- What stands before the last slash. -/
def beforeLastSlash (path : Text) : Text := (path.reverse.dropWhile (· ≠ '/')).tail.reverse

/-- `none` for the root. -/
def guestPathParent (path : Text) : Except String (Option Text) :=
  match resolveGuestPath path [] with
  | .error message => .error message
  | .ok resolved =>
      if resolved = "/" then .ok none
      else
        let front := beforeLastSlash resolved
        .ok (some (if front = [] then "/" else front))

def guestRenameDest (source newName : Text) : Except String Text :=
  let name := trim newName
  if name = [] || '/' ∈ name || '\\' ∈ name || name = "." || name = ".." then .error "Invalid name"
  else
    match guestPathParent source with
    | .error message => .error message
    | .ok none => .error "Invalid path"
    | .ok (some parent) => resolveGuestPath parent name

structure GuestCrumb where
  name : Text
  path : Text
deriving DecidableEq, Repr

def rootCrumb : GuestCrumb := ⟨"/", "/"⟩

/-- The loop of `guestPathCrumbs`. -/
def crumbsBelow : Text → List Text → List GuestCrumb
  | _, [] => []
  | acc, part :: rest =>
      let path := acc ++ '/' :: part
      ⟨part, path⟩ :: crumbsBelow path rest

def guestPathCrumbs (path : Text) : Except String (List GuestCrumb) :=
  match resolveGuestPath path [] with
  | .error message => .error message
  | .ok resolved =>
      .ok (if resolved = "/" then [rootCrumb]
        else rootCrumb :: crumbsBelow [] ((split '/' resolved).filter (· ≠ [])))

/-! ## What is promised -/

/-- An absolute path without empty segments, dots and backslashes that resolves to itself. -/
structure NormalPath (path : Text) : Prop where
  rooted : path.head? = some '/'
  segments : path ≠ "/" → ∀ seg ∈ split '/' path.tail, seg ≠ [] ∧ seg ≠ "." ∧ seg ≠ ".."
  backslash : '\\' ∉ path
  trailing : path ≠ "/" → path.getLast? ≠ some '/'
  fixed : resolveGuestPath path [] = .ok path

/-- Parent and name give the path back; the root has no parent. -/
def SplitsAtName (path : Text) : Prop :=
  if path = "/" then guestPathParent path = .ok none ∧ guestFileName path = .ok "/"
  else
    ∃ parent name, guestPathParent path = .ok (some parent) ∧ guestFileName path = .ok name ∧
      resolveGuestPath parent name = .ok path

/-- The crumbs are the root and the beginnings of the path up to a slash, the shorter ones first,
and the path itself; each has the name of its path. -/
def CrumbsOf (path : Text) : Prop :=
  ∃ crumbs, guestPathCrumbs path = .ok crumbs ∧
    (∀ p : Text, p ∈ crumbs.map (·.path) ↔ p = "/" ∨ p ≠ [] ∧ (p = path ∨ p ++ ['/'] <+: path)) ∧
    (crumbs.map (·.path)).Pairwise (fun p q => p.length < q.length) ∧
    (crumbs.map (·.path)).getLast? = some path ∧
    ∀ crumb ∈ crumbs, guestFileName crumb.path = .ok crumb.name

/-! ## Segments behind slashes -/

/-- Each segment behind a slash. -/
def slashed (parts : List Text) : Text := parts.flatMap fun part => '/' :: part

theorem slashed_cons (part : Text) (rest : List Text) :
    slashed (part :: rest) = '/' :: part ++ slashed rest := rfl

theorem slashed_append (front back : List Text) :
    slashed (front ++ back) = slashed front ++ slashed back := List.flatMap_append

theorem slashed_concat (front : List Text) (last : Text) :
    slashed (front ++ [last]) = slashed front ++ '/' :: last := by
  rw [slashed_append, slashed_cons]
  exact congrArg (slashed front ++ ·) (List.append_nil _)

theorem slashed_eq_join {parts : List Text} (some : parts ≠ []) :
    slashed parts = '/' :: join '/' parts := by
  induction parts with
  | nil => exact absurd rfl some
  | cons part rest ih =>
      cases rest with
      | nil => exact List.append_nil _
      | cons next rest =>
          rw [slashed_cons, ih (List.cons_ne_nil next rest), join_cons (List.cons_ne_nil next rest)]
          rfl

theorem slashed_eq_nil_iff {parts : List Text} : slashed parts = [] ↔ parts = [] := by
  cases parts with
  | nil => exact iff_of_true rfl rfl
  | cons part rest => exact iff_of_false (List.cons_ne_nil _ _) (List.cons_ne_nil _ _)

variable {parts front back : List Text} {part last p path : Text}

theorem afterLastSlash_concat (free : '/' ∉ last) (s : Text) :
    afterLastSlash (s ++ '/' :: last) = last := by
  have inner : ∀ c ∈ last.reverse, (decide (c ≠ '/')) = true := by
    intro c inside
    apply decide_eq_true
    rintro rfl
    exact free (List.mem_reverse.mp inside)
  rw [afterLastSlash, List.reverse_append, List.reverse_cons, List.append_assoc,
    List.takeWhile_append_of_pos inner]
  exact (congrArg List.reverse (List.append_nil _)).trans (List.reverse_reverse last)

theorem beforeLastSlash_concat (free : '/' ∉ last) (s : Text) :
    beforeLastSlash (s ++ '/' :: last) = s := by
  have inner : ∀ c ∈ last.reverse, (decide (c ≠ '/')) = true := by
    intro c inside
    apply decide_eq_true
    rintro rfl
    exact free (List.mem_reverse.mp inside)
  rw [beforeLastSlash, List.reverse_append, List.reverse_cons, List.append_assoc,
    List.dropWhile_append_of_pos inner]
  exact List.reverse_reverse s

/-- A beginning up to a slash goes beyond a segment without one. -/
theorem beginning_append_iff (free : '/' ∉ part) {q t : Text} :
    q ++ ['/'] <+: part ++ t ↔ ∃ r, q = part ++ r ∧ r ++ ['/'] <+: t := by
  constructor
  · intro start
    have within : part <+: q := by
      rcases List.prefix_or_prefix_of_prefix (List.prefix_append part t) start with inside | beyond
      · rcases List.prefix_concat_iff.mp inside with same | inside
        · rw [same] at free
          exact absurd (List.mem_append_right q List.mem_cons_self) free
        · exact inside
      · exact absurd (beyond.subset (List.mem_append_right q List.mem_cons_self)) free
    obtain ⟨r, rfl⟩ := within
    rw [List.append_assoc, List.prefix_append_right_inj] at start
    exact ⟨r, rfl, start⟩
  · rintro ⟨r, rfl, start⟩
    rw [List.append_assoc, List.prefix_append_right_inj]
    exact start

/-- The beginnings of the slashed segments up to a slash. -/
theorem beginning_slashed_iff (free : ∀ seg ∈ parts, '/' ∉ seg) :
    p = slashed parts ∨ p ++ ['/'] <+: slashed parts ↔
      ∃ front, front <+: parts ∧ p = slashed front := by
  induction parts generalizing p with
  | nil =>
      constructor
      · rintro (rfl | short)
        · exact ⟨[], List.prefix_rfl, rfl⟩
        · exact absurd (List.prefix_nil.mp short) (by simp)
      · rintro ⟨front, start, rfl⟩
        rw [List.prefix_nil.mp start]
        exact .inl rfl
  | cons part rest ih =>
      have inner := free part List.mem_cons_self
      have others {q : Text} := @ih q fun seg member => free seg (List.mem_cons_of_mem _ member)
      have step (r : Text) : ('/' :: (part ++ r)) ++ ['/'] <+: slashed (part :: rest) ↔
          r ++ ['/'] <+: slashed rest := by
        rw [slashed_cons, List.cons_append, List.cons_append, List.cons_prefix_cons,
          List.append_assoc, List.prefix_append_right_inj]
        exact and_iff_right rfl
      constructor
      · rintro (rfl | start)
        · exact ⟨part :: rest, List.prefix_rfl, rfl⟩
        · cases p with
          | nil => exact ⟨[], List.nil_prefix, rfl⟩
          | cons c q =>
              obtain ⟨rfl, behind⟩ := List.cons_prefix_cons.mp start
              obtain ⟨r, rfl, later⟩ := (beginning_append_iff inner).mp behind
              obtain ⟨front, within, rfl⟩ := others.mp (.inr later)
              exact ⟨part :: front, List.cons_prefix_cons.mpr ⟨rfl, within⟩, rfl⟩
      · rintro ⟨front, within, rfl⟩
        cases front with
        | nil => exact .inr (List.cons_prefix_cons.mpr ⟨rfl, List.nil_prefix⟩)
        | cons first front =>
            obtain ⟨same, behind⟩ := List.cons_prefix_cons.mp within
            rw [same]
            rcases others.mpr ⟨front, behind, rfl⟩ with whole | start
            · left
              rw [slashed_cons, slashed_cons, whole]
            · exact .inr ((step _).mpr start)

/-! ## What resolving returns -/

theorem PlainSegment.slashFree {seg : Text} (plain : PlainSegment seg) : '/' ∉ seg :=
  fun inside => (plain.2.2.2 _ inside).1 rfl

/-- The path of segments; that of none is the root. -/
def slashedPath (parts : List Text) : Text := if parts = [] then "/" else slashed parts

theorem slashedPath_eq_join : slashedPath parts = '/' :: join '/' parts := by
  rw [slashedPath]
  split
  · next none =>
      rw [none]
      rfl
  · next some => exact slashed_eq_join some

theorem slashedPath_concat (front : List Text) (last : Text) :
    slashedPath (front ++ [last]) = slashed front ++ '/' :: last := by
  rw [slashedPath, if_neg (by simp), slashed_concat]

theorem slashedPath_eq_root_iff (plain : ∀ seg ∈ parts, PlainSegment seg) :
    slashedPath parts = "/" ↔ parts = [] := by
  cases parts with
  | nil => exact iff_of_true rfl rfl
  | cons part rest =>
      refine iff_of_false ?_ (List.cons_ne_nil _ _)
      intro same
      rw [slashedPath, if_neg (List.cons_ne_nil _ _), slashed_cons] at same
      obtain ⟨c, more, form⟩ := List.exists_cons_of_ne_nil (plain part List.mem_cons_self).1
      rw [form] at same
      cases same

/-- Plain segments whose path is not too long. -/
def Resolved (parts : List Text) : Prop :=
  (∀ seg ∈ parts, PlainSegment seg) ∧ utf16Length (slashedPath parts) ≤ guestFileMaxPath

theorem Resolved.fixed (resolved : Resolved parts) :
    resolveGuestPath (slashedPath parts) [] = .ok (slashedPath parts) := by
  obtain ⟨plain, short⟩ := resolved
  rw [slashedPath_eq_join] at short ⊢
  rw [resolveGuestPath_of_segments plain, if_neg (Nat.not_lt_of_le short)]

theorem resolved_of_resolveGuestPath {cwd name : Text}
    (done : resolveGuestPath cwd name = .ok path) :
    ∃ parts, Resolved parts ∧ path = slashedPath parts := by
  obtain ⟨parts, plain, rfl, short⟩ := resolveGuestPath_segments done
  refine ⟨parts, ⟨plain, ?_⟩, slashedPath_eq_join.symm⟩
  rw [slashedPath_eq_join]
  exact short

theorem Resolved.before (resolved : Resolved (front ++ back)) : Resolved front := by
  refine ⟨fun seg member => resolved.1 seg (List.mem_append_left back member), ?_⟩
  have short := resolved.2
  rw [slashedPath]
  split
  · decide
  · next some =>
      rw [slashedPath, if_neg (List.append_ne_nil_of_left_ne_nil some back), slashed_append,
        utf16Length_append] at short
      omega

/-! ## Parent and name -/

theorem Resolved.last_plain (resolved : Resolved (front ++ [last])) : PlainSegment last :=
  resolved.1 last (List.mem_append_right front List.mem_cons_self)

theorem Resolved.guestPathParent_concat (resolved : Resolved (front ++ [last])) :
    guestPathParent (slashedPath (front ++ [last])) = .ok (some (slashedPath front)) := by
  have other : slashedPath (front ++ [last]) ≠ "/" :=
    (slashedPath_eq_root_iff resolved.1).not.mpr (by simp)
  have cut : beforeLastSlash (slashedPath (front ++ [last])) = slashed front := by
    rw [slashedPath_concat]
    exact beforeLastSlash_concat resolved.last_plain.slashFree _
  have same : (if slashed front = [] then ("/" : Text) else slashed front) = slashedPath front := by
    rw [slashedPath]
    by_cases none : front = []
    · rw [if_pos none, if_pos (slashed_eq_nil_iff.mpr none)]
    · rw [if_neg none, if_neg (slashed_eq_nil_iff.not.mpr none)]
  rw [guestPathParent, resolved.fixed]
  dsimp only
  rw [if_neg other, cut, same]

theorem Resolved.guestFileName_concat (resolved : Resolved (front ++ [last])) :
    guestFileName (slashedPath (front ++ [last])) = .ok last := by
  have other : slashedPath (front ++ [last]) ≠ "/" :=
    (slashedPath_eq_root_iff resolved.1).not.mpr (by simp)
  have cut : afterLastSlash (slashedPath (front ++ [last])) = last := by
    rw [slashedPath_concat]
    exact afterLastSlash_concat resolved.last_plain.slashFree _
  rw [guestFileName, resolved.fixed]
  dsimp only
  rw [if_neg other, cut]

/-- A plain name below the path of segments. -/
theorem joinedPath_slashedPath (plain : ∀ seg ∈ front, PlainSegment seg) (some : last ≠ [])
    (relative : '/' ∉ last) : joinedPath (slashedPath front) last = slashedPath (front ++ [last]) := by
  have given : slashedPath front ≠ [] := by
    rw [slashedPath_eq_join]
    exact List.cons_ne_nil _ _
  have below : startsWith last "/" = false := by
    obtain ⟨c, rest, rfl⟩ := List.exists_cons_of_ne_nil some
    have first : c ≠ '/' := by
      rintro rfl
      exact relative List.mem_cons_self
    rw [Bool.eq_false_iff]
    intro starts
    exact first (List.cons_prefix_cons.mp (List.isPrefixOf_iff_prefix.mp starts)).1.symm
  have kept : ((slashedPath front).reverse.dropWhile (· = '/')).reverse = slashed front := by
    rw [slashedPath]
    split
    · next none =>
        rw [none]
        rfl
    · next given =>
        obtain ⟨others, seg, rfl⟩ := (List.eq_nil_or_concat front).resolve_left given
        have segment := plain seg (by simp)
        obtain ⟨c, tail, form⟩ := List.exists_cons_of_ne_nil
          (List.reverse_ne_nil_iff.mpr segment.1)
        have mark : c ≠ '/' := by
          rintro rfl
          exact segment.slashFree (List.mem_reverse.mp (form ▸ List.mem_cons_self))
        rw [List.concat_eq_append, slashed_concat, List.reverse_append, List.reverse_cons, form,
          List.cons_append, List.cons_append, List.dropWhile_cons_of_neg (by simp [mark])]
        rw [← List.cons_append, ← List.cons_append, ← form, ← List.reverse_cons,
          ← List.reverse_append, List.reverse_reverse]
  rw [joinedPath, if_neg given, if_neg some, below, if_neg Bool.false_ne_true, kept, slashedPath_concat]
  exact List.append_assoc _ _ _

theorem resolveGuestPath_congr {cwd name : Text} (same : joinedPath cwd name = joinedPath p []) :
    resolveGuestPath cwd name = resolveGuestPath p [] := by
  rw [resolveGuestPath, resolveGuestPath, same]

theorem resolveGuestPath_below (plain : ∀ seg ∈ front, PlainSegment seg) (some : last ≠ [])
    (relative : '/' ∉ last) :
    resolveGuestPath (slashedPath front) last = resolveGuestPath (slashedPath (front ++ [last])) [] := by
  apply resolveGuestPath_congr
  rw [joinedPath_slashedPath plain some relative, slashedPath_eq_join]
  rfl

theorem Resolved.normal (resolved : Resolved parts) : NormalPath (slashedPath parts) := by
  have form := @slashedPath_eq_join parts
  refine ⟨?_, ?_, ?_, ?_, resolved.fixed⟩
  · rw [form]
    rfl
  · intro other seg member
    have some := (slashedPath_eq_root_iff resolved.1).not.mp other
    rw [form, List.tail_cons, split_join some fun s listed => (resolved.1 s listed).slashFree]
      at member
    obtain ⟨filled, dot, dots, -⟩ := resolved.1 seg member
    exact ⟨filled, dot, dots⟩
  · intro inside
    rw [form] at inside
    rcases List.mem_cons.mp inside with same | inside
    · revert same
      decide
    · rcases mem_join inside with same | ⟨seg, member, here⟩
      · revert same
        decide
      · exact ((resolved.1 seg member).2.2.2 _ here).2.1 rfl
  · intro other
    have some := (slashedPath_eq_root_iff resolved.1).not.mp other
    obtain ⟨front, last, rfl⟩ := (List.eq_nil_or_concat parts).resolve_left some
    rw [List.concat_eq_append] at resolved ⊢
    have plain := resolved.last_plain
    obtain ⟨inner, c, rfl⟩ := (List.eq_nil_or_concat last).resolve_left plain.1
    rw [List.concat_eq_append] at plain ⊢
    rw [slashedPath_concat, ← List.cons_append, ← List.append_assoc, List.getLast?_concat]
    intro same
    rw [Option.some.inj same] at plain
    exact plain.slashFree (List.mem_append_right inner List.mem_cons_self)

theorem Resolved.splits (resolved : Resolved parts) : SplitsAtName (slashedPath parts) := by
  rw [SplitsAtName]
  split
  · next root =>
      rw [root]
      exact ⟨by decide +kernel, by decide +kernel⟩
  · next other =>
      have some := (slashedPath_eq_root_iff resolved.1).not.mp other
      obtain ⟨front, last, rfl⟩ := (List.eq_nil_or_concat parts).resolve_left some
      rw [List.concat_eq_append] at resolved ⊢
      have plain := resolved.last_plain
      refine ⟨slashedPath front, last, resolved.guestPathParent_concat, resolved.guestFileName_concat, ?_⟩
      rw [resolveGuestPath_below resolved.before.1 plain.1 plain.slashFree, resolved.fixed]

/-! ## Crumbs -/

theorem mem_crumbsBelow_iff {acc : Text} {crumb : GuestCrumb} :
    crumb ∈ crumbsBelow acc parts ↔ ∃ front last, front ++ [last] <+: parts ∧
      crumb = ⟨last, acc ++ slashed (front ++ [last])⟩ := by
  induction parts generalizing acc with
  | nil =>
      refine iff_of_false List.not_mem_nil ?_
      rintro ⟨front, last, within, -⟩
      exact absurd (List.prefix_nil.mp within) (by simp)
  | cons part rest ih =>
      rw [crumbsBelow, List.mem_cons, ih]
      constructor
      · rintro (rfl | ⟨front, last, within, rfl⟩)
        · exact ⟨[], part, List.cons_prefix_cons.mpr ⟨rfl, List.nil_prefix⟩,
            congrArg _ (congrArg (acc ++ ·) (slashed_concat [] part).symm)⟩
        · refine ⟨part :: front, last, List.cons_prefix_cons.mpr ⟨rfl, within⟩, ?_⟩
          rw [List.cons_append, slashed_cons, List.append_assoc]
      · rintro ⟨front, last, within, rfl⟩
        cases front with
        | nil =>
            obtain ⟨rfl, -⟩ := List.cons_prefix_cons.mp within
            exact .inl (congrArg _ (congrArg (acc ++ ·) (slashed_concat [] last)))
        | cons first front =>
            obtain ⟨rfl, behind⟩ := List.cons_prefix_cons.mp within
            refine .inr ⟨front, last, behind, ?_⟩
            rw [List.cons_append, slashed_cons, List.append_assoc]

theorem pairwise_crumbsBelow (acc : Text) (parts : List Text) :
    ((crumbsBelow acc parts).map (·.path)).Pairwise fun p q => p.length < q.length := by
  induction parts generalizing acc with
  | nil => exact List.Pairwise.nil
  | cons part rest ih =>
      rw [crumbsBelow, List.map_cons, List.pairwise_cons]
      refine ⟨?_, ih _⟩
      intro q listed
      obtain ⟨crumb, member, rfl⟩ := List.mem_map.mp listed
      obtain ⟨front, last, -, rfl⟩ := mem_crumbsBelow_iff.mp member
      simp only [slashed_concat, List.length_append, List.length_cons]
      omega

theorem getLast_crumbsBelow (acc : Text) (given : parts ≠ []) :
    ((crumbsBelow acc parts).map (·.path)).getLast? = some (acc ++ slashed parts) := by
  induction parts generalizing acc with
  | nil => exact absurd rfl given
  | cons part rest ih =>
      cases rest with
      | nil => exact congrArg (fun s => some (acc ++ s)) (slashed_concat [] part).symm
      | cons next rest =>
          have later := ih (acc ++ '/' :: part) (List.cons_ne_nil next rest)
          rw [crumbsBelow, List.map_cons, slashed_cons, List.getLast?_cons, later]
          exact congrArg some (List.append_assoc _ _ _)

theorem mem_paths_crumbsBelow_iff (free : ∀ seg ∈ parts, '/' ∉ seg) :
    p ∈ (crumbsBelow [] parts).map (·.path) ↔
      p ≠ [] ∧ (p = slashed parts ∨ p ++ ['/'] <+: slashed parts) := by
  rw [beginning_slashed_iff free, List.mem_map]
  constructor
  · rintro ⟨crumb, member, rfl⟩
    obtain ⟨front, last, within, rfl⟩ := mem_crumbsBelow_iff.mp member
    refine ⟨?_, front ++ [last], within, rfl⟩
    exact slashed_eq_nil_iff.not.mpr (List.append_ne_nil_of_right_ne_nil front (by simp))
  · rintro ⟨filled, front, within, rfl⟩
    have given := slashed_eq_nil_iff.not.mp filled
    obtain ⟨others, last, rfl⟩ := (List.eq_nil_or_concat front).resolve_left given
    rw [List.concat_eq_append] at within ⊢
    exact ⟨_, mem_crumbsBelow_iff.mpr ⟨others, last, within, rfl⟩, rfl⟩

theorem guestPathCrumbs_slashedPath (resolved : Resolved parts) :
    guestPathCrumbs (slashedPath parts) = .ok (rootCrumb :: crumbsBelow [] parts) := by
  rw [guestPathCrumbs, resolved.fixed]
  dsimp only
  by_cases none : parts = []
  · rw [none]
    rfl
  · have words : (split '/' (slashedPath parts)).filter (· ≠ []) = parts := by
      rw [slashedPath_eq_join, split, if_pos rfl,
        split_join none fun s listed => (resolved.1 s listed).slashFree, List.filter_cons_of_neg
          (by simp), List.filter_eq_self]
      exact fun seg member => decide_eq_true (resolved.1 seg member).1
    rw [if_neg ((slashedPath_eq_root_iff resolved.1).not.mpr none), words]

theorem Resolved.crumbs (resolved : Resolved parts) : CrumbsOf (slashedPath parts) := by
  refine ⟨_, guestPathCrumbs_slashedPath resolved, ?_, ?_, ?_, ?_⟩
  · intro p
    have below := @mem_paths_crumbsBelow_iff parts p fun s listed => (resolved.1 s listed).slashFree
    rw [List.map_cons, List.mem_cons, below]
    by_cases none : parts = []
    · rw [none]
      constructor
      · rintro (root | ⟨filled, same | start⟩)
        · exact .inl root
        · exact absurd same filled
        · exact absurd (List.prefix_nil.mp start) (by simp)
      · rintro (root | ⟨filled, root | start⟩)
        · exact .inl root
        · exact .inl root
        · have short : (p ++ ['/']).length ≤ 1 := start.length_le
          have long := List.length_pos_iff.mpr filled
          rw [List.length_append, List.length_singleton] at short
          omega
    · rw [slashedPath, if_neg none]
      rfl
  · rw [List.map_cons, List.pairwise_cons]
    refine ⟨?_, pairwise_crumbsBelow [] parts⟩
    intro q listed
    obtain ⟨crumb, member, rfl⟩ := List.mem_map.mp listed
    obtain ⟨front, last, ⟨back, rfl⟩, rfl⟩ := mem_crumbsBelow_iff.mp member
    have filled := List.length_pos_iff.mpr resolved.before.last_plain.1
    simp only [slashed_concat, List.length_append, List.length_cons, rootCrumb]
    change 1 < _
    omega
  · by_cases none : parts = []
    · rw [none]
      rfl
    · rw [List.map_cons, List.getLast?_cons, getLast_crumbsBelow [] none, slashedPath, if_neg none]
      rfl
  · intro crumb member
    rcases List.mem_cons.mp member with rfl | member
    · decide +kernel
    · obtain ⟨front, last, ⟨back, rfl⟩, rfl⟩ := mem_crumbsBelow_iff.mp member
      have named := resolved.before.guestFileName_concat
      rw [slashedPath, if_neg (by simp)] at named
      exact named

/-! ## The laws -/

theorem resolved_of_guestPathParent {source parent : Text}
    (found : guestPathParent source = .ok (some parent)) :
    ∃ front last, Resolved (front ++ [last]) ∧ parent = slashedPath front := by
  rw [guestPathParent] at found
  split at found
  · cases found
  · next path done =>
      obtain ⟨parts, resolved, rfl⟩ := resolved_of_resolveGuestPath done
      split at found
      · cases found
      · next other =>
          have given := (slashedPath_eq_root_iff resolved.1).not.mp other
          obtain ⟨front, last, rfl⟩ := (List.eq_nil_or_concat parts).resolve_left given
          rw [List.concat_eq_append] at resolved other found
          have cut := resolved.guestPathParent_concat
          rw [guestPathParent, resolved.fixed] at cut
          dsimp only at cut
          rw [if_neg other] at cut
          refine ⟨front, last, resolved, ?_⟩
          exact Option.some.inj (Except.ok.inj (found.symm.trans cut))

/-- A renamed path keeps its parent and gets the trimmed name. -/
theorem guestRenameDest_splits {source newName dest : Text}
    (done : guestRenameDest source newName = .ok dest) :
    guestPathParent dest = guestPathParent source ∧ guestFileName dest = .ok (trim newName) := by
  rw [guestRenameDest] at done
  split at done
  · cases done
  · next named =>
      simp only [Bool.or_eq_true, decide_eq_true_eq, not_or] at named
      obtain ⟨⟨⟨⟨some, slash⟩, backslash⟩, dot⟩, dots⟩ := named
      split at done
      · cases done
      · cases done
      · next parent found =>
          obtain ⟨front, last, resolved, rfl⟩ := resolved_of_guestPathParent found
          rw [resolveGuestPath_below resolved.before.1 some slash] at done
          have whole : '\x00' ∉ trim newName := by
            intro inside
            rw [resolveGuestPath, if_pos] at done
            · cases done
            · have same : joinedPath (slashedPath (front ++ [trim newName])) [] =
                  slashedPath (front ++ [trim newName]) := by
                rw [slashedPath_eq_join]
                rfl
              rw [same, slashedPath_concat]
              exact List.mem_append_right _ (List.mem_cons_of_mem _ inside)
          have plain : PlainSegment (trim newName) := by
            refine ⟨some, dot, dots, ?_⟩
            intro c inside
            refine ⟨?_, ?_, ?_⟩
            · rintro rfl
              exact slash inside
            · rintro rfl
              exact backslash inside
            · rintro rfl
              exact whole inside
          have segments : ∀ seg ∈ front ++ [trim newName], PlainSegment seg := by
            intro seg member
            rcases List.mem_append.mp member with old | new
            · exact resolved.before.1 seg old
            · rw [List.mem_singleton.mp new]
              exact plain
          have renamed : Resolved (front ++ [trim newName]) ∧
              dest = slashedPath (front ++ [trim newName]) := by
            rw [slashedPath_eq_join, resolveGuestPath_of_segments segments] at done
            split at done
            · cases done
            · next short =>
                rw [Resolved, slashedPath_eq_join]
                exact ⟨⟨segments, Nat.le_of_not_lt short⟩, (Except.ok.inj done).symm⟩
          rw [renamed.2, found]
          exact ⟨renamed.1.guestPathParent_concat, renamed.1.guestFileName_concat⟩

/-- Resolved paths are normal, parent and name split them, the crumbs are their beginnings, and
renaming changes the name only. -/
theorem guestPath_algebra :
    (∀ cwd name path, resolveGuestPath cwd name = .ok path →
      NormalPath path ∧ SplitsAtName path ∧ CrumbsOf path) ∧
    ∀ source newName dest, guestRenameDest source newName = .ok dest →
      guestPathParent dest = guestPathParent source ∧ guestFileName dest = .ok (trim newName) := by
  refine ⟨?_, fun _ _ _ => guestRenameDest_splits⟩
  intro cwd name path done
  obtain ⟨parts, resolved, rfl⟩ := resolved_of_resolveGuestPath done
  exact ⟨resolved.normal, resolved.splits, resolved.crumbs⟩

/-- A path with dots and backslashes, and a name with blanks. -/
theorem guestPath_algebra_of_passwd :
    (NormalPath "/etc/passwd" ∧ SplitsAtName "/etc/passwd" ∧ CrumbsOf "/etc/passwd") ∧
      guestPathParent "/etc/shadow" = guestPathParent "/etc/passwd" ∧
        guestFileName "/etc/shadow" = .ok "shadow" := by
  refine ⟨guestPath_algebra.1 "/var" "..\\etc//./passwd" _ (by decide +kernel), ?_⟩
  exact guestPath_algebra.2 "/etc/passwd" " shadow " _ (by decide +kernel)

end Proxora
