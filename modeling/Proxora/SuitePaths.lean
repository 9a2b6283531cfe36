import Proxora.Ecma.Text

/-!
# The paths of embedded apps

An embedded app is reached below its mount `/ora/<id>`; `lib/suite-proxy.ts` writes the
app's paths below it and reads them back.

`assetPath_roundtrip_iff` says which paths come back as they were: those that have no
query, fragment or line break, and that are not below `/r`.
-/

namespace Proxora

open Ecma

/-! ## Mounts -/

/-- `[a-z0-9]`. -/
def isIdEnd (c : Char) : Bool := c.isLower || c.isDigit

/-- `/^[a-z0-9](?:[a-z0-9-]{0,38}[a-z0-9])?$/`, the pattern `ID`. -/
def isMountId (id : Text) : Bool :=
  id.head?.any isIdEnd && id.getLast?.any isIdEnd && id.length ≤ 40 &&
    id.all fun c => isIdEnd c || c = '-'

def suiteProxyPrefix (id : Text) : Text := ("/ora/" : Text) ++ id

/-- `STATIC_ROOTS`. -/
def staticRoots : List Text := ["/_next/", "/static/", "/assets/", "/favicon", "/icon-"]

def isStaticPath (path : Text) : Bool := staticRoots.any fun root => startsWith path root

def suiteAssetPath (mount path : Text) : Text :=
  if isStaticPath path then mount ++ "/r" ++ path else mount ++ path

def stripAssetBump (pathname : Text) : Text :=
  if pathname = "/r" then "/"
  else if startsWith pathname "/r/" then pathname.drop 2
  else pathname

/-- `SuiteProxyTarget`. -/
structure SuiteProxyTarget where
  id : Text
  pathname : Text
  search : Text
  bare : Bool
deriving DecidableEq, Repr

/-- The characters that `.` does not match. -/
def isLineEnd (c : Char) : Bool :=
  c = '\n' || c = '\r' || c.toNat = 0x2028 || c.toNat = 0x2029

/-- `PROXY_PATH.exec(path)`, the pattern being `^/ora/ID(/.*)?$`: the id, which has no slash,
and what follows it. -/
def matchProxyPath (path : Text) : Option (Text × Text) :=
  if startsWith path "/ora/" then
    let id := (path.drop 5).takeWhile (· ≠ '/')
    let extra := (path.drop 5).dropWhile (· ≠ '/')
    if isMountId id && !(extra.any isLineEnd) then some (id, extra) else none
  else none

def parseSuiteProxyUrl (raw : Text) : Option SuiteProxyTarget :=
  let path := (raw.takeWhile (· ≠ '?')).takeWhile (· ≠ '#')
  let search := raw.dropWhile (· ≠ '?')
  match matchProxyPath path with
  | none => none
  | some (id, extra) =>
      some ⟨id, if extra = [] then "/" else extra, search, extra = []⟩

example : parseSuiteProxyUrl "/ora/dockora/api/v1/auth/status?x=1" =
    some ⟨"dockora", "/api/v1/auth/status", "?x=1", false⟩ := by
  decide

/-! ## There and back -/

/-- The path without its query and fragment. -/
def barePath (path : Text) : Text := (path.takeWhile (· ≠ '?')).takeWhile (· ≠ '#')

section RoundTrip

variable {id path rest : Text}

theorem isIdChar_of_mem (valid : isMountId id = true) {c : Char} (member : c ∈ id) :
    isIdEnd c = true ∨ c = '-' := by
  unfold isMountId at valid
  simp only [Bool.and_eq_true, List.all_eq_true, Bool.or_eq_true, decide_eq_true_eq] at valid
  exact valid.2 c member

/-- None of the characters that structure a URL is in an id. -/
theorem ne_of_mem_mountId (valid : isMountId id = true) {c : Char} (member : c ∈ id) :
    c ≠ '/' ∧ c ≠ '?' ∧ c ≠ '#' := by
  have inId := isIdChar_of_mem valid member
  refine ⟨?_, ?_, ?_⟩
  · rintro rfl
    exact absurd inId (by decide)
  · rintro rfl
    exact absurd inId (by decide)
  · rintro rfl
    exact absurd inId (by decide)

/-- Below a mount, what is cut off is cut off the path. -/
theorem barePath_mount (valid : isMountId id = true) (rest : Text) :
    barePath (suiteProxyPrefix id ++ rest) = suiteProxyPrefix id ++ barePath rest := by
  have free : ∀ c ∈ suiteProxyPrefix id, c ≠ '?' ∧ c ≠ '#' := by
    intro c member
    rcases List.mem_append.mp member with inRoot | inId
    · have root : ("/ora/" : Text).all (fun c => c ≠ '?' ∧ c ≠ '#') = true := by decide
      exact of_decide_eq_true (List.all_eq_true.mp root c inRoot)
    · exact (ne_of_mem_mountId valid inId).2
  unfold barePath
  rw [List.takeWhile_append_of_pos fun c member => decide_eq_true (free c member).1,
    List.takeWhile_append_of_pos fun c member => decide_eq_true (free c member).2]

/-- The pattern finds the mount again. -/
theorem matchProxyPath_mount (valid : isMountId id = true) (slash : rest.head? = some '/') :
    matchProxyPath (suiteProxyPrefix id ++ rest) =
      if rest.any isLineEnd then none else some (id, rest) := by
  have below : (suiteProxyPrefix id ++ rest).drop 5 = id ++ rest := rfl
  have starts : startsWith (suiteProxyPrefix id ++ rest) "/ora/" = true := by
    unfold startsWith suiteProxyPrefix
    rw [List.isPrefixOf_iff_prefix, List.append_assoc]
    exact List.prefix_append _ _
  obtain ⟨tail, rfl⟩ : ∃ tail, rest = '/' :: tail := by
    cases rest with
    | nil => cases slash
    | cons c tail =>
        cases slash
        exact ⟨tail, rfl⟩
  have inside : ∀ c ∈ id, decide (c ≠ '/') = true := fun c member =>
    decide_eq_true (ne_of_mem_mountId valid member).1
  have idOf : (id ++ '/' :: tail).takeWhile (· ≠ '/') = id := by
    rw [List.takeWhile_append_of_pos inside]
    exact List.append_nil id
  have extraOf : (id ++ '/' :: tail).dropWhile (· ≠ '/') = '/' :: tail :=
    List.dropWhile_append_of_pos inside
  unfold matchProxyPath
  rw [if_pos starts, below]
  dsimp only
  rw [idOf, extraOf, valid, Bool.true_and]
  cases ('/' :: tail).any isLineEnd <;> rfl

theorem exists_cons_of_head (slash : path.head? = some '/') : ∃ tail, path = '/' :: tail :=
  ⟨path.tail, (List.cons_head?_tail slash).symm⟩

theorem head_barePath (slash : path.head? = some '/') : (barePath path).head? = some '/' := by
  obtain ⟨tail, rfl⟩ := exists_cons_of_head slash
  rfl

/-- What is parsed of a URL below a mount. -/
theorem parseSuiteProxyUrl_mount (valid : isMountId id = true) (slash : rest.head? = some '/') :
    parseSuiteProxyUrl (suiteProxyPrefix id ++ rest) =
      if (barePath rest).any isLineEnd then none
      else some ⟨id, barePath rest, (suiteProxyPrefix id ++ rest).dropWhile (· ≠ '?'), false⟩ := by
  have path : ((suiteProxyPrefix id ++ rest).takeWhile (· ≠ '?')).takeWhile (· ≠ '#') =
      suiteProxyPrefix id ++ barePath rest := barePath_mount valid rest
  have some_path : barePath rest ≠ [] := by
    intro empty
    have head := head_barePath slash
    rw [empty] at head
    cases head
  unfold parseSuiteProxyUrl
  dsimp only
  rw [path, matchProxyPath_mount valid (head_barePath slash)]
  cases (barePath rest).any isLineEnd with
  | true => rfl
  | false =>
      rw [if_neg Bool.false_ne_true]
      dsimp only
      rw [if_neg some_path, decide_eq_false some_path]
      rfl

/-- The inserted segment is taken off again. -/
theorem stripAssetBump_bumped (slash : path.head? = some '/') :
    stripAssetBump ("/r" ++ path) = path := by
  obtain ⟨tail, rfl⟩ := exists_cons_of_head slash
  have longer : ("/r" : Text) ++ '/' :: tail ≠ "/r" := by
    intro same
    cases same
  have bumped : startsWith (("/r" : Text) ++ '/' :: tail) "/r/" = true := rfl
  unfold stripAssetBump
  rw [if_neg longer, if_pos bumped]
  rfl

theorem barePath_bumped (path : Text) : barePath ("/r" ++ path) = "/r" ++ barePath path := rfl

/-- The path that arrives, as long as no line break stands in its way. -/
def arrivedPath (path : Text) : Text :=
  if isStaticPath path then barePath path else stripAssetBump (barePath path)

/-- **What arrives of an asset path.** -/
theorem parseSuiteProxyUrl_suiteAssetPath (valid : isMountId id = true)
    (slash : path.head? = some '/') :
    (parseSuiteProxyUrl (suiteAssetPath (suiteProxyPrefix id) path)).map
        (fun target => (target.id, stripAssetBump target.pathname)) =
      if (barePath path).any isLineEnd then none else some (id, arrivedPath path) := by
  unfold suiteAssetPath arrivedPath
  cases isStaticPath path with
  | true =>
      have bumpedSlash : (("/r" : Text) ++ path).head? = some '/' := rfl
      rw [if_pos rfl, if_pos rfl, List.append_assoc, parseSuiteProxyUrl_mount valid bumpedSlash,
        barePath_bumped]
      have lines : (("/r" : Text) ++ barePath path).any isLineEnd = (barePath path).any isLineEnd :=
        rfl
      rw [lines]
      cases (barePath path).any isLineEnd with
      | true => rfl
      | false =>
          rw [if_neg Bool.false_ne_true, if_neg Bool.false_ne_true, Option.map_some]
          rw [stripAssetBump_bumped (head_barePath slash)]
  | false =>
      rw [if_neg Bool.false_ne_true, if_neg Bool.false_ne_true,
        parseSuiteProxyUrl_mount valid slash]
      cases (barePath path).any isLineEnd <;> rfl

/-! ## Which paths come back -/

/-- The path has no query, no fragment and no line break. -/
def IsBare (path : Text) : Prop := ∀ c ∈ path, c ≠ '?' ∧ c ≠ '#' ∧ isLineEnd c = false

/-- The path looks as if a segment had been inserted. -/
def LooksBumped (path : Text) : Prop := path = "/r" ∨ ("/r/" : Text) <+: path

theorem barePath_isPrefix (path : Text) : barePath path <+: path :=
  (List.takeWhile_prefix _).trans (List.takeWhile_prefix _)

theorem barePath_eq_self_iff : barePath path = path ↔ ∀ c ∈ path, c ≠ '?' ∧ c ≠ '#' := by
  constructor
  · intro kept c member
    have noQuery : path.takeWhile (· ≠ '?') = path :=
      (List.takeWhile_prefix _).eq_of_length_le
        ((List.takeWhile_prefix _).length_le.trans' (Nat.le_of_eq (congrArg List.length kept.symm)))
    have noHash : path.takeWhile (· ≠ '#') = path := by
      unfold barePath at kept
      rwa [noQuery] at kept
    exact ⟨of_decide_eq_true (List.takeWhile_eq_self_iff.mp noQuery c member),
      of_decide_eq_true (List.takeWhile_eq_self_iff.mp noHash c member)⟩
  · intro free
    have noQuery : path.takeWhile (· ≠ '?') = path :=
      List.takeWhile_eq_self_iff.mpr fun c member => decide_eq_true (free c member).1
    have noHash : path.takeWhile (· ≠ '#') = path :=
      List.takeWhile_eq_self_iff.mpr fun c member => decide_eq_true (free c member).2
    unfold barePath
    rw [noQuery, noHash]

theorem length_stripAssetBump_le (some_path : path ≠ []) :
    (stripAssetBump path).length ≤ path.length := by
  unfold stripAssetBump
  split_ifs
  · exact List.length_pos_iff.mpr some_path
  · exact (List.drop_sublist 2 path).length_le
  · exact Nat.le_refl _

theorem stripAssetBump_eq_self_iff : stripAssetBump path = path ↔ ¬LooksBumped path := by
  unfold stripAssetBump LooksBumped startsWith
  simp only [List.isPrefixOf_iff_prefix]
  split_ifs with bump below
  · subst bump
    decide
  · refine iff_of_false (fun same => ?_) fun apart => apart (.inr below)
    have shorter := congrArg List.length same
    have long := below.length_le
    rw [List.length_drop] at shorter
    have three : ("/r/" : Text).length = 3 := rfl
    omega
  · exact iff_of_true rfl fun looks => looks.elim bump below

theorem not_looksBumped_of_static (static : isStaticPath path = true) : ¬LooksBumped path := by
  obtain ⟨root, member, starts⟩ := List.any_eq_true.mp static
  obtain ⟨tail, rfl⟩ : root <+: path := List.isPrefixOf_iff_prefix.mp starts
  -- a root of the list goes on with another letter
  have seconds : staticRoots.all (fun root => root[1]?.any (· ≠ 'r')) = true := by decide
  obtain ⟨c, second, apart⟩ := (Option.any_eq_true _ _).mp (List.all_eq_true.mp seconds root member)
  have found : (root ++ tail)[1]? = some c := by
    have inside := (List.getElem?_eq_some_iff.mp second).1
    rw [List.getElem?_append_left inside, second]
  rintro (same | ⟨rest, same⟩)
  · rw [same] at found
    cases found
    cases apart
  · rw [← same] at found
    cases found
    cases apart

/-- **Which asset paths come back as they were.** -/
theorem assetPath_roundtrip_iff (valid : isMountId id = true) (slash : path.head? = some '/') :
    (parseSuiteProxyUrl (suiteAssetPath (suiteProxyPrefix id) path)).map
        (fun target => (target.id, stripAssetBump target.pathname)) = some (id, path) ↔
      IsBare path ∧ ¬LooksBumped path := by
  have some_path : barePath path ≠ [] := by
    intro empty
    have head := head_barePath slash
    rw [empty] at head
    cases head
  have bare_iff : IsBare path ↔ barePath path = path ∧ (barePath path).any isLineEnd = false := by
    rw [barePath_eq_self_iff]
    constructor
    · intro bare
      refine ⟨fun c member => ⟨(bare c member).1, (bare c member).2.1⟩, ?_⟩
      rw [List.any_eq_false]
      intro c member
      rw [(bare c ((barePath_isPrefix path).subset member)).2.2]
      exact Bool.false_ne_true
    · rintro ⟨free, lines⟩ c member
      rw [barePath_eq_self_iff.mpr free, List.any_eq_false] at lines
      exact ⟨(free c member).1, (free c member).2, Bool.eq_false_iff.mpr (lines c member)⟩
  rw [parseSuiteProxyUrl_suiteAssetPath valid slash, bare_iff]
  cases lines : (barePath path).any isLineEnd with
  | true => exact iff_of_false (fun same => by cases same) fun bare => by cases bare.1.2
  | false =>
      rw [if_neg Bool.false_ne_true, and_iff_left rfl, Option.some_inj, Prod.mk.injEq,
        and_iff_right rfl]
      constructor
      · intro arrives
        have long : path.length ≤ (barePath path).length := by
          unfold arrivedPath at arrives
          split at arrives
          · exact Nat.le_of_eq (congrArg List.length arrives.symm)
          · have shorter := length_stripAssetBump_le some_path
            rwa [arrives] at shorter
        have kept := (barePath_isPrefix path).eq_of_length_le long
        refine ⟨kept, ?_⟩
        unfold arrivedPath at arrives
        rw [kept] at arrives
        split at arrives
        · next static => exact not_looksBumped_of_static static
        · exact stripAssetBump_eq_self_iff.mp arrives
      · rintro ⟨kept, plain⟩
        unfold arrivedPath
        rw [kept, stripAssetBump_eq_self_iff.mpr plain, ite_self]

/-- A path below `/r` comes back without its first segment. -/
theorem bumped_path_lost :
    (parseSuiteProxyUrl (suiteAssetPath (suiteProxyPrefix "sambora") "/r/logo.png")).map
        (fun target => (target.id, stripAssetBump target.pathname)) ≠
      some (("sambora" : Text), ("/r/logo.png" : Text)) := by
  decide

theorem assetPath_roundtrip_static :
    (parseSuiteProxyUrl (suiteAssetPath (suiteProxyPrefix "sambora") "/static/a.css")).map
        (fun target => (target.id, stripAssetBump target.pathname)) =
          some (("sambora" : Text), ("/static/a.css" : Text)) ↔
      IsBare "/static/a.css" ∧ ¬LooksBumped "/static/a.css" := by
  have valid : isMountId "sambora" = true := by decide
  have slash : ("/static/a.css" : Text).head? = some '/' := rfl
  exact assetPath_roundtrip_iff valid slash

end RoundTrip

end Proxora
