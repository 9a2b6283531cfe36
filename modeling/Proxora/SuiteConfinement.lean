import Proxora.Ecma.UrlParser
import Proxora.SuitePaths

/-!
# The confinement of embedded apps

`upstreamTarget` and `rewriteLocation` of `lib/suite-proxy.ts`: the URL that a request below
a mount is sent to, and the `Location` that an answer comes back with.

Both put texts of others behind a path and leave the dot segments in them to the URL
parser.  `proxy_confined_iff` says when these lead out: when they climb over the path and do
not come back through the same names.
-/

namespace Proxora

open Ecma

variable {Host : Type}

/-! ## To the upstream -/

/-- `root.pathname.replace(/\/+$/, "")`. -/
def basePath (root : WebUrl Host) : Text := root.pathname.rdropWhile (· = '/')

/-- `url.pathname = value`. -/
def setPathname (value : Text) : UrlPath := UrlPath.root (withoutTabs value)

/-- `url.search = value`. -/
def setSearch : Text → Option Text
  | [] => none
  | c :: query =>
      some (encodedQuery (withoutTabs (if c = '?' then query else c :: query)))

/-- `upstreamTarget(base, pathname, search)`; `none` when the base is no `http` or `https`
URL, which the settings do not admit. -/
def upstreamTarget (parseHost : Text → Option Host) (base pathname search : Text) :
    Option (WebUrl Host) :=
  match parseUrl parseHost none base with
  | some (.web root) =>
      let suffix : Text := if pathname = "/" then [] else pathname
      let joined := basePath root ++ suffix
      some { root with
        path := setPathname (if joined = [] then "/" else joined)
        query := setSearch search
        fragment := none }
  | _ => none

/-! ## Back from the upstream -/

/-- A reference to the root of the same host. -/
def isRooted (location : Text) : Bool := startsWith location "/" && !startsWith location "//"

/-- `location` is one of the app's paths already. -/
def isMounted (mount location : Text) : Bool :=
  location = mount || startsWith location (mount ++ ['/']) || startsWith location (mount ++ ['?'])

def rewriteLocation [DecidableEq Host] (parseHost : Text → Option Host) (location : Text)
    (upstream : WebUrl Host) (mount : Text) : Text :=
  if isRooted location then
    if isMounted mount location then location else suiteAssetPath mount location
  else
    match parseUrl parseHost (some upstream) location with
    | none => location
    | some absolute =>
        if absolute.origin ≠ some upstream.origin then location
        else
          let path := absolute.pathname ++ absolute.search ++ absolute.hash
          if path = mount || startsWith path (mount ++ ['/']) then path
          else suiteAssetPath mount path

/-! ## Confinement -/

/-- Wherever the browser finds the text to lead on the app's own origin, it is below the
mount. -/
def StaysWithin (parseHost : Text → Option Host) (page : WebUrl Host) (mount text : Text) :
    Prop :=
  ∀ url, parseUrl parseHost (some page) text = some url → url.origin = some page.origin →
    AtOrBelow mount url.pathname

/-- The segments of the base path. -/
def baseSegmentsOf (root : WebUrl Host) : List Text := root.path.segments.rdropWhile (· = [])

/-- The request path, read on from the base path, returns to it. -/
def RequestReturns (root : WebUrl Host) (rest : Text) : Prop :=
  ReturnsTo (baseSegmentsOf root) (baseSegmentsOf root)
    (if rest = [] then [] else pathSegments (withoutTabs rest))

def mountSegments (id : Text) : List Text := ["ora", id]

/-- The mount's name with the given text behind it, read on from `/ora`, returns to the
mount. -/
def MountReturns (id behind : Text) : Prop :=
  ReturnsTo (mountSegments id) ["ora"]
    (pathSegments (id ++ pathPart (withoutTabs (trimEnd behind))))

/-- What stands behind the mount when a path of the app is rewritten. -/
def behindMount (mount location : Text) : Text :=
  if isMounted mount location then location.drop mount.length
  else if isStaticPath location then ("/r" : Text) ++ location
  else location

/-- The condition on a `Location`: one from the root returns to the mount, and so does what
a `blob` URL of the upstream names; one that is passed on is no page of Proxora itself
outside the mount. -/
def LocationReturns [DecidableEq Host] (parseHost : Text → Option Host) (page : WebUrl Host)
    (id location : Text) (upstream : WebUrl Host) : Prop :=
  if isRooted location then MountReturns id (behindMount (suiteProxyPrefix id) location)
  else
    match parseUrl parseHost (some upstream) location with
    | none => StaysWithin parseHost page (suiteProxyPrefix id) location
    | some absolute =>
        if absolute.origin ≠ some upstream.origin then
          StaysWithin parseHost page (suiteProxyPrefix id) location
        else
          match absolute with
          | .blob path query fragment _ =>
              MountReturns id (path ++ signed '?' query ++ signed '#' fragment)
          | _ => True

/-! ## The base path -/

theorem rdropWhile_pathText {segments : List Text} (free : ∀ s ∈ segments, '/' ∉ s) :
    (pathText segments).rdropWhile (· = '/') = pathText (segments.rdropWhile (· = [])) := by
  induction segments using List.reverseRecOn with
  | nil => rfl
  | append_singleton segments last ih =>
      have before := ih fun s member => free s (List.mem_append_left [last] member)
      have text : pathText (segments ++ [last]) = pathText segments ++ '/' :: last := by
        rw [pathText_append, pathText, pathText, List.flatMap_singleton]
      rcases List.eq_nil_or_concat last with rfl | ⟨front, c, rfl⟩
      · rw [text, List.rdropWhile_concat_pos _ _ _ (by decide), before,
          List.rdropWhile_concat_pos _ _ _ (by decide)]
      · have other : c ≠ '/' := by
          rintro rfl
          exact free _ (List.mem_append_right segments List.mem_cons_self) (by simp)
        rw [List.rdropWhile_concat_neg _ _ _ (by simp), text, List.concat_eq_append,
          ← List.cons_append, ← List.append_assoc,
          List.rdropWhile_concat_neg _ _ _ (by simp [other])]

theorem basePath_eq (root : WebUrl Host) : basePath root = pathText (baseSegmentsOf root) :=
  rdropWhile_pathText fun s member => (root.path.clean s member).slash_notMem

theorem clean_baseSegmentsOf (root : WebUrl Host) :
    ∀ s ∈ baseSegmentsOf root, CleanSegment s :=
  fun s member => root.path.clean s ((List.rdropWhile_prefix _ _).subset member)

/-- A path that is written behind a clean one is read on from it. -/
theorem segments_setPathname {base : List Text} (clean : ∀ s ∈ base, CleanSegment s)
    (rest : Text) :
    (setPathname (pathText base ++ '/' :: rest)).segments =
      walk base (pathSegments (withoutTabs rest)) := by
  have plain : withoutTabs (pathText base ++ '/' :: rest) =
      pathText base ++ '/' :: withoutTabs rest := by
    rw [withoutTabs, List.filter_append, ← withoutTabs, withoutTabs_of_copied
      (copied_of_mem_pathText clean), List.filter_cons_of_pos (by decide)]
    rfl
  rw [setPathname, plain]
  cases base with
  | nil => rfl
  | cons segment base =>
      have noDots : ∀ s ∈ segment :: base, isDots s = false := fun s member =>
        (clean s member).noDots
      have more : pathSegments (withoutTabs rest) ≠ [] := split_ne_nil '/' _
      rw [pathText_cons, List.append_assoc, List.cons_append, root_slash, ← List.append_assoc,
        pathSegments_append_slash, pathSegments_pathText clean,
        walk_append more, walkOn_of_noDots noDots]
      rfl

theorem segments_setPathname_base {base : List Text} (clean : ∀ s ∈ base, CleanSegment s)
    (some : base ≠ []) : (setPathname (pathText base)).segments = base := by
  obtain ⟨segment, base, rfl⟩ := List.exists_cons_of_ne_nil some
  have noDots : ∀ s ∈ segment :: base, isDots s = false := fun s member => (clean s member).noDots
  rw [setPathname, withoutTabs_of_copied (copied_of_mem_pathText clean), pathText_cons,
    List.cons_append, root_slash, pathSegments_pathText clean, walk_of_noDots noDots]
  rfl

/-- The path that is set is the base path with the request path read on from it. -/
theorem request_below_iff (root : WebUrl Host) (rest : Text) :
    AtOrBelow (basePath root) (setPathname
      (if basePath root ++ (if '/' :: rest = ("/" : Text) then [] else '/' :: rest) = [] then "/"
        else basePath root ++ if '/' :: rest = ("/" : Text) then [] else '/' :: rest)).text ↔
      RequestReturns root rest := by
  have clean := clean_baseSegmentsOf root
  have baseFree : ∀ s ∈ baseSegmentsOf root, '/' ∉ s := fun s member =>
    (clean s member).slash_notMem
  have free (path : UrlPath) : ∀ s ∈ path.segments, '/' ∉ s := fun s member =>
    (path.clean s member).slash_notMem
  rw [RequestReturns, ← prefix_walk_iff (List.prefix_refl _), basePath_eq]
  by_cases root_only : rest = []
  · have itself : ('/' :: rest : Text) = "/" := by rw [root_only]; rfl
    rw [if_pos itself, List.append_nil, if_pos root_only]
    refine iff_of_true ?_ (List.prefix_refl _)
    by_cases none : baseSegmentsOf root = []
    · rw [none]
      exact .inr (by decide)
    · have nonempty : pathText (baseSegmentsOf root) ≠ [] := by
        obtain ⟨segment, base, form⟩ := List.exists_cons_of_ne_nil none
        rw [form, pathText_cons]
        exact List.cons_ne_nil _ _
      rw [if_neg nonempty]
      refine .inl ?_
      rw [UrlPath.text, segments_setPathname_base clean none]
  · have more : ('/' :: rest : Text) ≠ "/" := fun same => root_only (List.cons.inj same).2
    rw [if_neg more, if_neg root_only, if_neg (List.append_ne_nil_of_right_ne_nil _
      (List.cons_ne_nil _ _)), UrlPath.text, atOrBelow_pathText baseFree (free _),
      segments_setPathname clean]

/-! ## The mount -/

theorem suiteProxyPrefix_eq (id : Text) : suiteProxyPrefix id = pathText (mountSegments id) := by
  rw [mountSegments, pathText_cons, pathText_cons, suiteProxyPrefix]
  exact congrArg (fun text => '/' :: 'o' :: 'r' :: 'a' :: '/' :: text) (List.append_nil id).symm

theorem cleanSegment_id {id : Text} (valid : isMountId id = true) : CleanSegment id where
  chars c member := by
    have letter := isIdChar_of_mem valid member
    have bounded : ∀ n < 128, (isIdEnd (Char.ofNat n) = true ∨ Char.ofNat n = '-') →
        isPathChar (Char.ofNat n) = true := by decide
    have small : c.toNat < 128 := by
      rcases letter with ending | rfl
      · rw [isIdEnd, Bool.or_eq_true] at ending
        simp only [Char.isLower, Char.isDigit, Bool.and_eq_true, decide_eq_true_eq,
          UInt32.le_iff_toNat_le] at ending
        have value : c.toNat = c.val.toNat := rfl
        have bounds : 'z'.val.toNat = 122 ∧ '9'.val.toNat = 57 := by decide
        omega
      · decide
    have entry := bounded c.toNat small
    rw [Char.ofNat_toNat] at entry
    exact entry letter
  noDots := by
    have other : '.' ∉ id ∧ '%' ∉ id :=
      ⟨fun member => absurd (isIdChar_of_mem valid member) (by decide),
        fun member => absurd (isIdChar_of_mem valid member) (by decide)⟩
    have opens : ∀ a ∈ dotTexts, '.' ∈ a ∨ '%' ∈ a := by decide
    rw [isDots, Bool.or_eq_false_iff, ← Bool.not_eq_true, ← Bool.not_eq_true]
    constructor
    · intro single
      rcases opens id (mem_dotTexts_iff.mpr single) with dot | percent
      · exact other.1 dot
      · exact other.2 percent
    · intro double
      obtain ⟨a, dots, b, _, rfl⟩ := isDoubleDot_iff.mp double
      rcases opens a dots with dot | percent
      · exact other.1 (List.mem_append_left b dot)
      · exact other.2 (List.mem_append_left b percent)

theorem clean_mountSegments {id : Text} (valid : isMountId id = true) :
    ∀ s ∈ mountSegments id, CleanSegment s := by
  have ora : CleanSegment "ora" := {
    chars := fun c member => by
      have all : ("ora" : Text).all isPathChar = true := by decide
      exact List.all_eq_true.mp all c member
    noDots := by decide }
  intro s member
  rw [mountSegments, List.mem_cons, List.mem_singleton] at member
  rcases member with rfl | rfl
  · exact ora
  · exact cleanSegment_id valid

theorem copied_of_mem_mount {id : Text} (valid : isMountId id = true) :
    ∀ c ∈ suiteProxyPrefix id, isPathChar c = true ∨ c = '/' := by
  rw [suiteProxyPrefix_eq]
  exact copied_of_mem_pathText (clean_mountSegments valid)

section Location

variable {parseHost : Text → Option Host} {page upstream : WebUrl Host} {id : Text}

/-- A text that begins with the mount is a path on Proxora's own host. -/
theorem parseUrl_mount (parseHost : Text → Option Host) (page : WebUrl Host)
    (valid : isMountId id = true) (behind : Text) :
    ∃ url, parseUrl parseHost (some page) (suiteProxyPrefix id ++ behind) = some (.web url) ∧
      url.origin = page.origin ∧ url.path.segments =
        walk ["ora"] (pathSegments (id ++ pathPart (withoutTabs (trimEnd behind)))) := by
  have copied := copied_of_mem_mount valid
  have text : urlText (suiteProxyPrefix id ++ behind) =
      '/' :: (("ora/" : Text) ++ id ++ withoutTabs (trimEnd behind)) :=
    urlText_append behind copied (List.cons_ne_nil _ _)
  have path : pathPart ('/' :: (("ora/" : Text) ++ id ++ withoutTabs (trimEnd behind))) =
      '/' :: (("ora" : Text) ++ '/' :: (id ++ pathPart (withoutTabs (trimEnd behind)))) :=
    pathPart_append _ copied
  have more : pathSegments (id ++ pathPart (withoutTabs (trimEnd behind))) ≠ [] :=
    split_ne_nil '/' _
  have ora : pathSegments "ora" = ["ora"] := by decide
  refine ⟨_, parseUrl_of_rooted parseHost page text rfl, rfl, ?_⟩
  rw [path, root_slash, pathSegments_append_slash, ora, walk_append more]
  rfl

/-- Behind the mount the browser stays exactly where the text returns to it. -/
theorem staysWithin_mount_iff (valid : isMountId id = true) (behind : Text) :
    StaysWithin parseHost page (suiteProxyPrefix id) (suiteProxyPrefix id ++ behind) ↔
      MountReturns id behind := by
  obtain ⟨url, parsed, own, segments⟩ := parseUrl_mount parseHost page valid behind
  have below : AtOrBelow (suiteProxyPrefix id) url.pathname ↔ MountReturns id behind := by
    rw [suiteProxyPrefix_eq, WebUrl.pathname, UrlPath.text, atOrBelow_pathText
      (fun s member => (clean_mountSegments valid s member).slash_notMem)
      (fun s member => (url.path.clean s member).slash_notMem), segments]
    have within : (["ora"] : List Text) <+: mountSegments id := ⟨[id], rfl⟩
    exact prefix_walk_iff within _
  rw [StaysWithin, parsed, ← below]
  constructor
  · intro stays
    exact stays _ rfl (congrArg some own)
  · rintro inside _ ⟨⟩ _
    exact inside

/-! ### Locations from the root -/

theorem isMounted_prefix {mount location : Text} (mounted : isMounted mount location = true) :
    location = mount ++ location.drop mount.length := by
  have starts : mount <+: location := by
    simp only [isMounted, startsWith, Bool.or_eq_true, decide_eq_true_eq,
      List.isPrefixOf_iff_prefix] at mounted
    rcases mounted with (rfl | below) | asked
    · exact List.prefix_refl _
    · exact (List.prefix_append _ _).trans below
    · exact (List.prefix_append _ _).trans asked
  exact (List.prefix_iff_eq_append.mp starts).symm

theorem suiteAssetPath_eq (mount path : Text) :
    suiteAssetPath mount path =
      mount ++ if isStaticPath path then ("/r" : Text) ++ path else path := by
  rw [suiteAssetPath]
  split_ifs
  · exact List.append_assoc _ _ _
  · rfl

theorem rewritten_rooted (mount location : Text) :
    (if isMounted mount location then location else suiteAssetPath mount location) =
      mount ++ behindMount mount location := by
  rw [behindMount, suiteAssetPath_eq]
  by_cases mounted : isMounted mount location = true
  · rw [if_pos mounted, if_pos mounted]
    exact isMounted_prefix mounted
  · rw [if_neg mounted, if_neg mounted]

/-! ### Locations on the upstream's origin -/

/-- Search and hash begin with their signs. -/
theorem signed_append (query fragment : Option Text) :
    signed '?' query ++ signed '#' fragment = [] ∨
      ∃ c rest, signed '?' query ++ signed '#' fragment = c :: rest ∧ (c = '?' ∨ c = '#') := by
  have cases_of (sign : Char) (part : Option Text) :
      signed sign part = [] ∨ ∃ rest, signed sign part = sign :: rest := by
    match part with
    | none => exact .inl rfl
    | some [] => exact .inl rfl
    | some (c :: rest) => exact .inr ⟨c :: rest, rfl⟩
  rcases cases_of '?' query with none | ⟨rest, form⟩
  · rw [none, List.nil_append]
    rcases cases_of '#' fragment with none | ⟨rest, form⟩
    · exact .inl none
    · exact .inr ⟨'#', rest, form, .inr rfl⟩
  · exact .inr ⟨'?', rest ++ signed '#' fragment, by rw [form]; rfl, .inl rfl⟩

/-- A normalised path behind the mount is below it. -/
theorem mountReturns_of_clean (valid : isMountId id = true) {segments : List Text}
    (clean : ∀ s ∈ segments, CleanSegment s) {behind : Text}
    (signs : behind = [] ∨ ∃ c rest, behind = c :: rest ∧ (c = '?' ∨ c = '#')) :
    MountReturns id (pathText segments ++ behind) := by
  have copied := copied_of_mem_pathText clean
  have path : pathPart (withoutTabs (trimEnd (pathText segments ++ behind))) =
      pathText segments := by
    rcases signs with rfl | ⟨c, rest, rfl, sign⟩
    · have ends : trimEnd (pathText segments ++ []) = pathText segments := by
        rw [List.append_nil]
        rcases List.eq_nil_or_concat (pathText segments) with nil | ⟨front, last, form⟩
        · rw [nil]
          rfl
        · have visible := visible_of_copied (copied last (by rw [form]; simp))
          rw [form, List.concat_eq_append]
          exact List.rdropWhile_concat_neg _ _ _ (by simpa using visible)
      rw [ends, withoutTabs_of_copied copied, pathPart_of_copied copied]
    · have kept : decide (c.toNat ≤ 0x20) = false ∧ isTabOrNewline c = false ∧
          (c ≠ '?' && c ≠ '#') = false := by
        rcases sign with rfl | rfl
        · decide
        · decide
      have ends : trimEnd (pathText segments ++ c :: rest) =
          pathText segments ++ c :: trimEnd rest :=
        rdropWhile_append_cons (p := fun c : Char => c.toNat ≤ 0x20) kept.1 _ rest
      rw [ends, withoutTabs, List.filter_append, ← withoutTabs, withoutTabs_of_copied copied,
        List.filter_cons_of_pos (by rw [kept.2.1]; rfl), pathPart_append _ copied, pathPart,
        List.takeWhile_cons_of_neg (by rw [kept.2.2]; exact Bool.false_ne_true)]
      exact List.append_nil _
  have all : ∀ s ∈ id :: segments, CleanSegment s := by
    intro s member
    rcases List.mem_cons.mp member with rfl | member
    · exact cleanSegment_id valid
    · exact clean s member
  rw [MountReturns, path, pathSegments_pathText all, ReturnsTo, climbOf,
    Climb.read_of_noDots fun s member => (all s member).noDots]
  exact ⟨segments, rfl⟩

theorem prefix_of_prefix_append {front text behind : List Char} (starts : front <+: text ++ behind)
    (signs : behind = [] ∨ ∃ c rest, behind = c :: rest ∧ (c = '?' ∨ c = '#'))
    (free : ∀ c ∈ front, c ≠ '?' ∧ c ≠ '#') : front <+: text := by
  rcases List.prefix_or_prefix_of_prefix starts (List.prefix_append text behind) with short | long
  · exact short
  · obtain ⟨more, rfl⟩ := long
    rw [List.prefix_append_right_inj] at starts
    rcases signs with rfl | ⟨c, rest, rfl, sign⟩
    · rw [List.prefix_nil.mp starts, List.append_nil]
    · cases more with
      | nil => rw [List.append_nil]
      | cons d more =>
          obtain ⟨rfl, _⟩ := List.cons_prefix_cons.mp starts
          have other := free d (List.mem_append_right text List.mem_cons_self)
          rcases sign with rfl | rfl
          · exact (other.1 rfl).elim
          · exact (other.2 rfl).elim

/-- The path of a URL on the upstream's origin is rewritten to one below the mount. -/
theorem staysWithin_web (valid : isMountId id = true) (url : WebUrl Host) :
    let path := url.pathname ++ signed '?' url.query ++ signed '#' url.fragment
    StaysWithin parseHost page (suiteProxyPrefix id)
      (if path = suiteProxyPrefix id || startsWith path (suiteProxyPrefix id ++ ['/']) then path
        else suiteAssetPath (suiteProxyPrefix id) path) := by
  intro path
  have signs := signed_append url.query url.fragment
  have form : path = pathText url.path.segments ++
      (signed '?' url.query ++ signed '#' url.fragment) := List.append_assoc _ _ _
  have mountFree : ∀ c ∈ suiteProxyPrefix id ++ ['/'], c ≠ '?' ∧ c ≠ '#' := by
    intro c member
    rcases List.mem_append.mp member with member | member
    · rcases copied_of_mem_mount valid c member with copy | rfl
      · exact (isPathChar_bounds copy).2.2.2.2
      · decide
    · rw [List.mem_singleton.mp member]
      decide
  by_cases itself : path = suiteProxyPrefix id
  · have empty : MountReturns id (pathText [] ++ []) :=
      mountReturns_of_clean valid (fun _ member => absurd member List.not_mem_nil) (.inl rfl)
    have stays : StaysWithin parseHost page (suiteProxyPrefix id) (suiteProxyPrefix id ++ []) :=
      (staysWithin_mount_iff valid []).mpr empty
    rw [List.append_nil] at stays
    rw [if_pos (by rw [decide_eq_true itself]; rfl), itself]
    exact stays
  by_cases below : startsWith path (suiteProxyPrefix id ++ ['/']) = true
  · rw [if_pos (by rw [below, Bool.or_true])]
    rw [startsWith, List.isPrefixOf_iff_prefix, form] at below
    have inside : mountSegments id <+: url.path.segments := by
      rw [← atOrBelow_pathText (fun s member => (clean_mountSegments valid s member).slash_notMem)
        (fun s member => (url.path.clean s member).slash_notMem), ← suiteProxyPrefix_eq]
      exact .inr (prefix_of_prefix_append below signs mountFree)
    obtain ⟨more, segments⟩ := inside
    have whole : path = suiteProxyPrefix id ++
        (pathText more ++ (signed '?' url.query ++ signed '#' url.fragment)) := by
      rw [form, ← segments, pathText_append, suiteProxyPrefix_eq, List.append_assoc]
    rw [whole]
    refine (staysWithin_mount_iff valid _).mpr (mountReturns_of_clean valid ?_ signs)
    intro s member
    exact url.path.clean s (segments ▸ List.mem_append_right _ member)
  · rw [Bool.not_eq_true] at below
    rw [if_neg (by rw [decide_eq_false itself, below]; decide), suiteAssetPath_eq, form]
    refine (staysWithin_mount_iff valid _).mpr ?_
    split_ifs
    · have bumped : ("/r" : Text) ++ (pathText url.path.segments ++
          (signed '?' url.query ++ signed '#' url.fragment)) =
          pathText (("r" : Text) :: url.path.segments) ++
            (signed '?' url.query ++ signed '#' url.fragment) := by
        rw [pathText_cons, List.append_assoc]
        rfl
      have r : CleanSegment "r" := {
        chars := fun c member => by
          rw [List.mem_singleton.mp member]
          decide
        noDots := by decide }
      rw [bumped]
      refine mountReturns_of_clean valid ?_ signs
      intro s member
      rcases List.mem_cons.mp member with rfl | member
      · exact r
      · exact url.path.clean s member
    · exact mountReturns_of_clean valid url.path.clean signs

/-- What does not begin with a slash is put right behind the mount. -/
theorem rewritten_opaque {path : Text} (mount : Text) (slash : mount.head? = some '/')
    (other : path.head? ≠ some '/') :
    (if path = mount || startsWith path (mount ++ ['/']) then path
      else suiteAssetPath mount path) = mount ++ path := by
  have roots : ∀ root ∈ staticRoots, root.head? = some '/' := by decide
  have head {start : Text} (starts : start <+: path) (first : start.head? = some '/') : False := by
    obtain ⟨more, rfl⟩ := starts
    cases start with
    | nil => cases first
    | cons c start => exact other first
  have unmounted : (path = mount || startsWith path (mount ++ ['/'])) = false := by
    rw [Bool.or_eq_false_iff, decide_eq_false_iff_not, startsWith, ← Bool.not_eq_true,
      List.isPrefixOf_iff_prefix]
    refine ⟨?_, fun below => ?_⟩
    · rintro rfl
      exact other slash
    · exact head ((List.prefix_append mount ['/']).trans below) slash
  have plain : isStaticPath path = false := by
    rw [isStaticPath, List.any_eq_false]
    intro root listed
    rw [startsWith, List.isPrefixOf_iff_prefix]
    exact fun starts => head starts (roots root listed)
  rw [unmounted, if_neg Bool.false_ne_true, suiteAssetPath_eq, plain, if_neg Bool.false_ne_true]

/-- The rewritten `Location` stays below the mount exactly when the given one returns. -/
theorem location_stays_iff [DecidableEq Host] (valid : isMountId id = true) (location : Text) :
    StaysWithin parseHost page (suiteProxyPrefix id)
        (rewriteLocation parseHost location upstream (suiteProxyPrefix id)) ↔
      LocationReturns parseHost page id location upstream := by
  rw [rewriteLocation, LocationReturns]
  by_cases rooted : isRooted location = true
  · rw [if_pos rooted, if_pos rooted, rewritten_rooted, staysWithin_mount_iff valid]
  · rw [if_neg rooted, if_neg rooted]
    cases parsed : parseUrl parseHost (some upstream) location with
    | none => exact Iff.rfl
    | some absolute =>
        dsimp only
        by_cases same : absolute.origin ≠ some upstream.origin
        · rw [if_pos same, if_pos same]
        · rw [if_neg same, if_neg same]
          cases absolute with
          | web url => exact iff_of_true (staysWithin_web valid url) trivial
          | blob path query fragment origin =>
              have other : (path ++ signed '?' query ++ signed '#' fragment).head? ≠ some '/' := by
                have first := slash_notHead_blob parsed
                cases path with
                | nil =>
                    rcases signed_append query fragment with none | ⟨c, rest, form, sign⟩
                    · rw [List.nil_append, none]
                      exact first
                    · rw [List.nil_append, form]
                      rcases sign with rfl | rfl
                      · exact fun slash => absurd (Option.some.inj slash) (by decide)
                      · exact fun slash => absurd (Option.some.inj slash) (by decide)
                | cons c path => exact first
              have glued := rewritten_opaque (suiteProxyPrefix id) rfl other
              exact (iff_of_eq (congrArg (StaysWithin parseHost page (suiteProxyPrefix id))
                glued)).trans (staysWithin_mount_iff valid _)
          | foreign =>
              have none : (ParsedUrl.foreign : ParsedUrl Host).origin = none := rfl
              rw [none] at same
              exact absurd (not_not.mp same) (Option.some_ne_none _).symm

/-- A request is sent to the base path or below it, on the upstream's origin, exactly when
its path returns to the base path; and a rewritten `Location` never leads to Proxora outside
the mount exactly when the given one returns to the mount. -/
theorem proxy_confined_iff [DecidableEq Host] {base : Text} {root : WebUrl Host}
    (parsed : parseUrl parseHost none base = some (.web root)) (valid : isMountId id = true)
    (rest search location : Text) :
    (∃ target, upstreamTarget parseHost base ('/' :: rest) search = some target ∧
      ((target.origin = root.origin ∧ AtOrBelow (basePath root) target.pathname) ↔
        RequestReturns root rest)) ∧
    (StaysWithin parseHost page (suiteProxyPrefix id)
        (rewriteLocation parseHost location upstream (suiteProxyPrefix id)) ↔
      LocationReturns parseHost page id location upstream) := by
  refine ⟨?_, location_stays_iff valid location⟩
  unfold upstreamTarget
  rw [parsed]
  refine ⟨_, rfl, ?_⟩
  rw [← request_below_iff root rest]
  exact and_iff_right rfl

end Location

/-- `https://10.0.0.9:8443` with a path. -/
def namedUpstream (path : Text) : WebUrl Text where
  scheme := .https
  host := "10.0.0.9"
  port := some 8443
  path := UrlPath.root path
  query := none
  fragment := none

/-- A page of the app below its mount. -/
def namedPage : WebUrl Text where
  scheme := .https
  host := "proxora.example"
  port := none
  path := UrlPath.root "/ora/sambora/"
  query := none
  fragment := none

theorem proxy_confined_named :
    (∃ target, upstreamTarget (fun host => some host) "https://10.0.0.9:8443/app/" "/login"
        "?next=/" = some target ∧
      ((target.origin = (namedUpstream "/app/").origin ∧
        AtOrBelow (basePath (namedUpstream "/app/")) target.pathname) ↔
          RequestReturns (namedUpstream "/app/") "login")) ∧
    (StaysWithin (fun host => some host) namedPage (suiteProxyPrefix "sambora")
        (rewriteLocation (fun host => some host) "/shares" (namedUpstream "/app/login")
          (suiteProxyPrefix "sambora")) ↔
      LocationReturns (fun host => some host) namedPage "sambora" "/shares"
        (namedUpstream "/app/login")) :=
  proxy_confined_iff rfl (by decide) "login" "?next=/" "/shares"

/-- Dots lead out of the base path, and out of the mount. -/
theorem dots_escape :
    (upstreamTarget (fun host : Text => some host) "https://10.0.0.9:8443/app/" "/../x" "").map
        WebUrl.pathname = some "/x" ∧
      ¬ AtOrBelow (basePath (namedUpstream "/app/")) "/x" ∧
      rewriteLocation (fun host : Text => some host) "/../../login" (namedUpstream "/app/")
        (suiteProxyPrefix "sambora") = "/ora/sambora/../../login" ∧
      ((parseUrl (fun host : Text => some host) (some namedPage) "/ora/sambora/../../login").map
        fun url => (url.origin, url.pathname)) = some (some namedPage.origin, ("/login" : Text)) ∧
      ¬ AtOrBelow (suiteProxyPrefix "sambora") "/login" := by
  decide

end Proxora
