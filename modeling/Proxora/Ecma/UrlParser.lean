import Proxora.Ecma.UrlPath

/-!
# The URL parser

`new URL(input, base)` for `http` and `https` URLs, after the URL standard: the scheme, the
ways of a reference that is relative to the base, the authority, and the states of path,
query and fragment.  The host parser is a parameter; user names and passwords are passed
over, since neither origin nor path depends on them.

Of the URLs of other schemes only `blob` ones are told apart: their origin is the one of the
URL that is their path.  The others have an origin that no `http` or `https` URL has.
-/

namespace Ecma

/-! ## URLs -/

inductive WebScheme : Type
  | http | https
deriving DecidableEq, Repr

def WebScheme.ofName (name : Text) : Option WebScheme :=
  if name = "http" then some .http else if name = "https" then some .https else none

def WebScheme.defaultPort : WebScheme → Nat
  | .http => 80
  | .https => 443

abbrev Origin (Host : Type) : Type := WebScheme × Host × Option Nat

structure WebUrl (Host : Type) where
  scheme : WebScheme
  host : Host
  port : Option Nat
  path : UrlPath
  query : Option Text
  fragment : Option Text

namespace WebUrl

variable {Host : Type}

def origin (url : WebUrl Host) : Origin Host := (url.scheme, url.host, url.port)

def pathname (url : WebUrl Host) : Text := url.path.text

end WebUrl

/-- A part behind a sign, as `search` and `hash` give it. -/
def signed (sign : Char) : Option Text → Text
  | none => []
  | some [] => []
  | some (c :: part) => sign :: c :: part

/-- What a text is parsed to. -/
inductive ParsedUrl (Host : Type) : Type
  | web (url : WebUrl Host)
  | blob (path : Text) (query fragment : Option Text) (origin : Option (Origin Host))
  | foreign

namespace ParsedUrl

variable {Host : Type}

def origin : ParsedUrl Host → Option (Origin Host)
  | web url => some url.origin
  | blob _ _ _ origin => origin
  | foreign => none

def pathname : ParsedUrl Host → Text
  | web url => url.pathname
  | blob path _ _ _ => path
  | foreign => []

def search : ParsedUrl Host → Text
  | web url => signed '?' url.query
  | blob _ query _ _ => signed '?' query
  | foreign => []

def hash : ParsedUrl Host → Text
  | web url => signed '#' url.fragment
  | blob _ _ fragment _ => signed '#' fragment
  | foreign => []

end ParsedUrl

/-! ## The text -/

/-- Without controls and spaces around it. -/
def withoutC0 (s : Text) : Text := trimEnd (s.dropWhile fun c => c.toNat ≤ 0x20)

def withoutTabs (s : Text) : Text := s.filter fun c => !isTabOrNewline c

/-- What the parser reads. -/
def urlText (s : Text) : Text := withoutTabs (withoutC0 s)

/-- The C0 control percent-encode set. -/
def inC0Set (c : Char) : Bool := c.toNat ≤ 0x1F || 0x7E < c.toNat

/-- The special-query percent-encode set. -/
def inQuerySet (c : Char) : Bool := inC0Set c || " \"#<>'".toList.contains c

/-- The fragment percent-encode set. -/
def inFragmentSet (c : Char) : Bool := inC0Set c || " \"<>\x60".toList.contains c

def encodedQuery (s : Text) : Text := percentEncode (fun c => !inQuerySet c) s

def encodedFragment (s : Text) : Text := percentEncode (fun c => !inFragmentSet c) s

/-- The query behind a path. -/
def queryOf (s : Text) : Option Text :=
  match s.dropWhile fun c => c ≠ '?' && c ≠ '#' with
  | '?' :: query => some (encodedQuery (query.takeWhile (· ≠ '#')))
  | _ => none

def fragmentOf (s : Text) : Option Text :=
  match s.dropWhile (· ≠ '#') with
  | _ :: fragment => some (encodedFragment fragment)
  | [] => none

/-! ## The states -/

/-- A slash to the parser. -/
def isSlash (c : Char) : Bool := c = '/' || c = '\\'

/-- The scheme in lower case, and what follows the colon. -/
def schemeOf (s : Text) : Option (Text × Text) :=
  let isSchemeChar (c : Char) : Bool := c.isAlphanum || c = '+' || c = '-' || c = '.'
  if s.head?.any Char.isAlpha then
    match s.dropWhile isSchemeChar with
    | ':' :: rest => some ((s.takeWhile isSchemeChar).map Char.toLower, rest)
    | _ => none
  else none

/-- The host, and the port behind the first colon outside brackets. -/
def splitPort (inside : Bool) : Text → Text × Option Text
  | [] => ([], none)
  | c :: s =>
      if c = ':' && !inside then ([], some s)
      else
        let rest := splitPort (if c = '[' then true else if c = ']' then false else inside) s
        (c :: rest.1, rest.2)

/-- The port state: `none` is failure, `some none` the default port. -/
def parsePort (scheme : WebScheme) : Option Text → Option (Option Nat)
  | none => some none
  | some port =>
      if port.all Char.isDigit && digitsValue port ≤ 65535 then
        some (if port = [] || digitsValue port = scheme.defaultPort then none
          else some (digitsValue port))
      else none

section Parsing

variable {Host : Type} (parseHost : Text → Option Host)

/-- The authority state and what follows it. -/
def parseAuthority (scheme : WebScheme) (s : Text) : Option (WebUrl Host) :=
  let inAuthority (c : Char) : Bool := !(isSlash c || c = '?' || c = '#')
  let authority := s.takeWhile inAuthority
  let rest := s.dropWhile inAuthority
  let hostPort := splitPort false (authority.reverse.takeWhile (· ≠ '@')).reverse
  if hostPort.1 = [] then none
  else
    match parseHost hostPort.1, parsePort scheme hostPort.2 with
    | some host, some port =>
        some {
          scheme, host, port
          path := UrlPath.root (pathPart rest)
          query := queryOf rest
          fragment := fragmentOf rest }
    | _, _ => none

/-- The relative state. -/
def parseRelative (base : WebUrl Host) (s : Text) : Option (WebUrl Host) :=
  match s with
  | [] => some { base with fragment := none }
  | c :: rest =>
      if isSlash c then
        if rest.head?.any isSlash then
          parseAuthority parseHost base.scheme (rest.dropWhile isSlash)
        else
          some { base with
            path := UrlPath.root (pathPart s)
            query := queryOf s
            fragment := fragmentOf s }
      else if c = '?' then some { base with query := queryOf s, fragment := fragmentOf s }
      else if c = '#' then some { base with fragment := fragmentOf s }
      else
        some { base with
          path := base.path.relative (pathPart s)
          query := queryOf s
          fragment := fragmentOf s }

/-- The path of a URL that cannot be a base. -/
def opaquePath (s : Text) : Text :=
  let path := percentEncode (fun c => !inC0Set c) (pathPart s)
  if path.getLast? = some ' ' && pathPart s ≠ s then path.dropLast ++ "%20" else path

/-- The URL of a text without a base, when it is an `http` or `https` one. -/
def parseAbsolute (s : Text) : Option (WebUrl Host) :=
  match schemeOf (urlText s) with
  | none => none
  | some (name, rest) =>
      match WebScheme.ofName name with
      | some scheme => parseAuthority parseHost scheme (rest.dropWhile isSlash)
      | none => none

/-- A URL of another scheme. -/
def parseOther (name rest : Text) : ParsedUrl Host :=
  if name = "blob" && rest.head? ≠ some '/' then
    .blob (opaquePath rest) (queryOf rest) (fragmentOf rest)
      ((parseAbsolute parseHost (opaquePath rest)).map WebUrl.origin)
  else .foreign

/-- `new URL(input, base)`; `none` is its `TypeError`. -/
def parseUrl (base : Option (WebUrl Host)) (input : Text) : Option (ParsedUrl Host) :=
  match schemeOf (urlText input) with
  | none => base.bind fun base => (parseRelative parseHost base (urlText input)).map .web
  | some (name, rest) =>
      match WebScheme.ofName name with
      | some scheme =>
          match base.filter fun base => base.scheme = scheme && !startsWith rest "//" with
          | some base => (parseRelative parseHost base rest).map .web
          | none => (parseAuthority parseHost scheme (rest.dropWhile isSlash)).map .web
      | none => some (parseOther parseHost name rest)

end Parsing

/-! ## References from the root -/

theorem root_slash (s : Text) :
    (UrlPath.root ('/' :: s)).segments = walk [] (pathSegments s) := rfl

/-- A text that begins with one slash is a path on the host of the base. -/
theorem parseUrl_of_rooted {Host : Type} (parseHost : Text → Option Host) (base : WebUrl Host)
    {input rest : Text} (text : urlText input = '/' :: rest)
    (single : rest.head?.any isSlash = false) :
    parseUrl parseHost (some base) input = some (.web { base with
      path := UrlPath.root (pathPart ('/' :: rest))
      query := queryOf ('/' :: rest)
      fragment := fragmentOf ('/' :: rest) }) := by
  have no_scheme : schemeOf ('/' :: rest) = none := rfl
  have slash : isSlash '/' = true := by decide
  rw [parseUrl, text, no_scheme]
  show (parseRelative parseHost base ('/' :: rest)).map ParsedUrl.web = _
  rw [parseRelative, if_pos slash, single, if_neg Bool.false_ne_true]
  rfl

theorem isTabOrNewline_of_visible {c : Char} (visible : 0x20 < c.toNat) :
    isTabOrNewline c = false := by
  simp only [isTabOrNewline, Bool.or_eq_false_iff, decide_eq_false_iff_not]
  refine ⟨⟨?_, ?_⟩, ?_⟩
  · rintro rfl
    exact absurd visible (by decide)
  · rintro rfl
    exact absurd visible (by decide)
  · rintro rfl
    exact absurd visible (by decide)

theorem visible_of_copied {c : Char} (copied : isPathChar c = true ∨ c = '/') :
    0x20 < c.toNat := by
  rcases copied with copy | rfl
  · exact (isPathChar_bounds copy).1
  · decide

theorem withoutTabs_of_copied {s : Text} (copied : ∀ c ∈ s, isPathChar c = true ∨ c = '/') :
    withoutTabs s = s := by
  rw [withoutTabs, List.filter_eq_self]
  intro c member
  rw [isTabOrNewline_of_visible (visible_of_copied (copied c member))]
  rfl

/-- Path characters and slashes are read as they are. -/
theorem urlText_append {front : Text} (s : Text)
    (copied : ∀ c ∈ front, isPathChar c = true ∨ c = '/') (some : front ≠ []) :
    urlText (front ++ s) = front ++ withoutTabs (trimEnd s) := by
  have visible {c : Char} (member : c ∈ front) : decide (c.toNat ≤ 0x20) = false :=
    decide_eq_false (Nat.not_le.mpr (visible_of_copied (copied c member)))
  obtain ⟨init, last, form⟩ := (List.eq_nil_or_concat front).resolve_left some
  rw [List.concat_eq_append] at form
  have starts : (front ++ s).dropWhile (fun c => c.toNat ≤ 0x20) = front ++ s := by
    obtain ⟨c, rest, rfl⟩ := List.exists_cons_of_ne_nil some
    exact List.dropWhile_cons_of_neg
      (by rw [visible List.mem_cons_self]; exact Bool.false_ne_true)
  have ends : trimEnd (front ++ s) = front ++ trimEnd s := by
    have within : last ∈ front := by
      rw [form]
      exact List.mem_append_right init List.mem_cons_self
    rw [form, List.append_assoc, List.append_assoc]
    exact rdropWhile_append_cons (p := fun c : Char => c.toNat ≤ 0x20) (visible within) init s
  rw [urlText, withoutC0, starts, ends, withoutTabs, List.filter_append, ← withoutTabs,
    withoutTabs_of_copied copied]
  rfl

theorem pathPart_append {front : Text} (s : Text)
    (copied : ∀ c ∈ front, isPathChar c = true ∨ c = '/') :
    pathPart (front ++ s) = front ++ pathPart s := by
  rw [pathPart, List.takeWhile_append_of_pos, ← pathPart]
  intro c member
  rcases copied c member with copy | rfl
  · have bounds := isPathChar_bounds copy
    rw [decide_eq_true bounds.2.2.2.2.1, decide_eq_true bounds.2.2.2.2.2]
    rfl
  · decide

theorem pathPart_of_copied {s : Text} (copied : ∀ c ∈ s, isPathChar c = true ∨ c = '/') :
    pathPart s = s := by
  have whole := pathPart_append [] copied
  rw [List.append_nil] at whole
  rw [whole]
  exact List.append_nil s

theorem copied_of_mem_pathText {segments : List Text} (clean : ∀ s ∈ segments, CleanSegment s) :
    ∀ c ∈ pathText segments, isPathChar c = true ∨ c = '/' := by
  intro c member
  obtain ⟨s, listed, inside⟩ := List.mem_flatMap.mp member
  rcases List.mem_cons.mp inside with slash | inside
  · exact .inr slash
  · exact .inl ((clean s listed).chars c inside)

/-- A slash ends a segment. -/
theorem pathSegments_append_slash (s t : Text) :
    pathSegments (s ++ '/' :: t) = pathSegments s ++ pathSegments t := by
  have cut : encodedPath (s ++ '/' :: t) = encodedPath s ++ '/' :: encodedPath t := by
    rw [encodedPath_append]
    rfl
  rw [pathSegments, cut, split_append_cons]
  rfl

theorem walkOn_of_noDots {segments : List Text} (noDots : ∀ s ∈ segments, isDots s = false)
    (path : List Text) : walkOn path segments = path ++ segments := by
  induction segments generalizing path with
  | nil => rw [List.append_nil]; rfl
  | cons segment rest ih =>
      have head := noDots segment List.mem_cons_self
      rw [isDots, Bool.or_eq_false_iff] at head
      rw [walkOn, if_neg (by rw [head.2]; decide), if_neg (by rw [head.1]; decide),
        ih fun s member => noDots s (List.mem_cons_of_mem segment member), List.append_assoc]
      rfl

/-! ## Opaque paths -/

theorem slash_notHead_percentEncode {keep : Char → Bool} {s : Text} (other : s.head? ≠ some '/') :
    (percentEncode keep s).head? ≠ some '/' := by
  cases s with
  | nil => exact other
  | cons c s =>
      rw [percentEncode, List.flatMap_cons, percentEncodeChar]
      split_ifs
      · exact other
      · obtain ⟨b, bytes, form⟩ :=
          List.exists_cons_of_ne_nil (String.utf8EncodeChar_ne_nil (c := c))
        rw [form, List.flatMap_cons, percentEncodeByte]
        exact fun same => absurd (Option.some.inj same) (by decide)

theorem slash_notHead_opaquePath {s : Text} (other : s.head? ≠ some '/') :
    (opaquePath s).head? ≠ some '/' := by
  have path : (pathPart s).head? ≠ some '/' := by
    cases s with
    | nil => exact other
    | cons c s =>
        rw [pathPart, List.takeWhile_cons]
        split_ifs
        · exact other
        · exact fun same => absurd same (by decide)
  have encoded : (percentEncode (fun c => !inC0Set c) (pathPart s)).head? ≠ some '/' :=
    slash_notHead_percentEncode path
  rw [opaquePath]
  split_ifs
  · cases form : percentEncode (fun c => !inC0Set c) (pathPart s) with
    | nil => exact fun same => absurd (Option.some.inj same) (by decide)
    | cons c rest =>
        rw [form] at encoded
        cases rest with
        | nil => exact fun same => absurd (Option.some.inj same) (by decide)
        | cons d rest => exact encoded
  · exact encoded

/-- The path of a `blob` URL with an origin of its own does not begin with a slash. -/
theorem slash_notHead_blob {Host : Type} {parseHost : Text → Option Host}
    {base : Option (WebUrl Host)} {input path : Text} {query fragment : Option Text}
    {origin : Option (Origin Host)}
    (parsed : parseUrl parseHost base input = some (.blob path query fragment origin)) :
    path.head? ≠ some '/' := by
  unfold parseUrl at parsed
  split at parsed
  · cases base with
    | none => cases parsed
    | some base =>
        obtain ⟨url, _, same⟩ := Option.map_eq_some_iff.mp parsed
        cases same
  · split at parsed
    · split at parsed
      · obtain ⟨url, _, same⟩ := Option.map_eq_some_iff.mp parsed
        cases same
      · obtain ⟨url, _, same⟩ := Option.map_eq_some_iff.mp parsed
        cases same
    · unfold parseOther at parsed
      split_ifs at parsed with named
      · rw [Bool.and_eq_true, decide_eq_true_eq, decide_eq_true_eq] at named
        cases parsed
        exact slash_notHead_opaquePath named.2
      · cases parsed

end Ecma
