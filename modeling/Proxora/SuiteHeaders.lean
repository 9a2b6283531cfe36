import Mathlib
import Proxora.Ecma.Value
import Proxora.SuiteConfinement

/-!
# The headers for an embedded app

`buildUpstreamHeaders` of `lib/suite-proxy.ts` with the functions it calls, and the relation
of two header maps that differ in nothing but session cookies.  The same headers are built
from both (`buildUpstreamHeaders_session`): the values of the session cookie never reach the
upstream.
-/

namespace Proxora

open Ecma

/-! ## Cookies -/

def sessionCookie : Text := "pm_session"

/-- `/^pm_session=/i`. -/
def isSessionPair (part : Text) : Bool :=
  startsWith (part.map Char.toLower) (sessionCookie ++ ['='])

def forwardCookie (header : Option Text) : Option Text :=
  match header with
  | none => none
  | some [] => none
  | some header =>
      let kept := ((split ';' header).map trim).filter fun part =>
        part ≠ [] && !isSessionPair part
      if kept = [] then none else some (List.intercalate ("; " : Text) kept)

/-- A cookie that the session is read from: the part between two semicolons, with its name
spelled as `cookieValue` compares it, and a value. -/
def IsSessionPart (part : Text) : Prop := sessionCookie ++ ['='] <+: trim part

instance (part : Text) : Decidable (IsSessionPart part) :=
  inferInstanceAs (Decidable (sessionCookie ++ ['='] <+: trim part))

/-! ## Headers -/

abbrev HeaderMap : Type := List (Text × Option Text)

/-- The first header of this name, in any letter case. -/
def headerOf (headers : HeaderMap) (name : Text) : Option Text :=
  ((headers.find? fun entry => toLowerCase entry.1 = name).map Prod.snd).join

/-- `HOP`. -/
def hopHeaders : List Text :=
  ["host", "connection", "keep-alive", "transfer-encoding", "upgrade", "proxy-connection",
    "proxy-authenticate", "proxy-authorization", "te", "trailer", "content-length"]

/-- The headers that are written anew. -/
def ownHeaders : List Text :=
  ["cookie", "origin", "referer", "x-forwarded-host", "x-forwarded-proto"]

structure UpstreamInput where
  headers : HeaderMap
  targetHost : Text
  targetOrigin : Text
  mount : Text
  appUrl : Text
  forwardedProto : Text
  forwardedHost : Text
  keepUpgrade : Bool

/-- The platform's URLs: the host parser, the pathname and the search of `new URL(text)`, and
`toString`. -/
structure UrlPlatform (Host : Type) where
  parseHost : Text → Option Host
  locate : Text → Option (Text × Text)
  href : WebUrl Host → Text

def rewriteReferer {Host : Type} (platform : UrlPlatform Host) (referer mount base : Text) :
    Option Text :=
  if referer = [] then none
  else
    match platform.locate referer with
    | none => none
    | some (pathname, search) =>
        if pathname ≠ mount && !startsWith pathname (mount ++ ['/']) then none
        else
          let rest := pathname.drop mount.length
          (upstreamTarget platform.parseHost base (if rest = [] then "/" else rest) search).map
            platform.href

/-- A header that is passed on under its name in lower case. -/
def isPassed (keepUpgrade : Bool) (lower : Text) : Bool :=
  lower ∉ ownHeaders &&
    (lower ∉ hopHeaders || (keepUpgrade && (lower = "connection" || lower = "upgrade")))

/-- The loop over the incoming headers. -/
def passHeaders (keepUpgrade : Bool) (built : Record Text) : HeaderMap → Record Text
  | [] => built
  | (_, none) :: rest => passHeaders keepUpgrade built rest
  | (_, some []) :: rest => passHeaders keepUpgrade built rest
  | (key, some (c :: value)) :: rest =>
      let lower := toLowerCase key
      passHeaders keepUpgrade
        (if isPassed keepUpgrade lower then built.set lower (c :: value) else built) rest

/-- `headers[name] = value`, when there is a value. -/
def setWhen (name : Text) (value : Option Text) (built : Record Text) : Record Text :=
  match value with
  | none => built
  | some [] => built
  | some value => built.set name value

def buildUpstreamHeaders {Host : Type} (platform : UrlPlatform Host) (input : UpstreamInput) :
    Record Text :=
  let passed := passHeaders input.keepUpgrade Record.empty input.headers
  let hosted := passed.set "host" input.targetHost
  let encoded := if input.keepUpgrade then hosted else hosted.set "accept-encoding" "identity"
  let origin := encoded.set "origin" input.targetOrigin
  let cookie := setWhen "cookie" (forwardCookie (headerOf input.headers "cookie")) origin
  let nextReferer := rewriteReferer platform ((headerOf input.headers "referer").getD [])
    input.mount input.appUrl
  let referer := setWhen "referer" nextReferer cookie
  let proto := referer.set "x-forwarded-proto"
    (if input.forwardedProto = "https" then "https" else "http")
  proto.set "x-forwarded-host" input.forwardedHost

/-! ## Headers that differ in the session -/

/-- The same part, or two session cookies. -/
def SamePart (part other : Text) : Prop := part = other ∨ (IsSessionPart part ∧ IsSessionPart other)

/-- Two cookie headers with the same parts up to the values of session cookies. -/
def SameCookies : Option Text → Option Text → Prop
  | some header, some other => List.Forall₂ SamePart (split ';' header) (split ';' other)
  | none, none => True
  | _, _ => False

/-- The same headers, up to the values of session cookies. -/
def SameHeaders (headers others : HeaderMap) : Prop :=
  List.Forall₂ (fun entry other => entry.1 = other.1 ∧
    if toLowerCase entry.1 = "cookie" then SameCookies entry.2 other.2 else entry.2 = other.2)
    headers others

theorem isSessionPair_of_session {part : Text} (session : IsSessionPart part) :
    isSessionPair (trim part) = true := by
  obtain ⟨value, form⟩ := session
  have lower : (sessionCookie ++ ['=']).map Char.toLower = sessionCookie ++ ['='] := by decide
  rw [isSessionPair, startsWith, List.isPrefixOf_iff_prefix, ← form, List.map_append, lower]
  exact List.prefix_append _ _

/-- A header with a session cookie is not empty. -/
theorem SameCookies.nil_iff {header other : Text} (same : SameCookies (some header) (some other)) :
    header = [] ↔ other = [] := by
  have alone {part : Text} (session : IsSessionPart part) : part ≠ [] := by
    rintro rfl
    exact absurd (List.prefix_nil.mp session) (by decide)
  have one_way {a b : Text} (parts : List.Forall₂ SamePart (split ';' a) (split ';' b))
      (empty : a = []) : b = [] := by
    subst empty
    have single : split ';' ([] : Text) = [[]] := rfl
    rw [single] at parts
    cases words : split ';' b with
    | nil => exact absurd words (split_ne_nil ';' b)
    | cons word more =>
        rw [words, List.forall₂_cons, List.forall₂_nil_left_iff] at parts
        obtain ⟨first, rfl⟩ := parts
        have text : join ';' (split ';' b) = b := join_split b
        rw [words] at text
        rcases first with rfl | both
        · exact text.symm
        · exact (alone both.1 rfl).elim
  have flipped : List.Forall₂ SamePart (split ';' other) (split ';' header) := by
    refine List.Forall₂.flip (List.Forall₂.imp ?_ same)
    rintro a b (rfl | both)
    · exact .inl rfl
    · exact .inr ⟨both.2, both.1⟩
  exact ⟨one_way same, one_way flipped⟩

/-- The same cookies are forwarded. -/
theorem forwardCookie_session {header other : Option Text} (same : SameCookies header other) :
    forwardCookie header = forwardCookie other := by
  have kept {parts others : List Text} (pairs : List.Forall₂ SamePart parts others) :
      ((parts.map trim).filter fun part => part ≠ [] && !isSessionPair part) =
        (others.map trim).filter fun part => part ≠ [] && !isSessionPair part := by
    induction pairs with
    | nil => rfl
    | cons pair _ ih =>
        rcases pair with rfl | ⟨left, right⟩
        · rw [List.map_cons, List.map_cons, List.filter_cons, List.filter_cons, ih]
        · rw [List.map_cons, List.map_cons,
            List.filter_cons_of_neg (by simp [isSessionPair_of_session left]),
            List.filter_cons_of_neg (by simp [isSessionPair_of_session right]), ih]
  match header, other with
  | none, none => rfl
  | none, some other => exact same.elim
  | some header, none => exact same.elim
  | some [], some other =>
      rw [same.nil_iff.mp rfl]
  | some (c :: header), some [] => exact absurd (same.nil_iff.mpr rfl) (List.cons_ne_nil c header)
  | some (c :: header), some (d :: other) =>
      show (if _ = [] then none else some _) = if _ = [] then none else some _
      rw [kept same]

/-- Of any name the same header is found; of the cookies, up to their session. -/
theorem headerOf_session {headers others : HeaderMap} (same : SameHeaders headers others)
    (name : Text) :
    if name = "cookie" then SameCookies (headerOf headers name) (headerOf others name)
      else headerOf headers name = headerOf others name := by
  induction same with
  | nil =>
      split_ifs
      · exact trivial
      · rfl
  | @cons entry other _ _ pair _ ih =>
      obtain ⟨key, value⟩ := entry
      obtain ⟨_, value'⟩ := other
      obtain ⟨rfl, values⟩ := pair
      dsimp only at values
      by_cases here : toLowerCase key = name
      · have first (v : Option Text) (rest : HeaderMap) : headerOf ((key, v) :: rest) name = v := by
          rw [headerOf, List.find?_cons_of_pos (by simpa using here)]
          cases v <;> rfl
        rw [first, first]
        rw [here] at values
        exact values
      · have later (v : Option Text) (rest : HeaderMap) :
            headerOf ((key, v) :: rest) name = headerOf rest name := by
          rw [headerOf, List.find?_cons_of_neg (by simpa using here)]
          rfl
        rw [later, later]
        exact ih

theorem passHeaders_session {keepUpgrade : Bool} {headers others : HeaderMap}
    (same : SameHeaders headers others) (built : Record Text) :
    passHeaders keepUpgrade built headers = passHeaders keepUpgrade built others := by
  have skipped (name : Text) (value : Option Text) (cookie : toLowerCase name = "cookie")
      (built : Record Text) (rest : HeaderMap) :
      passHeaders keepUpgrade built ((name, value) :: rest) =
        passHeaders keepUpgrade built rest := by
    have own : isPassed keepUpgrade "cookie" = false := by
      cases keepUpgrade <;> decide
    match value with
    | none => rfl
    | some [] => rfl
    | some (c :: value) =>
        rw [passHeaders, cookie, own]
        rfl
  induction same generalizing built with
  | nil => rfl
  | @cons entry other _ _ pair _ ih =>
      obtain ⟨key, value⟩ := entry
      obtain ⟨_, value'⟩ := other
      obtain ⟨rfl, values⟩ := pair
      dsimp only at values
      by_cases cookie : toLowerCase key = "cookie"
      · rw [skipped key value cookie, skipped key value' cookie, ih]
      · rw [if_neg cookie] at values
        subst values
        match value with
        | none => exact ih built
        | some [] => exact ih built
        | some (c :: value) =>
            rw [passHeaders, passHeaders]
            exact ih _

/-- Two header maps that differ in nothing but session cookies give the same headers for the
upstream. -/
theorem buildUpstreamHeaders_session {Host : Type} (platform : UrlPlatform Host)
    (input : UpstreamInput) {others : HeaderMap} (same : SameHeaders input.headers others) :
    buildUpstreamHeaders platform input =
      buildUpstreamHeaders platform { input with headers := others } := by
  have cookie := headerOf_session same "cookie"
  rw [if_pos rfl] at cookie
  have referer := headerOf_session same "referer"
  have other : ¬ ("referer" : Text) = "cookie" := by decide
  rw [if_neg other] at referer
  unfold buildUpstreamHeaders
  dsimp only
  rw [passHeaders_session same, forwardCookie_session cookie, referer]

/-- A request with cookies, and no URL that is a referer. -/
def namedInput (cookies : Text) : UpstreamInput where
  headers := [("Cookie", some cookies), ("Accept", some "text/html")]
  targetHost := "10.0.0.9:8443"
  targetOrigin := "https://10.0.0.9:8443"
  mount := "/ora/sambora"
  appUrl := "https://10.0.0.9:8443/"
  forwardedProto := "https"
  forwardedHost := "proxora.example"
  keepUpgrade := false

def namedPlatform : UrlPlatform Text where
  parseHost := some
  locate _ := none
  href url := url.pathname

theorem buildUpstreamHeaders_named :
    buildUpstreamHeaders namedPlatform (namedInput "a=1; pm_session=s1;pm_session=x") =
      buildUpstreamHeaders namedPlatform (namedInput "a=1;  pm_session=s2; pm_session=") := by
  have left : split ';' "a=1; pm_session=s1;pm_session=x" =
      ["a=1", " pm_session=s1", "pm_session=x"] := by decide
  have right : split ';' "a=1;  pm_session=s2; pm_session=" =
      ["a=1", "  pm_session=s2", " pm_session="] := by decide
  have cookies : SameCookies (some "a=1; pm_session=s1;pm_session=x")
      (some "a=1;  pm_session=s2; pm_session=") := by
    rw [SameCookies, left, right]
    exact .cons (.inl rfl) (.cons (.inr (by decide)) (.cons (.inr (by decide)) .nil))
  have name : toLowerCase "Cookie" = "cookie" := by decide
  have same : SameHeaders (namedInput "a=1; pm_session=s1;pm_session=x").headers
      (namedInput "a=1;  pm_session=s2; pm_session=").headers :=
    .cons ⟨rfl, by rw [if_pos name]; exact cookies⟩ (.cons ⟨rfl, rfl⟩ .nil)
  exact buildUpstreamHeaders_session namedPlatform _ same

end Proxora
