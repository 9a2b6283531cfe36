import Proxora.Ecma.UrlParser
import Proxora.Ecma.Lines

/-!
# The page behind the login

`safeNextPath` of `lib/safe-next.ts` keeps the path of the page to go to after the login. The
browser resolves it against the origin of the application; its URL parser leaves out tabs and line
ends first.

`sameOrigin_safeNextPath_iff` says which texts stay on the origin: all but those with a slash, tabs
or line ends, and a slash before the authority of another one.
-/

namespace Proxora

open Ecma

/-- A value of `undefined`, `null` or a text. -/
def safeNextPath (value : Option Text) (fallback : Text) : Text :=
  match value with
  | none => fallback
  | some value =>
      let trimmed := trim value
      if value = [] then fallback
      else if !startsWith trimmed "/" then fallback
      else if startsWith trimmed "//" || startsWith trimmed "/\\" then fallback
      else if includes trimmed "://" || includes trimmed "\\" then fallback
      else trimmed

/-- `"/dashboard"`. -/
def dashboardPath : Text := "/dashboard"

variable {Host : Type} (parseHost : Text → Option Host)

/-- The text leads to a URL of the origin of the base. -/
def StaysOnOrigin (base : WebUrl Host) (text : Text) : Prop :=
  ∃ url, parseUrl parseHost (some base) text = some url ∧ url.origin = some base.origin

/-- What follows a slash, tabs or line ends, and a slash. -/
def hiddenAuthority : Text → Option Text
  | '/' :: c :: rest =>
      if isTabOrNewline c then
        match rest.dropWhile isTabOrNewline with
        | '/' :: behind => some behind
        | _ => none
      else none
  | _ => none

/-- The text between the slashes and the path is the authority of the base. -/
def NamesOrigin (base : WebUrl Host) (behind : Text) : Prop :=
  ∃ url, parseAuthority parseHost base.scheme
      ((withoutTabs (trimEnd behind)).dropWhile isSlash) = some url ∧ url.origin = base.origin

/-! ## Tabs and line ends -/

theorem head?_withoutTabs (s : Text) :
    (withoutTabs s).head? = (s.dropWhile isTabOrNewline).head? := by
  rw [withoutTabs, List.head?_filter]
  induction s with
  | nil => rfl
  | cons c s ih =>
      cases tab : isTabOrNewline c with
      | true =>
          rw [List.find?_cons_of_neg (by rw [tab]; decide),
            List.dropWhile_cons_of_pos tab]
          exact ih
      | false =>
          rw [List.find?_cons_of_pos (by rw [tab]; decide),
            List.dropWhile_cons_of_neg (by rw [tab]; decide)]
          rfl

/-- What is seen behind blanks, cut off at its end. -/
theorem head?_withoutTabs_trimEnd {s : Text} {c : Char}
    (seen : (withoutTabs (trimEnd s)).head? = some c) :
    ∃ rest, s.dropWhile isTabOrNewline = c :: rest := by
  have cut : withoutTabs (trimEnd s) <+: withoutTabs s :=
    (List.rdropWhile_prefix _ s).filter _
  obtain ⟨more, form⟩ := cut
  have whole : (withoutTabs s).head? = some c := by
    rw [← form, List.head?_append, seen]
    rfl
  rw [head?_withoutTabs] at whole
  cases drop : s.dropWhile isTabOrNewline with
  | nil =>
      rw [drop] at whole
      cases whole
  | cons d rest =>
      rw [drop] at whole
      exact ⟨rest, by rw [Option.some.inj whole]⟩

theorem withoutTabs_of_blanks {blanks : Text} (all : ∀ c ∈ blanks, isTabOrNewline c = true) :
    withoutTabs blanks = [] := by
  rw [withoutTabs, List.filter_eq_nil_iff]
  intro c member
  rw [all c member]
  decide

/-- What the parser reads behind a hidden slash. -/
theorem withoutTabs_hidden {s behind : Text} (hidden : s.dropWhile isTabOrNewline = '/' :: behind) :
    withoutTabs (trimEnd s) = '/' :: withoutTabs (trimEnd behind) := by
  have form : s = s.takeWhile isTabOrNewline ++ '/' :: behind := by
    rw [← hidden]
    exact List.takeWhile_append_dropWhile.symm
  have blanks : ∀ c ∈ s.takeWhile isTabOrNewline, isTabOrNewline c = true := fun c member =>
    List.mem_takeWhile_imp member
  have ends : trimEnd (s.takeWhile isTabOrNewline ++ '/' :: behind) =
      s.takeWhile isTabOrNewline ++ '/' :: trimEnd behind :=
    rdropWhile_append_cons (p := fun c : Char => c.toNat ≤ 0x20) (by decide) _ behind
  rw [form, ends, withoutTabs, List.filter_append, ← withoutTabs, withoutTabs_of_blanks blanks]
  rfl

/-! ## The resolved text -/

/-- A rooted text stays on the origin just if no second slash comes behind the first one, or the
authority behind it is that of the base. -/
theorem staysOnOrigin_rooted_iff {base : WebUrl Host} {rest : Text} (slash : '/' ∉ rest.head?)
    (backslash : '\\' ∉ rest) :
    StaysOnOrigin parseHost base ('/' :: rest) ↔
      ∀ behind, hiddenAuthority ('/' :: rest) = some behind →
        NamesOrigin parseHost base behind := by
  have text : urlText ('/' :: rest) = '/' :: withoutTabs (trimEnd rest) :=
    @urlText_append ['/'] rest (fun c member => .inr (List.mem_singleton.mp member))
      (List.cons_ne_nil _ _)
  by_cases hidden : ∃ behind, rest.dropWhile isTabOrNewline = '/' :: behind
  · obtain ⟨behind, hidden⟩ := hidden
    have found : hiddenAuthority ('/' :: rest) = some behind := by
      cases rest with
      | nil => cases hidden
      | cons c rest =>
          cases tab : isTabOrNewline c with
          | true =>
              rw [List.dropWhile_cons_of_pos tab] at hidden
              rw [hiddenAuthority, if_pos tab, hidden]
              rfl
          | false =>
              rw [List.dropWhile_cons_of_neg (by rw [tab]; decide)] at hidden
              exact absurd (List.cons.inj hidden).1 fun same => slash (by rw [same]; rfl)
    have parsed : parseUrl parseHost (some base) ('/' :: rest) =
        (parseAuthority parseHost base.scheme
          ((withoutTabs (trimEnd behind)).dropWhile isSlash)).map .web := by
      rw [parseUrl, text, withoutTabs_hidden hidden]
      rfl
    rw [StaysOnOrigin, parsed, found]
    constructor
    · rintro ⟨url, authority, same⟩ _ ⟨⟩
      obtain ⟨web, named, rfl⟩ := Option.map_eq_some_iff.mp authority
      exact ⟨web, named, Option.some.inj same⟩
    · intro named
      obtain ⟨web, authority, same⟩ := named behind rfl
      exact ⟨.web web, by rw [authority]; rfl, congrArg some same⟩
  · have single : (withoutTabs (trimEnd rest)).head?.any isSlash = false := by
      cases seen : (withoutTabs (trimEnd rest)).head? with
      | none => rfl
      | some c =>
          obtain ⟨behind, drop⟩ := head?_withoutTabs_trimEnd seen
          have within : c ∈ rest := by
            refine (List.dropWhile_suffix isTabOrNewline).subset ?_
            rw [drop]
            exact List.mem_cons_self
          rw [Option.any_some, isSlash, Bool.or_eq_false_iff, decide_eq_false_iff_not,
            decide_eq_false_iff_not]
          constructor
          · rintro rfl
            exact hidden ⟨behind, drop⟩
          · rintro rfl
            exact backslash within
    have nothing : hiddenAuthority ('/' :: rest) = none := by
      cases rest with
      | nil => rfl
      | cons c rest =>
          cases tab : isTabOrNewline c with
          | true =>
              rw [List.dropWhile_cons_of_pos tab] at hidden
              rw [hiddenAuthority, if_pos tab]
              split
              · rename_i behind drop
                exact absurd ⟨behind, drop⟩ hidden
              · rfl
          | false =>
              rw [hiddenAuthority, if_neg (by rw [tab]; decide)]
    rw [nothing]
    constructor
    · intro _ _ found
      cases found
    · intro _
      exact ⟨_, parseUrl_of_rooted parseHost base text single, rfl⟩

/-- The texts that are replaced by the page to fall back on. -/
def Refused (value : Text) : Prop :=
  startsWith (trim value) "/" = false ∨ startsWith (trim value) "//" = true ∨
    includes (trim value) "://" = true ∨ '\\' ∈ trim value

theorem includes_backslash_iff {s : Text} : includes s "\\" = true ↔ '\\' ∈ s := by
  rw [includes_iff]
  exact List.singleton_infix_iff _ _

theorem startsWith_backslash {s : Text} (starts : startsWith s "/\\" = true) : '\\' ∈ s := by
  obtain ⟨rest, rfl⟩ := List.isPrefixOf_iff_prefix.mp starts
  simp

theorem safeNextPath_of_refused {value : Text} (refused : Refused value) (fallback : Text) :
    safeNextPath (some value) fallback = fallback := by
  rw [safeNextPath]
  split_ifs with _ rooted double listed
  · rfl
  · rfl
  · rfl
  · rfl
  · rw [Bool.or_eq_true, not_or] at double listed
    rcases refused with other | twice | scheme | backslash
    · rw [other] at rooted
      exact absurd rfl rooted
    · exact absurd twice double.1
    · exact absurd scheme listed.1
    · exact absurd (includes_backslash_iff.mpr backslash) listed.2

theorem safeNextPath_of_not_refused {value : Text} (kept : ¬Refused value) (fallback : Text) :
    safeNextPath (some value) fallback = trim value := by
  simp only [Refused, not_or, Bool.not_eq_false, Bool.not_eq_true] at kept
  obtain ⟨rooted, double, scheme, backslash⟩ := kept
  have given : value ≠ [] := by
    rintro rfl
    revert rooted
    decide
  have other : startsWith (trim value) "/\\" = false :=
    Bool.eq_false_iff.mpr fun starts => backslash (startsWith_backslash starts)
  have free : includes (trim value) "\\" = false :=
    Bool.eq_false_iff.mpr fun inside => backslash (includes_backslash_iff.mp inside)
  rw [safeNextPath]
  rw [if_neg given, rooted, double, other, scheme, free]
  rfl

/-- The path that is gone to stays on the origin just if the value is replaced, or no second slash
hides behind tabs and line ends, or the authority behind it is that of the application. -/
theorem sameOrigin_safeNextPath_iff (base : WebUrl Host) (value : Option Text) :
    StaysOnOrigin parseHost base (safeNextPath value dashboardPath) ↔
      ∀ text, value = some text → ∀ behind, hiddenAuthority (trim text) = some behind →
        Refused text ∨ NamesOrigin parseHost base behind := by
  have stays : StaysOnOrigin parseHost base dashboardPath := by
    refine (@staysOnOrigin_rooted_iff _ parseHost _ "dashboard".toList (by decide) (by decide)).mpr ?_
    rintro behind ⟨⟩
  cases value with
  | none =>
      constructor
      · rintro _ text ⟨⟩
      · exact fun _ => stays
  | some text =>
      by_cases refused : Refused text
      · rw [safeNextPath_of_refused refused]
        constructor
        · rintro _ _ ⟨⟩ _ _
          exact Or.inl refused
        · exact fun _ => stays
      · rw [safeNextPath_of_not_refused refused]
        have kept := refused
        simp only [Refused, not_or, Bool.not_eq_false, Bool.not_eq_true] at kept
        obtain ⟨rooted, double, -, backslash⟩ := kept
        obtain ⟨rest, form⟩ := List.isPrefixOf_iff_prefix.mp rooted
        have rooted_text : trim text = '/' :: rest := form.symm
        rw [rooted_text] at double backslash ⊢
        have single : '/' ∉ rest.head? := by
          intro second
          cases rest with
          | nil => cases second
          | cons c rest =>
              cases second
              revert double
              simp [startsWith]
        rw [staysOnOrigin_rooted_iff parseHost single fun inside =>
          backslash (List.mem_cons_of_mem _ inside)]
        constructor
        · rintro all _ ⟨⟩ behind hidden
          exact Or.inr (all behind (rooted_text ▸ hidden))
        · intro all behind hidden
          exact (all text rfl behind (rooted_text ▸ hidden)).resolve_left refused

/-- Host names as they are. -/
def namedHost (name : Text) : Option Text := some name

def appBase : WebUrl Text where
  scheme := .https
  host := "proxora.example"
  port := none
  path := UrlPath.root "/login"
  query := none
  fragment := none

/-- A tab between two slashes leads to another host. -/
theorem tab_leads_elsewhere :
    ¬∀ value, StaysOnOrigin namedHost appBase (safeNextPath value dashboardPath) := by
  intro all
  obtain ⟨url, parsed, same⟩ := all (some "/\t/evil.example")
  have origin : (parseUrl namedHost (some appBase)
      (safeNextPath (some "/\t/evil.example") dashboardPath)).map ParsedUrl.origin =
        some (some (WebScheme.https, ("evil.example" : Text), none)) := by
    decide
  rw [parsed, Option.map_some, same] at origin
  revert origin
  decide

end Proxora
