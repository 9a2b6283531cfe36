import Proxora.Ecma.UrlHost
import Proxora.FederationAccess

/-!
# Targets of webhooks

`isPrivateOrLocalHostname` and `assertSafeWebhookUrl` of `lib/webhook-url.ts`. The check compares
the text of the host, in which an IPv6 address stands in brackets.

`webhookTarget_iff` says for which URLs the check is sound and turns no ordinary name away: those
whose host is no local IPv6 address and no name that begins with `fc` or `fd`.
-/

namespace Proxora

open Ecma

def blockedHosts : List Text := ["localhost", "metadata.google.internal"]

/-- `ipv4Octets`: four numbers of one to three digits up to 255. -/
def webhookOctets (host : Text) : Option Ipv4 := readIpv4 host

def isPrivateOrLocalHostname (host : Text) : Bool :=
  let name := withoutLastDots (toLowerCase (trim host))
  if name = [] then true
  else if blockedHosts.contains name || endsWith name ".localhost" || endsWith name ".local" then
    true
  else if name = "::1" || name = "0.0.0.0" || startsWith name "fe80:" || startsWith name "fc" ||
      startsWith name "fd" then
    true
  else
    match webhookOctets name with
    | none => false
    | some ip =>
        if ip.a = 10 || ip.a = 127 || ip.a = 0 then true
        else if ip.a = 169 && ip.b = 254 then true
        else if ip.a = 172 && 16 ≤ ip.b && ip.b ≤ 31 then true
        else if ip.a = 192 && ip.b = 168 then true
        else false

variable (parseHost : Text → Option UrlHost)

def assertSafeWebhookUrl (url : Text) : Except AppError (WebUrl UrlHost) :=
  let trimmed := trim url
  match parseUrl parseHost none trimmed with
  | none => .error (validationError "Invalid webhook URL")
  | some (.web parsed) =>
      if hasCredentials trimmed then
        .error (validationError "Webhook URL must not include credentials")
      else if isPrivateOrLocalHostname parsed.host.hostname then
        .error (validationError "Webhook URL must not point at a private or local address")
      else .ok parsed
  | some _ => .error (validationError "Webhook URL must be http(s)")

/-! ## What the check is for -/

/-- Unspecified, loopback, link-local and private. -/
def isLocalIpv4 (ip : Ipv4) : Bool :=
  ip.isUnspecified || ip.isLoopback || ip.isLinkLocal || ip.isPrivate

/-- Unspecified, loopback, link-local and unique local, or mapped to such an IPv4 address. -/
def isLocalIpv6 (ip : Ipv6) : Bool :=
  ip.isUnspecified || ip.isLoopback || ip.isLinkLocal || ip.isUniqueLocal ||
    ip.mapped.any isLocalIpv4

def isLocalAddress : UrlHost → Bool
  | .domain _ => false
  | .ipv4 ip => isLocalIpv4 ip
  | .ipv6 ip => isLocalIpv6 ip

/-- The name without a last dot. -/
def bareName (domain : DomainName) : Text := withoutLastDots domain.name

/-- Labels between dots, and perhaps a dot at the end. -/
def IsDnsName (domain : DomainName) : Prop :=
  bareName domain ≠ [] ∧
    (domain.name = bareName domain ∨ domain.name = bareName domain ++ ['.']) ∧
      [] ∉ split '.' (bareName domain)

/-- `localhost`, `*.localhost`, `*.local` and the metadata name. -/
def isLocalName (domain : DomainName) : Bool :=
  blockedHosts.contains (bareName domain) || endsWith (bareName domain) ".localhost" ||
    endsWith (bareName domain) ".local"

/-- No local address is let through. -/
def WebhookSound (url : Text) : Prop :=
  ∀ parsed, assertSafeWebhookUrl parseHost url = .ok parsed → isLocalAddress parsed.host = false

/-- No other name is turned away. -/
def WebhookComplete (url : Text) : Prop :=
  ∀ parsed domain, parseUrl parseHost none (trim url) = some (.web parsed) →
    hasCredentials (trim url) = false → parsed.host = .domain domain → IsDnsName domain →
      isLocalName domain = false → assertSafeWebhookUrl parseHost url = .ok parsed

/-! ## The check on each kind of host -/

/-- The text of an IPv4 address is compared as it is. -/
theorem isPrivateOrLocalHostname_ipv4 {ip : Ipv4} (localIp : isLocalIpv4 ip = true) :
    isPrivateOrLocalHostname ip.text = true := by
  have name : withoutLastDots (toLowerCase (trim ip.text)) = ip.text := by
    rw [ip.trim_text, ip.toLowerCase_text]
    exact ip.withoutLastDots_text
  rw [isPrivateOrLocalHostname, name, webhookOctets, readIpv4_text]
  dsimp only
  split_ifs with _ _ _ low link shared wide
  · rfl
  · rfl
  · rfl
  · rfl
  · rfl
  · rfl
  · rfl
  · simp only [Bool.or_eq_true, Bool.and_eq_true, decide_eq_true_eq, not_or]
      at low link shared wide
    simp only [isLocalIpv4, Ipv4.isUnspecified, Ipv4.isLoopback, Ipv4.isLinkLocal, Ipv4.isPrivate,
      Bool.or_eq_true, Bool.and_eq_true, decide_eq_true_eq] at localIp
    rcases localIp with ((unspecified | loopback) | linkLocal) | ((ten | twelve) | sixteen)
    · exact absurd (congrArg Ipv4.a unspecified) low.2
    · exact absurd loopback low.1.2
    · exact absurd linkLocal link
    · exact absurd ten low.1.1
    · exact absurd twelve shared
    · exact absurd sixteen wide

theorem startsWith_cons_ne {c d : Char} (other : d ≠ c) (s t : Text) :
    startsWith (c :: s) (d :: t) = false := by
  rw [startsWith, List.isPrefixOf, beq_false_of_ne other, Bool.false_and]

theorem endsWith_append_ne {c d : Char} (other : d ≠ c) (s t : Text) :
    endsWith (s ++ [c]) (t ++ [d]) = false := by
  rw [endsWith, List.isSuffixOf, List.reverse_append, List.reverse_append]
  exact startsWith_cons_ne other s.reverse t.reverse

/-- Nothing is found in brackets. -/
theorem isPrivateOrLocalHostname_ipv6 (ip : Ipv6) :
    isPrivateOrLocalHostname (UrlHost.ipv6 ip).hostname = false := by
  have trimmed : trim ('[' :: ip.text ++ [']']) = '[' :: ip.text ++ [']'] := by
    apply trim_of_marks
    · intro c first
      cases first
      decide
    · intro c last
      rw [List.getLast?_concat] at last
      cases last
      decide
  have lower : toLowerCase ('[' :: ip.text ++ [']']) = '[' :: toLowerCase ip.text ++ [']'] := by
    rw [toLowerCase, List.flatMap_append]
    rfl
  have name : withoutLastDots (toLowerCase (trim (UrlHost.ipv6 ip).hostname)) =
      '[' :: toLowerCase ip.text ++ [']'] := by
    rw [UrlHost.hostname, trimmed, lower]
    exact List.rdropWhile_concat_neg _ _ _ (by decide)
  have octets : webhookOctets ('[' :: toLowerCase ip.text ++ [']']) = none := by
    cases read : webhookOctets ('[' :: toLowerCase ip.text ++ [']']) with
    | none => rfl
    | some v4 => exact absurd (chars_of_readIpv4 read '[' List.mem_cons_self) (by decide)
  have front (t : Text) (d : Char) (other : d ≠ '[') :
      '[' :: toLowerCase ip.text ++ [']'] ≠ d :: t := by
    intro same
    exact other (List.cons.inj same).1.symm
  rw [isPrivateOrLocalHostname, name, octets]
  dsimp only
  rw [if_neg (List.append_ne_nil_of_right_ne_nil _ (List.cons_ne_nil _ _)), if_neg, if_neg]
  · rw [Bool.or_eq_true, Bool.or_eq_true, Bool.or_eq_true, Bool.or_eq_true, decide_eq_true_eq,
      decide_eq_true_eq, List.cons_append]
    rintro ((((same | same) | starts) | starts) | starts)
    · exact front _ _ (by decide) same
    · exact front _ _ (by decide) same
    · exact absurd ((startsWith_cons_ne (by decide) _ _).symm.trans starts) (by decide)
    · exact absurd ((startsWith_cons_ne (by decide) _ _).symm.trans starts) (by decide)
    · exact absurd ((startsWith_cons_ne (by decide) _ _).symm.trans starts) (by decide)
  · rw [Bool.or_eq_true, Bool.or_eq_true]
    rintro ((listed | ends) | ends)
    · simp only [blockedHosts, List.contains_iff_mem, List.mem_cons, List.not_mem_nil,
        or_false] at listed
      rcases listed with same | same
      · exact front _ _ (by decide) same
      · exact front _ _ (by decide) same
    · have other : endsWith ('[' :: toLowerCase ip.text ++ [']']) ".localhost" = false :=
        endsWith_append_ne (d := 't') (by decide) _ ".localhos"
      exact absurd (other.symm.trans ends) Bool.false_ne_true
    · have other : endsWith ('[' :: toLowerCase ip.text ++ [']']) ".local" = false :=
        endsWith_append_ne (d := 'l') (by decide) _ ".loca"
      exact absurd (other.symm.trans ends) Bool.false_ne_true

theorem colon_notMem_bareName (domain : DomainName) : ':' ∉ bareName domain := fun inside =>
  domain.colon_notMem_name ((List.rdropWhile_prefix _ _).subset inside)

/-- A domain name is no IPv4 address. -/
theorem webhookOctets_bareName {domain : DomainName} (named : IsDnsName domain) :
    webhookOctets (bareName domain) = none := by
  cases read : webhookOctets (bareName domain) with
  | none => rfl
  | some ip =>
      have number := endsInNumber_of_readIpv4 read
      have notNumber := domain.notNumber
      rcases named.2.1 with whole | dotted
      · rw [whole, number.1] at notNumber
        cases notNumber
      · rw [dotted, number.2] at notNumber
        cases notNumber

theorem mem_of_startsWith {s w : Text} (starts : startsWith s w = true) {c : Char}
    (inside : c ∈ w) : c ∈ s :=
  (List.isPrefixOf_iff_prefix.mp starts).subset inside

theorem isPrivateOrLocalHostname_domain {domain : DomainName} (named : IsDnsName domain)
    (other : isLocalName domain = false) :
    isPrivateOrLocalHostname domain.name =
      (startsWith (bareName domain) "fc" || startsWith (bareName domain) "fd") := by
  have name : withoutLastDots (toLowerCase (trim domain.name)) = bareName domain := by
    rw [domain.trim_name, domain.toLowerCase_name, bareName]
  have loopback : bareName domain ≠ "::1" := fun same =>
    colon_notMem_bareName domain (by rw [same]; decide)
  have unspecified : bareName domain ≠ "0.0.0.0" := by
    intro same
    have none := webhookOctets_bareName named
    rw [same] at none
    revert none
    decide
  have linkLocal : startsWith (bareName domain) "fe80:" = false :=
    Bool.eq_false_iff.mpr fun starts =>
      colon_notMem_bareName domain (mem_of_startsWith starts (by decide))
  rw [isLocalName] at other
  rw [isPrivateOrLocalHostname, name, webhookOctets_bareName named]
  dsimp only
  rw [if_neg named.1, other, if_neg Bool.false_ne_true, linkLocal, decide_eq_false loopback,
    decide_eq_false unspecified]
  cases startsWith (bareName domain) "fc" <;> cases startsWith (bareName domain) "fd" <;> rfl

/-! ## Sound and complete -/

/-- The check lets no local address through and turns no other name away just if an address in
brackets is not local, and no name outside the local ones begins with `fc` or `fd`. -/
theorem webhookTarget_iff (url : Text) :
    WebhookSound parseHost url ∧ WebhookComplete parseHost url ↔
      ∀ parsed, parseUrl parseHost none (trim url) = some (.web parsed) →
        hasCredentials (trim url) = false →
          (∀ ip, parsed.host = .ipv6 ip → isLocalIpv6 ip = false) ∧
            ∀ domain, parsed.host = .domain domain → IsDnsName domain →
              isLocalName domain = false → startsWith (bareName domain) "fc" = false ∧
                startsWith (bareName domain) "fd" = false := by
  have accepted {parsed : WebUrl UrlHost}
      (web : parseUrl parseHost none (trim url) = some (.web parsed))
      (bare : hasCredentials (trim url) = false) :
      assertSafeWebhookUrl parseHost url = .ok parsed ↔
        isPrivateOrLocalHostname parsed.host.hostname = false := by
    rw [assertSafeWebhookUrl, web]
    dsimp only
    rw [bare, if_neg Bool.false_ne_true]
    cases isPrivateOrLocalHostname parsed.host.hostname <;> simp
  constructor
  · rintro ⟨sound, complete⟩ parsed web bare
    constructor
    · intro ip host
      have passed := (accepted web bare).mpr (by rw [host]; exact isPrivateOrLocalHostname_ipv6 ip)
      have safe := sound parsed passed
      rw [host] at safe
      exact safe
    · intro domain host named other
      have passed := (accepted web bare).mp (complete parsed domain web bare host named other)
      rw [host, UrlHost.hostname, isPrivateOrLocalHostname_domain named other] at passed
      exact Bool.or_eq_false_iff.mp passed
  · intro condition
    constructor
    · intro parsed passed
      have given := passed
      rw [assertSafeWebhookUrl] at given
      split at given
      · cases given
      · rename_i found web
        split_ifs at given with credentials blocked
        cases given
        have bare : hasCredentials (trim url) = false := Bool.eq_false_iff.mpr credentials
        cases host : parsed.host with
        | domain domain => rfl
        | ipv4 ip =>
            by_contra localIp
            rw [host] at blocked
            exact blocked (isPrivateOrLocalHostname_ipv4 (Bool.not_eq_false _ ▸ localIp))
        | ipv6 ip => exact (condition parsed web bare).1 ip host
      · cases given
    · intro parsed domain web bare host named other
      refine (accepted web bare).mpr ?_
      obtain ⟨fc, fd⟩ := (condition parsed web bare).2 domain host named other
      rw [host, UrlHost.hostname, isPrivateOrLocalHostname_domain named other, fc, fd]
      rfl

theorem chars_fcbayern : ∀ c ∈ ("fcbayern.com" : Text), isDomainChar c = true :=
  List.all_eq_true.mp (by decide)

def fcbayern : DomainName := ⟨"fcbayern.com", by decide, chars_fcbayern, by decide⟩

/-- The loopback address in brackets, and a name that begins with `fc`. -/
def sampleHost (host : Text) : Option UrlHost :=
  if host = "[::1]" then some (.ipv6 ⟨[0, 0, 0, 0, 0, 0, 0, 1], rfl⟩)
  else if host = "fcbayern.com" then some (.domain fcbayern)
  else none

theorem loopback_passes :
    (assertSafeWebhookUrl sampleHost "http://[::1]/").toOption.any
      (fun parsed => isLocalAddress parsed.host) = true := by
  decide

theorem fcbayern_parses :
    ∃ parsed, parseUrl sampleHost none (trim "https://fcbayern.com/") = some (.web parsed) ∧
      parsed.host = .domain fcbayern :=
  ⟨_, rfl, rfl⟩

theorem fcbayern_refused :
    (assertSafeWebhookUrl sampleHost "https://fcbayern.com/").toOption.isNone = true := by
  decide

/-- `http://[::1]/` is let through, and `https://fcbayern.com/` is turned away. -/
theorem webhook_check_misses :
    ¬WebhookSound sampleHost "http://[::1]/" ∧
      ¬WebhookComplete sampleHost "https://fcbayern.com/" := by
  constructor
  · intro sound
    have passes := loopback_passes
    cases outcome : assertSafeWebhookUrl sampleHost "http://[::1]/" with
    | error error =>
        rw [outcome] at passes
        cases passes
    | ok url =>
        rw [outcome] at passes
        exact absurd ((sound url outcome).symm.trans passes) Bool.false_ne_true
  · intro complete
    obtain ⟨parsed, web, host⟩ := fcbayern_parses
    have passed := complete parsed fcbayern web (by decide) host
      ⟨by decide, .inl (by decide), by decide⟩ (by decide)
    have refused := fcbayern_refused
    rw [passed] at refused
    cases refused

end Proxora
