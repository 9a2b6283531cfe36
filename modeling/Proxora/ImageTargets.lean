import Proxora.Ecma.Numbers
import Proxora.Ecma.UrlHost
import Proxora.SuitePaths

/-!
# Targets of image requests

`externalImageTarget` and `resolveExternalImageTarget` of `lib/suite-proxy.ts`, with the
classification of hosts by their text. The answer of the lookup may be any text; it is an address
in whatever spelling it is written, with brackets and a zone, too.

`imageTarget_iff` says when no local address is let through: when neither the address in the URL
nor the one that was looked up is one of those that the texts compared do not cover.
-/

namespace Proxora

open Ecma

/-- `replace(/^\[|\]$/g, "")`. -/
def withoutBrackets (s : Text) : Text :=
  let opened := if s.head? = some '[' then s.tail else s
  if opened.getLast? = some ']' then opened.dropLast else opened

/-- `replace(/%.+$/, "")`. -/
def withoutZone : Text → Text
  | [] => []
  | c :: rest =>
      if c = '%' && rest ≠ [] && !rest.any isLineEnd then [] else c :: withoutZone rest

def normalizeImageHost (hostname : Text) : Text :=
  withoutLastDots (withoutZone (withoutBrackets (toLowerCase hostname)))

def imageOctets (host : Text) : Option (List Nat) :=
  let parts := (split '.' host).map numberByte
  if parts.length ≠ 4 || parts.any (·.isNone) then none else some (parts.map fun part => part.getD 0)

/-- `/\d{1,3}(?:\.\d{1,3}){3}/`, as the whole text. -/
def isDotted (s : Text) : Bool :=
  (split '.' s).length = 4 &&
    (split '.' s).all fun part => 1 ≤ part.length && part.length ≤ 3 && part.all Char.isDigit

/-- `hi >> 8`, `hi & 255`, `lo >> 8` and `lo & 255`. -/
def hexOctets (hi lo : Hextet) : List Nat :=
  [hi.val / 256, hi.val % 256, lo.val / 256, lo.val % 256]

/-- The host is in lower case here. -/
def ipv4MappedOctets (host : Text) : Option (List Nat) :=
  if !startsWith host "::ffff:" then none
  else if isDotted (host.drop 7) then imageOctets (host.drop 7)
  else
    match split ':' (host.drop 7) with
    | [hi, lo] =>
        match readGroup hi, readGroup lo with
        | some hi, some lo => some (hexOctets hi lo)
        | _, _ => none
    | _ => none

def isBlockedIpv4 (parts : List Nat) : Bool :=
  let a := parts.getD 0 0
  let b := parts.getD 1 0
  if a = 0 || a = 127 || 224 ≤ a then true
  else if a = 169 && b = 254 then true
  else false

def isImageIpLiteral (host : Text) : Bool := (imageOctets host).isSome || includes host ":"

def isBlockedImageHost (hostname : Text) : Bool :=
  let host := normalizeImageHost hostname
  if host = [] then true
  else if host = "localhost" || endsWith host ".localhost" || host = "0.0.0.0" || host = "::1" then
    true
  else if host = "metadata.google.internal" then true
  else if startsWith host "fe80:" then true
  else if (ipv4MappedOctets host).any isBlockedIpv4 then true
  else if (imageOctets host).any isBlockedIpv4 then true
  else false

section

variable (parseHost : Text → Option UrlHost)

/-- The URL that the text is parsed to, when its scheme and its credentials are allowed. -/
def fetchable (raw : Text) (allowHttps : Bool) : Option (WebUrl UrlHost) :=
  match parseUrl parseHost none raw with
  | some (.web url) =>
      if url.scheme ≠ .http && !(allowHttps && url.scheme = .https) then none
      else if hasCredentials raw then none
      else some url
  | _ => none

def externalImageTarget (raw : Text) (allowHttps : Bool) : Option (WebUrl UrlHost) :=
  match fetchable parseHost raw allowHttps with
  | none => none
  | some url =>
      if isBlockedImageHost url.host.hostname then none else some { url with fragment := none }

/-- The answer of the lookup, where it is asked. -/
def lookedUp (raw : Text) (allowHttps : Bool) (lookup : Text → Option Text) : Option Text :=
  match externalImageTarget parseHost raw allowHttps with
  | none => none
  | some url =>
      let host := normalizeImageHost url.host.hostname
      if isImageIpLiteral host then none else lookup host

/-- `lookup` gives an address, or fails. -/
def resolveExternalImageTarget (raw : Text) (allowHttps : Bool) (lookup : Text → Option Text) :
    Option (WebUrl UrlHost) :=
  match externalImageTarget parseHost raw allowHttps with
  | none => none
  | some url =>
      let host := normalizeImageHost url.host.hostname
      if isImageIpLiteral host then some url
      else
        match lookup host with
        | none => none
        | some address => if isBlockedImageHost address then none else some url

end

/-! ## What the check is for -/

/-- Unspecified, loopback, link-local and multicast. -/
def isForbiddenIpv4 (ip : Ipv4) : Bool :=
  ip.isUnspecified || ip.isLoopback || ip.isLinkLocal || ip.isMulticast

def isForbiddenIpv6 (ip : Ipv6) : Bool :=
  ip.isUnspecified || ip.isLoopback || ip.isLinkLocal || ip.isMulticast ||
    ip.mapped.any isForbiddenIpv4

/-- The text of an address without brackets and zone, in lower case. -/
def bareAddress (text : Text) : Text := withoutZone (withoutBrackets (toLowerCase text))

/-- The text is an address of one of the classes. -/
def ForbiddenText (text : Text) : Prop :=
  (∃ ip, readIpv4 (bareAddress text) = some ip ∧ isForbiddenIpv4 ip = true) ∨
    ∃ ip, readIpv6 (bareAddress text) = some ip ∧ isForbiddenIpv6 ip = true

def isForbiddenHost : UrlHost → Bool
  | .domain _ => false
  | .ipv4 ip => isForbiddenIpv4 ip
  | .ipv6 ip => isForbiddenIpv6 ip

/-- A URL that is returned leads to no such address. -/
def ImageTargetSafe (parseHost : Text → Option UrlHost) (raw : Text) (allowHttps : Bool)
    (lookup : Text → Option Text) : Prop :=
  ∀ url, resolveExternalImageTarget parseHost raw allowHttps lookup = some url →
    isForbiddenHost url.host = false ∧
      ∀ answer, lookedUp parseHost raw allowHttps lookup = some answer → ¬ForbiddenText answer

/-- The spellings that are compared. -/
def isKnownSpelling (text : Text) : Bool :=
  text = "::1" || startsWith text "fe80:" || startsWith text "::ffff:"

/-- The text is an IPv6 address of one of the classes, in a spelling that is not compared. -/
def OverlookedText (text : Text) : Prop :=
  ∃ ip, readIpv6 (bareAddress text) = some ip ∧ isForbiddenIpv6 ip = true ∧
    isKnownSpelling (bareAddress text) = false

/-- The unspecified address, link-local ones outside `fe80::/16`, and multicast. -/
def isOverlookedIpv6 (ip : Ipv6) : Bool :=
  ip.isUnspecified || (ip.isLinkLocal && ip.first ≠ 0xfe80) || ip.isMulticast

/-! ## Octets -/

theorem imageOctets_of_readIpv4 {s : Text} {ip : Ipv4} (read : readIpv4 s = some ip) :
    imageOctets s = some [ip.a.val, ip.b.val, ip.c.val, ip.d.val] := by
  obtain ⟨a, b, c, d, form, first, second, third, fourth⟩ := readIpv4_eq_some read
  have byte {part : Text} {octet : Fin 256} (read : readOctet part = some octet) :
      numberByte part = some octet.val := by
    obtain ⟨⟨long, -⟩, digits, value⟩ := readOctet_eq_some read
    rw [numberByte_of_digits (List.ne_nil_of_length_pos long) digits, value,
      if_pos (by omega)]
  rw [imageOctets, form]
  simp [byte first, byte second, byte third, byte fourth]

/-- A text with a colon is no IPv4 address. -/
theorem imageOctets_of_colon {s : Text} (inside : ':' ∈ s) : imageOctets s = none := by
  rcases mem_word_of_mem '.' inside with dot | ⟨part, listed, within⟩
  · exact absurd dot (by decide)
  · rw [imageOctets]
    refine if_pos ?_
    rw [Bool.or_eq_true, List.any_eq_true]
    exact .inr ⟨none, List.mem_map.mpr ⟨part, listed, numberByte_of_colon within⟩, rfl⟩

theorem isBlockedIpv4_of_forbidden {ip : Ipv4} (forbidden : isForbiddenIpv4 ip = true) :
    isBlockedIpv4 [ip.a.val, ip.b.val, ip.c.val, ip.d.val] = true := by
  simp only [isForbiddenIpv4, Ipv4.isUnspecified, Ipv4.isLoopback, Ipv4.isLinkLocal,
    Ipv4.isMulticast, Bool.or_eq_true, Bool.and_eq_true, decide_eq_true_eq] at forbidden
  rw [isBlockedIpv4]
  rcases forbidden with ((unspecified | loopback) | ⟨first, second⟩) | ⟨least, -⟩
  · rw [unspecified]
    rfl
  · rw [loopback]
    rfl
  · rw [first, second]
    rfl
  · have high : 224 ≤ ip.a.val := least
    simp [high]

theorem isDotted_of_readIpv4 {s : Text} {ip : Ipv4} (read : readIpv4 s = some ip) :
    isDotted s = true := by
  obtain ⟨a, b, c, d, form, first, second, third, fourth⟩ := readIpv4_eq_some read
  have part {s : Text} {octet : Fin 256} (read : readOctet s = some octet) :
      (1 ≤ s.length && s.length ≤ 3 && s.all Char.isDigit) = true := by
    obtain ⟨⟨long, short⟩, digits, -⟩ := readOctet_eq_some read
    rw [decide_eq_true long, decide_eq_true short, List.all_eq_true.mpr digits]
    rfl
  rw [isDotted, form, List.all_cons, List.all_cons, List.all_cons, List.all_cons, part first,
    part second, part third, part fourth]
  rfl

theorem isDotted_of_colon {s : Text} (inside : ':' ∈ s) : isDotted s = false := by
  rcases mem_word_of_mem '.' inside with dot | ⟨part, listed, within⟩
  · exact absurd dot (by decide)
  · rw [isDotted, Bool.and_eq_false_iff, List.all_eq_false]
    refine .inr ⟨part, listed, ?_⟩
    rw [Bool.and_eq_true, List.all_eq_true]
    exact fun shape => absurd (shape.2 ':' within) (by decide)

/-! ## Addresses as texts -/

theorem withoutLastDots_of_other {s : Text} (last : s.getLast? ≠ some '.') :
    withoutLastDots s = s := by
  rcases List.eq_nil_or_concat s with rfl | ⟨init, c, rfl⟩
  · rfl
  · rw [List.concat_eq_append] at last ⊢
    rw [List.getLast?_concat] at last
    refine List.rdropWhile_concat_neg _ init c ?_
    rw [decide_eq_true_eq]
    exact fun same => last (congrArg some same)

theorem exists_dot_of_getLast {s : Text} (last : s.getLast? = some '.') :
    ∃ init, s = init ++ ['.'] := by
  rcases List.eq_nil_or_concat s with rfl | ⟨init, c, rfl⟩
  · cases last
  · rw [List.concat_eq_append, List.getLast?_concat] at last
    exact ⟨init, by rw [List.concat_eq_append, Option.some.inj last]⟩

theorem normalizeImageHost_of_ipv4 {text : Text} {ip : Ipv4}
    (read : readIpv4 (bareAddress text) = some ip) :
    normalizeImageHost text = bareAddress text := by
  refine withoutLastDots_of_other fun last => ?_
  obtain ⟨init, form⟩ := exists_dot_of_getLast last
  rw [bareAddress, form, readIpv4_append_dot] at read
  cases read

theorem normalizeImageHost_of_ipv6 {text : Text} {ip : Ipv6}
    (read : readIpv6 (bareAddress text) = some ip) :
    normalizeImageHost text = bareAddress text := by
  refine withoutLastDots_of_other fun last => ?_
  obtain ⟨init, form⟩ := exists_dot_of_getLast last
  rw [bareAddress, form, readIpv6_append_dot] at read
  cases read

/-- A forbidden IPv4 address is always found. -/
theorem isBlockedImageHost_of_ipv4 {text : Text} {ip : Ipv4}
    (read : readIpv4 (bareAddress text) = some ip) (forbidden : isForbiddenIpv4 ip = true) :
    isBlockedImageHost text = true := by
  rw [isBlockedImageHost, normalizeImageHost_of_ipv4 read, imageOctets_of_readIpv4 read]
  rw [Option.any_some, isBlockedIpv4_of_forbidden forbidden, if_pos rfl]
  split_ifs <;> rfl

/-- Of an IPv6 address, two spellings and the mapped octets are compared. -/
theorem isBlockedImageHost_of_ipv6 {text : Text} {ip : Ipv6}
    (read : readIpv6 (bareAddress text) = some ip) :
    isBlockedImageHost text =
      (bareAddress text = "::1" || startsWith (bareAddress text) "fe80:" ||
        (ipv4MappedOctets (bareAddress text)).any isBlockedIpv4) := by
  have colon := colon_mem_of_readIpv6 read
  have chars := isAddressChar_of_readIpv6 read
  rw [isBlockedImageHost, normalizeImageHost_of_ipv6 read, imageOctets_of_colon colon]
  generalize bareAddress text = t at colon chars
  have without {w : Text} (free : ':' ∉ w) : t ≠ w := fun same => free (same ▸ colon)
  have tail : endsWith t ".localhost" = false := by
    refine Bool.eq_false_iff.mpr fun ends => ?_
    have inside : 'l' ∈ t := (List.isSuffixOf_iff_suffix.mp ends).subset (by decide)
    exact absurd (chars 'l' inside) (by decide)
  rw [if_neg (without (w := []) List.not_mem_nil), tail,
    decide_eq_false (without (w := "localhost") (by decide)),
    decide_eq_false (without (w := "0.0.0.0") (by decide)),
    if_neg (without (w := "metadata.google.internal") (by decide))]
  cases decide (t = "::1") <;> cases startsWith t "fe80:" <;>
    cases (ipv4MappedOctets t).any isBlockedIpv4 <;> rfl

/-! ## The mapped spelling -/

theorem exists_tail_of_startsWith {t : Text} (starts : startsWith t "::ffff:" = true) :
    ∃ tail, t = ':' :: ':' :: 'f' :: 'f' :: 'f' :: 'f' :: ':' :: tail := by
  obtain ⟨tail, rfl⟩ := List.isPrefixOf_iff_prefix.mp starts
  exact ⟨tail, rfl⟩

/-- Behind `::ffff:` only a mapped address is forbidden. -/
theorem mapped_of_forbidden {tail : Text} {ip : Ipv6}
    (read : readIpv6 (':' :: ':' :: 'f' :: 'f' :: 'f' :: 'f' :: ':' :: tail) = some ip)
    (forbidden : isForbiddenIpv6 ip = true) :
    ∃ v4, ip.mapped = some v4 ∧ isForbiddenIpv4 v4 = true := by
  obtain ⟨rest, -, bound, form⟩ := pieces_of_ffff read
  have first : ip.first = 0 := by
    obtain ⟨n, zeros⟩ : ∃ n, 7 - rest.length = n + 1 := ⟨6 - rest.length, by omega⟩
    rw [Ipv6.first, form, zeros]
    rfl
  have inside : (0xffff : Hextet) ∈ ip.pieces := by
    rw [form]
    exact List.mem_append_right _ List.mem_cons_self
  simp only [isForbiddenIpv6, Ipv6.isUnspecified, Ipv6.isLoopback, Ipv6.isLinkLocal,
    Ipv6.isMulticast, first, Bool.or_eq_true, Bool.and_eq_true, decide_eq_true_eq] at forbidden
  rcases forbidden with (((unspecified | loopback) | ⟨least, -⟩) | least) | mapped
  · rw [unspecified] at inside
    exact absurd inside (by decide)
  · rw [loopback] at inside
    exact absurd inside (by decide)
  · exact absurd least (by decide)
  · exact absurd least (by decide)
  · cases found : ip.mapped with
    | none =>
        rw [found] at mapped
        cases mapped
    | some v4 =>
        rw [found] at mapped
        exact ⟨v4, rfl, mapped⟩

theorem any_mapped_of_forbidden {t : Text} {ip : Ipv6} (read : readIpv6 t = some ip)
    (forbidden : isForbiddenIpv6 ip = true) (starts : startsWith t "::ffff:" = true) :
    (ipv4MappedOctets t).any isBlockedIpv4 = true := by
  obtain ⟨tail, rfl⟩ := exists_tail_of_startsWith starts
  obtain ⟨v4, mapped, local_v4⟩ := mapped_of_forbidden read forbidden
  have blocked := isBlockedIpv4_of_forbidden local_v4
  rw [ipv4MappedOctets, starts]
  show Option.any isBlockedIpv4 (if isDotted tail then _ else _) = true
  rcases mapped_of_readIpv6 read mapped with dotted | ⟨high, low, h, l, words, hi, lo, rfl⟩
  · rw [if_pos (isDotted_of_readIpv4 dotted)]
    show Option.any isBlockedIpv4 (imageOctets tail) = true
    rw [imageOctets_of_readIpv4 dotted]
    exact blocked
  · have colon : ':' ∈ tail := by
      rw [← @join_split ':' tail, words]
      exact List.mem_append_right high List.mem_cons_self
    rw [isDotted_of_colon colon, if_neg Bool.false_ne_true]
    show Option.any isBlockedIpv4 (match split ':' tail with
      | [hi, lo] => _
      | _ => none) = true
    rw [words]
    dsimp only
    rw [hi, lo]
    exact blocked

/-- A forbidden IPv6 address is found just in a spelling that is compared. -/
theorem isBlockedImageHost_iff {text : Text} {ip : Ipv6}
    (read : readIpv6 (bareAddress text) = some ip) (forbidden : isForbiddenIpv6 ip = true) :
    isBlockedImageHost text = isKnownSpelling (bareAddress text) := by
  rw [isBlockedImageHost_of_ipv6 read, isKnownSpelling]
  cases starts : startsWith (bareAddress text) "::ffff:" with
  | true => rw [any_mapped_of_forbidden read forbidden starts]
  | false =>
      have none : ipv4MappedOctets (bareAddress text) = none := by
        rw [ipv4MappedOctets, starts]
        rfl
      rw [none]
      rfl

/-! ## Hosts -/

theorem withoutZone_of_free {s : Text} (free : '%' ∉ s) : withoutZone s = s := by
  induction s with
  | nil => rfl
  | cons c s ih =>
      rw [List.mem_cons, not_or] at free
      rw [withoutZone, decide_eq_false (Ne.symm free.1), Bool.false_and, Bool.false_and,
        if_neg Bool.false_ne_true, ih free.2]

theorem withoutBrackets_of_free {s : Text} (front : '[' ∉ s) (back : ']' ∉ s) :
    withoutBrackets s = s := by
  have first : s.head? ≠ some '[' := fun first => front (List.mem_of_mem_head? first)
  rw [withoutBrackets, if_neg first, if_neg fun last => back (List.mem_of_getLast? last)]

/-- The text of an IPv4 address is bare. -/
theorem bareAddress_ipv4 (ip : Ipv4) : bareAddress ip.text = ip.text := by
  have free (c : Char) (other : c.isDigit = false ∧ c ≠ '.') : c ∉ ip.text := by
    intro inside
    rcases chars_text ip c inside with digit | dot
    · rw [other.1] at digit
      cases digit
    · exact other.2 dot
  rw [bareAddress, ip.toLowerCase_text,
    withoutBrackets_of_free (free '[' (by decide)) (free ']' (by decide)),
    withoutZone_of_free (free '%' (by decide))]

/-- Without its brackets the text of an IPv6 address is bare. -/
theorem bareAddress_ipv6 (ip : Ipv6) : bareAddress (UrlHost.ipv6 ip).hostname = ip.text := by
  have free (c : Char) (other : isAddressChar c = false) : c ∉ ip.text := by
    intro inside
    rw [isAddressChar_of_readIpv6 (readIpv6_text ip) c inside] at other
    cases other
  have lower : toLowerCase ('[' :: ip.text ++ [']']) = '[' :: ip.text ++ [']'] := by
    have inner := toLowerCase_text ip
    rw [toLowerCase] at inner ⊢
    rw [List.flatMap_append, List.flatMap_cons, inner]
    rfl
  have opened : withoutBrackets ('[' :: ip.text ++ [']']) = ip.text := by
    rw [withoutBrackets]
    show (if (ip.text ++ [']']).getLast? = some ']' then (ip.text ++ [']']).dropLast else _) = _
    rw [List.getLast?_concat, if_pos rfl, List.dropLast_concat]
  rw [bareAddress, UrlHost.hostname, lower, opened, withoutZone_of_free (free '%' (by decide))]

theorem groupText_fe80 : groupText 0xfe80 = ['f', 'e', '8', '0'] := by decide

/-- A spelling that is compared stands for none of the overlooked addresses. -/
theorem isOverlookedIpv6_of_known {ip : Ipv6} (known : isKnownSpelling ip.text = true) :
    isOverlookedIpv6 ip = false := by
  have read := readIpv6_text ip
  have normal (low : ip.first = 0 ∨ ip.first = 0xfe80) (some_group : ip.isUnspecified = false) :
      isOverlookedIpv6 ip = false := by
    rw [isOverlookedIpv6, some_group, Ipv6.isLinkLocal, Ipv6.isMulticast]
    rcases low with same | same <;> rw [same] <;> decide
  have unspecified_text (unspecified : ip.isUnspecified = true) : ip.text = "::" := by
    obtain ⟨pieces, length⟩ := ip
    have zeros : pieces = [0, 0, 0, 0, 0, 0, 0, 0] := of_decide_eq_true unspecified
    subst zeros
    rfl
  have some_group : ip.isUnspecified = false := by
    refine Bool.eq_false_iff.mpr fun unspecified => ?_
    rw [unspecified_text unspecified] at known
    revert known
    decide
  rw [isKnownSpelling, Bool.or_eq_true, Bool.or_eq_true, decide_eq_true_eq] at known
  refine normal ?_ some_group
  rcases known with (loopback | linkLocal) | mapped
  · rw [loopback] at read
    rw [Option.some.inj (read.symm.trans readIpv6_loopback)]
    exact .inl rfl
  · exact .inr (first_of_fe80 linkLocal read)
  · obtain ⟨tail, form⟩ := exists_tail_of_startsWith mapped
    rw [form] at read
    obtain ⟨rest, -, bound, pieces⟩ := pieces_of_ffff read
    obtain ⟨n, zeros⟩ : ∃ n, 7 - rest.length = n + 1 := ⟨6 - rest.length, by omega⟩
    refine .inl ?_
    rw [Ipv6.first, pieces, zeros]
    rfl

/-- In the canonical form every other forbidden address is spelled as it is compared. -/
theorem isKnownSpelling_of_forbidden {ip : Ipv6} (forbidden : isForbiddenIpv6 ip = true)
    (covered : isOverlookedIpv6 ip = false) : isKnownSpelling ip.text = true := by
  simp only [isOverlookedIpv6, Bool.or_eq_false_iff, Bool.and_eq_false_iff,
    decide_eq_false_iff_not, not_not] at covered
  simp only [isForbiddenIpv6, Bool.or_eq_true] at forbidden
  rw [isKnownSpelling, Bool.or_eq_true, Bool.or_eq_true, decide_eq_true_eq]
  rcases forbidden with (((unspecified | loopback) | linkLocal) | multicast) | mapped
  · rw [covered.1.1] at unspecified
    cases unspecified
  · refine .inl (.inl ?_)
    obtain ⟨pieces, length⟩ := ip
    have form : pieces = [0, 0, 0, 0, 0, 0, 0, 1] := of_decide_eq_true loopback
    subst form
    rfl
  · have first : ip.first = 0xfe80 := by
      rcases covered.1.2 with other | same
      · rw [other] at linkLocal
        cases linkLocal
      · exact same
    obtain ⟨rest, form⟩ := @text_of_first ip (by rw [first]; decide)
    rw [form, first, groupText_fe80]
    exact .inl (.inr rfl)
  · rw [covered.2] at multicast
    cases multicast
  · cases found : ip.mapped with
    | none =>
        rw [found] at mapped
        cases mapped
    | some v4 =>
        obtain ⟨tail, form⟩ := text_of_mapped found
        rw [form]
        exact .inr rfl

theorem isForbiddenIpv6_of_overlooked {ip : Ipv6} (overlooked : isOverlookedIpv6 ip = true) :
    isForbiddenIpv6 ip = true := by
  simp only [isOverlookedIpv6, Bool.or_eq_true, Bool.and_eq_true] at overlooked
  simp only [isForbiddenIpv6, Bool.or_eq_true]
  rcases overlooked with (unspecified | linkLocal) | multicast
  · exact .inl (.inl (.inl (.inl unspecified)))
  · exact .inl (.inl (.inr linkLocal.1))
  · exact .inl (.inr multicast)

/-- A forbidden IPv6 host is blocked just if it is covered. -/
theorem isBlockedImageHost_ipv6 {ip : Ipv6} (forbidden : isForbiddenIpv6 ip = true) :
    isBlockedImageHost (UrlHost.ipv6 ip).hostname = !isOverlookedIpv6 ip := by
  have read : readIpv6 (bareAddress (UrlHost.ipv6 ip).hostname) = some ip := by
    rw [bareAddress_ipv6, readIpv6_text]
  rw [isBlockedImageHost_iff read forbidden, bareAddress_ipv6]
  cases overlooked : isOverlookedIpv6 ip with
  | false => exact isKnownSpelling_of_forbidden forbidden overlooked
  | true =>
      refine Bool.eq_false_iff.mpr fun known => ?_
      rw [isOverlookedIpv6_of_known known] at overlooked
      cases overlooked

/-! ## The target -/

variable {parseHost : Text → Option UrlHost} {raw : Text} {allowHttps : Bool}
  {lookup : Text → Option Text}

theorem externalImageTarget_eq_some {url : WebUrl UrlHost}
    (target : externalImageTarget parseHost raw allowHttps = some url) :
    ∃ parsed, fetchable parseHost raw allowHttps = some parsed ∧ url.host = parsed.host ∧
      isBlockedImageHost parsed.host.hostname = false := by
  rw [externalImageTarget] at target
  cases found : fetchable parseHost raw allowHttps with
  | none =>
      rw [found] at target
      cases target
  | some parsed =>
      rw [found] at target
      dsimp only at target
      split_ifs at target with blocked
      cases target
      exact ⟨parsed, rfl, rfl, Bool.eq_false_iff.mpr blocked⟩

/-- No forbidden address is let through just if the address in the URL is none of those that are
overlooked, and the one that is looked up is not spelled in a way that is not compared. -/
theorem imageTarget_iff :
    ImageTargetSafe parseHost raw allowHttps lookup ↔
      (∀ url ip, fetchable parseHost raw allowHttps = some url → url.host = .ipv6 ip →
        isOverlookedIpv6 ip = false) ∧
      ∀ answer, lookedUp parseHost raw allowHttps lookup = some answer →
        ¬OverlookedText answer := by
  constructor
  · intro safe
    constructor
    · intro url ip found host
      by_contra covered
      have overlooked : isOverlookedIpv6 ip = true := Bool.not_eq_false _ ▸ covered
      have forbidden := isForbiddenIpv6_of_overlooked overlooked
      have passes : isBlockedImageHost url.host.hostname = false := by
        rw [host, isBlockedImageHost_ipv6 forbidden, overlooked]
        rfl
      have literal : isImageIpLiteral (normalizeImageHost url.host.hostname) = true := by
        have read : readIpv6 (bareAddress (UrlHost.ipv6 ip).hostname) = some ip := by
          rw [bareAddress_ipv6, readIpv6_text]
        rw [host, isImageIpLiteral, normalizeImageHost_of_ipv6 read, Bool.or_eq_true, includes_iff]
        exact .inr ((List.singleton_infix_iff _ _).mpr (colon_mem_of_readIpv6 read))
      have target : externalImageTarget parseHost raw allowHttps =
          some { url with fragment := none } := by
        rw [externalImageTarget, found]
        exact if_neg (by rw [passes]; exact Bool.false_ne_true)
      have resolved : resolveExternalImageTarget parseHost raw allowHttps lookup =
          some { url with fragment := none } := by
        rw [resolveExternalImageTarget, target]
        exact if_pos literal
      have fine := (safe _ resolved).1
      change isForbiddenHost url.host = false at fine
      rw [host] at fine
      exact absurd (fine.symm.trans forbidden) Bool.false_ne_true
    · rintro answer asked ⟨ip, read, forbidden, unknown⟩
      have passes : isBlockedImageHost answer = false := by
        rw [isBlockedImageHost_iff read forbidden, unknown]
      have resolved : ∃ url, resolveExternalImageTarget parseHost raw allowHttps lookup =
          some url := by
        rw [lookedUp] at asked
        rw [resolveExternalImageTarget]
        cases target : externalImageTarget parseHost raw allowHttps with
        | none =>
            rw [target] at asked
            cases asked
        | some url =>
            rw [target] at asked
            dsimp only at asked ⊢
            split_ifs at asked with literal
            rw [if_neg literal, asked]
            exact ⟨url, if_neg (by rw [passes]; exact Bool.false_ne_true)⟩
      obtain ⟨url, resolved⟩ := resolved
      exact (safe url resolved).2 answer asked (.inr ⟨ip, read, forbidden⟩)
  · rintro ⟨covered, compared⟩ url resolved
    rw [resolveExternalImageTarget] at resolved
    cases target : externalImageTarget parseHost raw allowHttps with
    | none =>
        rw [target] at resolved
        cases resolved
    | some found =>
        obtain ⟨parsed, fetched, host, passes⟩ := externalImageTarget_eq_some target
        rw [target] at resolved
        dsimp only at resolved
        have same : url = found := by
          split_ifs at resolved
          · exact (Option.some.inj resolved).symm
          · split at resolved
            · cases resolved
            · split_ifs at resolved
              exact (Option.some.inj resolved).symm
        constructor
        · rw [same, host]
          cases kind : parsed.host with
          | domain name => rfl
          | ipv4 ip =>
              refine Bool.eq_false_iff.mpr fun forbidden => ?_
              have read : readIpv4 (bareAddress ip.text) = some ip := by
                rw [bareAddress_ipv4, readIpv4_text]
              rw [kind, UrlHost.hostname, isBlockedImageHost_of_ipv4 read forbidden] at passes
              cases passes
          | ipv6 ip =>
              refine Bool.eq_false_iff.mpr fun forbidden => ?_
              rw [kind, isBlockedImageHost_ipv6 forbidden, covered parsed ip fetched kind] at passes
              cases passes
        · intro answer asked forbidden
          have open_answer : isBlockedImageHost answer = false := by
            rw [lookedUp, target] at asked
            dsimp only at asked
            split_ifs at asked with literal
            rw [if_neg literal, asked] at resolved
            dsimp only at resolved
            split_ifs at resolved with blocked
            exact Bool.eq_false_iff.mpr blocked
          rcases forbidden with ⟨ip, read, forbidden⟩ | ⟨ip, read, forbidden⟩
          · rw [isBlockedImageHost_of_ipv4 read forbidden] at open_answer
            cases open_answer
          · refine compared answer asked ⟨ip, read, forbidden, ?_⟩
            rw [← isBlockedImageHost_iff read forbidden, open_answer]

theorem chars_icons : ∀ c ∈ ("icons.lab" : Text), isDomainChar c = true :=
  List.all_eq_true.mp (by decide)

/-- The unspecified address in brackets, and a name. -/
def imageHost (host : Text) : Option UrlHost :=
  if host = "[::]" then some (.ipv6 ⟨[0, 0, 0, 0, 0, 0, 0, 0], rfl⟩)
  else some (.domain ⟨"icons.lab", by decide, chars_icons, by decide⟩)

/-- The loopback address with all of its groups. -/
def fullLoopback (_ : Text) : Option Text := some "0:0:0:0:0:0:0:1"

theorem unspecified_resolves :
    (resolveExternalImageTarget imageHost "http://[::]/" false fullLoopback).any
      (fun url => isForbiddenHost url.host) = true := by
  decide

theorem fullLoopback_resolves :
    (resolveExternalImageTarget imageHost "http://icons.lab/a.png" false fullLoopback).isSome =
        true ∧
      lookedUp imageHost "http://icons.lab/a.png" false fullLoopback =
        some ("0:0:0:0:0:0:0:1" : Text) ∧
      (readIpv6 (bareAddress "0:0:0:0:0:0:0:1")).any isForbiddenIpv6 = true := by
  decide

/-- `http://[::]/` is let through, and a name that leads to the loopback address is, too. -/
theorem spellings_pass :
    ¬ImageTargetSafe imageHost "http://[::]/" false fullLoopback ∧
      ¬ImageTargetSafe imageHost "http://icons.lab/a.png" false fullLoopback := by
  constructor
  · intro safe
    have passes := unspecified_resolves
    cases outcome : resolveExternalImageTarget imageHost "http://[::]/" false fullLoopback with
    | none =>
        rw [outcome] at passes
        cases passes
    | some url =>
        rw [outcome] at passes
        exact absurd ((safe url outcome).1.symm.trans passes) Bool.false_ne_true
  · intro safe
    obtain ⟨resolves, asked, forbidden⟩ := fullLoopback_resolves
    obtain ⟨url, outcome⟩ := Option.isSome_iff_exists.mp resolves
    cases read : readIpv6 (bareAddress "0:0:0:0:0:0:0:1") with
    | none =>
        rw [read] at forbidden
        cases forbidden
    | some ip =>
        rw [read] at forbidden
        exact (safe url outcome).2 _ asked (.inr ⟨ip, read, forbidden⟩)

end Proxora
