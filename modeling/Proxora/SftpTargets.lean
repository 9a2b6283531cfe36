import Proxora.GuestNetworks
import Proxora.ImageTargets

/-!
# Hosts of SFTP connections

`isAllowedSftpTarget` of `lib/guest-files.ts`, with `isIpv4` of `lib/create-ip.ts`. An IPv6 address
is compared as a text, with three spellings; any other text of hexadecimal digits and colons is
taken for an address.

`sftpTarget_iff` says for which hosts the address that is returned is a safe one: for all but the
colon texts that are no address, and those that spell an unsafe address in another way.
-/

namespace Proxora

open Ecma

/-- `/[0-9a-f:]/`. -/
def isSftpChar (c : Char) : Bool := c.isDigit || ('a' ≤ c && c ≤ 'f') || c = ':'

/-- Without one bracket on each side, in lower case. -/
def bareSftpHost (raw : Text) : Text := toLowerCase (withoutBrackets raw)

def isAllowedSftpTarget (host : Text) : Except Text Text :=
  let raw := trim host
  if raw = [] || 253 < utf16Length raw then .error "Invalid SSH host"
  else if isIpv4 raw then
    match (split '.' raw).map numberOfDigits with
    | [a, b, c, d] =>
        if a = 0 || a = 127 || 224 ≤ a then .error "Invalid SSH host"
        else if a = 169 && b = 254 && c = 169 && d = 254 then .error "Invalid SSH host"
        else .ok raw
    | _ => .ok raw
  else if includes raw ":" then
    let ip := bareSftpHost raw
    if ip = "::" || ip = "::1" || startsWith ip "fe80:" then .error "Invalid SSH host"
    else if ip = [] || !ip.all isSftpChar then .error "Invalid SSH host"
    else .ok ip
  else .error "Invalid SSH host"

/-! ## What the check is for -/

/-- Unspecified, loopback, multicast, and the metadata address. -/
def isUnsafeIpv4 (ip : Ipv4) : Bool :=
  ip.isUnspecified || ip.isLoopback || ip.isMulticast || ip = ⟨169, 254, 169, 254⟩

/-- Unspecified, loopback, link-local, or mapped to such an IPv4 address. -/
def isUnsafeIpv6 (ip : Ipv6) : Bool :=
  ip.isUnspecified || ip.isLoopback || ip.isLinkLocal || ip.mapped.any isUnsafeIpv4

/-- The text is an address that is none of these. -/
def isSafeAddress (text : Text) : Bool :=
  (readIpv4 text).any (fun ip => !isUnsafeIpv4 ip) ||
    (readIpv6 text).any fun ip => !isUnsafeIpv6 ip

/-- What is returned is a safe address. -/
def SftpTargetSafe (host : Text) : Prop :=
  ∀ target, isAllowedSftpTarget host = .ok target → isSafeAddress target = true

/-- The text spells the unspecified address, the loopback address or a link-local one otherwise
than it is compared, or an address that is mapped to an unsafe one. -/
def OtherSpelling (text : Text) (ip : Ipv6) : Prop :=
  (ip.isUnspecified = true ∧ text ≠ "::") ∨ (ip.isLoopback = true ∧ text ≠ "::1") ∨
    (ip.isLinkLocal = true ∧ startsWith text "fe80:" = false) ∨
    ip.mapped.any isUnsafeIpv4 = true

/-- Digits and colons that are no address, or one in another spelling. -/
def OverlookedTarget (text : Text) : Prop :=
  text.all isSftpChar = true ∧
    ((readIpv6 text = none ∧ startsWith text "fe80:" = false) ∨
      ∃ ip, readIpv6 text = some ip ∧ OtherSpelling text ip)

/-- A colon text of at most 253 units that is overlooked. -/
def OverlookedSftpHost (host : Text) : Prop :=
  utf16Length (trim host) ≤ 253 ∧ ':' ∈ trim host ∧ OverlookedTarget (bareSftpHost (trim host))

/-! ## IPv4 -/

/-- The numbers of the parts are the octets of the address. -/
theorem octets_of_isIpv4 {raw : Text} (bare : trim raw = raw) (ipv4 : isIpv4 raw = true) :
    ∃ ip, readIpv4 raw = some ip ∧
      (split '.' raw).map numberOfDigits = [ip.a.val, ip.b.val, ip.c.val, ip.d.val] := by
  rw [isIpv4, bare] at ipv4
  have octet {part : Text} (fine : (part ≠ [] && part.length ≤ 3 && part.all Char.isDigit &&
      numberOfDigits part ≤ 255) = true) :
      ∃ n : Fin 256, readOctet part = some n ∧ numberOfDigits part = n.val := by
    simp only [Bool.and_eq_true, decide_eq_true_eq] at fine
    obtain ⟨⟨⟨given, short⟩, digits⟩, value⟩ := fine
    have small : digitsValue part < 256 := by
      by_contra large
      rw [numberOfDigits, nearestDouble] at value
      have bound : digitsValue part < 10 ^ part.length :=
        digitsValue_lt (List.all_eq_true.mp digits)
      have thousand : 10 ^ part.length ≤ 10 ^ 3 := Nat.pow_le_pow_right (by decide) short
      rw [if_pos (by omega)] at value
      omega
    have same : numberOfDigits part = digitsValue part := by
      rw [numberOfDigits, nearestDouble, if_pos (by omega)]
    have long : 1 ≤ part.length := List.length_pos_of_ne_nil given
    refine ⟨⟨digitsValue part, small⟩, ?_, same⟩
    rw [readOctet, decide_eq_true long, decide_eq_true short, digits]
    exact dif_pos small
  split at ipv4
  · rename_i a b c d form
    rw [List.all_eq_true] at ipv4
    obtain ⟨k, readK, sameK⟩ := octet (ipv4 a (by simp))
    obtain ⟨l, readL, sameL⟩ := octet (ipv4 b (by simp))
    obtain ⟨m, readM, sameM⟩ := octet (ipv4 c (by simp))
    obtain ⟨n, readN, sameN⟩ := octet (ipv4 d (by simp))
    refine ⟨⟨k, l, m, n⟩, ?_, ?_⟩
    · rw [readIpv4, form]
      simp [readK, readL, readM, readN]
    · rw [form, List.map_cons, List.map_cons, List.map_cons, List.map_cons, sameK, sameL, sameM,
        sameN]
      rfl
  · cases ipv4

/-- The octets of an unsafe address are refused. -/
theorem refused_of_unsafe {ip : Ipv4} (unsafeIp : isUnsafeIpv4 ip = true) :
    (ip.a.val = 0 || ip.a.val = 127 || 224 ≤ ip.a.val) = true ∨
      (ip.a.val = 169 && ip.b.val = 254 && ip.c.val = 169 && ip.d.val = 254) = true := by
  simp only [isUnsafeIpv4, Ipv4.isUnspecified, Ipv4.isLoopback, Ipv4.isMulticast, Bool.or_eq_true,
    Bool.and_eq_true, decide_eq_true_eq] at unsafeIp
  rcases unsafeIp with ((unspecified | loopback) | ⟨least, -⟩) | metadata
  · rw [unspecified]
    exact .inl rfl
  · rw [loopback]
    exact .inl rfl
  · have high : 224 ≤ ip.a.val := least
    rw [decide_eq_true high, Bool.or_true]
    exact .inl rfl
  · rw [metadata]
    exact .inr rfl

/-- An IPv4 address that is returned is a safe one. -/
theorem safe_of_isIpv4 {host : Text} (ipv4 : isIpv4 (trim host) = true) : SftpTargetSafe host := by
  intro target allowed
  obtain ⟨ip, read, octets⟩ := octets_of_isIpv4 (trim_trim host) ipv4
  rw [isAllowedSftpTarget] at allowed
  dsimp only at allowed
  rw [ipv4, octets] at allowed
  split at allowed
  · cases allowed
  · rw [if_pos rfl] at allowed
    dsimp only at allowed
    split_ifs at allowed with low metadata
    cases allowed
    have fine : isUnsafeIpv4 ip = false := by
      refine Bool.eq_false_iff.mpr fun unsafeIp => ?_
      rcases refused_of_unsafe unsafeIp with refused | refused
      · exact low refused
      · exact metadata refused
    rw [isSafeAddress, read, Option.any_some, fine]
    rfl

/-! ## IPv6 -/

theorem first_of_mapped {ip : Ipv6} {v4 : Ipv4} (found : ip.mapped = some v4) : ip.first = 0 := by
  rw [Ipv6.mapped] at found
  split at found
  · split_ifs at found with front
    rw [Ipv6.first]
    cases pieces : ip.pieces with
    | nil => rfl
    | cons group groups =>
        rw [pieces] at front
        exact (List.cons.inj front).1
  · cases found

/-- Another spelling is none of the three that are compared. -/
theorem not_compared_of_otherSpelling {text : Text} {ip : Ipv6} (read : readIpv6 text = some ip)
    (other : OtherSpelling text ip) :
    text ≠ "::" ∧ text ≠ "::1" ∧ startsWith text "fe80:" = false := by
  have unspecified (same : text = "::") : ip = ⟨[0, 0, 0, 0, 0, 0, 0, 0], rfl⟩ := by
    rw [same] at read
    exact Option.some.inj (read.symm.trans readIpv6_unspecified)
  have loopback (same : text = "::1") : ip = ⟨[0, 0, 0, 0, 0, 0, 0, 1], rfl⟩ := by
    rw [same] at read
    exact Option.some.inj (read.symm.trans readIpv6_loopback)
  have linkLocal (starts : startsWith text "fe80:" = true) := first_of_fe80 starts read
  have low (zero : ip.first = 0) : startsWith text "fe80:" = false := by
    refine Bool.eq_false_iff.mpr fun starts => ?_
    exact absurd (zero.symm.trans (linkLocal starts)) (by decide)
  rcases other with ⟨zeros, spelled⟩ | ⟨one, spelled⟩ | ⟨link, spelled⟩ | mapped
  · have pieces : ip.pieces = [0, 0, 0, 0, 0, 0, 0, 0] := of_decide_eq_true zeros
    refine ⟨spelled, fun same => ?_, low (by rw [Ipv6.first, pieces]; rfl)⟩
    rw [loopback same] at pieces
    exact absurd pieces (by decide)
  · have pieces : ip.pieces = [0, 0, 0, 0, 0, 0, 0, 1] := of_decide_eq_true one
    refine ⟨fun same => ?_, spelled, low (by rw [Ipv6.first, pieces]; rfl)⟩
    rw [unspecified same] at pieces
    exact absurd pieces (by decide)
  · refine ⟨fun same => ?_, fun same => ?_, spelled⟩
    · rw [unspecified same] at link
      exact absurd link (by decide)
    · rw [loopback same] at link
      exact absurd link (by decide)
  · refine ⟨fun same => ?_, fun same => ?_, ?_⟩
    · rw [unspecified same] at mapped
      exact absurd mapped (by decide)
    · rw [loopback same] at mapped
      exact absurd mapped (by decide)
    · cases found : ip.mapped with
      | none =>
          rw [found] at mapped
          cases mapped
      | some v4 => exact low (first_of_mapped found)

/-- A text that is overlooked is none of the three, either. -/
theorem OverlookedTarget.not_compared {text : Text} (overlooked : OverlookedTarget text) :
    text ≠ "::" ∧ text ≠ "::1" ∧ startsWith text "fe80:" = false := by
  rcases overlooked.2 with ⟨none, spelled⟩ | ⟨ip, read, other⟩
  · refine ⟨fun same => ?_, fun same => ?_, spelled⟩
    · rw [same, readIpv6_unspecified] at none
      cases none
    · rw [same, readIpv6_loopback] at none
      cases none
  · exact not_compared_of_otherSpelling read other

/-- An unsafe address that is none of the three has another spelling. -/
theorem otherSpelling_of_unsafe {text : Text} {ip : Ipv6} (unsafeIp : isUnsafeIpv6 ip = true)
    (zeros : text ≠ "::") (one : text ≠ "::1") (link : startsWith text "fe80:" = false) :
    OtherSpelling text ip := by
  simp only [isUnsafeIpv6, Bool.or_eq_true] at unsafeIp
  rcases unsafeIp with ((unspecified | loopback) | linkLocal) | mapped
  · exact .inl ⟨unspecified, zeros⟩
  · exact .inr (.inl ⟨loopback, one⟩)
  · exact .inr (.inr (.inl ⟨linkLocal, link⟩))
  · exact .inr (.inr (.inr mapped))

theorem unsafe_of_otherSpelling {text : Text} {ip : Ipv6} (other : OtherSpelling text ip) :
    isUnsafeIpv6 ip = true := by
  simp only [isUnsafeIpv6, Bool.or_eq_true]
  rcases other with ⟨unspecified, -⟩ | ⟨loopback, -⟩ | ⟨linkLocal, -⟩ | mapped
  · exact .inl (.inl (.inl unspecified))
  · exact .inl (.inl (.inr loopback))
  · exact .inl (.inr linkLocal)
  · exact .inr mapped

theorem dot_mem_of_readIpv4 {text : Text} {ip : Ipv4} (read : readIpv4 text = some ip) :
    '.' ∈ text := by
  obtain ⟨a, b, c, d, form, -⟩ := readIpv4_eq_some read
  by_contra free
  rw [split_of_notMem free] at form
  cases form

/-- Digits and colons are no IPv4 address. -/
theorem isSafeAddress_of_sftpChars {text : Text} (chars : text.all isSftpChar = true) :
    isSafeAddress text = (readIpv6 text).any fun ip => !isUnsafeIpv6 ip := by
  have none : readIpv4 text = none := by
    cases read : readIpv4 text with
    | none => rfl
    | some ip =>
        exact absurd (List.all_eq_true.mp chars '.' (dot_mem_of_readIpv4 read)) (by decide)
  rw [isSafeAddress, none]
  rfl

/-! ## The target -/

theorem colon_mem_withoutBrackets {raw : Text} (colon : ':' ∈ raw) : ':' ∈ withoutBrackets raw := by
  have closed {opened : Text} (colon : ':' ∈ opened) :
      ':' ∈ if opened.getLast? = some ']' then opened.dropLast else opened := by
    split_ifs with last
    · refine List.mem_dropLast_of_mem_of_ne_getLast? colon ?_
      rw [last]
      decide
    · exact colon
  refine closed ?_
  split_ifs with first
  · exact mem_tail_of_head colon first (by decide)
  · exact colon

theorem colon_mem_bareSftpHost {raw : Text} (colon : ':' ∈ raw) : ':' ∈ bareSftpHost raw :=
  List.mem_flatMap.mpr ⟨':', colon_mem_withoutBrackets colon, by decide⟩

theorem isIpv4_of_colon {raw : Text} (bare : trim raw = raw) (colon : ':' ∈ raw) :
    isIpv4 raw = false := by
  refine Bool.eq_false_iff.mpr fun ipv4 => ?_
  obtain ⟨ip, read, -⟩ := octets_of_isIpv4 bare ipv4
  rcases chars_of_readIpv4 read ':' colon with digit | dot
  · exact absurd digit (by decide)
  · exact absurd dot (by decide)

/-- Every host that is returned is a safe address just if the host is none of those that are
overlooked. -/
theorem sftpTarget_iff {host : Text} : SftpTargetSafe host ↔ ¬OverlookedSftpHost host := by
  constructor
  · rintro safe ⟨short, colon, overlooked⟩
    have allowed : isAllowedSftpTarget host = .ok (bareSftpHost (trim host)) := by
      have given : trim host ≠ [] := List.ne_nil_of_mem colon
      have inside : includes (trim host) ":" = true :=
        includes_iff.mpr ((List.singleton_infix_iff _ _).mpr colon)
      have some_text : bareSftpHost (trim host) ≠ [] :=
        List.ne_nil_of_mem (colon_mem_bareSftpHost colon)
      obtain ⟨zeros, one, link⟩ := overlooked.not_compared
      have apart : (bareSftpHost (trim host) = "::" || bareSftpHost (trim host) = "::1" ||
          startsWith (bareSftpHost (trim host)) "fe80:") = false := by
        rw [decide_eq_false zeros, decide_eq_false one, link]
        rfl
      rw [isAllowedSftpTarget]
      dsimp only
      rw [if_neg (by simp [given, short]), isIpv4_of_colon (trim_trim host) colon, inside,
        if_neg Bool.false_ne_true, if_pos rfl, apart, if_neg Bool.false_ne_true,
        if_neg (by simp [some_text, overlooked.1])]
    have fine := safe _ allowed
    rw [isSafeAddress_of_sftpChars overlooked.1] at fine
    rcases overlooked.2 with ⟨none, -⟩ | ⟨ip, read, other⟩
    · rw [none] at fine
      cases fine
    · rw [read, Option.any_some, unsafe_of_otherSpelling other] at fine
      cases fine
  · intro covered
    by_cases ipv4 : isIpv4 (trim host) = true
    · exact safe_of_isIpv4 ipv4
    · intro target allowed
      rw [isAllowedSftpTarget] at allowed
      dsimp only at allowed
      split_ifs at allowed with unusable inside compared odd
      · cases allowed
        simp only [Bool.or_eq_true, decide_eq_true_eq, not_or] at unusable compared odd
        have colon : ':' ∈ trim host :=
          (List.singleton_infix_iff _ _).mp (includes_iff.mp inside)
        have chars : (bareSftpHost (trim host)).all isSftpChar = true := by
          simpa using odd.2
        rw [isSafeAddress_of_sftpChars chars]
        by_contra unsafeTarget
        refine covered ⟨not_lt.mp unusable.2, colon, chars, ?_⟩
        cases read : readIpv6 (bareSftpHost (trim host)) with
        | none => exact .inl ⟨rfl, Bool.eq_false_iff.mpr compared.2⟩
        | some ip =>
            rw [read, Option.any_some, Bool.not_eq_true, Bool.not_eq_false'] at unsafeTarget
            exact .inr ⟨ip, rfl, otherSpelling_of_unsafe unsafeTarget compared.1.1 compared.1.2
              (Bool.eq_false_iff.mpr compared.2)⟩

/-- The loopback address with all of its groups, a mapped one, a link-local one that begins with
`fe90`, and a text that is no address. -/
theorem sftp_spellings_pass :
    ¬SftpTargetSafe "0:0:0:0:0:0:0:1" ∧ ¬SftpTargetSafe "::ffff:7f00:1" ∧
      ¬SftpTargetSafe "fe90::1" ∧ ¬SftpTargetSafe "22:" := by
  have full : isAllowedSftpTarget "0:0:0:0:0:0:0:1" = .ok "0:0:0:0:0:0:0:1" := by decide
  have mapped : isAllowedSftpTarget "::ffff:7f00:1" = .ok "::ffff:7f00:1" := by decide
  have link : isAllowedSftpTarget "fe90::1" = .ok "fe90::1" := by decide
  have odd : isAllowedSftpTarget "22:" = .ok "22:" := by decide
  refine ⟨fun safe => ?_, fun safe => ?_, fun safe => ?_, fun safe => ?_⟩
  · exact absurd (safe _ full) (by decide)
  · exact absurd (safe _ mapped) (by decide)
  · exact absurd (safe _ link) (by decide)
  · exact absurd (safe _ odd) (by decide)

end Proxora
