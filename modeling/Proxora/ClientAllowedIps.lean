import Proxora.Ecma.Doubles
import Proxora.Ecma.UrlHost
import Proxora.WireguardCidrs
import Proxora.WireguardStorage

/-!
# Allowed IPs of a client

`sanitizeClientAllowedIps` of `lib/wireguard-conf.ts` with `Number(s) || 24` of the source. A
client whose allowed IPs cover everything would send all its traffic through the tunnel, so the
function drops `0.0.0.0/0` and `::/0`, and falls back to the network of the interface where
nothing is left.

The network is cut at a border between numbers of the address, whatever the prefix is;
`sanitize_safe_iff` says when it is the network of the prefix, and when the list is safe.
-/

namespace Ecma

/-- The address as a word. -/
def Ipv6.bits (ip : Ipv6) : BitVec 128 :=
  BitVec.ofNat 128 (ip.pieces.foldl (fun value piece => value * 65536 + piece.val) 0)

end Ecma

namespace Proxora

open Ecma AddressBlock

/-! ## Definitions -/

/-- `Number(s) || …`: the whole part of the number and its text, where it is neither zero nor
`NaN`. -/
def givenNumber (s : Text) : Option (Int × Text) :=
  match numberOfText s with
  | .nan => none
  | .finite x => if x = 0 then none else some (x.floor, (Double.finite x).text)
  | .infinity negative =>
      some (if negative then -(2 ^ 1024) else 2 ^ 1024, (Double.infinity negative).text)

/-- The tools with the numbers that `Number` reads. -/
def ImportTools.reading (tools : ImportTools) : ImportTools := { tools with number := givenNumber }

/-- `kept`. -/
def keptCidrs (list : Text) : List Text :=
  (listedCidrs list).filter fun part => part ≠ ("0.0.0.0/0" : Text) && part ≠ ("::/0" : Text)

/-! ## What an entry covers -/

/-- The IPv6 addresses of an entry. -/
def ContainsIpv6 (cidr : Text) (x : BitVec 128) : Prop :=
  ∃ net p, readIpv6 (cidrParts 128 cidr).1 = some net ∧
    (cidrParts 128 cidr).2 = some (p : Nat) ∧ p ≤ 128 ∧ Agree p net.bits x

/-- The entry contains every IPv4 address, or every IPv6 address. -/
def CoversAll (cidr : Text) : Prop :=
  (∀ address, (readIpv4 address).isSome = true → cidrContainsIpv4 cidr address = true) ∨
    ∀ x, ContainsIpv6 cidr x

/-- An address and a prefix of zero, however they are written. -/
def isFullTunnel (cidr : Text) : Bool :=
  let parts := cidrParts 32 cidr
  parts.2 = some 0 && ((ipv4ToInt parts.1).isSome || (readIpv6 parts.1).isSome)

/-- The text is the canonical network of an address and a prefix. -/
def IsNetwork (text : Text) (a : Ipv4) (p : Nat) : Prop :=
  ∃ net n, text = net ++ '/' :: numeral p ∧ readIpv4 net = some n ∧ Ended p n.bits ∧
    Agree p n.bits a.bits

/-- The border at which the fallback cuts. -/
def cutBorder (p : Nat) : Nat := if 24 ≤ p then 24 else if 16 ≤ p then 16 else 8

theorem cidrParts_zero_iff {most other : Int} (cidr : Text) (least : most ≠ 0)
    (least' : other ≠ 0) :
    (cidrParts most cidr).2 = some 0 ↔ (cidrParts other cidr).2 = some 0 := by
  rw [cidrParts, cidrParts]
  dsimp only
  split_ifs with slash
  · rfl
  · simp [least, least']

theorem coversAll_of_isFullTunnel {cidr : Text} (full : isFullTunnel cidr = true) :
    CoversAll cidr := by
  rw [isFullTunnel, Bool.and_eq_true, decide_eq_true_eq, Bool.or_eq_true] at full
  obtain ⟨zero, net | net⟩ := full
  · refine .inl fun address valid => ?_
    obtain ⟨a, read⟩ := Option.isSome_iff_exists.mp valid
    obtain ⟨n, form⟩ := Option.isSome_iff_exists.mp net
    have given : trim cidr ≠ [] := by
      intro blank
      rw [cidrParts] at zero
      dsimp only at zero
      rw [blank] at zero
      cases zero
    rw [cidrContainsIpv4_eq, if_neg given, form, zero, trim_of_read read, ipv4ToInt_of_read read]
    rfl
  · refine .inr fun x => ?_
    obtain ⟨n, form⟩ := Option.isSome_iff_exists.mp net
    refine ⟨n, 0, form, (cidrParts_zero_iff cidr (by decide) (by decide)).mp zero,
      Nat.zero_le 128, fun i small => ?_⟩
    omega

theorem isFullTunnel_of_coversAll {cidr : Text} (covers : CoversAll cidr) :
    isFullTunnel cidr = true := by
  rw [isFullTunnel, Bool.and_eq_true, decide_eq_true_eq, Bool.or_eq_true]
  rcases covers with every | every
  · -- no prefix from 1 on has both the first and the last address
    have first := every "0.0.0.0" (by decide)
    have last := every "255.255.255.255" (by decide)
    have firstValue : ipv4ToInt (trim "0.0.0.0") = some 0 := by decide
    have lastValue : ipv4ToInt (trim "255.255.255.255") = some (2 ^ 32 - 1) := by decide
    rw [cidrContainsIpv4_eq] at first last
    rw [firstValue] at first
    rw [lastValue] at last
    split_ifs at first last with blank
    cases net : ipv4ToInt (cidrParts 32 cidr).1 with
    | none =>
        rw [net] at first
        cases first
    | some n =>
        cases bits : (cidrParts 32 cidr).2 with
        | none =>
            rw [net, bits] at first
            cases first
        | some b =>
            rw [net, bits] at first last
            dsimp only at first last
            split_ifs at first last with outside zero
            · exact ⟨congrArg some zero, .inl rfl⟩
            · rw [Bool.or_eq_true, decide_eq_true_eq, decide_eq_true_eq] at outside
              rw [decide_eq_true_eq] at first last
              rw [last, Nat.shiftRight_eq_div_pow, Nat.zero_shiftRight] at first
              have small : 2 ^ (32 - b.toNat) ≤ 2 ^ 31 := Nat.pow_le_pow_right (by decide) (by omega)
              have large : 0 < (2 ^ 32 - 1) / 2 ^ (32 - b.toNat) :=
                Nat.div_pos (by omega) (Nat.two_pow_pos _)
              omega
  · obtain ⟨net, p, read, bits, fits, -⟩ := every 0
    have zero : p = 0 := by
      refine (forall_agree_iff fits (x := net.bits)).mp fun x => ?_
      obtain ⟨net', p', read', bits', -, agree⟩ := every x
      obtain rfl := Option.some.inj (read.symm.trans read')
      have same := Option.some.inj (bits.symm.trans bits')
      rwa [Int.natCast_inj.mp same]
    refine ⟨(cidrParts_zero_iff cidr (by decide) (by decide)).mp (bits.trans ?_), .inr ?_⟩
    · rw [zero]
      rfl
    · exact Option.isSome_iff_exists.mpr ⟨net, read⟩

theorem coversAll_iff (cidr : Text) : CoversAll cidr ↔ isFullTunnel cidr = true :=
  ⟨isFullTunnel_of_coversAll, coversAll_of_isFullTunnel⟩

/-! ## The fallback -/

/-- The address as the fallback cuts it. -/
def cutAddress (p : Nat) (a : Ipv4) : Ipv4 :=
  if 24 ≤ p then ⟨a.a, a.b, a.c, 0⟩ else if 16 ≤ p then ⟨a.a, a.b, 0, 0⟩ else ⟨a.a, 0, 0, 0⟩

theorem bits_cutAddress (p : Nat) (a : Ipv4) :
    (cutAddress p a).bits = network (cutBorder p) a.bits := by
  apply BitVec.eq_of_toNat_eq
  rw [toNat_network, Ipv4.toNat_bits, Ipv4.toNat_bits, cutAddress, cutBorder]
  split_ifs <;> simp <;> omega

theorem givenNumber_numeral : ∀ p < 33, p ≠ 0 →
    givenNumber (numeral p) = some ((p : Int), numeral p) := by
  decide +kernel

section

variable (tools : ImportTools) {list host : Text} {a : Ipv4} {p : Nat}

theorem octetText_of_read (read : readIpv4 host = some a) :
    octetText host 0 = numeral a.a ∧ octetText host 1 = numeral a.b ∧
      octetText host 2 = numeral a.c := by
  obtain ⟨w, x, y, z, words, first, second, third, -⟩ := readIpv4_eq_some read
  have text {word : Text} {n : Fin 256} (octet : readOctet word = some n) :
      ((parseInt word).elim ("NaN" : Text) fun n => (toString n : String)) = numeral n := by
    obtain ⟨⟨given, -⟩, digits, value⟩ := readOctet_eq_some octet
    rw [parseInt_of_digits (List.ne_nil_of_length_pos given) digits, value]
    rfl
  rw [octetText, octetText, octetText, words]
  exact ⟨text first, text second, text third⟩

theorem sanitize_of_kept (address : Text) (some_kept : keptCidrs list ≠ []) :
    sanitizeClientAllowedIps tools list address =
      List.intercalate (", " : Text) (keptCidrs list) :=
  if_pos some_kept

/-- Where no entry is kept, the address is cut and the prefix is that of the interface. -/
theorem sanitize_of_dropped (read : readIpv4 host = some a) (least : 1 ≤ p) (most : p ≤ 32)
    (dropped : keptCidrs list = []) :
    sanitizeClientAllowedIps tools.reading list (host ++ '/' :: numeral p) =
      (cutAddress p a).text ++ '/' :: numeral p := by
  have slashFree : '/' ∉ host := notMem_of_read read (by decide) (by decide)
  have digitFree : '/' ∉ numeral p := fun inside => absurd (digits_toString _ inside) (by decide)
  have words : split '/' (host ++ '/' :: numeral p) = [host, numeral p] := by
    rw [split_append_cons, split_of_notMem slashFree, split_of_notMem digitFree]
    rfl
  have wide : includes (host ++ '/' :: numeral p) "/" = true :=
    includes_iff.mpr ⟨host, numeral p, by rw [List.append_assoc]; rfl⟩
  have interface : interfaceIpv4 (host ++ '/' :: numeral p) = some host := by
    have front : addressHost (host ++ '/' :: numeral p) = host := by
      rw [addressHost, trim_of_notSpace (isSpace_of_cidr read p), words, List.headD_cons, trim_of_read read]
    have itself : addressHost host = host := by
      rw [addressHost, trim_of_read read, split_of_notMem slashFree, List.headD_cons,
        trim_of_read read]
    have valid := isInterfaceIpv4_of_read read
    rw [isInterfaceIpv4, itself] at valid
    rw [interfaceIpv4, isInterfaceIpv4, front, valid, if_pos rfl]
  have trimmed : trim (numeral p) = numeral p :=
    trim_of_notSpace fun c inside => isSpace_of_isDigit (digits_toString c inside)
  have number : (tools.reading.number (trim (numeral p))).getD (24, "24") =
      ((p : Int), numeral p) := by
    rw [trimmed]
    exact congrArg (Option.getD · _) (givenNumber_numeral p (by omega) (by omega))
  obtain ⟨first, second, third⟩ := octetText_of_read read
  have none : ¬keptCidrs list ≠ [] := not_not.mpr dropped
  rw [sanitizeClientAllowedIps]
  refine (if_neg none).trans ?_
  dsimp only
  rw [if_pos wide, interface, words, List.getElem?_cons_succ, List.getElem?_cons_zero,
    Option.getD_some, number]
  dsimp only
  rw [first, second, third, cutAddress]
  by_cases large : 24 ≤ p
  · rw [if_pos (by omega), if_pos large]
    simp [Ipv4.text, join, decimalText, numeral]
  · rw [if_neg (by omega), if_neg large]
    by_cases middle : 16 ≤ p
    · rw [if_pos (by omega), if_pos middle]
      simp [Ipv4.text, join, decimalText, numeral]
    · rw [if_neg (by omega), if_neg middle]
      simp [Ipv4.text, join, decimalText, numeral]

theorem isNetwork_cut (most : p ≤ 32) :
    IsNetwork ((cutAddress p a).text ++ '/' :: numeral p) a p ↔
      ∀ i, min p (cutBorder p) ≤ i → i < max p (cutBorder p) → a.bits.getMsbD i = false := by
  have border : cutBorder p ≤ 32 := by
    rw [cutBorder]
    split_ifs <;> decide
  rw [← network_between_iff most border, eq_network_iff most, ← bits_cutAddress]
  constructor
  · rintro ⟨net, n, form, read, ended, agree⟩
    obtain rfl := List.append_cancel_right form
    obtain rfl := Option.some.inj ((readIpv4_text _).symm.trans read)
    exact ⟨agree, ended⟩
  · rintro ⟨agree, ended⟩
    exact ⟨_, _, rfl, readIpv4_text _, ended, agree⟩

theorem not_full_of_cidr (read : readIpv4 host = some a) (least : 1 ≤ p) :
    isFullTunnel (host ++ '/' :: numeral p) = false := by
  rw [isFullTunnel, cidrParts_cidr read]
  refine Bool.and_eq_false_imp.mpr fun zero => ?_
  rw [decide_eq_true_eq, Option.some.injEq] at zero
  omega

end

/-- No entry covers everything, and where none was kept the list is the network of the
interface. -/
structure SafeAllowedIps (list result : Text) (a : Ipv4) (p : Nat) : Prop where
  limited : ∀ entry ∈ listedCidrs result, ¬CoversAll entry
  reaches : keptCidrs list = [] → IsNetwork result a p

/-- Entries that cover everything are written in one of the two ways, and where there are no
others the address has no bit between the border and the end of the prefix. -/
structure SafelyListed (list : Text) (a : Ipv4) (p : Nat) : Prop where
  spelled : ∀ entry ∈ listedCidrs list, isFullTunnel entry = true →
    entry = ("0.0.0.0/0" : Text) ∨ entry = ("::/0" : Text)
  cut : (∀ entry ∈ listedCidrs list, entry = ("0.0.0.0/0" : Text) ∨ entry = ("::/0" : Text)) →
    ∀ i, min p (cutBorder p) ≤ i → i < max p (cutBorder p) → a.bits.getMsbD i = false

theorem mem_keptCidrs {list entry : Text} :
    entry ∈ keptCidrs list ↔
      entry ∈ listedCidrs list ∧ ¬(entry = ("0.0.0.0/0" : Text) ∨ entry = ("::/0" : Text)) := by
  rw [keptCidrs, List.mem_filter, Bool.and_eq_true, decide_eq_true_eq, decide_eq_true_eq, not_or]

theorem keptCidrs_eq_nil_iff {list : Text} :
    keptCidrs list = [] ↔
      ∀ entry ∈ listedCidrs list, entry = ("0.0.0.0/0" : Text) ∨ entry = ("::/0" : Text) := by
  rw [List.eq_nil_iff_forall_not_mem]
  refine forall_congr' fun entry => ?_
  rw [mem_keptCidrs, not_and, not_not]

/-- Exactly then the sanitized list is safe. -/
theorem sanitize_safe_iff (tools : ImportTools) (list : Text) {host : Text} {a : Ipv4} {p : Nat}
    (read : readIpv4 host = some a) (least : 1 ≤ p) (most : p ≤ 32) :
    SafeAllowedIps list
        (sanitizeClientAllowedIps tools.reading list (host ++ '/' :: numeral p)) a p ↔
      SafelyListed list a p := by
  have spelled_iff : (∀ entry ∈ keptCidrs list, ¬CoversAll entry) ↔
      ∀ entry ∈ listedCidrs list, isFullTunnel entry = true →
        entry = ("0.0.0.0/0" : Text) ∨ entry = ("::/0" : Text) := by
    refine forall_congr' fun entry => ?_
    rw [mem_keptCidrs, coversAll_iff]
    tauto
  by_cases dropped : keptCidrs list = []
  · have result := sanitize_of_dropped tools read least most dropped
    have cut := readIpv4_text (cutAddress p a)
    have entries : listedCidrs ((cutAddress p a).text ++ '/' :: numeral p) =
        [(cutAddress p a).text ++ '/' :: numeral p] := by
      have alone := listedCidrs_intercalate
        (List.forall_mem_singleton.mpr (listEntry_cidr cut p))
      rwa [List.intercalate_singleton] at alone
    rw [result]
    constructor
    · rintro ⟨-, reaches⟩
      refine ⟨spelled_iff.mp fun entry kept => ?_, fun _ => (isNetwork_cut most).mp (reaches dropped)⟩
      rw [dropped] at kept
      cases kept
    · rintro ⟨-, zeros⟩
      refine ⟨fun entry listed => ?_, fun _ =>
        (isNetwork_cut most).mpr (zeros (keptCidrs_eq_nil_iff.mp dropped))⟩
      rw [entries, List.mem_singleton] at listed
      rw [listed, coversAll_iff, not_full_of_cidr cut least]
      exact Bool.false_ne_true
  · have result := sanitize_of_kept tools.reading (host ++ '/' :: numeral p) dropped
    have entries : listedCidrs (List.intercalate (", " : Text) (keptCidrs list)) = keptCidrs list :=
      listedCidrs_intercalate fun entry kept => listEntry_of_listed (mem_keptCidrs.mp kept).1
    rw [result]
    constructor
    · rintro ⟨limited, -⟩
      rw [entries] at limited
      exact ⟨spelled_iff.mp limited, fun all => (dropped (keptCidrs_eq_nil_iff.mpr all)).elim⟩
    · rintro ⟨spelled, -⟩
      refine ⟨?_, fun none => (dropped none).elim⟩
      rw [entries]
      exact spelled_iff.mpr spelled

/-- The sanitized list of a client whose interface has the address `10.88.0.2/24`. -/
theorem sanitize_safe_full_tunnel :
    SafeAllowedIps "0.0.0.0/0, ::/0"
      (sanitizeClientAllowedIps (ImportTools.reading ⟨fun _ => none, id, fun _ => none⟩)
        "0.0.0.0/0, ::/0" (("10.88.0.2" : Text) ++ '/' :: numeral 24)) ⟨10, 88, 0, 2⟩ 24 :=
  (sanitize_safe_iff ⟨fun _ => none, id, fun _ => none⟩ "0.0.0.0/0, ::/0"
    (show readIpv4 "10.88.0.2" = some ⟨10, 88, 0, 2⟩ by decide) (by decide) (by decide)).mpr
    ⟨by decide, fun _ i least most => by
      have border : cutBorder 24 = 24 := rfl
      omega⟩

/-- The network of `10.88.17.2/20` is cut to one without the address, and another spelling of the
full tunnel is kept. -/
theorem not_sanitized_safely :
    ¬SafeAllowedIps "0.0.0.0/0"
        (sanitizeClientAllowedIps (ImportTools.reading ⟨fun _ => none, id, fun _ => none⟩)
          "0.0.0.0/0" (("10.88.17.2" : Text) ++ '/' :: numeral 20)) ⟨10, 88, 17, 2⟩ 20 ∧
      ¬SafeAllowedIps "0.0.0.0/00"
        (sanitizeClientAllowedIps (ImportTools.reading ⟨fun _ => none, id, fun _ => none⟩)
          "0.0.0.0/00" (("10.88.0.2" : Text) ++ '/' :: numeral 24)) ⟨10, 88, 0, 2⟩ 24 := by
  constructor
  · intro safe
    have dropped : keptCidrs "0.0.0.0/0" = [] := by decide
    have reaches := safe.reaches dropped
    have read : readIpv4 "10.88.17.2" = some ⟨10, 88, 17, 2⟩ := by decide
    rw [sanitize_of_dropped _ read (by decide) (by decide) dropped, isNetwork_cut (by decide)] at reaches
    exact absurd (reaches 19 (by decide) (by decide)) (by decide)
  · intro safe
    have kept : keptCidrs "0.0.0.0/00" = ["0.0.0.0/00"] := by decide
    have limited := safe.limited
    rw [sanitize_of_kept _ _ (by rw [kept]; exact List.cons_ne_nil _ _), kept] at limited
    exact limited "0.0.0.0/00" (by decide) ((coversAll_iff _).mpr (by decide))

end Proxora
