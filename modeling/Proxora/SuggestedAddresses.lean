import Proxora.Ecma.Lines
import Proxora.Ecma.Numbers
import Proxora.GuestNetworks

/-!
# Suggested guest addresses

`guestIpNetwork`, `guestIpFromVmid` and `guestCidrFromVmid` of `lib/create-ip.ts`. The address is
made of the first three numbers of the network and the vmid, whatever the prefix and the gateway
are; `suggestsUsable_iff` says for which vmids it can be used.
-/

namespace Proxora

open Ecma

/-! ## Definitions -/

/-- `networks.find(...) ?? networks[0] ?? GUEST_IP_NETWORKS[0]`. -/
def guestIpNetwork (id : Text) (networks : List GuestIpNetwork) : GuestIpNetwork :=
  ((networks.find? fun n => n.id = id) <|> networks.head?).getD
    (guestIpNetworks.head (List.cons_ne_nil _ _))

def guestIpFromVmid (networkId : Text) (vmid : Int) (networks : List GuestIpNetwork) :
    Option Text :=
  if vmid < 1 || 254 < vmid then none
  else
    match split '.' (guestIpNetwork networkId networks).id with
    | a :: b :: c :: _ =>
        if a = [] || b = [] || c = [] then none
        else some (a ++ '.' :: (b ++ '.' :: (c ++ '.' :: (toString vmid : String).toList)))
    | _ => none

/-- Empty where there is no address. -/
def guestCidrFromVmid (networkId : Text) (vmid : Int) (networks : List GuestIpNetwork) : Text :=
  match guestIpFromVmid networkId vmid networks with
  | some ip =>
      ip ++ '/' :: (toString (guestIpNetwork networkId networks).prefixLength : String).toList
  | none => []

/-! ## Addresses as numbers -/

/-- The number of an address in dotted decimal. -/
def ipv4Number (value : Text) : Option Nat :=
  if isIpv4 value then
    match (split '.' (trim value)).map digitsValue with
    | [a, b, c, d] => some (((a * 256 + b) * 256 + c) * 256 + d)
    | _ => none
  else none

def cidrNumber (cidr : Text) : Option Nat := ipv4Number (cidr.takeWhile (· ≠ '/'))

namespace GuestIpNetwork

def number (network : GuestIpNetwork) : Nat := (ipv4Number network.id).getD 0

def gatewayNumber (network : GuestIpNetwork) : Nat := (ipv4Number network.gateway).getD 0

/-- How many addresses the network has. -/
def size (network : GuestIpNetwork) : Nat := 2 ^ (32 - network.prefixLength.toNat)

/-- An address of the network that is neither its first nor its last one nor the gateway. -/
structure Usable (network : GuestIpNetwork) (x : Nat) : Prop where
  inside : x / network.size = network.number / network.size
  notNetwork : x % network.size ≠ 0
  notBroadcast : x % network.size ≠ network.size - 1
  notGateway : x ≠ network.gatewayNumber

/-- The gateway is not the vmid among the addresses that share three numbers with the network, and
in a network of less than 256 addresses the vmid is one of them, neither the first nor the last. -/
structure Fits (network : GuestIpNetwork) (vmid : Nat) : Prop where
  apart : ¬(network.gatewayNumber / 256 = network.number / 256 ∧ network.gatewayNumber % 256 = vmid)
  within : 24 < network.prefixLength →
    vmid / network.size = network.number % 256 / network.size ∧ vmid % network.size ≠ 0 ∧
      vmid % network.size ≠ network.size - 1

end GuestIpNetwork

/-- An address that is suggested can be used, and no other vmid has it. -/
def SuggestsUsable (networks : List GuestIpNetwork) (network : GuestIpNetwork) (vmid : Int) : Prop :=
  guestCidrFromVmid network.id vmid networks ≠ [] →
    ∃ x, cidrNumber (guestCidrFromVmid network.id vmid networks) = some x ∧ network.Usable x ∧
      ∀ other, other ≠ vmid → cidrNumber (guestCidrFromVmid network.id other networks) ≠ some x

/-! ## The parts of an address -/

variable {networks : List GuestIpNetwork} {network : GuestIpNetwork} {value : Text}

/-- A number of an address. -/
structure OctetText (part : Text) : Prop where
  given : part ≠ []
  short : part.length ≤ 3
  digits : ∀ c ∈ part, c.isDigit = true
  small : digitsValue part ≤ 255

theorem octetText_iff {part : Text} :
    (part ≠ [] && part.length ≤ 3 && part.all Char.isDigit && numberOfDigits part ≤ 255) = true ↔
      OctetText part := by
  simp only [Bool.and_eq_true, decide_eq_true_eq, List.all_eq_true]
  constructor
  · rintro ⟨⟨⟨given, short⟩, digits⟩, small⟩
    refine ⟨given, short, digits, ?_⟩
    have bound := digitsValue_lt digits
    have few : 10 ^ part.length ≤ 10 ^ 3 := Nat.pow_le_pow_right (by decide) short
    rw [numberOfDigits, nearestDouble, if_pos (by omega)] at small
    exact small
  · rintro ⟨given, short, digits, small⟩
    refine ⟨⟨⟨given, short⟩, digits⟩, ?_⟩
    rw [numberOfDigits, nearestDouble, if_pos (by omega)]
    exact small

/-- An address is four numbers. -/
theorem split_of_isIpv4 (ipv4 : isIpv4 value = true) (trimmed : trim value = value) :
    ∃ a b c d, split '.' value = [a, b, c, d] ∧ OctetText a ∧ OctetText b ∧ OctetText c ∧
      OctetText d := by
  rw [isIpv4, trimmed] at ipv4
  split at ipv4
  · next a b c d parts =>
      rw [List.all_eq_true] at ipv4
      have octet (part : Text) (listed : part ∈ [a, b, c, d]) : OctetText part :=
        octetText_iff.mp (ipv4 part listed)
      exact ⟨a, b, c, d, parts, octet a (by simp), octet b (by simp), octet c (by simp),
        octet d (by simp)⟩
  · cases ipv4

theorem ipv4Number_join {a b c d : Text} (first : OctetText a) (second : OctetText b)
    (third : OctetText c) (fourth : OctetText d) :
    ipv4Number (a ++ '.' :: (b ++ '.' :: (c ++ '.' :: d))) =
      some (((digitsValue a * 256 + digitsValue b) * 256 + digitsValue c) * 256 + digitsValue d) := by
  have free {part : Text} (octet : OctetText part) : '.' ∉ part := by
    intro inside
    have digit := octet.digits _ inside
    revert digit
    decide
  have parts : split '.' (a ++ '.' :: (b ++ '.' :: (c ++ '.' :: d))) = [a, b, c, d] := by
    rw [split_append_cons, split_append_cons, split_append_cons, split_of_notMem (free first),
      split_of_notMem (free second), split_of_notMem (free third), split_of_notMem (free fourth)]
    rfl
  have trimmed : trim (a ++ '.' :: (b ++ '.' :: (c ++ '.' :: d))) =
      a ++ '.' :: (b ++ '.' :: (c ++ '.' :: d)) := by
    apply trim_of_notSpace
    have dot : isSpace '.' = false := by decide
    have plain {part : Text} (octet : OctetText part) : ∀ ch ∈ part, isSpace ch = false :=
      fun ch inside => isSpace_of_isDigit (octet.digits ch inside)
    intro ch inside
    simp only [List.mem_append, List.mem_cons] at inside
    rcases inside with inside | rfl | inside | rfl | inside | rfl | inside
    · exact plain first ch inside
    · exact dot
    · exact plain second ch inside
    · exact dot
    · exact plain third ch inside
    · exact dot
    · exact plain fourth ch inside
  have ipv4 : isIpv4 (a ++ '.' :: (b ++ '.' :: (c ++ '.' :: d))) = true := by
    rw [isIpv4, trimmed, parts]
    dsimp only
    rw [List.all_eq_true]
    intro part listed
    simp only [List.mem_cons, List.not_mem_nil, or_false] at listed
    rcases listed with rfl | rfl | rfl | rfl
    · exact octetText_iff.mpr first
    · exact octetText_iff.mpr second
    · exact octetText_iff.mpr third
    · exact octetText_iff.mpr fourth
  rw [ipv4Number, if_pos ipv4, trimmed, parts]
  rfl

/-- A vmid as a number of an address. -/
theorem octetText_toString {n : Nat} (small : n ≤ 255) : OctetText (toString n : String).toList := by
  have short : ∀ m < 256, 0 < (toString m : String).toList.length ∧
      (toString m : String).toList.length ≤ 3 := by
    decide +kernel
  obtain ⟨some, few⟩ := short n (by omega)
  refine ⟨List.ne_nil_of_length_pos some, few, digits_toString, ?_⟩
  rw [digitsValue_toString]
  exact small

theorem GuestIpNetwork.id_split (network : GuestIpNetwork) :
    ∃ a b c d, split '.' network.id = [a, b, c, d] ∧ OctetText a ∧ OctetText b ∧ OctetText c ∧
      network.number =
        ((digitsValue a * 256 + digitsValue b) * 256 + digitsValue c) * 256 + digitsValue d ∧
      digitsValue d ≤ 255 := by
  obtain ⟨a, b, c, d, parts, first, second, third, fourth⟩ :=
    split_of_isIpv4 network.id_ipv4.2 network.id_ipv4.1
  refine ⟨a, b, c, d, parts, first, second, third, ?_, fourth.small⟩
  have form : network.id = a ++ '.' :: (b ++ '.' :: (c ++ '.' :: d)) := by
    rw [← @join_split '.' network.id, parts]
    rfl
  rw [number, form, ipv4Number_join first second third fourth]
  rfl

/-- A network of a list is found by its id, or another one with this id. -/
theorem guestIpNetwork_id (listed : network ∈ networks) :
    (guestIpNetwork network.id networks).id = network.id := by
  have found : ((networks.find? fun n => n.id = network.id)).isSome = true := by
    rw [List.find?_isSome]
    exact ⟨network, listed, decide_eq_true rfl⟩
  obtain ⟨other, here⟩ := Option.isSome_iff_exists.mp found
  have same := List.find?_some here
  rw [guestIpNetwork, here]
  exact of_decide_eq_true same

/-- The number of the suggested address. -/
theorem cidrNumber_guestCidrFromVmid (listed : network ∈ networks) (vmid : Int) :
    cidrNumber (guestCidrFromVmid network.id vmid networks) =
      if 1 ≤ vmid ∧ vmid ≤ 254 then some (network.number / 256 * 256 + vmid.toNat) else none := by
  obtain ⟨a, b, c, d, parts, first, second, third, value, small⟩ := network.id_split
  by_cases range : 1 ≤ vmid ∧ vmid ≤ 254
  · obtain ⟨n, rfl⟩ := Int.eq_ofNat_of_zero_le (show 0 ≤ vmid by omega)
    have fourth := octetText_toString (show n ≤ 255 by omega)
    have ip : guestIpFromVmid network.id n networks =
        some (a ++ '.' :: (b ++ '.' :: (c ++ '.' :: (toString n : String).toList))) := by
      rw [guestIpFromVmid, if_neg (by simp; omega), guestIpNetwork_id listed, parts]
      exact if_neg (by simp [first.given, second.given, third.given])
    have slashFree : ∀ ch ∈ a ++ '.' :: (b ++ '.' :: (c ++ '.' :: (toString n : String).toList)),
        decide (ch ≠ '/') = true := by
      have plain {part : Text} (octet : OctetText part) (ch : Char) (inside : ch ∈ part) :
          ch ≠ '/' := by
        rintro rfl
        have digit := octet.digits _ inside
        revert digit
        decide
      intro ch inside
      apply decide_eq_true
      simp only [List.mem_append, List.mem_cons] at inside
      rcases inside with inside | rfl | inside | rfl | inside | rfl | inside
      · exact plain first ch inside
      · decide
      · exact plain second ch inside
      · decide
      · exact plain third ch inside
      · decide
      · exact plain fourth ch inside
    rw [if_pos range, guestCidrFromVmid, ip, cidrNumber]
    dsimp only
    rw [List.takeWhile_append_of_pos slashFree, List.takeWhile_cons_of_neg (by simp),
      List.append_nil, ipv4Number_join first second third fourth, digitsValue_toString, value,
      Int.toNat_natCast]
    refine congrArg some ?_
    omega
  · have nothing : guestIpFromVmid network.id vmid networks = none := by
      rw [guestIpFromVmid]
      exact if_pos (by simp; omega)
    rw [if_neg range, guestCidrFromVmid, nothing]
    exact (by decide : cidrNumber [] = none)

/-! ## Blocks of addresses -/

/-- In blocks of a multiple of 256 addresses, a number between the first and the last of 256 is
neither the first nor the last of its block. -/
theorem block_of_multiple {N n k : Nat} (low : 1 ≤ n) (high : n ≤ 254) (some : 0 < k) :
    (N / 256 * 256 + n) / (256 * k) = N / (256 * k) ∧ (N / 256 * 256 + n) % (256 * k) ≠ 0 ∧
      (N / 256 * 256 + n) % (256 * k) ≠ 256 * k - 1 := by
  have whole : (N / 256 * 256 + n) / 256 = N / 256 := by omega
  have last : (N / 256 * 256 + n) % 256 = n := by omega
  rw [← Nat.div_div_eq_div_mul, ← Nat.div_div_eq_div_mul, whole, Nat.mod_mul, last, whole]
  have rest := Nat.mod_lt (N / 256) some
  refine ⟨rfl, ?_, ?_⟩
  · omega
  · omega

/-- A block of fewer than 256 addresses lies among those that share three numbers. -/
theorem block_of_divisor {N n h : Nat} (few : h < 8) :
    ((N / 256 * 256 + n) / 2 ^ h = N / 2 ^ h ↔ n / 2 ^ h = N % 256 / 2 ^ h) ∧
      (N / 256 * 256 + n) % 2 ^ h = n % 2 ^ h := by
  interval_cases h
  all_goals norm_num
  all_goals omega

/-- Whether an address of the last block is inside, and neither the first nor the last one. -/
theorem usable_iff {n : Nat} (low : 1 ≤ n) (high : n ≤ 254) :
    network.Usable (network.number / 256 * 256 + n) ↔ network.Fits n := by
  have gateway : network.number / 256 * 256 + n ≠ network.gatewayNumber ↔
      ¬(network.gatewayNumber / 256 = network.number / 256 ∧ network.gatewayNumber % 256 = n) := by
    omega
  obtain ⟨lowest, highest⟩ := network.prefix_bounds
  by_cases small : 24 < network.prefixLength
  · have few : 32 - network.prefixLength.toNat < 8 := by omega
    obtain ⟨same, rest⟩ := @block_of_divisor network.number n _ few
    constructor
    · rintro ⟨inside, notNetwork, notBroadcast, notGateway⟩
      refine ⟨gateway.mp notGateway, fun _ => ⟨same.mp inside, ?_, ?_⟩⟩
      · rwa [GuestIpNetwork.size, ← rest]
      · rwa [GuestIpNetwork.size, ← rest]
    · rintro ⟨apart, within⟩
      obtain ⟨inside, notNetwork, notBroadcast⟩ := within small
      refine ⟨same.mpr inside, ?_, ?_, gateway.mpr apart⟩
      · rwa [GuestIpNetwork.size, rest]
      · rwa [GuestIpNetwork.size, rest]
  · have size : network.size = 256 * 2 ^ (24 - network.prefixLength.toNat) := by
      rw [GuestIpNetwork.size, show 32 - network.prefixLength.toNat =
        8 + (24 - network.prefixLength.toNat) by omega, Nat.pow_add]
    obtain ⟨inside, notNetwork, notBroadcast⟩ := @block_of_multiple network.number n
      (2 ^ (24 - network.prefixLength.toNat)) low high (Nat.two_pow_pos _)
    rw [← size] at inside notNetwork notBroadcast
    constructor
    · exact fun usable => ⟨gateway.mp usable.notGateway, fun other => absurd other small⟩
    · exact fun fits => ⟨inside, notNetwork, notBroadcast, gateway.mpr fits.apart⟩

/-- A suggested address can be used just where the vmid fits. -/
theorem suggestsUsable_iff {list : List GuestIpRecord}
    (listed : network ∈ parseGuestIpNetworks list) (vmid : Int) :
    SuggestsUsable (parseGuestIpNetworks list) network vmid ↔
      (1 ≤ vmid ∧ vmid ≤ 254 → network.Fits vmid.toNat) := by
  have number := cidrNumber_guestCidrFromVmid listed
  rw [SuggestsUsable]
  by_cases range : 1 ≤ vmid ∧ vmid ≤ 254
  · have address := number vmid
    rw [if_pos range] at address
    have given : guestCidrFromVmid network.id vmid (parseGuestIpNetworks list) ≠ [] := by
      intro nothing
      have empty : cidrNumber [] = none := by decide
      rw [nothing, empty] at address
      cases address
    rw [imp_iff_right given, imp_iff_right range, address, ← usable_iff (by omega) (by omega)]
    constructor
    · rintro ⟨x, same, usable, -⟩
      rwa [Option.some.inj same]
    · intro usable
      refine ⟨_, rfl, usable, ?_⟩
      intro other differs
      rw [number other]
      split
      · intro same
        have equal := Option.some.inj same
        omega
      · exact nofun
  · have nothing : guestIpFromVmid network.id vmid (parseGuestIpNetworks list) = none := by
      rw [guestIpFromVmid]
      exact if_pos (by simp; omega)
    refine iff_of_true (fun given => absurd ?_ given) (fun within => absurd within range)
    rw [guestCidrFromVmid, nothing]

/-- The default network has room for 242. -/
theorem suggestsUsable_242 :
    SuggestsUsable (parseGuestIpNetworks (guestIpNetworks.map GuestIpNetwork.record))
      (guestIpNetworks.head (List.cons_ne_nil _ _)) 242 := by
  refine (suggestsUsable_iff (by decide) 242).mpr fun _ => ⟨?_, ?_⟩
  · decide
  · exact fun small => absurd small (by decide)

/-- For 1 it suggests its gateway. -/
theorem gateway_suggested :
    ¬ SuggestsUsable (parseGuestIpNetworks (guestIpNetworks.map GuestIpNetwork.record))
      (guestIpNetworks.head (List.cons_ne_nil _ _)) 1 := by
  intro suggested
  obtain ⟨x, same, usable, -⟩ := suggested (by decide)
  have address : cidrNumber (guestCidrFromVmid
      (guestIpNetworks.head (List.cons_ne_nil _ _)).id 1
      (parseGuestIpNetworks (guestIpNetworks.map GuestIpNetwork.record))) =
      some (guestIpNetworks.head (List.cons_ne_nil _ _)).gatewayNumber := by
    decide
  rw [address] at same
  exact usable.notGateway (Option.some.inj same).symm

end Proxora
