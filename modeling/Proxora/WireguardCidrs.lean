import Proxora.AddressBlocks
import Proxora.Ecma.Int32
import Proxora.Ecma.IpAddress
import Proxora.WireguardConf

/-!
# Allowed IPs

`ipv4ToInt` and `cidrContainsIpv4` of `lib/wireguard-conf.ts` with the 32-bit operators that the
source uses, and the list that `ensureIpInAllowedIps` makes.

`cidrContainsInt32_eq` says that shifts and masks of 32 bits, with their signs, do what
`cidrContainsIpv4` does on natural numbers; `cidrContains_iff` says what that is.
-/

namespace Ecma

/-- The address as a word, its first number in front. -/
def Ipv4.bits (ip : Ipv4) : BitVec 32 :=
  BitVec.ofNat 8 ip.a ++ BitVec.ofNat 8 ip.b ++ BitVec.ofNat 8 ip.c ++ BitVec.ofNat 8 ip.d

/-- The numbers of an address in front of each other. -/
theorem toNat_append_byte {w : Nat} (x : BitVec w) {b : Nat} (byte : b < 256) :
    (x ++ BitVec.ofNat 8 b).toNat = x.toNat * 256 + b := by
  have small : (BitVec.ofNat 8 b).toNat = b := Nat.mod_eq_of_lt byte
  rw [BitVec.toNat_append, small, ← Nat.shiftLeft_add_eq_or_of_lt byte, Nat.shiftLeft_eq]

theorem Ipv4.toNat_bits (ip : Ipv4) :
    ip.bits.toNat = ((ip.a * 256 + ip.b) * 256 + ip.c) * 256 + ip.d := by
  have first : (BitVec.ofNat 8 ip.a).toNat = ip.a := Nat.mod_eq_of_lt ip.a.isLt
  rw [Ipv4.bits, toNat_append_byte _ ip.d.isLt, toNat_append_byte _ ip.c.isLt,
    toNat_append_byte _ ip.b.isLt, first]

end Ecma

namespace Proxora

open Ecma AddressBlock

/-! ## Definitions -/

/-- `ipv4ToInt`, with 32-bit shifts. -/
def ipv4ToInt32 (ip : Text) : Option Int :=
  match (split '.' ip).map parseInt with
  | [some a, some b, some c, some d] =>
      if [a, b, c, d].any fun n => n < 0 || 255 < n then none
      else some (shr (bitOr (bitOr (bitOr (shl a 24) (shl b 16)) (shl c 8)) d) 0)
  | _ => none

/-- `mask`, for a prefix from 1 to 32. -/
def cidrMask (bits : Int) : Int :=
  if bits = 32 then 0xffffffff else shr (bitNot (shl 1 (32 - bits) - 1)) 0

/-- `cidrContainsIpv4`, with 32-bit masks. -/
def cidrContainsInt32 (cidr ip : Text) : Bool :=
  let trimmed := trim cidr
  if trimmed = [] then false
  else
    let net := trim (trimmed.takeWhile (· ≠ '/'))
    let bits := if '/' ∈ trimmed then parseInt (trimmed.dropWhile (· ≠ '/')).tail else some 32
    match ipv4ToInt32 net, ipv4ToInt32 (trim ip), bits with
    | some net, some ip, some bits =>
        if bits < 0 || 32 < bits then false
        else if bits = 0 then true
        else bitAnd net (cidrMask bits) = bitAnd ip (cidrMask bits)
    | _, _, _ => false

/-! ## Words -/

/-- The numbers of an address, each shifted to its place. -/
theorem shifted_octets {a b c d : Nat} (first : a < 256) (second : b < 256) (third : c < 256)
    (fourth : d < 256) :
    shr (bitOr (bitOr (bitOr (shl a 24) (shl b 16)) (shl c 8)) d) 0 =
      (((a * 256 + b) * 256 + c) * 256 + d : Nat) := by
  have high : a * 2 ^ 24 ||| b * 2 ^ 16 = (a * 256 + b) * 2 ^ 16 := by
    have joined := Nat.two_pow_add_eq_or_of_lt (i := 24) (b := b * 2 ^ 16) (by omega) a
    rw [Nat.mul_comm a, ← joined]
    omega
  have middle : (a * 256 + b) * 2 ^ 16 ||| c * 2 ^ 8 = ((a * 256 + b) * 256 + c) * 2 ^ 8 := by
    have joined := Nat.two_pow_add_eq_or_of_lt (i := 16) (b := c * 2 ^ 8) (by omega) (a * 256 + b)
    rw [Nat.mul_comm (a * 256 + b), ← joined]
    omega
  have low : ((a * 256 + b) * 256 + c) * 2 ^ 8 ||| d = ((a * 256 + b) * 256 + c) * 256 + d := by
    have joined := Nat.two_pow_add_eq_or_of_lt (i := 8) fourth ((a * 256 + b) * 256 + c)
    rw [Nat.mul_comm _ (2 ^ 8), ← joined]
    omega
  have word : toWord (bitOr (bitOr (bitOr (shl a 24) (shl b 16)) (shl c 8)) d) =
      BitVec.ofNat 32 (((a * 256 + b) * 256 + c) * 256 + d) := by
    have moved (n k : Nat) (small : k < 32) := toWord_shl_natCast n small
    rw [toWord_bitOr, toWord_bitOr, toWord_bitOr, toWord_natCast, ← low, ← middle, ← high,
      BitVec.ofNat_or, BitVec.ofNat_or, BitVec.ofNat_or]
    exact congrArg₂ (· ||| ·) (congrArg₂ (· ||| ·) (congrArg₂ (· ||| ·)
      (moved a 24 (by decide)) (moved b 16 (by decide))) (moved c 8 (by decide))) rfl
  rw [shr_zero, word, BitVec.toNat_ofNat, Nat.mod_eq_of_lt (by omega)]

/-- A number of an address, as a natural number. -/
def octetOf (n : Option Int) : Option Nat :=
  n.bind fun n => if 0 ≤ n && n ≤ 255 then some n.toNat else none

theorem octetOf_natCast {n : Nat} (byte : n < 256) : octetOf (some n) = some n :=
  if_pos (by rw [decide_eq_true (Int.natCast_nonneg n), decide_eq_true (by omega)]; rfl)

theorem octetOf_eq_some {word : Option Int} {n : Nat} (read : octetOf word = some n) :
    word = some (n : Int) ∧ n < 256 := by
  cases word with
  | none => cases read
  | some m =>
      rw [octetOf, Option.bind_some] at read
      split_ifs at read with inside
      rw [Bool.and_eq_true, decide_eq_true_eq, decide_eq_true_eq] at inside
      have same := Option.some.inj read
      exact ⟨congrArg some (by omega), by omega⟩

theorem ipv4ToInt_eq (ip : Text) :
    ipv4ToInt ip =
      match ((split '.' ip).map parseInt).map octetOf with
      | [some a, some b, some c, some d] => some (((a * 256 + b) * 256 + c) * 256 + d)
      | _ => none := by
  rw [List.map_map]
  rfl

theorem ipv4ToInt32_eq (ip : Text) : ipv4ToInt32 ip = (ipv4ToInt ip).map Int.ofNat := by
  rw [ipv4ToInt32, ipv4ToInt_eq]
  generalize (split '.' ip).map parseInt = words
  split
  · next a b c d =>
      by_cases outside : ([a, b, c, d].any fun n => n < 0 || 255 < n) = true
      · rw [if_pos outside]
        simp only [List.any_cons, List.any_nil, Bool.or_false, Bool.or_eq_true,
          decide_eq_true_eq] at outside
        split
        · next octets =>
            simp only [List.map_cons, List.map_nil, List.cons.injEq, and_true] at octets
            have first := octetOf_eq_some octets.1
            have second := octetOf_eq_some octets.2.1
            have third := octetOf_eq_some octets.2.2.1
            have fourth := octetOf_eq_some octets.2.2.2
            simp only [Option.some.injEq] at first second third fourth
            omega
        · rfl
      · rw [if_neg outside]
        simp only [List.any_cons, List.any_nil, Bool.or_false, Bool.or_eq_true,
          decide_eq_true_eq] at outside
        lift a to Nat using by omega
        lift b to Nat using by omega
        lift c to Nat using by omega
        lift d to Nat using by omega
        have first : a < 256 := by omega
        have second : b < 256 := by omega
        have third : c < 256 := by omega
        have fourth : d < 256 := by omega
        simp only [List.map_cons, List.map_nil, octetOf_natCast first, octetOf_natCast second,
          octetOf_natCast third, octetOf_natCast fourth]
        exact congrArg some (shifted_octets first second third fourth)
  · next other =>
      split
      · next octets =>
          simp only [List.map_eq_cons_iff, List.map_eq_nil_iff] at octets
          obtain ⟨_, _, rfl, first, _, _, rfl, second, _, _, rfl, third, _, _, rfl, fourth, rfl⟩ :=
            octets
          obtain rfl := (octetOf_eq_some first).1
          obtain rfl := (octetOf_eq_some second).1
          obtain rfl := (octetOf_eq_some third).1
          obtain rfl := (octetOf_eq_some fourth).1
          exact (other _ _ _ _ rfl).elim
      · rfl

/-! ## Masks -/

/-- The mask of a prefix selects its bits. -/
theorem toWord_cidrMask : ∀ p < 33, p ≠ 0 → toWord (cidrMask (p : Nat)) = mask 32 p := by
  decide

/-- Numbers of 32 bits agree under the mask where they agree in the bits of the prefix. -/
theorem masked_eq_iff {m n p : Nat} (some_bits : p ≠ 0) (fits : p ≤ 32) :
    bitAnd m (cidrMask p) = bitAnd n (cidrMask p) ↔
      Agree p (BitVec.ofNat 32 m) (BitVec.ofNat 32 n) := by
  rw [bitAnd_eq_iff, toWord_natCast, toWord_natCast, toWord_cidrMask p (by omega) some_bits]
  exact network_eq_iff fits

theorem ipv4ToInt_lt {ip : Text} {n : Nat} (read : ipv4ToInt ip = some n) : n < 2 ^ 32 := by
  rw [ipv4ToInt_eq] at read
  split at read
  · next octets =>
      simp only [List.map_eq_cons_iff, List.map_eq_nil_iff] at octets
      obtain ⟨_, _, _, first, _, _, _, second, _, _, _, third, _, _, _, fourth, _⟩ := octets
      have first := (octetOf_eq_some first).2
      have second := (octetOf_eq_some second).2
      have third := (octetOf_eq_some third).2
      have fourth := (octetOf_eq_some fourth).2
      have value := Option.some.inj read
      omega
  · cases read

/-- Masks of signed words compare what the shifts of natural numbers do. -/
theorem cidrContainsInt32_eq (cidr ip : Text) :
    cidrContainsInt32 cidr ip = cidrContainsIpv4 cidr ip := by
  rw [cidrContainsInt32, cidrContainsIpv4]
  dsimp only
  rw [ipv4ToInt32_eq, ipv4ToInt32_eq]
  refine if_congr Iff.rfl rfl ?_
  generalize (if '/' ∈ trim cidr then _ else _ : Option Int) = bits
  cases net : ipv4ToInt (trim ((trim cidr).takeWhile (· ≠ '/'))) with
  | none => rfl
  | some m =>
      cases address : ipv4ToInt (trim ip) with
      | none => rfl
      | some n =>
          cases bits with
          | none => rfl
          | some bits =>
              have small := ipv4ToInt_lt net
              have small' := ipv4ToInt_lt address
              dsimp only [Option.map_some, Int.ofNat_eq_natCast]
              split_ifs with outside none
              · rfl
              · rfl
              · rw [Bool.or_eq_true, decide_eq_true_eq, decide_eq_true_eq] at outside
                lift bits to Nat using by omega
                refine decide_eq_decide.mpr ?_
                have shifted (k : Nat) (bound : k < 2 ^ 32) :
                    k >>> (32 - bits) = (BitVec.ofNat 32 k >>> (32 - bits)).toNat := by
                  rw [BitVec.toNat_ushiftRight, BitVec.toNat_ofNat, Nat.mod_eq_of_lt bound]
                rw [masked_eq_iff (by omega) (by omega), ← shift_eq_iff (by omega),
                  Int.toNat_natCast, shifted m small, shifted n small', BitVec.toNat_inj]

/-! ## Addresses -/

theorem parseInt_of_digits {s : Text} (given : s ≠ []) (digits : ∀ c ∈ s, c.isDigit = true) :
    parseInt s = some (digitsValue s : Int) := by
  have blank : s.dropWhile isSpace = s := by
    rw [List.dropWhile_eq_self_iff]
    intro some
    rw [isSpace_of_isDigit (digits _ (List.getElem_mem some))]
    exact Bool.false_ne_true
  have sign (c : Char) (other : c.isDigit = false) : s.head? ≠ some c := by
    intro first
    rw [digits c (List.mem_of_mem_head? first)] at other
    cases other
  have minus := sign '-' (by decide)
  have unsigned : (decide (s.head? = some '-') || decide (s.head? = some '+')) = false := by
    rw [decide_eq_false minus, decide_eq_false (sign '+' (by decide))]
    rfl
  rw [parseInt, blank, unsigned, if_neg Bool.false_ne_true, List.takeWhile_eq_self_iff.mpr digits,
    if_neg given, if_neg minus]

theorem numeral_ne_nil (n : Nat) : numeral n ≠ [] := by
  rw [numeral, Nat.toString_eq_ofList_toDigits, String.toList_ofList]
  exact Nat.toDigits_ne_nil

theorem parseInt_numeral (n : Nat) : parseInt (numeral n) = some (n : Int) := by
  rw [parseInt_of_digits (numeral_ne_nil n) digits_toString, numeral, digitsValue_toString]

theorem octetOf_parseInt {word : Text} {octet : Fin 256} (read : readOctet word = some octet) :
    octetOf (parseInt word) = some octet.val := by
  obtain ⟨⟨given, -⟩, digits, value⟩ := readOctet_eq_some read
  rw [parseInt_of_digits (List.ne_nil_of_length_pos given) digits, value]
  exact octetOf_natCast octet.isLt

/-- An address is read as its word. -/
theorem ipv4ToInt_of_read {s : Text} {ip : Ipv4} (read : readIpv4 s = some ip) :
    ipv4ToInt s = some ip.bits.toNat := by
  obtain ⟨a, b, c, d, words, first, second, third, fourth⟩ := readIpv4_eq_some read
  rw [ipv4ToInt_eq, words, Ipv4.toNat_bits]
  simp only [List.map_cons, List.map_nil, octetOf_parseInt first, octetOf_parseInt second,
    octetOf_parseInt third, octetOf_parseInt fourth]

theorem isSpace_of_read {s : Text} {ip : Ipv4} (read : readIpv4 s = some ip) :
    ∀ c ∈ s, isSpace c = false := by
  intro c inside
  rcases chars_of_readIpv4 read c inside with digit | rfl
  · exact isSpace_of_isDigit digit
  · decide

theorem notMem_of_read {s : Text} {ip : Ipv4} (read : readIpv4 s = some ip) {c : Char}
    (digit : c.isDigit = false) (dot : c ≠ '.') : c ∉ s := by
  intro inside
  rcases chars_of_readIpv4 read c inside with other | same
  · rw [digit] at other
    cases other
  · exact dot same

theorem trim_of_read {s : Text} {ip : Ipv4} (read : readIpv4 s = some ip) : trim s = s :=
  trim_of_notSpace (isSpace_of_read read)

/-- The parts of an entry: the network and the prefix, which is `most` where none is written. -/
def cidrParts (most : Int) (cidr : Text) : Text × Option Int :=
  let trimmed := trim cidr
  (trim (trimmed.takeWhile (· ≠ '/')),
    if '/' ∈ trimmed then parseInt (trimmed.dropWhile (· ≠ '/')).tail else some most)

theorem cidrContainsIpv4_eq (cidr ip : Text) :
    cidrContainsIpv4 cidr ip =
      if trim cidr = [] then false
      else
        match ipv4ToInt (cidrParts 32 cidr).1, ipv4ToInt (trim ip), (cidrParts 32 cidr).2 with
        | some net, some ip, some bits =>
            if bits < 0 || 32 < bits then false
            else if bits = 0 then true
            else net >>> (32 - bits.toNat) = ip >>> (32 - bits.toNat)
        | _, _, _ => false :=
  rfl

/-- An address with a prefix has no spaces. -/
theorem isSpace_of_cidr {net : Text} {n : Ipv4} (read : readIpv4 net = some n) (p : Nat) :
    ∀ c ∈ net ++ '/' :: numeral p, isSpace c = false :=
  List.forall_mem_append.mpr ⟨isSpace_of_read read, List.forall_mem_cons.mpr
    ⟨by decide, fun c inside => isSpace_of_isDigit (digits_toString c inside)⟩⟩

theorem cidrParts_cidr {net : Text} {n : Ipv4} (read : readIpv4 net = some n) (p : Nat)
    (most : Int) : cidrParts most (net ++ '/' :: numeral p) = (net, some (p : Int)) := by
  have slashFree : ∀ c ∈ net, decide (c ≠ '/') = true := fun c inside =>
    decide_eq_true fun same => notMem_of_read read (by decide) (by decide) (same ▸ inside)
  have front : (net ++ '/' :: numeral p).takeWhile (· ≠ '/') = net := by
    rw [List.takeWhile_append_of_pos slashFree, List.takeWhile_cons_of_neg (by decide),
      List.append_nil]
  have back : (net ++ '/' :: numeral p).dropWhile (· ≠ '/') = '/' :: numeral p := by
    rw [List.dropWhile_append_of_pos slashFree, List.dropWhile_cons_of_neg (by decide)]
  have slash : '/' ∈ net ++ '/' :: numeral p := List.mem_append_right _ List.mem_cons_self
  rw [cidrParts, trim_of_notSpace (isSpace_of_cidr read p), front, back, if_pos slash,
    List.tail_cons, trim_of_read read, parseInt_numeral]

/-- A network with its prefix holds the addresses that agree with it in the bits of the prefix. -/
theorem cidrContains_iff {net address : Text} {n a : Ipv4} {p : Nat}
    (netRead : readIpv4 net = some n) (addressRead : readIpv4 address = some a) (fits : p ≤ 32) :
    cidrContainsIpv4 (net ++ '/' :: numeral p) address = true ↔ Agree p n.bits a.bits := by
  have given : trim (net ++ '/' :: numeral p) ≠ [] := by
    rw [trim_of_notSpace (isSpace_of_cidr netRead p)]
    exact List.append_ne_nil_of_right_ne_nil _ (List.cons_ne_nil _ _)
  have shifted (x : Ipv4) (k : Nat) : x.bits.toNat >>> k = (x.bits >>> k).toNat :=
    (BitVec.toNat_ushiftRight x.bits k).symm
  have inside : ¬((decide ((p : Int) < 0) || decide (32 < (p : Int))) = true) := by
    rw [Bool.or_eq_true, decide_eq_true_eq, decide_eq_true_eq]
    omega
  rw [cidrContainsIpv4_eq, if_neg given, cidrParts_cidr netRead, trim_of_read addressRead,
    ipv4ToInt_of_read netRead, ipv4ToInt_of_read addressRead]
  dsimp only
  rw [if_neg inside]
  split_ifs with zero
  · refine iff_of_true rfl fun i small => ?_
    omega
  · rw [decide_eq_true_eq, Int.toNat_natCast, shifted, shifted, BitVec.toNat_inj]
    exact shift_eq_iff fits

/-! ## Lists -/

/-- A text that a list can hold as one of its entries. -/
structure ListEntry (entry : Text) : Prop where
  comma : ',' ∉ entry
  trimmed : trim entry = entry
  given : entry ≠ []

theorem listEntry_of_listed {list entry : Text} (listed : entry ∈ listedCidrs list) :
    ListEntry entry := by
  obtain ⟨inside, given⟩ := List.mem_filter.mp listed
  obtain ⟨piece, part, rfl⟩ := List.mem_map.mp inside
  exact ⟨fun comma => sep_notMem_of_mem_split part (mem_of_mem_trim comma), trim_trim piece,
    of_decide_eq_true given⟩

theorem ListEntry.kept {entry : Text} (fine : ListEntry entry) :
    [entry].filter (· ≠ []) = [entry] :=
  List.filter_cons_of_pos (decide_eq_true fine.given)

theorem listedCidrs_cons {entry rest : Text} (fine : ListEntry entry) :
    listedCidrs (entry ++ ',' :: rest) = entry :: listedCidrs rest := by
  rw [listedCidrs, split_append_cons, split_of_notMem fine.comma, List.map_append,
    List.filter_append, List.map_singleton, fine.trimmed, fine.kept]
  rfl

theorem listedCidrs_cons_space (rest : Text) : listedCidrs (' ' :: rest) = listedCidrs rest := by
  obtain ⟨word, words, form⟩ := List.exists_cons_of_ne_nil (split_ne_nil ',' rest)
  rw [listedCidrs, listedCidrs, split_cons_ne (by decide) form, form, List.map_cons, List.map_cons,
    trim_cons_space (by decide)]

/-- Entries that are joined are listed as they were. -/
theorem listedCidrs_intercalate {entries : List Text} (fine : ∀ entry ∈ entries, ListEntry entry) :
    listedCidrs (List.intercalate (", " : Text) entries) = entries := by
  induction entries with
  | nil => rfl
  | cons entry entries ih =>
      have first := fine entry List.mem_cons_self
      cases entries with
      | nil =>
          rw [List.intercalate_singleton, listedCidrs, split_of_notMem first.comma,
            List.map_singleton, first.trimmed, first.kept]
      | cons next entries =>
          have rest := ih fun entry inside => fine entry (List.mem_cons_of_mem _ inside)
          rw [List.intercalate_cons_cons, List.append_assoc]
          exact (listedCidrs_cons first).trans
            (congrArg _ ((listedCidrs_cons_space _).trans rest))

/-- The entry of an address and a prefix. -/
theorem listEntry_cidr {net : Text} {n : Ipv4} (read : readIpv4 net = some n) (p : Nat) :
    ListEntry (net ++ '/' :: numeral p) where
  comma inside := by
    rcases List.mem_append.mp inside with inside | inside
    · exact notMem_of_read read (by decide) (by decide) inside
    · rcases List.mem_cons.mp inside with slash | digit
      · exact absurd slash (by decide)
      · exact absurd (digits_toString _ digit) (by decide)
  trimmed := trim_of_notSpace (isSpace_of_cidr read p)
  given := List.append_ne_nil_of_right_ne_nil _ (List.cons_ne_nil _ _)

theorem isInterfaceIpv4_of_read {host : Text} {a : Ipv4} (read : readIpv4 host = some a) :
    isInterfaceIpv4 host = true := by
  have alone : addressHost host = host := by
    rw [addressHost, trim_of_read read,
      split_of_notMem (notMem_of_read read (by decide) (by decide)), List.headD_cons,
      trim_of_read read]
  obtain ⟨w, x, y, z, words, first, second, third, fourth⟩ := readIpv4_eq_some read
  have octet {word : Text} {n : Fin 256} (read : readOctet word = some n) :
      (1 ≤ word.length && word.length ≤ 3 && word.all Char.isDigit) = true := by
    obtain ⟨⟨least, most⟩, digits, -⟩ := readOctet_eq_some read
    rw [decide_eq_true least, decide_eq_true most, List.all_eq_true.mpr digits]
    rfl
  rw [isInterfaceIpv4, alone, words, List.all_cons, List.all_cons, List.all_cons, List.all_cons,
    octet first, octet second, octet third, octet fourth]
  rfl

section

variable {ip : Text} {a : Ipv4} (list : Text)

/-- The entries of the list with the address. -/
theorem listedCidrs_ensure (read : readIpv4 (addressHost ip) = some a) :
    listedCidrs (ensureIpInAllowedIps list ip) =
      if (listedCidrs list).any fun cidr => cidrContainsIpv4 cidr (addressHost ip) then
        listedCidrs list
      else listedCidrs list ++ [addressHost ip ++ ("/32" : Text)] := by
  rw [ensureIpInAllowedIps]
  dsimp only
  rw [isInterfaceIpv4_of_read read, Bool.not_true, if_neg Bool.false_ne_true]
  split_ifs with covered
  · exact listedCidrs_intercalate fun entry => listEntry_of_listed
  · refine listedCidrs_intercalate fun entry inside => ?_
    rcases List.mem_append.mp inside with listed | added
    · exact listEntry_of_listed listed
    · rw [List.mem_singleton.mp added]
      exact listEntry_cidr read 32

/-- The address is in one of the entries. -/
theorem covered_ensure (read : readIpv4 (addressHost ip) = some a) :
    ((listedCidrs (ensureIpInAllowedIps list ip)).any fun cidr =>
      cidrContainsIpv4 cidr (addressHost ip)) = true := by
  rw [listedCidrs_ensure list read]
  split_ifs with covered
  · exact covered
  · rw [List.any_append, Bool.or_eq_true]
    refine .inr ?_
    have itself := (cidrContains_iff read read (le_refl 32)).mpr (agree_refl 32 a.bits)
    rw [List.any_cons, List.any_nil, Bool.or_false]
    exact itself

theorem ensure_ensure (read : readIpv4 (addressHost ip) = some a) :
    ensureIpInAllowedIps (ensureIpInAllowedIps list ip) ip = ensureIpInAllowedIps list ip := by
  have covered := covered_ensure list read
  have entries := listedCidrs_ensure list read
  rw [ensureIpInAllowedIps]
  dsimp only
  rw [isInterfaceIpv4_of_read read, Bool.not_true, if_neg Bool.false_ne_true, if_pos covered,
    entries, ensureIpInAllowedIps]
  dsimp only
  rw [isInterfaceIpv4_of_read read, Bool.not_true, if_neg Bool.false_ne_true]
  split_ifs with before
  · rfl
  · rfl

end

/-- Membership is agreement in the bits of the prefix. The list with an address has an entry that
contains it, keeps the entries before it in their order and has at most one more, and is as it was
when the address is added again. -/
theorem allowedIps_law :
    (∀ (net address : Text) (n a : Ipv4) (p : Nat), readIpv4 net = some n →
      readIpv4 address = some a → p ≤ 32 →
      (cidrContainsInt32 (net ++ '/' :: numeral p) address = true ↔
        ∀ i < p, n.bits.getMsbD i = a.bits.getMsbD i)) ∧
    ∀ (list ip : Text), (readIpv4 (addressHost ip)).isSome = true →
      (∃ cidr ∈ listedCidrs (ensureIpInAllowedIps list ip),
        cidrContainsInt32 cidr (addressHost ip) = true) ∧
      (∃ added : Option Text, listedCidrs (ensureIpInAllowedIps list ip) =
        listedCidrs list ++ added.toList) ∧
      ensureIpInAllowedIps (ensureIpInAllowedIps list ip) ip = ensureIpInAllowedIps list ip := by
  constructor
  · intro net address n a p netRead addressRead fits
    rw [cidrContainsInt32_eq]
    exact cidrContains_iff netRead addressRead fits
  · intro list ip valid
    obtain ⟨a, read⟩ := Option.isSome_iff_exists.mp valid
    refine ⟨?_, ?_, ensure_ensure list read⟩
    · obtain ⟨cidr, listed, contains⟩ := List.any_eq_true.mp (covered_ensure list read)
      refine ⟨cidr, listed, ?_⟩
      rw [cidrContainsInt32_eq]
      exact contains
    · rw [listedCidrs_ensure list read]
      split_ifs with covered
      · exact ⟨none, (List.append_nil _).symm⟩
      · exact ⟨some _, rfl⟩

theorem allowedIps_law_docker :
    (cidrContainsInt32 "172.17.0.0/12" "172.31.255.254" = true ↔
      ∀ i < 12, (Ipv4.mk 172 17 0 0).bits.getMsbD i = (Ipv4.mk 172 31 255 254).bits.getMsbD i) ∧
    ensureIpInAllowedIps (ensureIpInAllowedIps "10.88.0.0/24" "192.168.10.50/24")
      "192.168.10.50/24" = ("10.88.0.0/24, 192.168.10.50/32" : Text) :=
  ⟨allowedIps_law.1 "172.17.0.0" "172.31.255.254" ⟨172, 17, 0, 0⟩ ⟨172, 31, 255, 254⟩ 12
      (by decide) (by decide) (by decide),
    (allowedIps_law.2 "10.88.0.0/24" "192.168.10.50/24" (by decide)).2.2.trans
      (by decide)⟩

end Proxora
