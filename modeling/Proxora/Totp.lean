import Proxora.BitLists
import Proxora.Ecma.Int32
import Proxora.Ecma.Lines

/-!
# Base32 secrets

`encodeBase32` and `decodeBase32` of `lib/totp.ts`. Both loops shift into an accumulator of 32 bits
that is never masked: bits that were read stay in front of those that wait, until they are shifted
out, and the number may be negative. Only the last bits of its word are read.

`decode_spelled` says that a secret is read back however its letters, spaces, hyphens and padding
are written.
-/

namespace Proxora

open Ecma BitLists

/-! ## Definitions -/

def base32Alphabet : Text := "ABCDEFGHIJKLMNOPQRSTUVWXYZ234567"

/-- `BASE32[i]`, as it is written. -/
def base32At (i : Int) : Text :=
  match base32Alphabet[i.toNat]? with
  | some c => [c]
  | none => "undefined"

/-- The loop `while (bits >= 5)`: what it writes, and how many bits it leaves. -/
def drain : Nat → Int → Text × Nat
  | bits + 5, value =>
      (base32At (bitAnd (shr value bits) 31) ++ (drain bits value).1, (drain bits value).2)
  | bits, _ => ([], bits)

structure Base32Writer where
  bits : Nat
  value : Int
  out : Text
deriving DecidableEq, Repr

def encodeStep (s : Base32Writer) (byte : UInt8) : Base32Writer :=
  let value := bitOr (shl s.value 8) byte.toNat
  let drained := drain (s.bits + 8) value
  { bits := drained.2, value, out := s.out ++ drained.1 }

def encodeBase32 (bytes : List UInt8) : Text :=
  let s := bytes.foldl encodeStep { bits := 0, value := 0, out := [] }
  if 0 < s.bits then s.out ++ base32At (bitAnd (shl s.value (5 - s.bits : Nat)) 31) else s.out

/-- `/[\\s-]/`. -/
def isGap (c : Char) : Bool := isSpace c || c = '-'

/-- `cleaned`. -/
def cleanedSecret (input : Text) : Text :=
  ((toUpperCase input).rdropWhile (· = '=')).filter fun c => !isGap c

structure Base32Reader where
  bits : Nat
  value : Int
  out : List UInt8
deriving DecidableEq, Repr

def decodeStep (s : Base32Reader) (ch : Char) : Except String Base32Reader :=
  if ch ∈ base32Alphabet then
    let value := bitOr (shl s.value 5) (base32Alphabet.idxOf ch)
    let bits := s.bits + 5
    if 8 ≤ bits then
      .ok {
        bits := bits - 8
        value
        out := s.out ++ [UInt8.ofNat (bitAnd (shr value (bits - 8 : Nat)) 255).toNat] }
    else .ok { bits, value, out := s.out }
  else .error "Invalid base32 secret"

def decodeBase32 (input : Text) : Except String (List UInt8) :=
  (·.out) <$> (cleanedSecret input).foldlM decodeStep { bits := 0, value := 0, out := [] }

example : encodeBase32 ("12345678901234567890".toUTF8.toList) =
    ("GEZDGNBVGY3TQOJQGEZDGNBVGY3TQOJQ" : Text) := by
  decide +kernel

/-! ## Bits that wait -/

/-- The word of an accumulator. -/
def wordOf (value : Int) : Nat := (toWord value).toNat

/-- What is shifted in stands behind the bits that wait. -/
theorem bits_push {k m n : Nat} (value : Int) (fits : k + m ≤ 32) (shift : m < 32)
    (small : n < 2 ^ m) :
    lowBits (k + m) (wordOf (bitOr (shl value m) n)) = lowBits k (wordOf value) ++ lowBits m n := by
  have range : 2 ^ m ≤ 2 ^ 32 := Nat.pow_le_pow_right (by decide) (by omega)
  have word : wordOf (bitOr (shl value m) n) = (wordOf value * 2 ^ m) % 2 ^ 32 ||| n := by
    rw [wordOf, toWord_bitOr, toWord_shl, shiftCount_natCast shift, toWord_natCast,
      BitVec.toNat_or, BitVec.toNat_shiftLeft, BitVec.toNat_ofNat, Nat.shiftLeft_eq,
      Nat.mod_eq_of_lt (small.trans_le range), wordOf]
  rw [← bits_append k _ small, word]
  refine bits_congr fun i below => ?_
  rw [Nat.mul_comm, Nat.two_pow_add_eq_or_of_lt small, Nat.testBit_or, Nat.testBit_or,
    Nat.testBit_mod_two_pow, decide_eq_true (by omega), Bool.true_and]

/-- A shift alone puts zeros behind the bits that wait. -/
theorem bits_shl {k m : Nat} (value : Int) (fits : k + m ≤ 32) (shift : m < 32) :
    lowBits (k + m) (wordOf (shl value m)) =
      lowBits k (wordOf value) ++ List.replicate m false := by
  have nothing : wordOf (bitOr (shl value m) (0 : Nat)) = wordOf (shl value m) := by
    rw [wordOf, wordOf, toWord_bitOr, toWord_natCast, BitVec.or_zero]
  rw [← nothing, bits_push value fits shift (Nat.two_pow_pos m), bits_zero_right]

/-- The bits in front of the last `j`. -/
theorem bits_shr {j m : Nat} (value : Int) (shift : j < 32) (narrow : m < 32) :
    lowBits m (bitAnd (shr value j) ((2 ^ m - 1 : Nat) : Int)).toNat = lowBits m (wordOf value / 2 ^ j) := by
  rw [bitAnd_ones narrow, Int.toNat_natCast, bits_mod le_rfl, toWord_shr, shiftCount_natCast shift,
    BitVec.toNat_ushiftRight, Nat.shiftRight_eq_div_pow, wordOf]

/-! ## Symbols -/

/-- The bits of a symbol. -/
def symbolBits (c : Char) : List Bool := lowBits 5 (base32Alphabet.idxOf c)

/-- The symbol of five bits. -/
def symbol (n : Nat) : Char := base32Alphabet.getD n 'A'

theorem base32At_natCast : ∀ n < 32, base32At (n : Nat) = [symbol n] ∧
    base32Alphabet.idxOf (symbol n) = n ∧ base32Alphabet.contains (symbol n) = true := by
  decide

/-- The symbol of the last five bits. -/
theorem base32At_bitAnd (m : Int) : ∃ c, c ∈ base32Alphabet ∧ base32At (bitAnd m 31) = [c] ∧
    symbolBits c = lowBits 5 (bitAnd m ((2 ^ 5 - 1 : Nat) : Int)).toNat := by
  have five : (31 : Int) = ((2 ^ 5 - 1 : Nat) : Int) := by decide
  rw [five, bitAnd_ones (by decide)]
  generalize (toWord m).toNat = n
  have small : n % 2 ^ 5 < 32 := Nat.mod_lt _ (Nat.two_pow_pos 5)
  obtain ⟨written, index, listed⟩ := base32At_natCast (n % 2 ^ 5) small
  rw [Int.toNat_natCast]
  exact ⟨symbol (n % 2 ^ 5), List.contains_iff_mem.mp listed, written, congrArg (lowBits 5) index⟩

/-- A text of symbols. -/
def Symbols (s : Text) : Prop := ∀ c ∈ s, c ∈ base32Alphabet

theorem Symbols.append {s t : Text} (left : Symbols s) (right : Symbols t) : Symbols (s ++ t) :=
  List.forall_mem_append.mpr ⟨left, right⟩

/-- The loop writes the waiting bits in fives and leaves less than five. -/
theorem drain_spec (k : Nat) (value : Int) (fits : k ≤ 32) :
    (drain k value).2 < 5 ∧ Symbols (drain k value).1 ∧
      (drain k value).1.flatMap symbolBits ++ lowBits (drain k value).2 (wordOf value) =
        lowBits k (wordOf value) := by
  induction k, value using drain.induct with
  | case1 k value ih =>
      obtain ⟨less, symbols, rest⟩ := ih (by omega)
      obtain ⟨c, listed, written, five⟩ := base32At_bitAnd (shr value k)
      have front := bits_shr (m := 5) value (show k < 32 by omega) (by decide)
      rw [drain]
      refine ⟨less, Symbols.append ?_ symbols, ?_⟩
      · rw [written]
        exact List.forall_mem_singleton.mpr listed
      · have five_more : k.succ.succ.succ.succ.succ = 5 + k := by omega
        rw [written, List.flatMap_append, List.append_assoc, rest, List.flatMap_singleton, five,
          front, five_more, bits_add]
  | case2 k value small =>
      have none : drain k value = ([], k) := by
        rw [drain]
        exact small
      rw [none]
      refine ⟨?_, List.forall_mem_nil _, rfl⟩
      by_contra large
      exact small (k - 5) (by omega)

/-! ## Writing -/

/-- The bits of bytes. -/
def byteBits (bytes : List UInt8) : List Bool := (bytes.map UInt8.toNat).flatMap (lowBits 8)

theorem byteBits_concat (bytes : List UInt8) (byte : UInt8) :
    byteBits (bytes ++ [byte]) = byteBits bytes ++ lowBits 8 byte.toNat := by
  rw [byteBits, byteBits, List.map_append, List.flatMap_append, List.map_singleton,
    List.flatMap_singleton]

/-- What is written, with the bits that wait, are the bits of the bytes that were read. -/
structure Base32Writer.Inv (s : Base32Writer) (read : List UInt8) : Prop where
  few : s.bits < 5
  symbols : Symbols s.out
  written : s.out.flatMap symbolBits ++ lowBits s.bits (wordOf s.value) = byteBits read

theorem Base32Writer.Inv.step {s : Base32Writer} {read : List UInt8} (inv : s.Inv read)
    (byte : UInt8) : (encodeStep s byte).Inv (read ++ [byte]) := by
  have few := inv.few
  obtain ⟨less, symbols, drained⟩ := drain_spec (s.bits + 8) (bitOr (shl s.value 8) byte.toNat)
    (by omega)
  have pushed := bits_push s.value (show s.bits + 8 ≤ 32 by omega) (by decide) byte.toNat_lt
  refine ⟨less, inv.symbols.append symbols, ?_⟩
  rw [encodeStep]
  dsimp only
  rw [List.flatMap_append, List.append_assoc, drained]
  refine (congrArg _ pushed).trans ?_
  rw [← List.append_assoc, inv.written, byteBits_concat]

theorem inv_foldl (bytes : List UInt8) :
    (bytes.foldl encodeStep { bits := 0, value := 0, out := [] }).Inv bytes := by
  induction bytes using List.reverseRecOn with
  | nil => exact ⟨by decide, List.forall_mem_nil _, rfl⟩
  | append_singleton bytes byte ih =>
      rw [List.foldl_append]
      exact ih.step byte

/-- The symbols hold the bits of the bytes, and less than five zeros behind them. -/
theorem encodeBase32_spec (bytes : List UInt8) : Symbols (encodeBase32 bytes) ∧
    ∃ zeros < 5, (encodeBase32 bytes).flatMap symbolBits =
      byteBits bytes ++ List.replicate zeros false := by
  have inv := inv_foldl bytes
  have few := inv.few
  rw [encodeBase32]
  generalize bytes.foldl encodeStep { bits := 0, value := 0, out := [] } = s at inv few ⊢
  split_ifs with waiting
  · obtain ⟨c, listed, written, five⟩ := base32At_bitAnd (shl s.value (5 - s.bits : Nat))
    have last : symbolBits c =
        lowBits s.bits (wordOf s.value) ++ List.replicate (5 - s.bits) false := by
      have moved := bits_shl (k := s.bits) s.value (by omega) (show 5 - s.bits < 32 by omega)
      rw [Nat.add_sub_cancel' few.le] at moved
      rw [five, bitAnd_ones (by decide), Int.toNat_natCast, bits_mod le_rfl]
      exact moved
    rw [written]
    refine ⟨inv.symbols.append (List.forall_mem_singleton.mpr listed), 5 - s.bits, by omega, ?_⟩
    rw [List.flatMap_append, List.flatMap_singleton, last, ← List.append_assoc, inv.written]
  · have none : s.bits = 0 := by omega
    have written := inv.written
    rw [none, bits_zero, List.append_nil] at written
    exact ⟨inv.symbols, 0, by decide, by rw [written, List.replicate_zero, List.append_nil]⟩

/-! ## Reading -/

/-- The bytes that were read, with the bits that wait, are the bits of the symbols. -/
structure Base32Reader.Inv (s : Base32Reader) (read : Text) : Prop where
  few : s.bits < 8
  written : byteBits s.out ++ lowBits s.bits (wordOf s.value) = read.flatMap symbolBits

theorem Base32Reader.Inv.step {s : Base32Reader} {read : Text} (inv : s.Inv read) {ch : Char}
    (symbol : ch ∈ base32Alphabet) :
    ∃ t, decodeStep s ch = .ok t ∧ t.Inv (read ++ [ch]) := by
  have few := inv.few
  have index : base32Alphabet.idxOf ch < 2 ^ 5 := List.idxOf_lt_length_iff.mpr symbol
  have pushed := bits_push s.value (show s.bits + 5 ≤ 32 by omega) (by decide) index
  have all : byteBits s.out ++
      lowBits (s.bits + 5) (wordOf (bitOr (shl s.value 5) (base32Alphabet.idxOf ch))) =
        (read ++ [ch]).flatMap symbolBits := by
    refine (congrArg _ pushed).trans ?_
    rw [← List.append_assoc, inv.written, List.flatMap_append, List.flatMap_singleton, symbolBits]
  rw [decodeStep, if_pos symbol]
  dsimp only
  generalize bitOr (shl s.value 5) (base32Alphabet.idxOf ch) = value at all ⊢
  split_ifs with full
  · refine ⟨_, rfl, show s.bits + 5 - 8 < 8 by omega, ?_⟩
    have byte := bits_shr (m := 8) value (show s.bits + 5 - 8 < 32 by omega) (by decide)
    have split := bits_add 8 (s.bits + 5 - 8) (wordOf value)
    rw [Nat.add_sub_cancel' full] at split
    have last : lowBits 8
        (UInt8.ofNat (bitAnd (shr value (s.bits + 5 - 8 : Nat)) 255).toNat).toNat =
        lowBits 8 (wordOf value / 2 ^ (s.bits + 5 - 8)) := by
      rw [UInt8.toNat_ofNat', bits_mod le_rfl]
      exact byte
    dsimp only
    rw [byteBits_concat, last, List.append_assoc, ← split]
    exact all
  · exact ⟨_, rfl, Nat.lt_of_not_le full, all⟩

theorem inv_foldlM {s : Base32Reader} {read text : Text} (inv : s.Inv read)
    (symbols : Symbols text) :
    ∃ t, text.foldlM decodeStep s = Except.ok t ∧ t.Inv (read ++ text) := by
  induction text generalizing s read with
  | nil => exact ⟨s, rfl, (List.append_nil read).symm ▸ inv⟩
  | cons ch text ih =>
      obtain ⟨next, step, inv⟩ := inv.step (symbols ch List.mem_cons_self)
      obtain ⟨t, rest, inv⟩ := ih inv fun c inside => symbols c (List.mem_cons_of_mem _ inside)
      refine ⟨t, ?_, ?_⟩
      · rw [List.foldlM_cons, step]
        exact rest
      · rwa [List.append_assoc] at inv

/-- A secret is read back where it is cleaned to the symbols that were written. -/
theorem decode_of_cleaned {bytes : List UInt8} {input : Text}
    (cleaned : cleanedSecret input = encodeBase32 bytes) : decodeBase32 input = .ok bytes := by
  obtain ⟨symbols, zeros, fewer, encoded⟩ := encodeBase32_spec bytes
  have start : ({ bits := 0, value := 0, out := [] } : Base32Reader).Inv [] := ⟨by decide, rfl⟩
  obtain ⟨t, done, inv⟩ := inv_foldlM start symbols
  have few := inv.few
  have written := inv.written
  have small (bytes : List UInt8) : ∀ n ∈ bytes.map UInt8.toNat, n < 2 ^ 8 := by
    intro n inside
    obtain ⟨byte, -, rfl⟩ := List.mem_map.mp inside
    exact byte.toNat_lt
  rw [List.nil_append, encoded] at written
  have same := flatMap_bits_inj (small t.out) (small bytes) (by rwa [length_bits])
    (by rw [List.length_replicate]; omega) written
  have bytes_eq : t.out = bytes :=
    List.map_injective_iff.mpr (fun x y equal => UInt8.toNat_inj.mp equal) same
  rw [decodeBase32, cleaned, done]
  exact congrArg Except.ok bytes_eq

/-! ## Spellings -/

/-- The letters of the text in either case, with spaces and hyphens among them. -/
def SpelledAs (text written : Text) : Prop :=
  List.Forall₂ (fun c d => d = c ∨ d = c.toLower) text (written.filter fun c => !isGap c)

theorem upperChar_symbol : base32Alphabet.all (fun c =>
    upperChar c = [c] && upperChar c.toLower = [c] && !isGap c && c ≠ '=') = true := by
  decide

theorem of_symbol {c : Char} (listed : c ∈ base32Alphabet) :
    upperChar c = [c] ∧ upperChar c.toLower = [c] ∧ isGap c = false ∧ c ≠ '=' := by
  have all := List.all_eq_true.mp upperChar_symbol c listed
  simpa [and_assoc] using all

/-- The code points of spaces and of the hyphen. -/
def gapCodes : List Nat :=
  [9, 10, 11, 12, 13, 0x20, 0x2D, 0xA0, 0x1680, 0x2000, 0x2001, 0x2002, 0x2003, 0x2004, 0x2005,
    0x2006, 0x2007, 0x2008, 0x2009, 0x200A, 0x2028, 0x2029, 0x202F, 0x205F, 0x3000, 0xFEFF]

theorem upperChar_gapCodes : gapCodes.all (fun n =>
    upperChar (Char.ofNat n) = [Char.ofNat n] && Char.ofNat n ≠ '=') = true := by
  decide

theorem mem_gapCodes {c : Char} (gap : isGap c = true) : c.toNat ∈ gapCodes := by
  rw [isGap, Bool.or_eq_true, decide_eq_true_eq] at gap
  rcases gap with space | rfl
  · simp only [isSpace, Bool.or_eq_true, Bool.and_eq_true, decide_eq_true_eq] at space
    simp only [gapCodes, List.mem_cons, List.not_mem_nil, or_false]
    omega
  · decide

theorem upperChar_gap {c : Char} (gap : isGap c = true) : upperChar c = [c] ∧ c ≠ '=' := by
  have all := List.all_eq_true.mp upperChar_gapCodes c.toNat (mem_gapCodes gap)
  rwa [Char.ofNat_toNat, Bool.and_eq_true, decide_eq_true_eq, decide_eq_true_eq] at all

/-- Upper case undoes the lower case of letters, and the gaps are passed over. -/
theorem upper_of_spelled {text written : Text} (symbols : Symbols text)
    (spelled : SpelledAs text written) :
    (toUpperCase written).filter (fun c => !isGap c) = text ∧ '=' ∉ toUpperCase written := by
  induction written generalizing text with
  | nil =>
      rw [SpelledAs, List.filter_nil, List.forall₂_nil_right_iff] at spelled
      subst spelled
      exact ⟨rfl, List.not_mem_nil⟩
  | cons d written ih =>
      have step : toUpperCase (d :: written) = upperChar d ++ toUpperCase written := rfl
      rw [step]
      by_cases gap : isGap d = true
      · obtain ⟨same, other⟩ := upperChar_gap gap
        rw [SpelledAs, List.filter_cons_of_neg (by rw [gap]; decide)] at spelled
        obtain ⟨rest, free⟩ := ih symbols spelled
        rw [same, List.singleton_append, List.filter_cons_of_neg (by rw [gap]; decide)]
        exact ⟨rest, List.mem_cons.not.mpr (not_or.mpr ⟨other.symm, free⟩)⟩
      · rw [SpelledAs, List.filter_cons_of_pos (by simpa using gap),
          List.forall₂_cons_right_iff] at spelled
        obtain ⟨c, text, letter, spelled, rfl⟩ := spelled
        obtain ⟨upper, lower, kept, other⟩ := of_symbol (symbols c List.mem_cons_self)
        obtain ⟨rest, free⟩ := ih (fun e inside => symbols e (List.mem_cons_of_mem c inside)) spelled
        have image : upperChar d = [c] := by
          rcases letter with rfl | rfl
          · exact upper
          · exact lower
        rw [image, List.singleton_append, List.filter_cons_of_pos (by rw [kept]; decide), rest]
        exact ⟨rfl, List.mem_cons.not.mpr (not_or.mpr ⟨other.symm, free⟩)⟩

theorem rdropWhile_append_of_all {α : Type} {p : α → Bool} {s t : List α}
    (none : ∀ a ∈ s, p a = false) (all : ∀ a ∈ t, p a = true) : (s ++ t).rdropWhile p = s := by
  have kept : s.reverse.dropWhile p = s.reverse := by
    rw [List.dropWhile_eq_self_iff]
    intro some
    rw [none _ (List.mem_reverse.mp (List.getElem_mem some))]
    exact Bool.false_ne_true
  rw [List.rdropWhile, List.reverse_append,
    List.dropWhile_append_of_pos fun a inside => all a (List.mem_reverse.mp inside), kept,
    List.reverse_reverse]

theorem toUpperCase_append (s t : Text) : toUpperCase (s ++ t) = toUpperCase s ++ toUpperCase t :=
  List.flatMap_append

theorem cleaned_of_spelled {text written padding : Text} (symbols : Symbols text)
    (spelled : SpelledAs text written) (pad : ∀ c ∈ padding, c = '=') :
    cleanedSecret (written ++ padding) = text := by
  obtain ⟨kept, free⟩ := upper_of_spelled symbols spelled
  have upper : toUpperCase padding = padding := by
    have image : upperChar '=' = ['='] := by decide
    rw [List.eq_replicate_of_mem pad, toUpperCase, List.flatMap_replicate, image,
      List.flatten_replicate_singleton]
  have cut : (toUpperCase written ++ padding).rdropWhile (· = '=') = toUpperCase written :=
    rdropWhile_append_of_all
      (fun c inside => decide_eq_false fun same => free (same ▸ inside))
      (fun c inside => decide_eq_true (pad c inside))
  rw [cleanedSecret, toUpperCase_append, upper, cut, kept]

/-- A secret is read back however it is spelled. -/
theorem decode_spelled (bytes : List UInt8) :
    decodeBase32 (encodeBase32 bytes) = .ok bytes ∧
      ∀ written padding, SpelledAs (encodeBase32 bytes) written → (∀ c ∈ padding, c = '=') →
        decodeBase32 (written ++ padding) = .ok bytes := by
  have symbols := (encodeBase32_spec bytes).1
  have spelled : SpelledAs (encodeBase32 bytes) (encodeBase32 bytes) := by
    rw [SpelledAs, List.filter_eq_self.mpr fun c inside => by
      rw [(of_symbol (symbols c inside)).2.2.1, Bool.not_false]]
    exact List.forall₂_same.mpr fun c _ => .inl rfl
  constructor
  · have cleaned := cleaned_of_spelled symbols spelled (List.forall_mem_nil _)
    rw [List.append_nil] at cleaned
    exact decode_of_cleaned cleaned
  · intro written padding spelled pad
    exact decode_of_cleaned (cleaned_of_spelled symbols spelled pad)

theorem decode_spelled_hello :
    decodeBase32 (("jb-Sw y3 DP" : Text) ++ List.replicate 3 '=') =
      .ok [72, 101, 108, 108, 111] :=
  (decode_spelled [72, 101, 108, 108, 111]).2 "jb-Sw y3 DP" (List.replicate 3 '=')
    (by unfold SpelledAs; decide) fun _ inside => List.eq_of_mem_replicate inside

end Proxora
