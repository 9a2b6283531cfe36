import Mathlib

/-!
# 32-bit operators

The bitwise operators of ECMAScript numbers. An operand is taken to the word of its last 32 bits,
shift counts are taken modulo 32, and the result is the signed number of a word; only `>>>` gives
the unsigned one.

A lemma for each operator says what the word of its result is, so that a computation can be
followed on words.
-/

namespace Ecma

/-- `ToInt32` and `ToUint32`: the last 32 bits of a whole number. -/
def toWord (n : Int) : BitVec 32 := BitVec.ofInt 32 n

/-- The shift count of an operand. -/
def shiftCount (k : Int) : Nat := (toWord k).toNat % 32

/-- `m << k`. -/
def shl (m k : Int) : Int := (toWord m <<< shiftCount k).toInt

/-- `m >>> k`. -/
def shr (m k : Int) : Int := (toWord m >>> shiftCount k).toNat

/-- `m & n`. -/
def bitAnd (m n : Int) : Int := (toWord m &&& toWord n).toInt

/-- `m | n`. -/
def bitOr (m n : Int) : Int := (toWord m ||| toWord n).toInt

/-- `~m`. -/
def bitNot (m : Int) : Int := (~~~toWord m).toInt

variable {m n k : Int}

@[simp] theorem toWord_toInt (x : BitVec 32) : toWord x.toInt = x := BitVec.ofInt_toInt

@[simp] theorem toWord_toNat (x : BitVec 32) : toWord x.toNat = x := by
  rw [toWord, BitVec.ofInt_natCast, BitVec.ofNat_toNat, BitVec.setWidth_eq]

theorem toWord_natCast (n : Nat) : toWord n = BitVec.ofNat 32 n := BitVec.ofInt_natCast 32 n

theorem shiftCount_natCast {k : Nat} (small : k < 32) : shiftCount k = k := by
  rw [shiftCount, toWord_natCast, BitVec.toNat_ofNat]
  omega

@[simp] theorem toWord_shl : toWord (shl m k) = toWord m <<< shiftCount k := toWord_toInt _

/-- A shift multiplies the word. -/
theorem toWord_shl_natCast (n : Nat) {k : Nat} (small : k < 32) :
    toWord (shl n k) = BitVec.ofNat 32 (n * 2 ^ k) := by
  rw [toWord_shl, shiftCount_natCast small, toWord_natCast]
  apply BitVec.eq_of_toNat_eq
  rw [BitVec.toNat_shiftLeft, BitVec.toNat_ofNat, BitVec.toNat_ofNat, Nat.shiftLeft_eq,
    Nat.mod_mul_mod]

@[simp] theorem toWord_shr : toWord (shr m k) = toWord m >>> shiftCount k := toWord_toNat _

@[simp] theorem toWord_bitAnd : toWord (bitAnd m n) = toWord m &&& toWord n := toWord_toInt _

@[simp] theorem toWord_bitOr : toWord (bitOr m n) = toWord m ||| toWord n := toWord_toInt _

@[simp] theorem toWord_bitNot : toWord (bitNot m) = ~~~toWord m := toWord_toInt _

/-- `m & (2 ** k - 1)` are the last bits of the word. -/
theorem bitAnd_ones {k : Nat} (small : k < 32) :
    bitAnd m ((2 ^ k - 1 : Nat) : Int) = ((toWord m).toNat % 2 ^ k : Nat) := by
  have less : 2 ^ k ≤ 2 ^ 31 := Nat.pow_le_pow_right (by decide) (by omega)
  have rest := Nat.mod_lt (toWord m).toNat (Nat.two_pow_pos k)
  have ones : (toWord ((2 ^ k - 1 : Nat) : Int)).toNat = 2 ^ k - 1 := by
    rw [toWord_natCast, BitVec.toNat_ofNat, Nat.mod_eq_of_lt (by omega)]
  have value : (toWord m &&& toWord ((2 ^ k - 1 : Nat) : Int)).toNat = (toWord m).toNat % 2 ^ k := by
    rw [BitVec.toNat_and, ones, Nat.and_two_pow_sub_one_eq_mod]
  rw [bitAnd, BitVec.toInt_eq_toNat_of_lt, value]
  rw [value]
  omega

/-- Results of `&` are the same numbers where they are the same words. -/
theorem bitAnd_eq_iff {m' n' : Int} :
    bitAnd m n = bitAnd m' n' ↔ toWord m &&& toWord n = toWord m' &&& toWord n' :=
  BitVec.toInt_inj

/-- The unsigned number of a word. -/
theorem shr_zero (m : Int) : shr m 0 = (toWord m).toNat := by
  have none : shiftCount 0 = 0 := by decide
  rw [shr, none, BitVec.ushiftRight_zero]

end Ecma
