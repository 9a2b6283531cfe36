import Mathlib

/-!
# Blocks of addresses

An address is a word of some width, a block the addresses that agree with one in their first bits.
A mask selects these bits; masked by it, an address is the network of its block: the one address
of the block whose other bits are zero.
-/

namespace AddressBlock

variable {w p : Nat} {x y : BitVec w}

/-- The first `p` bits agree. -/
def Agree (p : Nat) (x y : BitVec w) : Prop := ∀ i < p, x.getMsbD i = y.getMsbD i

instance : Decidable (Agree p x y) := Nat.decidableBallLT p fun i _ => x.getMsbD i = y.getMsbD i

/-- The bits after the first `p` are zero. -/
def Ended (p : Nat) (x : BitVec w) : Prop := ∀ i, p ≤ i → x.getMsbD i = false

/-- The word whose first `p` bits are set. -/
def mask (w p : Nat) : BitVec w := BitVec.allOnes w <<< (w - p)

/-- The network of the block with the address. -/
def network (p : Nat) (x : BitVec w) : BitVec w := x &&& mask w p

theorem agree_refl (p : Nat) (x : BitVec w) : Agree p x x := fun _ _ => rfl

theorem getMsbD_mask {i : Nat} (fits : p ≤ w) : (mask w p).getMsbD i = decide (i < p) := by
  rw [mask, BitVec.getMsbD_shiftLeft, BitVec.getMsbD_allOnes]
  exact decide_eq_decide.mpr (by omega)

theorem getMsbD_network {i : Nat} (fits : p ≤ w) (x : BitVec w) :
    (network p x).getMsbD i = (x.getMsbD i && decide (i < p)) := by
  rw [network, BitVec.getMsbD_and, getMsbD_mask fits]

/-- Addresses agree where they are in one network. -/
theorem network_eq_iff (fits : p ≤ w) : network p x = network p y ↔ Agree p x y := by
  constructor
  · intro same i small
    have bit := congrArg (·.getMsbD i) same
    rw [getMsbD_network fits, getMsbD_network fits, decide_eq_true small, Bool.and_true,
      Bool.and_true] at bit
    exact bit
  · intro agree
    refine BitVec.eq_of_getMsbD_eq fun i _ => ?_
    rw [getMsbD_network fits, getMsbD_network fits]
    by_cases small : i < p
    · rw [agree i small]
    · rw [decide_eq_false small, Bool.and_false, Bool.and_false]

/-- Addresses agree where nothing differs once the other bits are shifted out. -/
theorem shift_eq_iff (fits : p ≤ w) : x >>> (w - p) = y >>> (w - p) ↔ Agree p x y := by
  constructor
  · intro same i small
    have bit := congrArg (·.getMsbD (i + (w - p))) same
    rw [BitVec.getMsbD_ushiftRight, BitVec.getMsbD_ushiftRight, Nat.add_sub_cancel,
      decide_eq_true (by omega), decide_eq_false (by omega)] at bit
    exact bit
  · intro agree
    refine BitVec.eq_of_getMsbD_eq fun i small => ?_
    rw [BitVec.getMsbD_ushiftRight, BitVec.getMsbD_ushiftRight]
    by_cases front : i < w - p
    · rw [decide_eq_true front, Bool.not_true, Bool.false_and, Bool.false_and]
    · rw [agree (i - (w - p)) (by omega)]

theorem agree_network (fits : p ≤ w) (x : BitVec w) : Agree p (network p x) x := by
  intro i small
  rw [getMsbD_network fits, decide_eq_true small, Bool.and_true]

theorem ended_network (fits : p ≤ w) (x : BitVec w) : Ended p (network p x) := by
  intro i large
  rw [getMsbD_network fits, decide_eq_false (by omega), Bool.and_false]

/-- The network is the one address of the block that ends with zeros. -/
theorem eq_network_iff (fits : p ≤ w) : y = network p x ↔ Agree p y x ∧ Ended p y := by
  constructor
  · rintro rfl
    exact ⟨agree_network fits x, ended_network fits x⟩
  · rintro ⟨agree, ended⟩
    refine BitVec.eq_of_getMsbD_eq fun i _ => ?_
    rw [getMsbD_network fits]
    by_cases small : i < p
    · rw [agree i small, decide_eq_true small, Bool.and_true]
    · rw [ended i (by omega), decide_eq_false small, Bool.and_false]

/-- Only the block without a first bit holds every address. -/
theorem forall_agree_iff (fits : p ≤ w) : (∀ y : BitVec w, Agree p x y) ↔ p = 0 := by
  constructor
  · intro all
    by_contra some
    have flipped := all (~~~x) 0 (by omega)
    rw [BitVec.getMsbD_not, decide_eq_true (by omega)] at flipped
    cases h : x.getMsbD 0 <;> simp [h] at flipped
  · rintro rfl y i small
    omega

/-- The network as the address without what its other bits add. -/
theorem toNat_network (x : BitVec w) :
    (network p x).toNat = x.toNat / 2 ^ (w - p) * 2 ^ (w - p) := by
  have shifted : network p x = x >>> (w - p) <<< (w - p) := BitVec.shiftLeft_ushiftRight.symm
  have small : x.toNat / 2 ^ (w - p) * 2 ^ (w - p) < 2 ^ w :=
    (Nat.div_mul_le_self _ _).trans_lt x.isLt
  rw [shifted, BitVec.toNat_shiftLeft, BitVec.toNat_ushiftRight, Nat.shiftLeft_eq,
    Nat.shiftRight_eq_div_pow, Nat.mod_eq_of_lt small]

/-- A network of `b` bits is the one of `p` bits where the bits between are zero. -/
theorem network_between_iff {b : Nat} (fits : p ≤ w) (border : b ≤ w) :
    network b x = network p x ↔ ∀ i, min p b ≤ i → i < max p b → x.getMsbD i = false := by
  rw [eq_network_iff fits]
  constructor
  · rintro ⟨agree, ended⟩ i least most
    by_cases small : i < p
    · have bit := agree i small
      rw [getMsbD_network border, decide_eq_false (by omega), Bool.and_false] at bit
      exact bit.symm
    · have bit := ended i (by omega)
      rw [getMsbD_network border, decide_eq_true (by omega), Bool.and_true] at bit
      exact bit
  · intro zeros
    constructor
    · intro i small
      rw [getMsbD_network border]
      by_cases inside : i < b
      · rw [decide_eq_true inside, Bool.and_true]
      · rw [zeros i (by omega) (by omega), Bool.false_and]
    · intro i large
      rw [getMsbD_network border]
      by_cases inside : i < b
      · rw [zeros i (by omega) (by omega), Bool.false_and]
      · rw [decide_eq_false inside, Bool.and_false]

end AddressBlock
