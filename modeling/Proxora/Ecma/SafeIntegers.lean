import Mathlib
import Proxora.Ecma.Doubles

/-!
# Whole numbers as doubles

The whole numbers up to `2 ^ 53` in size are doubles: sums and differences by one are exact there
(`add_one`, `sub_one`). The next one is not, and counting stops at `2 ^ 53` (`add_one_stuck`).
-/

namespace Ecma

/-- `x + y`. -/
def Double.add (x y : Double) : Double := x.sub y.neg

/-- `x <= y`. -/
def Double.le (x y : Double) : Bool := x.lt y || (x = y && x ≠ .nan)

/-! ## Rounding whole numbers -/

theorem powerOf_natCast (m : Nat) : powerOf 2 (m : Int) = ((2 ^ m : Nat) : Rat) := rfl

theorem powerOf_neg (m : Nat) : powerOf 2 (-(m : Int)) = ((2 ^ m : Nat) : Rat)⁻¹ := by
  cases m with
  | zero =>
      have none : -((0 : Nat) : Int) = (0 : Nat) := rfl
      rw [none, powerOf_natCast]
      norm_num
  | succ m =>
      have negative : -((m + 1 : Nat) : Int) = Int.negSucc m := rfl
      rw [negative, powerOf, Rat.mkRat_eq_div, Int.cast_one, one_div]

theorem binaryExponent_natCast {n : Nat} (given : n ≠ 0) : binaryExponent n = Nat.log2 n := by
  have least : ((2 ^ Nat.log2 n : Nat) : Rat) ≤ n := Nat.cast_le.mpr (Nat.log2_self_le given)
  have whole : Nat.log2 (n : Rat).den = 0 := by
    rw [Rat.den_natCast]
    decide
  rw [binaryExponent, Rat.num_natCast, Int.natAbs_natCast, whole,
    Int.natCast_zero, Int.sub_zero, powerOf_natCast, if_neg (not_lt.mpr least)]

theorem roundHalfEven_intCast (n : Int) : roundHalfEven n = n := by
  have half : (0 : Rat) < mkRat 1 2 := by
    rw [Rat.mkRat_eq_div]
    norm_num
  have rest : (n : Rat) - n < mkRat 1 2 := by
    rw [sub_self]
    exact half
  rw [roundHalfEven, Rat.floor_intCast, decide_eq_true rest, Bool.true_or, if_pos rfl]

/-- A whole number below `2 ^ 53` is a double. -/
theorem nearestPositive_natCast {n : Nat} (given : n ≠ 0) (small : n < 2 ^ 53) :
    nearestPositive n = .finite n := by
  have log : Nat.log2 n < 53 := (Nat.log2_lt given).mpr small
  obtain ⟨m, exponent⟩ : ∃ m : Nat, max (binaryExponent n - 52) (-1074) = -(m : Int) := by
    refine ⟨52 - Nat.log2 n, ?_⟩
    rw [binaryExponent_natCast given]
    omega
  have positive : ((2 ^ m : Nat) : Rat) ≠ 0 := Nat.cast_ne_zero.mpr (Nat.two_pow_pos m).ne'
  have scaled : (n : Rat) / powerOf 2 (-(m : Int)) = ((n * 2 ^ m : Nat) : Int) := by
    rw [powerOf_neg, div_inv_eq_mul, Int.cast_natCast, Nat.cast_mul]
  have value : ((roundHalfEven (n / powerOf 2 (-(m : Int))) : Int) : Rat) * powerOf 2 (-(m : Int)) =
      n := by
    rw [scaled, roundHalfEven_intCast, powerOf_neg, Int.cast_natCast, Nat.cast_mul,
      mul_inv_cancel_right₀ positive]
  have bounded : ¬powerOf 2 1024 ≤ (n : Rat) := by
    have top (k : Nat) (above : 53 < k) : ¬powerOf 2 (k : Int) ≤ (n : Rat) := by
      rw [powerOf_natCast, Nat.cast_le, not_le]
      exact small.trans (Nat.pow_lt_pow_right (by decide) above)
    exact top 1024 (by decide)
  rw [nearestPositive, exponent, value, if_neg bounded]

theorem nearestPositive_of_le {n : Nat} (given : n ≠ 0) (most : n ≤ 2 ^ 53) :
    nearestPositive n = .finite n := by
  rcases most.lt_or_eq with small | rfl
  · exact nearestPositive_natCast given small
  · decide +kernel

/-- A whole number up to `2 ^ 53` in size is not rounded. -/
theorem ofRat_intCast {n : Int} (most : n.natAbs ≤ 2 ^ 53) : Double.ofRat n = .finite n := by
  rw [Double.ofRat]
  rcases lt_trichotomy n 0 with negative | rfl | positive
  · have size : -(n : Rat) = (n.natAbs : Nat) := by
      rw [← Int.cast_natCast, Int.ofNat_natAbs_of_nonpos negative.le, Int.cast_neg]
    rw [if_neg (by exact_mod_cast negative.ne), if_neg (by exact_mod_cast negative.le.not_gt), size,
      nearestPositive_of_le (by omega) most, ← size, Double.neg, neg_neg]
  · rw [if_pos Int.cast_zero, Int.cast_zero]
  · have size : (n : Rat) = (n.natAbs : Nat) := by
      rw [← Int.cast_natCast, Int.natAbs_of_nonneg positive.le]
    rw [if_neg (by exact_mod_cast positive.ne'), if_pos (by exact_mod_cast positive), size,
      nearestPositive_of_le (by omega) most]

/-! ## Counting -/

variable {n : Int}

theorem add_one (most : (n + 1).natAbs ≤ 2 ^ 53) :
    (Double.finite n).add (.finite 1) = .finite (n + 1 : Int) := by
  rw [Double.add, Double.neg, Double.sub, sub_neg_eq_add, ← ofRat_intCast most, Int.cast_add,
    Int.cast_one]

theorem sub_one (most : (n - 1).natAbs ≤ 2 ^ 53) :
    (Double.finite n).sub (.finite 1) = .finite (n - 1 : Int) := by
  rw [Double.sub, ← ofRat_intCast most, Int.cast_sub, Int.cast_one]

/-- From `2 ^ 53` on a number can be its own successor. -/
theorem add_one_stuck : (Double.finite (2 ^ 53)).add (.finite 1) = .finite (2 ^ 53) := by
  decide +kernel

theorem le_intCast {least : Rat} {n : Int} :
    (Double.finite least).le (.finite n) = true ↔ least ≤ n := by
  rw [Double.le, Bool.or_eq_true, Double.lt, Bool.and_eq_true, decide_eq_true_eq, decide_eq_true_eq,
    decide_eq_true_eq, le_iff_lt_or_eq, Double.finite.injEq]
  simp

theorem isInteger_iff {x : Double} : x.isInteger = true ↔ ∃ n : Int, x = .finite n := by
  cases x with
  | finite q =>
      rw [Double.isInteger, Rat.isInt, beq_iff_eq]
      constructor
      · intro whole
        exact ⟨q.num, congrArg Double.finite (Rat.den_eq_one_iff q |>.mp whole).symm⟩
      · rintro ⟨n, same⟩
        rw [Double.finite.inj same, Rat.den_intCast]
  | infinity negative => exact iff_of_false Bool.false_ne_true (fun ⟨_, same⟩ => nomatch same)
  | nan => exact iff_of_false Bool.false_ne_true (fun ⟨_, same⟩ => nomatch same)

end Ecma
