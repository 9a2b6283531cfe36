import Mathlib.Data.ENat.Basic
import Proxora.Ecma.SafeIntegers

/-!
# Counts as doubles

The doubles that a natural number is rounded to: whole numbers from zero on, and infinity.
`Double.count` takes them to `ℕ∞`; `lt_iff_count` and `eq_iff_count` say that they are compared as
there, and `sub_pos_of_count` and `sub_neg_of_count` that their difference has the sign it should
have, however it is rounded.
-/

namespace Ecma

namespace Double

/-- A whole number from zero on, or infinity. -/
def IsCount (x : Double) : Prop := (∃ n : Nat, x = .finite n) ∨ x = .infinity false

/-- The place among the natural numbers and infinity. -/
noncomputable def count : Double → ℕ∞
  | .finite q => q.num.toNat
  | _ => ⊤

variable {x y : Double} {n : Nat}

theorem count_natCast (n : Nat) : count (.finite n) = n := by
  rw [count, Rat.num_natCast, Int.toNat_natCast]

theorem count_infinity : count (.infinity false) = ⊤ := rfl

/-! ## Comparing -/

theorem eq_iff_count (left : x.IsCount) (right : y.IsCount) : x = y ↔ x.count = y.count := by
  rcases left with ⟨n, rfl⟩ | rfl
  · rcases right with ⟨m, rfl⟩ | rfl
    · rw [count_natCast, count_natCast, Nat.cast_inj, Double.finite.injEq, Nat.cast_inj]
    · rw [count_natCast, count_infinity]
      exact iff_of_false (fun same => nomatch same) (ENat.natCast_ne_top n)
  · rcases right with ⟨m, rfl⟩ | rfl
    · rw [count_natCast, count_infinity]
      exact iff_of_false (fun same => nomatch same) (ENat.natCast_ne_top m).symm
    · exact iff_of_true rfl rfl

theorem lt_iff_count (left : x.IsCount) (right : y.IsCount) :
    x.lt y = true ↔ x.count < y.count := by
  rcases left with ⟨n, rfl⟩ | rfl
  · rcases right with ⟨m, rfl⟩ | rfl
    · rw [count_natCast, count_natCast, Nat.cast_lt, lt, decide_eq_true_eq, Nat.cast_lt]
    · rw [count_natCast, count_infinity]
      exact iff_of_true rfl (ENat.natCast_lt_top n)
  · rcases right with ⟨m, rfl⟩ | rfl
    · rw [count_natCast, count_infinity]
      exact iff_of_false Bool.false_ne_true not_top_lt
    · exact iff_of_false Bool.false_ne_true (lt_irrefl _)

theorem ne_nan_of_isCount (counts : x.IsCount) : x ≠ .nan := by
  rcases counts with ⟨n, rfl⟩ | rfl
  · exact Double.noConfusion
  · exact Double.noConfusion

end Double

/-! ## Rounding natural numbers -/

variable {x y : Double} {n : Nat}

theorem floor_le_roundHalfEven (q : Rat) : q.floor ≤ roundHalfEven q := by
  unfold roundHalfEven
  dsimp only
  split
  · exact le_refl _
  · exact Int.le_add_one (le_refl _)

/-- From `2 ^ 53` on, what is rounded is whole and not zero. -/
theorem nearestPositive_of_large (large : 2 ^ 53 ≤ n) :
    nearestPositive n = .infinity false ∨ ∃ v : Nat, v ≠ 0 ∧ nearestPositive n = .finite v := by
  have given : n ≠ 0 := by
    have positive : 0 < 2 ^ 53 := by decide
    omega
  have log : 53 ≤ Nat.log2 n := (Nat.le_log2 given).mpr large
  obtain ⟨m, most⟩ : ∃ m, Nat.log2 n = m + 52 := ⟨Nat.log2 n - 52, by omega⟩
  have exponent : max (binaryExponent n - 52) (-1074) = (m : Int) := by
    rw [binaryExponent_natCast given]
    omega
  have unit_le : 2 ^ m ≤ n :=
    (Nat.pow_le_pow_right (by decide) (by omega)).trans (Nat.log2_self_le given)
  have unit_pos : (0 : Rat) < ((2 ^ m : Nat) : Rat) := Nat.cast_pos.mpr (Nat.two_pow_pos m)
  have quotient : 1 ≤ roundHalfEven ((n : Rat) / ((2 ^ m : Nat) : Rat)) := by
    refine le_trans ?_ (floor_le_roundHalfEven _)
    rw [Rat.le_floor_iff, Int.cast_one, le_div_iff₀ unit_pos, one_mul]
    exact Nat.cast_le.mpr unit_le
  obtain ⟨k, whole⟩ := Int.eq_ofNat_of_zero_le (Int.le_trans (by decide) quotient)
  unfold nearestPositive
  dsimp only
  rw [exponent, powerOf_natCast, whole]
  split
  · exact .inl rfl
  · refine .inr ⟨k * 2 ^ m, ?_, ?_⟩
    · have some : k ≠ 0 := by omega
      exact Nat.mul_ne_zero some (Nat.two_pow_pos m).ne'
    · rw [Nat.cast_mul]
      rfl

theorem nearestPositive_count (given : n ≠ 0) :
    nearestPositive n = .infinity false ∨ ∃ v : Nat, v ≠ 0 ∧ nearestPositive n = .finite v := by
  rcases Nat.lt_or_ge n (2 ^ 53) with small | large
  · exact .inr ⟨n, given, nearestPositive_natCast given small⟩
  · exact nearestPositive_of_large large

theorem isCount_ofRat (n : Nat) : (Double.ofRat n).IsCount := by
  unfold Double.ofRat
  split
  · exact .inl ⟨0, by rw [Nat.cast_zero]⟩
  · next given =>
      rw [Nat.cast_eq_zero] at given
      rw [if_pos (Nat.cast_pos.mpr (Nat.pos_of_ne_zero given))]
      rcases nearestPositive_count given with infinite | ⟨v, -, same⟩
      · exact .inr infinite
      · exact .inl ⟨v, same⟩

/-! ## Differences -/

/-- `x > 0`. -/
def Double.Positive (x : Double) : Prop := (Double.finite 0).lt x = true

/-- `x < 0`. -/
def Double.Negative (x : Double) : Prop := x.lt (.finite 0) = true

theorem positive_ofRat (given : n ≠ 0) : (Double.ofRat n).Positive := by
  have above : (0 : Rat) < n := Nat.cast_pos.mpr (Nat.pos_of_ne_zero given)
  unfold Double.ofRat
  rw [if_neg above.ne', if_pos above]
  rcases nearestPositive_count given with infinite | ⟨v, some, same⟩
  · rw [infinite]
    rfl
  · rw [same, Double.Positive, Double.lt, decide_eq_true_eq]
    exact Nat.cast_pos.mpr (Nat.pos_of_ne_zero some)

theorem negative_ofRat (given : n ≠ 0) : (Double.ofRat (-(n : Rat))).Negative := by
  have above : (0 : Rat) < n := Nat.cast_pos.mpr (Nat.pos_of_ne_zero given)
  unfold Double.ofRat
  rw [if_neg (neg_ne_zero.mpr above.ne'), if_neg (not_lt.mpr (neg_nonpos.mpr above.le)), neg_neg]
  rcases nearestPositive_count given with infinite | ⟨v, some, same⟩
  · rw [infinite]
    rfl
  · rw [same, Double.neg, Double.Negative, Double.lt, decide_eq_true_eq, neg_lt_zero]
    exact Nat.cast_pos.mpr (Nat.pos_of_ne_zero some)

theorem sub_pos_of_count (left : x.IsCount) (right : y.IsCount) (below : y.count < x.count) :
    (x.sub y).Positive := by
  rcases right with ⟨m, rfl⟩ | rfl
  · rcases left with ⟨n, rfl⟩ | rfl
    · rw [Double.count_natCast, Double.count_natCast, Nat.cast_lt] at below
      have difference : (n : Rat) - m = ((n - m : Nat) : Rat) := (Nat.cast_sub below.le).symm
      rw [Double.sub, difference]
      exact positive_ofRat (by omega)
    · rfl
  · rw [Double.count_infinity] at below
    exact absurd below not_top_lt

theorem sub_neg_of_count (left : x.IsCount) (right : y.IsCount) (below : x.count < y.count) :
    (x.sub y).Negative := by
  rcases left with ⟨n, rfl⟩ | rfl
  · rcases right with ⟨m, rfl⟩ | rfl
    · rw [Double.count_natCast, Double.count_natCast, Nat.cast_lt] at below
      have difference : (n : Rat) - m = -((m - n : Nat) : Rat) := by
        rw [Nat.cast_sub below.le, neg_sub]
      rw [Double.sub, difference]
      exact negative_ofRat (by omega)
    · rfl
  · rw [Double.count_infinity] at below
    exact absurd below not_top_lt

end Ecma
