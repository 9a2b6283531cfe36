import Mathlib

/-!
# Numbers as lists of bits

`lowBits k n` are the last `k` bits of a number, the highest one first. A number that is put behind
another one appends its bits (`bits_append`), whatever stands in front of the bits that are read
(`bits_mod`). Pieces of the same width are known by their bits put one behind the other
(`flatMap_bits_inj`).
-/

namespace BitLists

def lowBits : Nat → Nat → List Bool
  | 0, _ => []
  | k + 1, n => n.testBit k :: lowBits k n

variable {j k w m n : Nat}

@[simp] theorem bits_zero (n : Nat) : lowBits 0 n = [] := rfl

@[simp] theorem length_bits (k n : Nat) : (lowBits k n).length = k := by
  induction k with
  | zero => rfl
  | succ k ih => rw [lowBits, List.length_cons, ih]

theorem bits_congr (same : ∀ i < k, m.testBit i = n.testBit i) : lowBits k m = lowBits k n := by
  induction k with
  | zero => rfl
  | succ k ih =>
      rw [lowBits, lowBits, same k (Nat.lt_succ_self k), ih fun i small => same i (Nat.lt_succ_of_lt small)]

/-- Bits in front of those that are read do not matter. -/
theorem bits_mod (fits : k ≤ w) (n : Nat) : lowBits k (n % 2 ^ w) = lowBits k n := by
  refine bits_congr fun i small => ?_
  rw [Nat.testBit_mod_two_pow, decide_eq_true (Nat.lt_of_lt_of_le small fits), Bool.true_and]

theorem bits_append (k : Nat) (m : Nat) (small : n < 2 ^ j) :
    lowBits (k + j) (m * 2 ^ j + n) = lowBits k m ++ lowBits j n := by
  rw [Nat.mul_comm]
  induction k with
  | zero =>
      rw [Nat.zero_add, bits_zero, List.nil_append]
      refine bits_congr fun i below => ?_
      rw [Nat.testBit_two_pow_mul_add m small, if_pos below]
  | succ k ih =>
      rw [Nat.succ_add, lowBits, lowBits, ih, Nat.testBit_two_pow_mul_add m small,
        if_neg (by omega), Nat.add_sub_cancel]
      rfl

/-- The bits in front are those of the quotient. -/
theorem bits_add (k j n : Nat) : lowBits (k + j) n = lowBits k (n / 2 ^ j) ++ lowBits j n := by
  have whole := bits_append k (n / 2 ^ j) (Nat.mod_lt n (Nat.two_pow_pos j))
  rw [Nat.div_add_mod', bits_mod (Nat.le_refl j)] at whole
  exact whole

theorem bits_zero_right (k : Nat) : lowBits k 0 = List.replicate k false := by
  induction k with
  | zero => rfl
  | succ k ih => rw [lowBits, ih, Nat.zero_testBit, List.replicate_succ]

theorem testBit_of_bits (same : lowBits k m = lowBits k n) : ∀ i < k, m.testBit i = n.testBit i := by
  induction k with
  | zero => exact fun i small => absurd small (Nat.not_lt_zero i)
  | succ k ih =>
      rw [lowBits, lowBits, List.cons.injEq] at same
      intro i small
      rcases Nat.lt_succ_iff_lt_or_eq.mp small with below | rfl
      · exact ih same.2 i below
      · exact same.1

/-- A number of `k` bits is known by them. -/
theorem bits_inj (left : m < 2 ^ k) (right : n < 2 ^ k) (same : lowBits k m = lowBits k n) : m = n := by
  refine Nat.eq_of_testBit_eq fun i => ?_
  by_cases small : i < k
  · exact testBit_of_bits same i small
  · have high : 2 ^ k ≤ 2 ^ i := Nat.pow_le_pow_right (by decide) (Nat.le_of_not_lt small)
    rw [Nat.testBit_lt_two_pow (left.trans_le high), Nat.testBit_lt_two_pow (right.trans_le high)]

/-- Pieces of one width are known by their bits, whatever stands behind the last whole piece. -/
theorem flatMap_bits_inj {xs ys : List Nat} {r s : List Bool} (left : ∀ x ∈ xs, x < 2 ^ k)
    (right : ∀ y ∈ ys, y < 2 ^ k) (short : r.length < k) (short' : s.length < k)
    (same : xs.flatMap (lowBits k) ++ r = ys.flatMap (lowBits k) ++ s) : xs = ys := by
  induction xs generalizing ys with
  | nil =>
      cases ys with
      | nil => rfl
      | cons y ys =>
          have lengths := congrArg List.length same
          simp only [List.flatMap_nil, List.nil_append, List.flatMap_cons, List.length_append,
            length_bits] at lengths
          omega
  | cons x xs ih =>
      cases ys with
      | nil =>
          have lengths := congrArg List.length same
          simp only [List.flatMap_nil, List.nil_append, List.flatMap_cons, List.length_append,
            length_bits] at lengths
          omega
      | cons y ys =>
          rw [List.flatMap_cons, List.flatMap_cons, List.append_assoc, List.append_assoc] at same
          obtain ⟨first, rest⟩ := List.append_inj same (by rw [length_bits, length_bits])
          have head := bits_inj (left x List.mem_cons_self) (right y List.mem_cons_self) first
          have tail := ih (fun x inside => left x (List.mem_cons_of_mem _ inside))
            (fun y inside => right y (List.mem_cons_of_mem _ inside)) rest
          rw [head, tail]

end BitLists
