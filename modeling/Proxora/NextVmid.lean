import Mathlib
import Proxora.Ecma.SafeIntegers
import Proxora.Loops

/-!
# The next free VMID

`nextSmallerVmid` of `lib/next-vmid.ts`: up from the minimum where no id is used, otherwise down
from the highest used id, and up from it where everything below is taken. The numbers are doubles
and the loops have fuel.

`nextSmallerVmid_law` says which id the loops find, and that they find one, as long as they stay
among the numbers up to `2 ^ 53`.
-/

namespace Proxora

open Ecma Loops

/-! ## Definitions -/

def minVmid : Double := .finite 100

/-- `Math.max(...ids)` of whole numbers. -/
def maxOf (ids : List Double) : Double :=
  ids.foldl (fun m n => if m.lt n then n else m) (.infinity true)

section

variable (used : List Double) (min : Double) (skip : Double → Bool)

/-- `ids`. -/
def usedIds : List Double := (used.filter fun n => n.isInteger && min.le n).eraseDups

def blocked (id : Double) : Bool := (usedIds used min).contains id || skip id

/-- The body of `while (blocked(id)) id += 1`. -/
def stepUp (id : Double) : Double ⊕ Double :=
  if blocked used min skip id then .inl (id.add (.finite 1)) else .inr id

/-- The body of the loop down to the minimum, which may end without an id. -/
def stepDown (id : Double) : Double ⊕ Option Double :=
  if min.le id then
    if blocked used min skip id then .inl (id.sub (.finite 1)) else .inr (some id)
  else .inr none

def nextSmallerVmid (fuel : Nat) : Option Double :=
  let ids := usedIds used min
  if ids = [] then run (stepUp used min skip) fuel min
  else
    (run (stepDown used min skip) fuel ((maxOf ids).sub (.finite 1))).bind fun
      | some id => some id
      | none => run (stepUp used min skip) fuel ((maxOf ids).add (.finite 1))

end

example : nextSmallerVmid [.finite 243, .nan, .finite 244, .finite 12, .finite 243] minVmid
    (fun id => id = .finite 242) 9 = some (.finite 241) := by
  decide +kernel

/-! ## Which id is next -/

/-- A used number that counts. -/
def Held (used : List Double) (least : Rat) (n : Int) : Prop :=
  Double.finite n ∈ used ∧ least ≤ n

/-- An id that can be given out. -/
structure FreeId (used : List Double) (least : Rat) (skip : Double → Bool) (id : Int) : Prop where
  least_le : least ≤ id
  unused : Double.finite id ∉ used
  taken : skip (.finite id) = false

/-- The greatest free id below the highest used one, if there is any, and otherwise the smallest
free id. -/
structure NextId (used : List Double) (least : Rat) (skip : Double → Bool) (id : Int) : Prop where
  free : FreeId used least skip id
  below : ∀ highest, IsGreatest {n | Held used least n} highest →
    ∀ k, FreeId used least skip k → k < highest → id < highest ∧ k ≤ id
  above : (∀ highest, IsGreatest {n | Held used least n} highest →
    ∀ k, FreeId used least skip k → ¬k < highest) → ∀ k, FreeId used least skip k → id ≤ k

section

variable {used : List Double} {least : Rat} {skip : Double → Bool}

/-! ## The used ids -/

theorem mem_usedIds {x : Double} :
    x ∈ usedIds used (.finite least) ↔ ∃ n : Int, x = .finite n ∧ Held used least n := by
  rw [usedIds, List.mem_eraseDups, List.mem_filter, Bool.and_eq_true, isInteger_iff]
  constructor
  · rintro ⟨listed, ⟨n, rfl⟩, inside⟩
    exact ⟨n, rfl, listed, le_intCast.mp inside⟩
  · rintro ⟨n, rfl, listed, inside⟩
    exact ⟨listed, ⟨n, rfl⟩, le_intCast.mpr inside⟩

theorem blocked_eq_false_iff {k : Int} (inside : least ≤ k) :
    blocked used (.finite least) skip (.finite k) = false ↔ FreeId used least skip k := by
  rw [blocked, Bool.or_eq_false_iff, ← Bool.not_eq_true, List.contains_iff_mem, mem_usedIds]
  constructor
  · rintro ⟨unused, free⟩
    exact ⟨inside, fun listed => unused ⟨k, rfl, listed, inside⟩, free⟩
  · rintro ⟨-, unused, free⟩
    refine ⟨?_, free⟩
    rintro ⟨n, same, listed, -⟩
    exact unused (same ▸ listed)

theorem blocked_of_not_free {k : Int} (inside : least ≤ k) (taken : ¬FreeId used least skip k) :
    blocked used (.finite least) skip (.finite k) = true := by
  rwa [← Bool.not_eq_false, blocked_eq_false_iff inside]

/-- The maximum of whole numbers is one of them. -/
theorem maxOf_spec {ids : List Double} (given : ids ≠ [])
    (whole : ∀ x ∈ ids, ∃ n : Int, x = .finite n) :
    ∃ m : Int, maxOf ids = .finite m ∧ IsGreatest {n : Int | Double.finite n ∈ ids} m := by
  induction ids using List.reverseRecOn with
  | nil => exact (given rfl).elim
  | append_singleton ids x ih =>
      obtain ⟨n, rfl⟩ := whole x (List.mem_append_right _ List.mem_cons_self)
      have step : maxOf (ids ++ [.finite n]) =
          if (maxOf ids).lt (.finite n) then .finite n else maxOf ids := by
        rw [maxOf, List.foldl_append]
        rfl
      by_cases empty : ids = []
      · subst empty
        refine ⟨n, rfl, List.mem_cons_self, fun k listed => ?_⟩
        rw [Set.mem_ofPred_eq, List.nil_append, List.mem_singleton, Double.finite.injEq] at listed
        exact (Int.cast_injective listed).le
      · obtain ⟨m, value, listed, greatest⟩ :=
          ih empty fun x inside => whole x (List.mem_append_left _ inside)
        have among (k : Int) (inside : Double.finite k ∈ ids ++ [.finite n]) : k ≤ m ∨ k = n := by
          rcases List.mem_append.mp inside with before | last
          · exact .inl (greatest before)
          · rw [List.mem_singleton, Double.finite.injEq] at last
            exact .inr (Int.cast_injective last)
        have less_iff : (maxOf ids).lt (.finite n) = true ↔ m < n := by
          rw [value, Double.lt, decide_eq_true_eq, Int.cast_lt]
        by_cases less : m < n
        · refine ⟨n, by rw [step, if_pos (less_iff.mpr less)],
            List.mem_append_right _ List.mem_cons_self, fun k inside => ?_⟩
          have cases := among k inside
          omega
        · refine ⟨m, by rw [step, if_neg fun lt => less (less_iff.mp lt), value],
            List.mem_append_left _ listed, fun k inside => ?_⟩
          have cases := among k inside
          omega

theorem maxOf_usedIds (some_used : usedIds used (.finite least) ≠ []) :
    ∃ m : Int, maxOf (usedIds used (.finite least)) = .finite m ∧
      IsGreatest {n | Held used least n} m := by
  obtain ⟨m, value, greatest⟩ := maxOf_spec some_used fun x inside =>
    (mem_usedIds.mp inside).imp fun n held => held.1
  have same : {n : Int | Double.finite n ∈ usedIds used (.finite least)} =
      {n | Held used least n} := by
    ext n
    rw [Set.mem_ofPred_eq, Set.mem_ofPred_eq, mem_usedIds]
    constructor
    · rintro ⟨k, form, held⟩
      rwa [Int.cast_injective (Double.finite.inj form)]
    · exact fun held => ⟨n, rfl, held⟩
  rw [same] at greatest
  exact ⟨m, value, greatest⟩

/-! ## The loops -/

/-- The loop up finds the first free id. -/
theorem stepUp_leaves {s : Int} (inside : least ≤ s) (low : -(2 ^ 53 : Int) ≤ s)
    (some_free : ∃ k, s ≤ k ∧ k ≤ 2 ^ 53 ∧ FreeId used least skip k) :
    ∃ id, FreeId used least skip id ∧ (∀ k, s ≤ k → FreeId used least skip k → id ≤ k) ∧
      Leaves (stepUp used (.finite least) skip) (.finite s) (.finite id) := by
  classical
  have offset : ∃ i : Nat, FreeId used least skip (s + i) := by
    obtain ⟨k, from_start, -, free⟩ := some_free
    refine ⟨(k - s).toNat, ?_⟩
    rwa [Int.toNat_of_nonneg (by omega), add_sub_cancel]
  obtain ⟨k, from_start, most, free⟩ := some_free
  have first := Nat.find_spec offset
  have earlier {i : Nat} (small : i < Nat.find offset) := Nat.find_min offset small
  have first_le {k : Int} (from_start : s ≤ k) (free : FreeId used least skip k) :
      s + Nat.find offset ≤ k := by
    by_contra before
    have small : (k - s).toNat < Nat.find offset := by omega
    refine earlier small ?_
    rwa [Int.toNat_of_nonneg (by omega), add_sub_cancel]
  have bound := first_le from_start free
  have reached (i : Nat) : least ≤ ((s + i : Int) : Rat) :=
    inside.trans (Int.cast_le.mpr (by omega))
  refine ⟨s + Nat.find offset, first, fun k => first_le, ?_⟩
  have start : (.finite s : Double) = .finite ((s + (0 : Nat) : Int) : Rat) := by
    rw [Nat.cast_zero, add_zero]
  have goes : ∀ i < Nat.find offset, stepUp used (.finite least) skip (.finite ((s + i : Int) : Rat)) =
      .inl (.finite ((s + (i + 1 : Nat) : Int) : Rat)) := by
    intro i small
    rw [stepUp, if_pos (blocked_of_not_free (reached i) (earlier small)), add_one (by omega),
      Nat.cast_succ, add_assoc]
  rw [start]
  refine leaves_of_trace (fun i => Double.finite ((s + i : Int) : Rat)) goes ?_
  rw [stepUp, (blocked_eq_false_iff (reached _)).mpr first, if_neg Bool.false_ne_true]

/-- The loop down finds the last free id, or ends below the minimum where there is none. -/
theorem stepDown_leaves {m : Int} (low : -(2 ^ 53 : Int) < least) (high : m ≤ 2 ^ 53) :
    (∃ id, id < m ∧ FreeId used least skip id ∧
      (∀ k, k < m → FreeId used least skip k → k ≤ id) ∧
      Leaves (stepDown used (.finite least) skip) (.finite (m - 1 : Int)) (some (.finite id))) ∨
    (∀ k, FreeId used least skip k → ¬k < m) ∧
      Leaves (stepDown used (.finite least) skip) (.finite (m - 1 : Int)) none := by
  classical
  have offset : ∃ i : Nat, least ≤ ((m - 1 - i : Int) : Rat) → FreeId used least skip (m - 1 - i) := by
    refine ⟨(m - 1 + 2 ^ 53).toNat, fun inside => ?_⟩
    have above : -(2 ^ 53 : Int) < m - 1 - (m - 1 + 2 ^ 53).toNat := by
      exact_mod_cast low.trans_le inside
    omega
  have last := Nat.find_spec offset
  have earlier {i : Nat} (small : i < Nat.find offset) :
      least ≤ ((m - 1 - i : Int) : Rat) ∧ ¬FreeId used least skip (m - 1 - i) :=
    Classical.not_imp.mp (Nat.find_min offset small)
  have at_most {k : Int} (below : k < m) (free : FreeId used least skip k) :
      k ≤ m - 1 - Nat.find offset := by
    by_contra before
    have small : (m - 1 - k).toNat < Nat.find offset := by omega
    refine (earlier small).2 ?_
    rwa [Int.toNat_of_nonneg (by omega), sub_sub_cancel]
  have start : (.finite ((m - 1 : Int) : Rat) : Double) =
      .finite ((m - 1 - (0 : Nat) : Int) : Rat) := by
    rw [Nat.cast_zero, sub_zero]
  have goes : ∀ i < Nat.find offset,
      stepDown used (.finite least) skip (.finite ((m - 1 - i : Int) : Rat)) =
        .inl (.finite ((m - 1 - (i + 1 : Nat) : Int) : Rat)) := by
    intro i small
    obtain ⟨inside, taken⟩ := earlier small
    have above : -(2 ^ 53 : Int) < m - 1 - i := by exact_mod_cast low.trans_le inside
    rw [stepDown, if_pos (le_intCast.mpr inside), if_pos (blocked_of_not_free inside taken),
      sub_one (by omega), Nat.cast_succ, ← sub_sub]
  rw [start]
  by_cases inside : least ≤ ((m - 1 - Nat.find offset : Int) : Rat)
  · refine .inl ⟨m - 1 - Nat.find offset, by omega, last inside, fun k => at_most,
      leaves_of_trace (fun i => Double.finite ((m - 1 - i : Int) : Rat)) goes ?_⟩
    rw [stepDown, if_pos (le_intCast.mpr inside), (blocked_eq_false_iff inside).mpr (last inside),
      if_neg Bool.false_ne_true]
  · refine .inr ⟨fun k free below => inside ?_,
      leaves_of_trace (fun i => Double.finite ((m - 1 - i : Int) : Rat)) goes ?_⟩
    · exact free.least_le.trans (Int.cast_le.mpr (at_most below free))
    · rw [stepDown, if_neg fun le => inside (le_intCast.mp le)]

/-- The id that is found, for numbers up to `2 ^ 53`. -/
theorem nextSmallerVmid_law (low : -(2 ^ 53 : Int) < least)
    (high : ∀ n, Held used least n → n ≤ 2 ^ 53)
    (start : (∃ s : Int, least = s) ∨ ∃ n, Held used least n)
    (some_free : ∃ k, k ≤ 2 ^ 53 ∧ FreeId used least skip k) :
    ∃ id, NextId used least skip id ∧
      ∃ enough, ∀ fuel, enough ≤ fuel →
        nextSmallerVmid used (.finite least) skip fuel = some (.finite id) := by
  obtain ⟨k, most, free⟩ := some_free
  by_cases none_used : usedIds used (.finite least) = []
  · have unheld (n : Int) : ¬Held used least n := fun held => by
      have listed := mem_usedIds.mpr ⟨n, rfl, held⟩
      rw [none_used] at listed
      cases listed
    obtain ⟨s, rfl⟩ := start.resolve_right fun ⟨n, held⟩ => unheld n held
    have from_start {j : Int} (free : FreeId used s skip j) : s ≤ j :=
      Int.cast_le.mp free.least_le
    obtain ⟨id, found, first, enough, leaves⟩ := stepUp_leaves le_rfl
      (le_of_lt (by exact_mod_cast low)) ⟨k, from_start free, most, free⟩
    refine ⟨id, ⟨found, fun highest greatest => (unheld highest greatest.1).elim,
      fun _ j free => first j (from_start free) free⟩, enough, fun fuel le => ?_⟩
    rw [nextSmallerVmid, if_pos none_used]
    exact leaves fuel le
  · obtain ⟨m, value, greatest⟩ := maxOf_usedIds none_used
    have bound := high m greatest.1
    have above : -(2 ^ 53 : Int) < m := by exact_mod_cast low.trans_le greatest.1.2
    have below_max : (Double.finite m).sub (.finite 1) = .finite (m - 1 : Int) :=
      sub_one (by omega)
    rcases stepDown_leaves low bound with ⟨id, less, found, last, enough, leaves⟩ |
      ⟨nothing, enough, leaves⟩
    · refine ⟨id, ⟨found, fun highest other k free below => ?_, fun nothing => ?_⟩, enough,
        fun fuel le => ?_⟩
      · rw [other.unique greatest] at below ⊢
        exact ⟨less, last k below free⟩
      · exact (nothing m greatest id found less).elim
      · rw [nextSmallerVmid, if_neg none_used, value, below_max, leaves fuel le]
        rfl
    · have beyond {j : Int} (free : FreeId used least skip j) : m + 1 ≤ j := by
        have least := nothing j free
        have other : j ≠ m := fun same => free.unused (same ▸ greatest.1.1)
        omega
      have inside : least ≤ ((m + 1 : Int) : Rat) :=
        greatest.1.2.trans (Int.cast_le.mpr (by omega))
      have bound := beyond free
      obtain ⟨id, found, first, enough', leaves'⟩ := stepUp_leaves inside (by omega)
        ⟨k, beyond free, most, free⟩
      have above_max : (Double.finite m).add (.finite 1) = .finite (m + 1 : Int) :=
        add_one (by omega)
      refine ⟨id, ⟨found, fun highest other k free below => ?_, fun _ j free =>
        first j (beyond free) free⟩, max enough enough', fun fuel le => ?_⟩
      · rw [other.unique greatest] at below
        exact (nothing k free below).elim
      · rw [nextSmallerVmid, if_neg none_used, value, below_max,
          leaves fuel ((le_max_left _ _).trans le), Option.bind_some, above_max]
        exact leaves' fuel ((le_max_right _ _).trans le)

end

theorem nextSmallerVmid_law_skipped :
    ∃ id, NextId [.finite (243 : Int), .finite (244 : Int), .nan] 100
        (fun id => id = .finite (242 : Int)) id ∧
      ∃ enough, ∀ fuel, enough ≤ fuel →
        nextSmallerVmid [.finite (243 : Int), .finite (244 : Int), .nan] (.finite 100)
          (fun id => id = .finite (242 : Int)) fuel = some (.finite id) := by
  refine nextSmallerVmid_law (by norm_num) ?_ (.inl ⟨100, rfl⟩) ⟨241, by norm_num, ?_⟩
  · rintro n ⟨listed, -⟩
    simp only [List.mem_cons, List.not_mem_nil, or_false, Double.finite.injEq, reduceCtorEq,
      Int.cast_inj] at listed
    omega
  · exact ⟨by norm_num, by decide, by decide⟩

/-- From `2 ^ 53` on the loop up stays where it is, though a free id follows; and a minimum that is
no whole number is given out when it is used. -/
theorem nextSmallerVmid_stuck :
    (FreeId [.finite (2 ^ 53)] (2 ^ 53) (fun _ => false) (2 ^ 53 + 2) ∧
      ∀ fuel, nextSmallerVmid [.finite (2 ^ 53)] (.finite (2 ^ 53)) (fun _ => false) fuel = none) ∧
    nextSmallerVmid [.finite (199 / 2)] (.finite (199 / 2)) (fun _ => false) 1 =
      some (.finite (199 / 2)) := by
  refine ⟨⟨⟨by norm_num, by decide +kernel, rfl⟩, fun fuel => ?_⟩, by decide +kernel⟩
  have held : usedIds [.finite (2 ^ 53)] (.finite (2 ^ 53)) = [.finite (2 ^ 53)] := by
    decide +kernel
  have below : stepDown [.finite (2 ^ 53)] (.finite (2 ^ 53)) (fun _ => false)
      ((maxOf [.finite (2 ^ 53)]).sub (.finite 1)) = .inr none := by
    decide +kernel
  have above : (maxOf [.finite (2 ^ 53)]).add (.finite 1) = .finite (2 ^ 53) := by decide +kernel
  have stuck : stepUp [.finite (2 ^ 53)] (.finite (2 ^ 53)) (fun _ => false) (.finite (2 ^ 53)) =
      .inl (.finite (2 ^ 53)) := by
    decide +kernel
  rw [nextSmallerVmid, held, if_neg (List.cons_ne_nil _ _), above, run_of_stuck stuck]
  cases fuel with
  | zero => rfl
  | succ fuel =>
      rw [run_of_inr below]
      rfl

end Proxora
