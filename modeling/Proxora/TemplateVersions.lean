import Mathlib.Order.PiLex
import Proxora.VersionOrder

/-!
# The order of template versions

`compareTemplateVersion` of `lib/lxc-templates.ts`, and the sort of templates and ISO images by it.
A version is compared by the numbers between its dots and hyphens, with zeros behind them:
`versionRank` is that sequence of numbers, and `isNewerVersion_iff` and `newestFirst_iff` say that the
comparison is the lexicographic order of the ranks. The first item of a sorted list has the greatest
rank (`rank_le_of_head`).
-/

namespace Proxora

open Ecma

/-- What the language makes of letters. `localeCompare` is an order of the texts. -/
structure Letters where
  toLowerCase : Text → Text
  toUpperCase : Text → Text
  localeCompare : Text → Text → Int
  flip : ∀ a b, 0 ≤ localeCompare a b ↔ localeCompare b a ≤ 0
  trans : ∀ a b c, localeCompare a b ≤ 0 → localeCompare b c ≤ 0 → localeCompare a c ≤ 0

/-- `String(v).trim().split(/[.-]/).map(…)`. -/
def templateNumbers (v : Text) : List Double :=
  (split '.' ((trim v).map fun c => if c = '-' then '.' else c)).map versionPart

/-- The loop of `compareTemplateVersion`. -/
def compareNumbers : List (Double × Double) → Double
  | [] => .finite 0
  | (da, db) :: rest => if da ≠ db then da.sub db else compareNumbers rest

def compareTemplateVersion (a b : Text) : Double :=
  let pa := templateNumbers a
  let pb := templateNumbers b
  let len := max pa.length pb.length
  compareNumbers ((List.range len).map fun i => (pa.getD i (.finite 0), pb.getD i (.finite 0)))

/-- `compareTemplateVersion(a, b) > 0`. -/
def isNewerVersion (a b : Text) : Bool := (Double.finite 0).lt (compareTemplateVersion a b)

/-- The newer version comes first, and of two names for one version the later one; the difference
of two versions is never `NaN`. -/
def newestFirst {α : Type} (letters : Letters) (version name : α → Text) (a b : α) : Bool :=
  let order := compareTemplateVersion (version b) (version a)
  if order ≠ .finite 0 then order.lt (.finite 0)
  else letters.localeCompare (name b) (name a) ≤ 0

/-! ## Ranks -/

section Ranks

variable {a b v : Text} {x : Double}

/-- Sequences of numbers, in lexicographic order. -/
def VersionRank : Type := Lex (ℕ → ℕ∞)

noncomputable instance VersionRank.linearOrder : LinearOrder VersionRank :=
  inferInstanceAs (LinearOrder (Lex (ℕ → ℕ∞)))

theorem VersionRank.lt_of_first {r s : ℕ → ℕ∞} {i : Nat} (same : ∀ j < i, r j = s j)
    (below : r i < s i) : (toLex r : VersionRank) < toLex s :=
  ⟨i, same, below⟩

/-- The numbers of a version, with zeros behind them. -/
noncomputable def versionNumber (v : Text) (i : Nat) : ℕ∞ :=
  ((templateNumbers v).getD i (.finite 0)).count

noncomputable def versionRank (v : Text) : VersionRank := toLex (versionNumber v)

theorem isCount_of_mem_templateNumbers (member : x ∈ templateNumbers v) : x.IsCount := by
  obtain ⟨w, inside, rfl⟩ := List.mem_map.mp member
  refine isCount_versionPart fun hyphen => ?_
  obtain ⟨c, -, same⟩ := List.mem_map.mp (mem_of_mem_split inside hyphen)
  split_ifs at same with mark
  · cases same
  · exact mark same

theorem isCount_getD (v : Text) (i : Nat) : ((templateNumbers v).getD i (.finite 0)).IsCount := by
  rw [List.getD_eq_getElem?_getD]
  cases found : (templateNumbers v)[i]? with
  | none => exact .inl ⟨0, by rw [Nat.cast_zero]; rfl⟩
  | some x => exact isCount_of_mem_templateNumbers (List.mem_of_getElem? found)

/-- The loop stops at the first difference, if there is one. -/
theorem compareNumbers_cases (f g : Nat → Double) (start len : Nat) :
    (compareNumbers ((List.range' start len).map fun i => (f i, g i)) = .finite 0 ∧
        ∀ i, start ≤ i → i < start + len → f i = g i) ∨
      ∃ i, (∀ j, start ≤ j → j < i → f j = g j) ∧ f i ≠ g i ∧
        compareNumbers ((List.range' start len).map fun i => (f i, g i)) = (f i).sub (g i) := by
  induction len generalizing start with
  | zero => exact .inl ⟨rfl, fun i least most => by omega⟩
  | succ len ih =>
      rw [List.range'_succ, List.map_cons, compareNumbers]
      by_cases same : f start = g start
      · rw [if_neg (not_not.mpr same)]
        rcases ih (start + 1) with ⟨zero, equal⟩ | ⟨i, equal, apart, difference⟩
        · refine .inl ⟨zero, fun i least most => ?_⟩
          rcases Nat.eq_or_lt_of_le least with rfl | further
          · exact same
          · exact equal i further (by omega)
        · refine .inr ⟨i, fun j least most => ?_, apart, difference⟩
          rcases Nat.eq_or_lt_of_le least with rfl | further
          · exact same
          · exact equal j further most
      · rw [if_pos same]
        exact .inr ⟨start, fun j least most => by omega, same, rfl⟩

/-- The sign of the comparison is the order of the ranks. -/
theorem compareTemplateVersion_cases (a b : Text) :
    (compareTemplateVersion a b = .finite 0 ∧ versionRank a = versionRank b) ∨
      ((compareTemplateVersion a b).Positive ∧ versionRank b < versionRank a) ∨
        ((compareTemplateVersion a b).Negative ∧ versionRank a < versionRank b) := by
  rw [compareTemplateVersion, List.range_eq_range']
  rcases compareNumbers_cases (fun i => (templateNumbers a).getD i (.finite 0))
    (fun i => (templateNumbers b).getD i (.finite 0)) 0
    (max (templateNumbers a).length (templateNumbers b).length) with
    ⟨zero, equal⟩ | ⟨i, equal, apart, difference⟩
  · refine .inl ⟨zero, congrArg toLex (funext fun i => congrArg Double.count ?_)⟩
    rcases Nat.lt_or_ge i (max (templateNumbers a).length (templateNumbers b).length) with
      inside | outside
    · exact equal i (Nat.zero_le i) (by omega)
    · rw [List.getD_eq_default _ _ ((le_max_left _ _).trans outside),
        List.getD_eq_default _ _ ((le_max_right _ _).trans outside)]
  · have left := isCount_getD a i
    have right := isCount_getD b i
    have same (j : Nat) (before : j < i) : versionNumber a j = versionNumber b j :=
      congrArg Double.count (equal j (Nat.zero_le j) before)
    rw [difference]
    rcases lt_trichotomy (versionNumber a i) (versionNumber b i) with below | level | above
    · exact .inr (.inr ⟨sub_neg_of_count left right below, VersionRank.lt_of_first same below⟩)
    · exact absurd ((Double.eq_iff_count left right).mpr level) apart
    · exact .inr (.inl ⟨sub_pos_of_count left right above,
        VersionRank.lt_of_first (fun j before => (same j before).symm) above⟩)

theorem not_positive {x : Double} (negative : x.Negative) : ¬ x.Positive :=
  Bool.eq_false_iff.mp (not_positive_of_negative negative)

theorem isNewerVersion_iff : isNewerVersion a b = true ↔ versionRank b < versionRank a := by
  rw [isNewerVersion]
  rcases compareTemplateVersion_cases a b with ⟨zero, same⟩ | ⟨positive, above⟩ | ⟨negative, below⟩
  · rw [zero, same]
    exact iff_of_false (by decide) (lt_irrefl _)
  · exact iff_of_true positive above
  · exact iff_of_false (not_positive negative) (lt_asymm below)

/-- The order that lists are sorted by. -/
theorem newestFirst_iff {α : Type} {letters : Letters} {version name : α → Text} {x y : α} :
    newestFirst letters version name x y = true ↔
      versionRank (version y) < versionRank (version x) ∨
        (versionRank (version y) = versionRank (version x) ∧
          letters.localeCompare (name y) (name x) ≤ 0) := by
  rw [newestFirst]
  rcases compareTemplateVersion_cases (version y) (version x) with
    ⟨zero, same⟩ | ⟨positive, above⟩ | ⟨negative, below⟩
  · rw [zero, if_neg (not_not.mpr rfl), decide_eq_true_iff, same,
      or_iff_right (lt_irrefl (versionRank (version x))), and_iff_right rfl]
  · have apart : compareTemplateVersion (version y) (version x) ≠ .finite 0 := by
      intro zero
      rw [zero] at positive
      cases positive
    rw [if_pos apart]
    refine iff_of_false (fun negative => not_positive negative positive) fun first => ?_
    rcases first with below | ⟨level, -⟩
    · exact lt_asymm above below
    · exact above.ne' level
  · have apart : compareTemplateVersion (version y) (version x) ≠ .finite 0 := by
      intro zero
      rw [zero] at negative
      cases negative
    rw [if_pos apart]
    exact iff_of_true negative (.inl below)

end Ranks

/-! ## Sorted lists -/

/-- The first item of a sorted list comes before all items. -/
theorem le_of_head_mergeSort {α : Type} {le : α → α → Bool} {items : List α} {first x : α}
    (head : (items.mergeSort le).head? = some first)
    (trans : ∀ a b c, le a b = true → le b c = true → le a c = true)
    (total : ∀ a b, (le a b || le b a) = true) (member : x ∈ items) :
    x = first ∨ le first x = true := by
  have sorted := List.pairwise_mergeSort trans total items
  obtain ⟨rest, form⟩ := List.head?_eq_some_iff.mp head
  have inSorted : x ∈ items.mergeSort le := (List.mergeSort_perm items le).mem_iff.mpr member
  rw [form] at sorted inSorted
  exact (List.mem_cons.mp inSorted).imp_right (List.rel_of_pairwise_cons sorted)

section Newest

variable {α : Type} {letters : Letters} {version name : α → Text} {items : List α} {first x y z : α}

theorem newestFirst_trans (left : newestFirst letters version name x y = true)
    (right : newestFirst letters version name y z = true) :
    newestFirst letters version name x z = true := by
  rw [newestFirst_iff] at left right ⊢
  rcases left with before | ⟨same, named⟩
  · rcases right with later | ⟨level, -⟩
    · exact .inl (later.trans before)
    · exact .inl (level ▸ before)
  · rcases right with later | ⟨level, more⟩
    · exact .inl (same ▸ later)
    · exact .inr ⟨level.trans same, letters.trans _ _ _ more named⟩

theorem newestFirst_total :
    (newestFirst letters version name x y || newestFirst letters version name y x) = true := by
  rw [Bool.or_eq_true, newestFirst_iff, newestFirst_iff]
  rcases lt_trichotomy (versionRank (version x)) (versionRank (version y)) with
    below | level | above
  · exact .inr (.inl below)
  · rcases le_total (letters.localeCompare (name y) (name x)) 0 with first | second
    · exact .inl (.inr ⟨level.symm, first⟩)
    · exact .inr (.inr ⟨level, (letters.flip _ _).mp second⟩)
  · exact .inl (.inl above)

/-- The first item has the greatest version. -/
theorem rank_le_of_head
    (head : (items.mergeSort (newestFirst letters version name)).head? = some first)
    (member : x ∈ items) : versionRank (version x) ≤ versionRank (version first) := by
  rcases le_of_head_mergeSort head (fun _ _ _ => newestFirst_trans) (fun _ _ => newestFirst_total)
    member with rfl | before
  · exact le_refl _
  · rcases newestFirst_iff.mp before with below | ⟨level, -⟩
    · exact below.le
    · exact level.le

/-- What is newer than the first item is newer than all items. -/
theorem isNewerVersion_of_head {latest : Text}
    (head : (items.mergeSort (newestFirst letters version name)).head? = some first)
    (newer : isNewerVersion latest (version first) = true) (member : x ∈ items) :
    isNewerVersion latest (version x) = true := by
  rw [isNewerVersion_iff] at newer ⊢
  exact (rank_le_of_head head member).trans_lt newer

end Newest

end Proxora
