import Proxora.Ecma.Counts
import Proxora.Ecma.Lines
import Proxora.WireguardConf

/-!
# The order of versions

`lib/version.ts` compares two versions by their first three parts, and `pickLatestSemverTag` of
`services/github-revision.ts` searches the latest tag of a list. A part is a double; a version of
fewer than three parts has undefined ones.

`versionOrder_law` says for which versions the comparison is an order, that it does not look at a
leading `v` or at a suffix, and which tag is picked.
-/

namespace Proxora

open Ecma

/-! ## Definitions -/

/-- `v.replace(/^v/i, "")`. -/
def withoutV (s : Text) : Text := if startsWith s "v" || startsWith s "V" then s.drop 1 else s

/-- `[-+]`. -/
def isVersionMark (c : Char) : Bool := c = '-' || c = '+'

/-- `Number.parseInt(n, 10) || 0`. -/
def versionPart (s : Text) : Double :=
  let n : Double := (parseInt s).elim .nan fun n => .ofRat n
  if n = .nan then .finite 0 else n

/-- `clean.split(".").map(…)`. -/
def versionNumbers (clean : Text) : List Double := (split '.' clean).map versionPart

/-- `clean` of `parse`. -/
def cleanVersion (v : Text) : Text := (withoutV (trim v)).takeWhile (!isVersionMark ·)

/-- `parse`; a part that is missing is undefined. -/
def parseVersion (v : Text) : List (Option Double) :=
  let numbers := versionNumbers (cleanVersion v)
  [numbers[0]?, numbers[1]?, numbers[2]?]

/-- `x - y`, for operands that may be undefined. -/
def minus : Option Double → Option Double → Double
  | some x, some y => x.sub y
  | _, _ => .nan

/-- The loop of `compareSemver`; no part is `NaN`. -/
def compareFrom : List (Option Double × Option Double) → Double
  | [] => .finite 0
  | (x, y) :: rest => if x ≠ y then minus x y else compareFrom rest

def compareSemver (a b : Text) : Double := compareFrom ((parseVersion a).zip (parseVersion b))

def newerVersion (current : Text) (candidate : Option Text) : Option Text :=
  match candidate with
  | none => none
  | some candidate =>
      if candidate = [] then none
      else if (Double.finite 0).lt (compareSemver candidate current) then some candidate
      else none

/-- `/^\d+$/`. -/
def isPlainNumber (s : Text) : Bool := s ≠ [] && s.all Char.isDigit

/-- `/^\d+\.\d+\.\d+$/`. -/
def isPlainVersion (s : Text) : Bool :=
  match split '.' s with
  | [maj, min, pat] => isPlainNumber maj && isPlainNumber min && isPlainNumber pat
  | _ => false

/-- The variables of `pickLatestSemverTag`. -/
structure BestTag where
  best : Option Text
  maj : Double
  min : Double
  pat : Double

/-- What a tag is called: trimmed, with a `v` before it. -/
def tagName (raw : Text) : Text :=
  let trimmed := trim raw
  if startsWith trimmed "v" || startsWith trimmed "V" then trimmed else 'v' :: withoutV trimmed

/-- The body of the loop over the tags. -/
def pickTag (state : BestTag) (raw : Text) : BestTag :=
  let version := withoutV (trim raw)
  if !isPlainVersion version then state
  else
    match versionNumbers version with
    | [maj, min, pat] =>
        if state.maj.lt maj || (maj = state.maj && state.min.lt min) ||
            (maj = state.maj && min = state.min && state.pat.lt pat) then
          ⟨some (tagName raw), maj, min, pat⟩
        else state
    | _ => state

def pickLatestSemverTag (tags : List Text) : Option Text :=
  (tags.foldl pickTag ⟨none, .finite (-1), .finite (-1), .finite (-1)⟩).best

example : pickLatestSemverTag ["v1.0.9", "1.0.73", "v1.0.8", "nightly"] =
    some ("v1.0.73" : Text) := by
  decide +kernel

/-! ## Parts -/

section Parts

variable {a b s w : Text} {c : Char}

/-- The parts that count. -/
def versionParts (v : Text) : List Double := (versionNumbers (cleanVersion v)).take 3

theorem parseVersion_eq (v : Text) :
    parseVersion v = (List.range 3).map fun i => (versionParts v)[i]? := by
  unfold parseVersion versionParts
  generalize versionNumbers (cleanVersion v) = numbers
  have inside (i : Nat) (small : i < 3) : (numbers.take 3)[i]? = numbers[i]? :=
    List.getElem?_take_of_lt small
  dsimp only [List.range, List.range.loop, List.map]
  rw [inside 0 (by decide), inside 1 (by decide), inside 2 (by decide)]

/-- A text without a hyphen is no negative number. -/
theorem parseInt_unsigned (free : '-' ∉ w) :
    parseInt w = none ∨ ∃ n : Nat, parseInt w = some (n : Int) := by
  have unsigned : (w.dropWhile isSpace).head? ≠ some '-' := by
    intro head
    exact free ((List.dropWhile_sublist _).subset (List.mem_of_mem_head? head))
  unfold parseInt
  dsimp only
  rw [if_neg unsigned]
  generalize (if ((w.dropWhile isSpace).head? = some '-' || (w.dropWhile isSpace).head? = some '+')
    then (w.dropWhile isSpace).tail else w.dropWhile isSpace).takeWhile Char.isDigit = digits
  split
  · exact .inl rfl
  · exact .inr ⟨_, rfl⟩

theorem versionPart_of_none (none_read : parseInt w = none) : versionPart w = .finite 0 := by
  unfold versionPart
  rw [none_read]
  rfl

theorem isCount_versionPart (free : '-' ∉ w) : (versionPart w).IsCount := by
  rcases parseInt_unsigned free with none_read | ⟨n, read⟩
  · rw [versionPart_of_none none_read]
    exact .inl ⟨0, by rw [Nat.cast_zero]⟩
  · have counts : (Double.ofRat ((n : Int) : Rat)).IsCount := by
      rw [Int.cast_natCast]
      exact isCount_ofRat n
    have number : versionPart w = Double.ofRat ((n : Int) : Rat) := by
      unfold versionPart
      rw [read]
      exact if_neg (Double.ne_nan_of_isCount counts)
    rw [number]
    exact counts

theorem isCount_of_mem_versionParts {v : Text} {x : Double} (member : x ∈ versionParts v) :
    x.IsCount := by
  obtain ⟨w, inside, rfl⟩ := List.mem_map.mp (List.mem_of_mem_take member)
  refine isCount_versionPart fun hyphen => ?_
  have inClean := mem_of_mem_split inside hyphen
  have plain := List.mem_takeWhile_imp inClean
  cases plain

end Parts

/-! ## Comparing parts -/

section Comparing

variable {A B : List Double} {d : Double}

/-- The comparison over the parts that there are. -/
def compareParts : List Double → List Double → Double
  | [], [] => .finite 0
  | x :: A, y :: B => if x = y then compareParts A B else x.sub y
  | _, _ => .nan

theorem compareFrom_eq (n : Nat) (left : A.length ≤ n) (right : B.length ≤ n) :
    compareFrom (((List.range n).map fun i => A[i]?).zip ((List.range n).map fun i => B[i]?)) =
      compareParts A B := by
  induction n generalizing A B with
  | zero =>
      rw [List.eq_nil_of_length_eq_zero (Nat.le_zero.mp left),
        List.eq_nil_of_length_eq_zero (Nat.le_zero.mp right)]
      rfl
  | succ n ih =>
      have step (C : List Double) : ((List.range (n + 1)).map fun i => C[i]?) =
          C[0]? :: (List.range n).map fun i => C.tail[i]? := by
        rw [List.range_succ_eq_map, List.map_cons, List.map_map]
        congr 1
        refine List.map_congr_left fun i _ => ?_
        cases C <;> rfl
      rw [step, step, List.zip_cons_cons]
      cases A with
      | nil =>
          cases B with
          | nil =>
              rw [compareFrom, if_neg (fun apart => apart rfl)]
              exact ih (A := []) (B := []) (Nat.zero_le n) (Nat.zero_le n)
          | cons y B =>
              rw [compareFrom, if_pos (by simp)]
              rfl
      | cons x A =>
          cases B with
          | nil =>
              rw [compareFrom, if_pos (by simp)]
              rfl
          | cons y B =>
              rw [List.length_cons] at left right
              have later := ih (A := A) (B := B) (by omega) (by omega)
              rw [compareFrom, compareParts]
              by_cases same : x = y
              · subst same
                rw [if_neg (fun apart => apart rfl), if_pos rfl]
                exact later
              · have apart : (x :: A)[0]? ≠ (y :: B)[0]? :=
                  fun equal => same (Option.some.inj equal)
                rw [if_neg same, if_pos apart]
                rfl

/-- The places of the parts. -/
noncomputable def ranks (A : List Double) : List ℕ∞ := A.map Double.count

/-- What a comparison says. -/
inductive Compared (A B : List Double) (d : Double) : Prop
  | same (equal : A = B) (zero : d = .finite 0)
  | cut (other : A ≠ B) (begins : A <+: B ∨ B <+: A) (undefined : d = .nan)
  | below (left : ¬A <+: B) (right : ¬B <+: A) (less : ranks A < ranks B) (sign : d.Negative)
  | above (left : ¬A <+: B) (right : ¬B <+: A) (less : ranks B < ranks A) (sign : d.Positive)

theorem compared (left : ∀ x ∈ A, x.IsCount) (right : ∀ x ∈ B, x.IsCount) :
    Compared A B (compareParts A B) := by
  induction A generalizing B with
  | nil =>
      cases B with
      | nil => exact .same rfl rfl
      | cons y B => exact .cut (List.cons_ne_nil y B).symm (.inl List.nil_prefix) rfl
  | cons x A ih =>
      cases B with
      | nil => exact .cut (List.cons_ne_nil x A) (.inr List.nil_prefix) rfl
      | cons y B =>
          have count_x := left x List.mem_cons_self
          have count_y := right y List.mem_cons_self
          rw [compareParts]
          by_cases same : x = y
          · subst same
            rw [if_pos rfl]
            cases ih (fun z inside => left z (List.mem_cons_of_mem x inside))
                fun z inside => right z (List.mem_cons_of_mem x inside) with
            | same equal zero => exact .same (by rw [equal]) zero
            | cut other begins undefined =>
                refine .cut (fun equal => other (List.cons.inj equal).2) ?_ undefined
                exact begins.imp (fun inside => List.cons_prefix_cons.mpr ⟨rfl, inside⟩)
                  fun inside => List.cons_prefix_cons.mpr ⟨rfl, inside⟩
            | below left right less sign =>
                exact .below (fun begins => left (List.cons_prefix_cons.mp begins).2)
                  (fun begins => right (List.cons_prefix_cons.mp begins).2)
                  (List.cons_lt_cons_iff.mpr (.inr ⟨rfl, less⟩)) sign
            | above left right less sign =>
                exact .above (fun begins => left (List.cons_prefix_cons.mp begins).2)
                  (fun begins => right (List.cons_prefix_cons.mp begins).2)
                  (List.cons_lt_cons_iff.mpr (.inr ⟨rfl, less⟩)) sign
          · rw [if_neg same]
            have apart : ¬x :: A <+: y :: B := fun begins =>
              same (List.cons_prefix_cons.mp begins).1
            have apart' : ¬y :: B <+: x :: A := fun begins =>
              same (List.cons_prefix_cons.mp begins).1.symm
            have other : x.count ≠ y.count := fun equal =>
              same ((Double.eq_iff_count count_x count_y).mpr equal)
            rcases lt_or_gt_of_ne other with less | more
            · exact .below apart apart' (List.cons_lt_cons_iff.mpr (.inl less))
                (sub_neg_of_count count_x count_y less)
            · exact .above apart apart' (List.cons_lt_cons_iff.mpr (.inl more))
                (sub_pos_of_count count_x count_y more)

theorem compared_compareSemver (a b : Text) :
    Compared (versionParts a) (versionParts b) (compareSemver a b) := by
  have short (v : Text) : (versionParts v).length ≤ 3 := List.length_take_le _ _
  unfold compareSemver
  rw [parseVersion_eq, parseVersion_eq, compareFrom_eq 3 (short a) (short b)]
  exact compared (fun x => isCount_of_mem_versionParts) fun x => isCount_of_mem_versionParts

end Comparing

/-! ## The order -/

section Order

variable {a b c v w s tag best : Text}

/-- The parts of `a` are the first ones of `b`, which has more. -/
def Truncates (a b : Text) : Prop :=
  versionParts a <+: versionParts b ∧ versionParts a ≠ versionParts b

/-- `Math.sign(x)`, where it is not `NaN`. -/
def signOf (x : Double) : Int :=
  if x.lt (.finite 0) then -1 else if (Double.finite 0).lt x then 1 else 0

/-- `x <= 0`. -/
def AtMostZero (x : Double) : Prop := x.le (.finite 0) = true

/-- The comparison is a total preorder of three versions. -/
structure OrderLaws (a b c : Text) : Prop where
  numbers : ∀ x ∈ [a, b, c], ∀ y ∈ [a, b, c], compareSemver x y ≠ .nan
  antisymmetric : ∀ x ∈ [a, b, c], ∀ y ∈ [a, b, c],
    signOf (compareSemver x y) = -signOf (compareSemver y x)
  transitive : ∀ x ∈ [a, b, c], ∀ y ∈ [a, b, c], ∀ z ∈ [a, b, c],
    AtMostZero (compareSemver x y) → AtMostZero (compareSemver y z) →
      AtMostZero (compareSemver x z)

theorem not_positive_of_negative {x : Double} (negative : x.Negative) :
    (Double.finite 0).lt x = false := by
  cases x with
  | finite q =>
      unfold Double.Negative Double.lt at negative
      rw [decide_eq_true_eq] at negative
      rw [Double.lt, decide_eq_false_iff_not, not_lt]
      exact negative.le
  | infinity sign =>
      cases sign with
      | true => rfl
      | false => cases negative
  | nan => cases negative

/-- Where a comparison is a number, it is one by the places of the parts. -/
theorem compareSemver_spec (left : ¬Truncates a b) (right : ¬Truncates b a) :
    compareSemver a b ≠ .nan ∧
      (AtMostZero (compareSemver a b) ↔ ranks (versionParts a) ≤ ranks (versionParts b)) ∧
        signOf (compareSemver a b) =
          if ranks (versionParts a) < ranks (versionParts b) then -1
          else if ranks (versionParts b) < ranks (versionParts a) then 1 else 0 := by
  cases compared_compareSemver a b with
  | same equal zero =>
      rw [zero, equal]
      have most : AtMostZero (.finite 0) := by
        unfold AtMostZero
        decide
      refine ⟨Double.noConfusion, iff_of_true most (le_refl _), ?_⟩
      rw [if_neg (lt_irrefl _), if_neg (lt_irrefl _)]
      decide
  | cut other begins undefined =>
      rcases begins with begins | begins
      · exact absurd ⟨begins, other⟩ left
      · exact absurd ⟨begins, other.symm⟩ right
  | below apart apart' less sign =>
      refine ⟨?_, iff_of_true ?_ less.le, ?_⟩
      · intro undefined
        rw [undefined] at sign
        cases sign
      · unfold Double.Negative at sign
        rw [AtMostZero, Double.le, sign, Bool.true_or]
      · unfold Double.Negative at sign
        rw [if_pos less, signOf, if_pos sign]
  | above apart apart' less sign =>
      have positive : ¬(compareSemver a b).lt (.finite 0) = true := by
        intro negative
        have never := not_positive_of_negative negative
        rw [sign] at never
        cases never
      refine ⟨?_, iff_of_false ?_ (not_le.mpr less), ?_⟩
      · intro undefined
        rw [undefined] at sign
        cases sign
      · intro most
        rw [AtMostZero, Double.le, Bool.or_eq_true] at most
        rcases most with negative | zero
        · exact positive negative
        · rw [Bool.and_eq_true, decide_eq_true_eq] at zero
          rw [zero.1] at sign
          cases sign
      · unfold Double.Positive at sign
        rw [if_neg less.not_gt, if_pos less, signOf, if_neg positive, if_pos sign]

theorem compareSemver_of_truncates (cut : Truncates a b ∨ Truncates b a) :
    compareSemver a b = .nan := by
  have begins : versionParts a <+: versionParts b ∨ versionParts b <+: versionParts a :=
    cut.imp And.left And.left
  have other : versionParts a ≠ versionParts b := cut.elim And.right fun back => back.2.symm
  cases compared_compareSemver a b with
  | same equal _ => exact absurd equal other
  | cut _ _ undefined => exact undefined
  | below apart apart' _ _ => exact absurd begins (not_or.mpr ⟨apart, apart'⟩)
  | above apart apart' _ _ => exact absurd begins (not_or.mpr ⟨apart, apart'⟩)

/-- **Which versions are ordered**: those of which none is another one cut short. -/
theorem orderLaws_iff : OrderLaws a b c ↔
    ∀ x ∈ [a, b, c], ∀ y ∈ [a, b, c], ¬Truncates x y := by
  refine ⟨fun laws x inside y among cut => ?_, fun apart => ?_⟩
  · exact laws.numbers x inside y among (compareSemver_of_truncates (.inl cut))
  · have spec {x y : Text} (inside : x ∈ [a, b, c]) (among : y ∈ [a, b, c]) :=
      compareSemver_spec (apart x inside y among) (apart y among x inside)
    refine ⟨fun x inside y among => (spec inside among).1, fun x inside y among => ?_, ?_⟩
    · rw [(spec inside among).2.2, (spec among inside).2.2]
      rcases lt_trichotomy (ranks (versionParts x)) (ranks (versionParts y)) with less | same | more
      · rw [if_pos less, if_neg less.not_gt, if_pos less]
      · rw [same, if_neg (lt_irrefl _), if_neg (lt_irrefl _)]
        rfl
      · rw [if_neg more.not_gt, if_pos more, if_pos more]
        rfl
    · intro x inside y among z within first second
      rw [(spec inside among).2.1] at first
      rw [(spec among within).2.1] at second
      rw [(spec inside within).2.1]
      exact first.trans second

/-- A version of two parts is not compared with the one of three that it begins. -/
theorem not_orderLaws : ¬OrderLaws "1.2" "1.2.0" "1.3" := by
  intro laws
  have undefined : compareSemver "1.2" "1.2.0" = .nan := by decide +kernel
  exact laws.numbers _ List.mem_cons_self _ (List.mem_cons_of_mem _ List.mem_cons_self) undefined

end Order

/-! ## What is not looked at -/

section Marks

variable {s t w : Text} {c : Char}

/-- Whether a text begins with `v`. -/
def beginsWithV (s : Text) : Bool := startsWith s "v" || startsWith s "V"

theorem withoutV_of_not (other : beginsWithV s = false) : withoutV s = s := by
  unfold withoutV
  unfold beginsWithV at other
  rw [other, if_neg Bool.false_ne_true]

theorem withoutV_cons (letter : c = 'v' ∨ c = 'V') (s : Text) : withoutV (c :: s) = s := by
  rcases letter with rfl | rfl
  · rfl
  · rfl

theorem withoutV_append (kept : s ≠ [] ∨ beginsWithV t = false) :
    withoutV (s ++ t) = withoutV s ++ t := by
  cases s with
  | nil => exact withoutV_of_not (kept.resolve_left (fun other => other rfl))
  | cons d s =>
      have same : beginsWithV (d :: s ++ t) = beginsWithV (d :: s) := by
        unfold beginsWithV startsWith
        rfl
      have unfolded (x : Text) : withoutV x = if beginsWithV x then x.drop 1 else x := rfl
      rw [unfolded, unfolded, same]
      split
      · rfl
      · rfl

theorem apart_of_isSpace (space : isSpace c = true) :
    c ≠ '.' ∧ isVersionMark c = false ∧ c.isDigit = false := by
  refine ⟨?_, ?_, ?_⟩
  · rintro rfl
    cases space
  · by_contra mark
    rw [Bool.not_eq_false] at mark
    rcases (Bool.or_eq_true _ _).mp mark with hyphen | plus
    · rw [of_decide_eq_true hyphen] at space
      cases space
    · rw [of_decide_eq_true plus] at space
      cases space
  · by_contra digit
    rw [Bool.not_eq_false] at digit
    rw [isSpace_of_isDigit digit] at space
    cases space

/-- White space before a number is passed over. -/
theorem versionPart_cons_space (space : isSpace c = true) (w : Text) :
    versionPart (c :: w) = versionPart w := by
  unfold versionPart parseInt
  rw [List.dropWhile_cons_of_pos space]

/-- White space behind a number is passed over. -/
theorem versionPart_append_space (space : isSpace c = true) (w : Text) :
    versionPart (w ++ [c]) = versionPart w := by
  have digits (x : Text) : (x ++ [c]).takeWhile Char.isDigit = x.takeWhile Char.isDigit := by
    rw [List.takeWhile_append, List.takeWhile_cons_of_neg
      (by rw [(apart_of_isSpace space).2.2]; exact Bool.false_ne_true), List.append_nil]
    split
    · next whole => exact ((List.takeWhile_prefix _).eq_of_length whole).symm
    · rfl
  have read : parseInt (w ++ [c]) = parseInt w := by
    unfold parseInt
    rw [List.dropWhile_append]
    cases rest_eq : w.dropWhile isSpace with
    | nil =>
        rw [List.isEmpty_nil, if_pos rfl, List.dropWhile_cons_of_pos space]
        rfl
    | cons d rest =>
        rw [List.isEmpty_cons, if_neg Bool.false_ne_true]
        dsimp only
        rw [List.cons_append, List.head?_cons, List.head?_cons, List.tail_cons, List.tail_cons]
        split
        · rw [digits]
        · rw [← List.cons_append, digits]
  unfold versionPart
  rw [read]

/-- The numbers before the first sign. -/
def numbersOf (w : Text) : List Double := versionNumbers (w.takeWhile (!isVersionMark ·))

theorem numbersOf_cons_space (space : isSpace c = true) (w : Text) :
    numbersOf (c :: w) = numbersOf w := by
  obtain ⟨point, mark, -⟩ := apart_of_isSpace space
  unfold numbersOf versionNumbers
  rw [List.takeWhile_cons_of_pos (by rw [mark]; rfl)]
  obtain ⟨word, words, cut⟩ :=
    List.exists_cons_of_ne_nil (split_ne_nil '.' (w.takeWhile (!isVersionMark ·)))
  rw [split_cons_ne point cut, cut, List.map_cons, List.map_cons, versionPart_cons_space space]

theorem numbersOf_append_space (space : isSpace c = true) (w : Text) :
    numbersOf (w ++ [c]) = numbersOf w := by
  obtain ⟨point, mark, -⟩ := apart_of_isSpace space
  unfold numbersOf versionNumbers
  rw [List.takeWhile_append]
  split
  · next whole =>
      rw [(List.takeWhile_prefix _).eq_of_length whole,
        List.takeWhile_cons_of_pos (by rw [mark]; rfl), List.takeWhile_nil]
      obtain ⟨front, last, before, after⟩ := split_append_last point w
      rw [before, after, List.map_append, List.map_append, List.map_singleton, List.map_singleton,
        versionPart_append_space space]
  · rfl

theorem numbersOf_append_spaces {spaces : Text} (blank : ∀ c ∈ spaces, isSpace c = true)
    (w : Text) : numbersOf (w ++ spaces) = numbersOf w := by
  induction spaces using List.reverseRecOn with
  | nil => rw [List.append_nil]
  | append_singleton spaces c ih =>
      rw [← List.append_assoc, numbersOf_append_space (blank c (by simp))]
      exact ih fun d member => blank d (List.mem_append_left [c] member)

theorem numbersOf_trimRight (w : Text) : numbersOf (trimRight w) = numbersOf w := by
  obtain ⟨spaces, form, blank⟩ := trimRight_append w
  conv_rhs => rw [form]
  exact (numbersOf_append_spaces blank _).symm

theorem numbersOf_trim (w : Text) : numbersOf (trim w) = numbersOf w := by
  induction w with
  | nil => rfl
  | cons c w ih =>
      cases space : isSpace c with
      | true => rw [trim_cons_space space, numbersOf_cons_space space, ih]
      | false => rw [trim_of_head space, numbersOf_trimRight]

/-- A leading `v` is passed over. -/
theorem versionNumbers_cons_v (letter : c = 'v' ∨ c = 'V')
    (other : beginsWithV (trim s) = false) :
    versionNumbers (cleanVersion (c :: s)) = versionNumbers (cleanVersion s) := by
  have mark : isSpace c = false := by
    rcases letter with rfl | rfl
    · decide
    · decide
  have trimmed : trim (c :: s) = c :: trimRight s := by
    rw [trim_of_head mark]
    exact trimRight_append_mark [] mark s
  unfold cleanVersion
  rw [trimmed, withoutV_cons letter, withoutV_of_not other]
  exact (numbersOf_trimRight s).trans (numbersOf_trim s).symm

/-- What follows a sign is passed over. -/
theorem versionNumbers_append_mark (mark : isVersionMark c = true) (s t : Text) :
    versionNumbers (cleanVersion (s ++ c :: t)) = versionNumbers (cleanVersion s) := by
  have visible : isSpace c = false := by
    by_contra space
    rw [Bool.not_eq_false] at space
    rw [(apart_of_isSpace space).2.1] at mark
    cases mark
  have trimmed : trim (s ++ c :: t) = s.dropWhile isSpace ++ c :: trimRight t := by
    have front : (s ++ c :: t).dropWhile isSpace = s.dropWhile isSpace ++ c :: t := by
      rw [List.dropWhile_append]
      split
      · next blank =>
          rw [List.isEmpty_iff.mp blank,
            List.dropWhile_cons_of_neg (by rw [visible]; exact Bool.false_ne_true)]
          rfl
      · rfl
    rw [trim_eq, front, trimRight_append_mark _ visible]
  have letter : beginsWithV (c :: trimRight t) = false := by
    rcases (Bool.or_eq_true _ _).mp mark with hyphen | plus
    · rw [of_decide_eq_true hyphen]
      rfl
    · rw [of_decide_eq_true plus]
      rfl
  have cut (x y : Text) : numbersOf (x ++ c :: y) = numbersOf x := by
    unfold numbersOf
    rw [List.takeWhile_append, List.takeWhile_cons_of_neg (by rw [mark]; exact Bool.false_ne_true),
      List.append_nil]
    split
    · next whole => rw [(List.takeWhile_prefix _).eq_of_length whole]
    · rfl
  unfold cleanVersion
  rw [trimmed, withoutV_append (.inr letter), trim_eq]
  refine (cut _ _).trans ?_
  obtain ⟨spaces, form, blank⟩ := trimRight_append (s.dropWhile isSpace)
  by_cases empty : trimRight (s.dropWhile isSpace) = []
  · -- what is not all white space does not begin with it
    have nothing : s.dropWhile isSpace = [] := by
      by_contra some_text
      obtain ⟨d, rest, same⟩ := List.exists_cons_of_ne_nil some_text
      have begins := List.head?_dropWhile_not isSpace s
      rw [same] at begins
      rw [same] at empty
      have kept := trimRight_append_mark [] begins rest
      rw [List.nil_append, empty] at kept
      cases kept
    rw [nothing]
    rfl
  · conv_lhs => rw [form, withoutV_append (.inl empty)]
    exact numbersOf_append_spaces blank _

theorem parseVersion_congr {a b : Text}
    (same : versionNumbers (cleanVersion a) = versionNumbers (cleanVersion b)) :
    parseVersion a = parseVersion b := by
  unfold parseVersion
  rw [same]

/-- The comparison does not look at a leading `v`, nor at what follows a sign. -/
structure IgnoresMarks (a : Text) : Prop where
  leading : ∀ c, c = 'v' ∨ c = 'V' → beginsWithV (trim a) = false → ∀ b,
    compareSemver (c :: a) b = compareSemver a b ∧ compareSemver b (c :: a) = compareSemver b a
  suffix : ∀ c, isVersionMark c = true → ∀ rest b,
    compareSemver (a ++ c :: rest) b = compareSemver a b ∧
      compareSemver b (a ++ c :: rest) = compareSemver b a

theorem ignoresMarks (a : Text) : IgnoresMarks a where
  leading c letter other b := by
    unfold compareSemver
    rw [parseVersion_congr (versionNumbers_cons_v letter other)]
    exact ⟨rfl, rfl⟩
  suffix c mark rest b := by
    unfold compareSemver
    rw [parseVersion_congr (versionNumbers_append_mark mark a rest)]
    exact ⟨rfl, rfl⟩

end Marks

/-! ## The latest tag -/

section Tags

variable {tag raw : Text} {tags done : List Text} {state : BestTag} {x y z m n p : Double}

/-- A tag that is a plain version of three parts. -/
def isPlainTag (raw : Text) : Bool := isPlainVersion (withoutV (trim raw))

/-- The three parts of a plain version, and the text is all of it. -/
theorem isPlainVersion_parts {version : Text} (plain : isPlainVersion version = true) :
    (∃ x y z, versionNumbers version = [x, y, z]) ∧
      version.takeWhile (!isVersionMark ·) = version := by
  unfold isPlainVersion at plain
  split at plain
  · next maj min pat cut =>
      rw [Bool.and_eq_true, Bool.and_eq_true] at plain
      have digits {word : Text} (number : isPlainNumber word = true) :
          ∀ c ∈ word, c.isDigit = true := by
        unfold isPlainNumber at number
        rw [Bool.and_eq_true] at number
        exact List.all_eq_true.mp number.2
      refine ⟨⟨_, _, _, by rw [versionNumbers, cut]; rfl⟩, List.takeWhile_eq_self_iff.mpr ?_⟩
      intro c member
      have apart : isVersionMark c = false := by
        by_cases point : c = '.'
        · rw [point]
          decide
        · rw [← @join_split '.' version] at member
          obtain ⟨word, among, inside⟩ := (mem_join member).resolve_left point
          have digit : c.isDigit = true := by
            rw [cut] at among
            simp only [List.mem_cons, List.not_mem_nil, or_false] at among
            rcases among with rfl | rfl | rfl
            · exact digits plain.1.1 c inside
            · exact digits plain.1.2 c inside
            · exact digits plain.2 c inside
          by_contra mark
          rw [Bool.not_eq_false] at mark
          rcases (Bool.or_eq_true _ _).mp mark with hyphen | plus
          · rw [of_decide_eq_true hyphen] at digit
            cases digit
          · rw [of_decide_eq_true plus] at digit
            cases digit
      rw [apart]
      rfl
  · cases plain

theorem versionParts_of_plain (plain : isPlainTag raw = true) :
    versionNumbers (withoutV (trim raw)) = versionParts raw ∧
      ∃ x y z, versionParts raw = [x, y, z] := by
  obtain ⟨⟨x, y, z, numbers⟩, whole⟩ := isPlainVersion_parts plain
  have parts : versionParts raw = [x, y, z] := by
    rw [versionParts, cleanVersion, whole, numbers]
    rfl
  exact ⟨numbers.trans parts.symm, x, y, z, parts⟩

/-- The name of a tag is the same version. -/
theorem versionParts_tagName (raw : Text) : versionParts (tagName raw) = versionParts raw := by
  have again : versionNumbers (cleanVersion (trim raw)) = versionNumbers (cleanVersion raw) := by
    unfold cleanVersion
    rw [trim_trim]
  have named : tagName raw = if beginsWithV (trim raw) then trim raw
      else 'v' :: withoutV (trim raw) := rfl
  unfold versionParts
  rw [named]
  split
  · rw [again]
  · next other =>
      rw [Bool.not_eq_true] at other
      have trimmed : beginsWithV (trim (trim raw)) = false := by
        rw [trim_trim]
        exact other
      rw [withoutV_of_not other, versionNumbers_cons_v (.inl rfl) trimmed, again]

/-- The test of the loop is the order of the parts. -/
theorem newer_iff (counts : ∀ d ∈ [m, n, p, x, y, z], Double.IsCount d) :
    (m.lt x || (x = m && n.lt y) || (x = m && y = n && p.lt z)) = true ↔
      ranks [m, n, p] < ranks [x, y, z] := by
  simp only [List.forall_mem_cons] at counts
  obtain ⟨count_m, count_n, count_p, count_x, count_y, count_z, -⟩ := counts
  have last : ¬ranks [] < ranks [] := lt_irrefl _
  unfold ranks at last ⊢
  rw [List.map_nil] at last
  simp only [List.map_cons, List.map_nil, List.cons_lt_cons_iff, Bool.or_eq_true,
    Bool.and_eq_true, decide_eq_true_eq, Double.lt_iff_count count_m count_x,
    Double.lt_iff_count count_n count_y, Double.lt_iff_count count_p count_z,
    Double.eq_iff_count count_x count_m, Double.eq_iff_count count_y count_n, last, and_false,
    or_false]
  constructor
  · rintro ((first | ⟨same, second⟩) | ⟨⟨same, equal⟩, third⟩)
    · exact .inl first
    · exact .inr ⟨same.symm, .inl second⟩
    · exact .inr ⟨same.symm, .inr ⟨equal.symm, third⟩⟩
  · rintro (first | ⟨same, second | ⟨equal, third⟩⟩)
    · exact .inl (.inl first)
    · exact .inl (.inr ⟨same.symm, second⟩)
    · exact .inr ⟨⟨same.symm, equal.symm⟩, third⟩

/-- What the loop knows of the tags that it has seen. -/
inductive Picked (done : List Text) (state : BestTag) : Prop
  | nothing (start : state = ⟨none, .finite (-1), .finite (-1), .finite (-1)⟩)
      (plain : ∀ tag ∈ done, isPlainTag tag = false)
  | best (tag : Text) (member : tag ∈ done) (plain : isPlainTag tag = true)
      (name : state.best = some (tagName tag))
      (parts : versionParts tag = [state.maj, state.min, state.pat])
      (most : ∀ other ∈ done, isPlainTag other = true →
        ranks (versionParts other) ≤ ranks (versionParts tag))

theorem negative_lt_of_isCount (counts : x.IsCount) : (Double.finite (-1)).lt x = true := by
  rcases counts with ⟨k, rfl⟩ | rfl
  · rw [Double.lt, decide_eq_true_eq]
    have least : (0 : Rat) ≤ k := Nat.cast_nonneg k
    linarith
  · rfl

/-- A tag that is not plain changes nothing. -/
theorem pickTag_of_not (state : BestTag) (other : isPlainTag raw = false) :
    pickTag state raw = state := by
  unfold isPlainTag at other
  unfold pickTag
  dsimp only
  rw [other]
  rfl

theorem pickTag_of_plain (state : BestTag) (plain : isPlainTag raw = true)
    (parts : versionParts raw = [x, y, z]) : pickTag state raw =
      if state.maj.lt x || (x = state.maj && state.min.lt y) ||
          (x = state.maj && y = state.min && state.pat.lt z) then
        ⟨some (tagName raw), x, y, z⟩
      else state := by
  have numbers := (versionParts_of_plain plain).1
  rw [parts] at numbers
  unfold isPlainTag at plain
  unfold pickTag
  dsimp only
  rw [plain, numbers]
  rfl

theorem Picked.step (picked : Picked done state) (raw : Text) :
    Picked (done ++ [raw]) (pickTag state raw) := by
  cases plain : isPlainTag raw with
  | false =>
      rw [pickTag_of_not state plain]
      cases picked with
      | nothing start none_plain =>
          refine .nothing start fun tag member => ?_
          rcases List.mem_append.mp member with seen | new
          · exact none_plain tag seen
          · rw [List.mem_singleton.mp new]
            exact plain
      | best tag member tag_plain name parts most =>
          refine .best tag (List.mem_append_left _ member) tag_plain name parts ?_
          intro other among other_plain
          rcases List.mem_append.mp among with seen | new
          · exact most other seen other_plain
          · rw [List.mem_singleton.mp new, plain] at other_plain
            cases other_plain
  | true =>
      obtain ⟨x, y, z, parts⟩ := (versionParts_of_plain plain).2
      have counts_raw : ∀ d ∈ [x, y, z], Double.IsCount d := fun d member =>
        isCount_of_mem_versionParts (v := raw) (parts ▸ member)
      have new_member : raw ∈ done ++ [raw] := List.mem_append_right _ (List.mem_singleton_self raw)
      rw [pickTag_of_plain state plain parts]
      cases picked with
      | nothing start none_plain =>
          have first : state.maj.lt x = true := by
            rw [start]
            exact negative_lt_of_isCount (counts_raw x List.mem_cons_self)
          rw [first, Bool.true_or, Bool.true_or, if_pos rfl]
          refine .best raw new_member plain rfl parts fun other among other_plain => ?_
          rcases List.mem_append.mp among with seen | new
          · rw [none_plain other seen] at other_plain
            cases other_plain
          · rw [List.mem_singleton.mp new]
      | best tag member tag_plain name tag_parts most =>
          have counts : ∀ d ∈ [state.maj, state.min, state.pat, x, y, z], Double.IsCount d := by
            intro d inside
            rcases List.mem_append.mp
              (show d ∈ [state.maj, state.min, state.pat] ++ [x, y, z] from inside) with old | new
            · exact isCount_of_mem_versionParts (v := tag) (tag_parts ▸ old)
            · exact counts_raw d new
          have newer := newer_iff counts
          rw [← tag_parts, ← parts] at newer
          split
          · next later =>
              rw [newer] at later
              refine .best raw new_member plain rfl parts fun other among other_plain => ?_
              rcases List.mem_append.mp among with seen | new
              · exact (most other seen other_plain).trans later.le
              · rw [List.mem_singleton.mp new]
          · next earlier =>
              rw [newer, not_lt] at earlier
              refine .best tag (List.mem_append_left _ member) tag_plain name tag_parts ?_
              intro other among other_plain
              rcases List.mem_append.mp among with seen | new
              · exact most other seen other_plain
              · rw [List.mem_singleton.mp new]
                exact earlier

theorem picked_foldl (tags : List Text) :
    Picked tags (tags.foldl pickTag ⟨none, .finite (-1), .finite (-1), .finite (-1)⟩) := by
  induction tags using List.reverseRecOn with
  | nil => exact .nothing rfl fun tag member => by cases member
  | append_singleton tags raw ih =>
      rw [List.foldl_append]
      exact ih.step raw

/-- Versions of three parts are ordered. -/
theorem not_truncates_of_plain {other : Text} (plain : isPlainTag tag = true)
    (other_plain : isPlainTag other = true) : ¬Truncates tag other := by
  rintro ⟨begins, apart⟩
  obtain ⟨x, y, z, parts⟩ := (versionParts_of_plain plain).2
  obtain ⟨m, n, p, others⟩ := (versionParts_of_plain other_plain).2
  refine apart (begins.eq_of_length ?_)
  rw [parts, others]
  rfl

/-- The tag that is picked is the name of a plain version that no other one exceeds, and there is
none only where no tag is plain. -/
structure PickLaw (tags : List Text) : Prop where
  none_iff : pickLatestSemverTag tags = none ↔ ∀ tag ∈ tags, isPlainTag tag = false
  latest : ∀ best, pickLatestSemverTag tags = some best →
    ∃ tag ∈ tags, isPlainTag tag = true ∧ best = tagName tag ∧
      ∀ other ∈ tags, isPlainTag other = true → AtMostZero (compareSemver other best)

theorem pickLaw (tags : List Text) : PickLaw tags := by
  cases picked_foldl tags with
  | nothing start none_plain =>
      have none_picked : pickLatestSemverTag tags = none := by
        rw [pickLatestSemverTag, start]
      refine ⟨iff_of_true none_picked none_plain, fun best found => ?_⟩
      rw [none_picked] at found
      cases found
  | best tag member plain name parts most =>
      refine ⟨iff_of_false ?_ fun none_plain => ?_, fun best found => ?_⟩
      · intro nothing
        rw [pickLatestSemverTag, name] at nothing
        cases nothing
      · rw [none_plain tag member] at plain
        cases plain
      · rw [pickLatestSemverTag, name] at found
        cases found
        refine ⟨tag, member, plain, rfl, fun other among other_plain => ?_⟩
        have named := versionParts_tagName tag
        have apart := not_truncates_of_plain other_plain plain
        have apart' := not_truncates_of_plain plain other_plain
        unfold Truncates at apart apart'
        rw [← named] at apart apart'
        rw [(compareSemver_spec apart apart').2.1, named]
        exact most other among other_plain

/-- **The order of versions**, and the tag that is picked by it. -/
theorem versionOrder_law (a b c : Text) (tags : List Text) :
    (OrderLaws a b c ↔ ∀ x ∈ [a, b, c], ∀ y ∈ [a, b, c], ¬Truncates x y) ∧
      IgnoresMarks a ∧ PickLaw tags :=
  ⟨orderLaws_iff, ignoresMarks a, pickLaw tags⟩

end Tags

end Proxora
