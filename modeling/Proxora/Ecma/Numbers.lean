import Proxora.Ecma.Lines
import Proxora.Ecma.Uri

/-!
# Numerals of bytes

`Number(s)` for a text, as far as it is an integer from 0 to 255: white space around the numeral
is passed over, an empty text is 0, a numeral may be hexadecimal, octal or binary, and a decimal
one may have a sign, a fraction and an exponent. Its value is rounded to the nearest double, ties
to even, so that a numeral next to an integer can stand for it.
-/

namespace Ecma

/-- The double nearest to `num / den` is the integer `k`, which is less than 256. The gaps to the
doubles next to `k` are given by its binary logarithm; the one below a power of two is half as
wide. -/
def roundsToByte (num den k : Nat) : Bool :=
  if k = 0 then num * 2 ^ 1075 ≤ den
  else
    let p := Nat.log2 k
    let below := if 2 ^ p = k then 2 ^ p else 2 ^ (p + 1)
    (k * 2 ^ 54 - below) * den ≤ num * 2 ^ 54 && num * 2 ^ 53 ≤ (k * 2 ^ 53 + 2 ^ p) * den

/-- The byte that `num / den` is rounded to. -/
def byteOfRatio (num den : Nat) : Option Nat :=
  let nearest := (2 * num + den) / (2 * den)
  if nearest ≤ 255 && roundsToByte num den nearest then some nearest else none

/-- The byte that `mantissa * 10 ^ exponent` is rounded to. -/
def byteOfDecimal (mantissa : Nat) : Int → Option Nat
  | .ofNat n => byteOfRatio (mantissa * 10 ^ n) 1
  | .negSucc n => byteOfRatio mantissa (10 ^ (n + 1))

/-- Digits with or without a sign. -/
def readExponent (s : Text) : Option Int :=
  let digits := if s.head? = some '-' || s.head? = some '+' then s.tail else s
  if digits ≠ [] && digits.all Char.isDigit then
    some (if s.head? = some '-' then -(digitsValue digits : Int) else digitsValue digits)
  else none

/-- The digits behind a decimal point, and what follows them. -/
def readFraction (s : Text) : Text × Text :=
  if s.head? = some '.' then (s.tail.takeWhile Char.isDigit, s.tail.dropWhile Char.isDigit)
  else ([], s)

/-- A decimal numeral without a sign. -/
def decimalByte (s : Text) : Option Nat :=
  let whole := s.takeWhile Char.isDigit
  let fraction := readFraction (s.dropWhile Char.isDigit)
  let mantissa := digitsValue (whole ++ fraction.1)
  if whole = [] && fraction.1 = [] then none
  else if fraction.2 = [] then byteOfDecimal mantissa (-(fraction.1.length : Int))
  else if fraction.2.head? = some 'e' || fraction.2.head? = some 'E' then
    (readExponent fraction.2.tail).bind fun exponent =>
      byteOfDecimal mantissa (exponent - fraction.1.length)
  else none

/-- Digits of a base up to 16. -/
def radixByte (base : Nat) (digits : Text) : Option Nat :=
  let value := digits.foldl (fun n c => base * n + (hexValue c).getD 0) 0
  if digits ≠ [] && digits.all (fun c => (hexValue c).any (· < base)) && value ≤ 255 then
    some value
  else none

/-- `Number(s)`, where that is an integer from 0 to 255; a negative zero counts as zero. -/
def numberByte (s : Text) : Option Nat :=
  let t := trim s
  if t = [] then some 0
  else if t.take 2 = "0x" || t.take 2 = "0X" then radixByte 16 (t.drop 2)
  else if t.take 2 = "0o" || t.take 2 = "0O" then radixByte 8 (t.drop 2)
  else if t.take 2 = "0b" || t.take 2 = "0B" then radixByte 2 (t.drop 2)
  else if t.head? = some '-' then (decimalByte t.tail).filter (· = 0)
  else if t.head? = some '+' then decimalByte t.tail
  else decimalByte t

example : numberByte " 0x7f " = some 127 ∧ numberByte "1e2" = some 100 ∧ numberByte "1270e-1" =
    some 127 ∧ numberByte "127.5" = none := by
  decide

/-! ## Plain numerals -/

theorem byteOfRatio_one {n : Nat} (small : n ≤ 255) : byteOfRatio n 1 = some n := by
  have nearest : (2 * n + 1) / (2 * 1) = n := by omega
  have rounds : roundsToByte n 1 n = true := by
    rw [roundsToByte]
    split_ifs with zero
    · rw [zero, Nat.zero_mul]
      exact decide_eq_true (Nat.zero_le 1)
    · rw [Bool.and_eq_true, decide_eq_true_eq, decide_eq_true_eq]
      generalize 2 ^ n.log2 = p
      omega
  rw [byteOfRatio, nearest, decide_eq_true small, rounds]
  rfl

/-- A numeral of `n` digits is below `10 ^ n`. -/
theorem digitsValue_lt {s : Text} (digits : ∀ c ∈ s, c.isDigit = true) :
    digitsValue s < 10 ^ s.length := by
  induction s using List.reverseRecOn with
  | nil => exact Nat.one_pos
  | append_singleton s c ih =>
      have small := ih fun d inside => digits d (List.mem_append_left _ inside)
      have digit : c.toNat ≤ 57 := by
        have bounds := digits c (List.mem_append_right _ List.mem_cons_self)
        rw [Char.isDigit, Bool.and_eq_true, decide_eq_true_eq, decide_eq_true_eq] at bounds
        exact bounds.2
      have value : digitsValue (s ++ [c]) = 10 * digitsValue s + (c.toNat - 48) := by
        rw [digitsValue, Nat.ofDigitChars_append]
        rfl
      rw [value, List.length_append, List.length_singleton, Nat.pow_succ]
      omega

/-- Decimal digits are read as their value, where it is a byte. -/
theorem numberByte_of_digits {s : Text} (given : s ≠ [])
    (digits : ∀ c ∈ s, c.isDigit = true) :
    numberByte s = if digitsValue s ≤ 255 then some (digitsValue s) else none := by
  have trimmed : trim s = s := trim_of_notSpace fun c inside => isSpace_of_isDigit (digits c inside)
  have whole : s.takeWhile Char.isDigit = s := List.takeWhile_eq_self_iff.mpr digits
  have rest : s.dropWhile Char.isDigit = [] := List.dropWhile_eq_nil_iff.mpr digits
  have prefixed (w : Text) (c : Char) (last : c ∈ w) (other : c.isDigit = false) :
      s.take 2 ≠ w := by
    intro same
    rw [← same] at last
    rw [digits c (List.mem_of_mem_take last)] at other
    cases other
  have signed (c : Char) (other : c.isDigit = false) : s.head? ≠ some c := by
    intro first
    rw [digits c (List.mem_of_mem_head? first)] at other
    cases other
  have decimal : decimalByte s = byteOfRatio (digitsValue s) 1 := by
    have fraction : readFraction [] = ([], []) := rfl
    rw [decimalByte, whole, rest, fraction]
    simp [given, byteOfDecimal]
  rw [numberByte, trimmed, if_neg given, if_neg, if_neg, if_neg, if_neg (signed _ (by decide)),
    if_neg (signed _ (by decide)), decimal]
  · split_ifs with small
    · exact byteOfRatio_one small
    · cases read : byteOfRatio (digitsValue s) 1 with
      | none => rfl
      | some n =>
          rw [byteOfRatio] at read
          split_ifs at read with fits
          rw [Bool.and_eq_true, decide_eq_true_eq] at fits
          omega
  · rw [Bool.or_eq_true, decide_eq_true_eq, decide_eq_true_eq, not_or]
    exact ⟨prefixed "0b" 'b' (by decide) (by decide), prefixed "0B" 'B' (by decide) (by decide)⟩
  · rw [Bool.or_eq_true, decide_eq_true_eq, decide_eq_true_eq, not_or]
    exact ⟨prefixed "0o" 'o' (by decide) (by decide), prefixed "0O" 'O' (by decide) (by decide)⟩
  · rw [Bool.or_eq_true, decide_eq_true_eq, decide_eq_true_eq, not_or]
    exact ⟨prefixed "0x" 'x' (by decide) (by decide), prefixed "0X" 'X' (by decide) (by decide)⟩

/-! ## Texts that are no numerals -/

section

variable {c : Char} {s : Text}

theorem mem_tail_of_head {d : Char} (inside : c ∈ s) (first : s.head? = some d)
    (other : c ≠ d) : c ∈ s.tail := by
  cases s with
  | nil => cases inside
  | cons e s =>
      cases first
      exact (List.mem_cons.mp inside).resolve_left other

theorem mem_dropWhile {p : Char → Bool} (inside : c ∈ s) (kept : p c = false) :
    c ∈ s.dropWhile p := by
  rw [← List.takeWhile_append_dropWhile (p := p) (l := s)] at inside
  refine (List.mem_append.mp inside).resolve_left fun dropped => ?_
  rw [List.mem_takeWhile_imp dropped] at kept
  cases kept

theorem mem_trim (inside : c ∈ s) (mark : isSpace c = false) : c ∈ trim s := by
  obtain ⟨spaces, form, blank⟩ := trimRight_append (s.dropWhile isSpace)
  have kept := mem_dropWhile inside mark
  rw [form] at kept
  refine (List.mem_append.mp kept).resolve_right fun dropped => ?_
  rw [blank c dropped] at mark
  cases mark

theorem trim_ne_nil_of_mem (inside : c ∈ s) (mark : isSpace c = false) : trim s ≠ [] :=
  List.ne_nil_of_mem (mem_trim inside mark)

theorem readExponent_of_colon (inside : ':' ∈ s) : readExponent s = none := by
  have within : ':' ∈ (if s.head? = some '-' || s.head? = some '+' then s.tail else s) := by
    split_ifs with signed
    · rw [Bool.or_eq_true, decide_eq_true_eq, decide_eq_true_eq] at signed
      rcases signed with first | first
      · exact mem_tail_of_head inside first (by decide)
      · exact mem_tail_of_head inside first (by decide)
    · exact inside
  rw [readExponent, if_neg]
  rw [Bool.and_eq_true, List.all_eq_true]
  rintro ⟨-, digits⟩
  exact absurd (digits ':' within) (by decide)

theorem decimalByte_of_colon (inside : ':' ∈ s) : decimalByte s = none := by
  have rest : ':' ∈ s.dropWhile Char.isDigit := mem_dropWhile inside (by decide)
  have left : ':' ∈ (readFraction (s.dropWhile Char.isDigit)).2 := by
    rw [readFraction]
    split_ifs with point
    · exact mem_dropWhile (mem_tail_of_head rest point (by decide)) (by decide)
    · exact rest
  rw [decimalByte]
  split_ifs with _ ended exponent
  · rfl
  · rw [ended] at left
    cases left
  · rw [Bool.or_eq_true, decide_eq_true_eq, decide_eq_true_eq] at exponent
    have behind : ':' ∈ (readFraction (s.dropWhile Char.isDigit)).2.tail := by
      rcases exponent with first | first
      · exact mem_tail_of_head left first (by decide)
      · exact mem_tail_of_head left first (by decide)
    rw [readExponent_of_colon behind]
    rfl
  · rfl

theorem radixByte_of_colon {base : Nat} (inside : ':' ∈ s) : radixByte base s = none := by
  rw [radixByte, if_neg]
  rw [Bool.and_eq_true, Bool.and_eq_true, List.all_eq_true]
  rintro ⟨⟨-, digits⟩, -⟩
  exact Bool.false_ne_true (digits ':' inside)

/-- A text with a colon is no numeral. -/
theorem numberByte_of_colon (inside : ':' ∈ s) : numberByte s = none := by
  have within : ':' ∈ trim s := mem_trim inside (by decide)
  have behind {w v : Text} (taken : ((trim s).take 2 = w || (trim s).take 2 = v) = true)
      (free : ':' ∉ w ∧ ':' ∉ v) : ':' ∈ (trim s).drop 2 := by
    rw [Bool.or_eq_true, decide_eq_true_eq, decide_eq_true_eq] at taken
    have split := within
    rw [← List.take_append_drop 2 (trim s)] at split
    refine (List.mem_append.mp split).resolve_left fun front => ?_
    rcases taken with same | same
    · exact free.1 (same ▸ front)
    · exact free.2 (same ▸ front)
  rw [numberByte]
  split_ifs with empty hex octal binary minus plus
  · rw [empty] at within
    cases within
  · exact radixByte_of_colon (behind hex (by decide))
  · exact radixByte_of_colon (behind octal (by decide))
  · exact radixByte_of_colon (behind binary (by decide))
  · rw [decimalByte_of_colon (mem_tail_of_head within minus (by decide))]
    rfl
  · exact decimalByte_of_colon (mem_tail_of_head within plus (by decide))
  · exact decimalByte_of_colon within

end

end Ecma
