import Mathlib.Algebra.Order.Ring.Unbundled.Rat
import Proxora.Ecma.Numbers
import Proxora.Ecma.Value

/-!
# Numbers as doubles

Finite doubles as rationals, the two zeros taken for one, with what is rounded rounded to the
nearest double (ties to even). `Double.text` is `String(x)`: the digits of the shortest decimal
that is rounded to `x`, laid out with or without an exponent.
-/

namespace Ecma

inductive Double : Type
  | finite (value : Rat)
  | infinity (negative : Bool)
  | nan
deriving DecidableEq, Repr

/-! ## Rounding -/

/-- `b ^ e`. -/
def powerOf (b : Nat) : Int → Rat
  | .ofNat n => ((b ^ n : Nat) : Rat)
  | .negSucc n => mkRat 1 (b ^ (n + 1))

/-- The exponent of the largest power of two up to `q`. -/
def binaryExponent (q : Rat) : Int :=
  let e : Int := (Nat.log2 q.num.natAbs : Int) - Nat.log2 q.den
  if q < powerOf 2 e then e - 1 else e

/-- The nearest whole number, the even one of two. -/
def roundHalfEven (q : Rat) : Int :=
  let low := q.floor
  let rest := q - low
  if rest < mkRat 1 2 || (rest = mkRat 1 2 && low % 2 = 0) then low else low + 1

/-- The double nearest to a positive number; from `2 ^ 1024` on it is infinity. -/
def nearestPositive (q : Rat) : Double :=
  let unit := powerOf 2 (max (binaryExponent q - 52) (-1074))
  let value := roundHalfEven (q / unit) * unit
  if powerOf 2 1024 ≤ value then .infinity false else .finite value

namespace Double

/-- `-x`. -/
def neg : Double → Double
  | finite value => finite (-value)
  | infinity negative => infinity !negative
  | nan => nan

/-- The double nearest to a number. -/
def ofRat (q : Rat) : Double :=
  if q = 0 then finite 0 else if 0 < q then nearestPositive q else (nearestPositive (-q)).neg

/-- `x - y`. -/
def sub : Double → Double → Double
  | finite x, finite y => ofRat (x - y)
  | finite _, infinity negative => infinity !negative
  | infinity negative, finite _ => infinity negative
  | infinity a, infinity b => if a = b then nan else infinity a
  | nan, _ => nan
  | _, nan => nan

/-- The product with a positive number, and the quotient by one. -/
def scale (c : Rat) : Double → Double
  | finite x => ofRat (c * x)
  | infinity negative => infinity negative
  | nan => nan

/-- `x < y`. -/
def lt : Double → Double → Bool
  | finite x, finite y => x < y
  | finite _, infinity negative => !negative
  | infinity negative, finite _ => negative
  | infinity a, infinity b => a && !b
  | nan, _ => false
  | _, nan => false

/-- `Math.round(x)`. -/
def round : Double → Double
  | finite x => finite ((x + mkRat 1 2).floor : Int)
  | infinity negative => infinity negative
  | nan => nan

end Double

/-! ## Reading -/

/-- `Number(s)` for a text of digits and dots. -/
def numberOfDecimal (s : Text) : Double :=
  let whole := s.takeWhile Char.isDigit
  let rest := s.dropWhile Char.isDigit
  let fraction := rest.tail
  if rest.any (fun c => !c.isDigit && c ≠ '.') || !fraction.all Char.isDigit then .nan
  else if whole = [] && fraction = [] then .nan
  else .ofRat (mkRat (digitsValue (whole ++ fraction)) (10 ^ fraction.length))

/-- A decimal numeral without a sign, with a fraction and an exponent or without. -/
def decimalNumber (s : Text) : Double :=
  let whole := s.takeWhile Char.isDigit
  let fraction := readFraction (s.dropWhile Char.isDigit)
  let mantissa := digitsValue (whole ++ fraction.1)
  if s = "Infinity" then .infinity false
  else if whole = [] && fraction.1 = [] then .nan
  else if fraction.2 = [] then .ofRat (mantissa * powerOf 10 (-(fraction.1.length : Int)))
  else if fraction.2.head? = some 'e' || fraction.2.head? = some 'E' then
    match readExponent fraction.2.tail with
    | some exponent => .ofRat (mantissa * powerOf 10 (exponent - fraction.1.length))
    | none => .nan
  else .nan

/-- Digits of a base up to 16. -/
def radixNumber (base : Nat) (digits : Text) : Double :=
  if digits ≠ [] && digits.all (fun c => (hexValue c).any (· < base)) then
    .ofRat (digits.foldl (fun n c => base * n + (hexValue c).getD 0) 0 : Nat)
  else .nan

/-- `Number(s)`. -/
def numberOfText (s : Text) : Double :=
  let t := trim s
  if t = [] then .finite 0
  else if t.take 2 = "0x" || t.take 2 = "0X" then radixNumber 16 (t.drop 2)
  else if t.take 2 = "0o" || t.take 2 = "0O" then radixNumber 8 (t.drop 2)
  else if t.take 2 = "0b" || t.take 2 = "0B" then radixNumber 2 (t.drop 2)
  else if t.head? = some '-' then (decimalNumber t.tail).neg
  else if t.head? = some '+' then decimalNumber t.tail
  else decimalNumber t

/-- `Number.isInteger(x)`. -/
def Double.isInteger : Double → Bool
  | .finite x => x.isInt
  | _ => false

/-! ## Writing -/

/-- The number of digits before the point: `10 ^ (n - 1) ≤ q < 10 ^ n`. -/
def decimalExponent (q : Rat) : Int :=
  let n : Int := ((Nat.toDigits 10 q.num.natAbs).length : Int) - (Nat.toDigits 10 q.den).length
  if q < powerOf 10 n then n else n + 1

/-- The number of `k` digits that is rounded to `q`, the nearest of several, and how many of its
digits stand before the point. -/
def digitsRounding (q : Rat) (k : Nat) : Option (Nat × Int) :=
  let n := decimalExponent q
  let unit := powerOf 10 (n - k)
  let low := (q / unit).floor.toNat
  let below := Double.ofRat (low * unit) = .finite q
  let above := Double.ofRat ((low + 1 : Nat) * unit) = .finite q
  if below ∧ (¬above ∨ roundHalfEven (q / unit) = low) then some (low, n)
  else if above then some (if low + 1 = 10 ^ k then (10 ^ (k - 1), n + 1) else (low + 1, n))
  else none

/-- The least number of digits that is enough. -/
def shortestDigits (q : Rat) : Nat × Int :=
  ((List.range 17).findSome? fun i => digitsRounding q (i + 1)).getD (0, 1)

def exponentText (e : Int) : Text :=
  'e' :: (if e < 0 then '-' else '+') :: (toString e.natAbs : String).toList

/-- The digits with the point behind the first `n` of them. -/
def layOut (digits : Text) (n : Int) : Text :=
  if digits.length ≤ n ∧ n ≤ 21 then digits ++ List.replicate (n.toNat - digits.length) '0'
  else if 0 < n ∧ n ≤ 21 then digits.take n.toNat ++ '.' :: digits.drop n.toNat
  else if -6 < n ∧ n ≤ 0 then '0' :: '.' :: List.replicate n.natAbs '0' ++ digits
  else if digits.length = 1 then digits ++ exponentText (n - 1)
  else digits.take 1 ++ '.' :: digits.drop 1 ++ exponentText (n - 1)

/-- `String(x)`. -/
def Double.text : Double → Text
  | .finite q =>
      if q = 0 then ['0']
      else
        let shortest := shortestDigits |q|
        let layout := layOut (toString shortest.1 : String).toList shortest.2
        if q < 0 then '-' :: layout else layout
  | .infinity negative => if negative then "-Infinity" else "Infinity"
  | .nan => "NaN"

/-- The number as a value. -/
def Double.num (x : Double) : Num :=
  match x with
  | .finite _ => .finite x.text
  | .infinity negative => .infinity negative
  | .nan => .nan

/-! ## The characters of a number -/

/-- Digits and letters, the point and the signs. -/
def isNumberChar (c : Char) : Bool := c.isAlphanum || c = '.' || c = '+' || c = '-'

theorem isNumberChar_of_isDigit {c : Char} (digit : c.isDigit = true) : isNumberChar c = true := by
  rw [isNumberChar, Char.isAlphanum, digit]
  simp

theorem chars_natural (n : Nat) : ∀ c ∈ (toString n : String).toList, isNumberChar c = true :=
  fun c inside => isNumberChar_of_isDigit (digits_toString c inside)

theorem chars_exponentText (e : Int) : ∀ c ∈ exponentText e, isNumberChar c = true := by
  intro c inside
  rw [exponentText, List.mem_cons, List.mem_cons] at inside
  rcases inside with rfl | rfl | inside
  · decide
  · split_ifs <;> decide
  · exact chars_natural _ c inside

theorem chars_layOut {digits : Text} (n : Int) (fine : ∀ c ∈ digits, isNumberChar c = true) :
    ∀ c ∈ layOut digits n, isNumberChar c = true := by
  have zeros (k : Nat) : ∀ c ∈ List.replicate k '0', isNumberChar c = true := by
    intro c inside
    rw [List.eq_of_mem_replicate inside]
    decide
  have point : isNumberChar '.' = true := by decide
  have zero : isNumberChar '0' = true := by decide
  rw [layOut]
  split_ifs
  · exact List.forall_mem_append.mpr ⟨fine, zeros _⟩
  · refine List.forall_mem_append.mpr ⟨fun c inside => fine c (List.mem_of_mem_take inside), ?_⟩
    exact List.forall_mem_cons.mpr ⟨point, fun c inside => fine c (List.mem_of_mem_drop inside)⟩
  · refine List.forall_mem_append.mpr ⟨?_, fine⟩
    exact List.forall_mem_cons.mpr ⟨zero, List.forall_mem_cons.mpr ⟨point, zeros _⟩⟩
  · exact List.forall_mem_append.mpr ⟨fine, chars_exponentText _⟩
  · refine List.forall_mem_append.mpr ⟨List.forall_mem_append.mpr ⟨?_, ?_⟩, chars_exponentText _⟩
    · exact fun c inside => fine c (List.mem_of_mem_take inside)
    · exact List.forall_mem_cons.mpr ⟨point, fun c inside => fine c (List.mem_of_mem_drop inside)⟩

theorem Double.chars_text (x : Double) : ∀ c ∈ x.text, isNumberChar c = true := by
  have letters : ∀ s ∈ [("0" : Text), "NaN", "Infinity", "-Infinity"],
      ∀ c ∈ s, isNumberChar c = true := by
    simp only [← List.all_eq_true]
    decide
  cases x with
  | finite q =>
      have layout (n : Nat) (e : Int) := chars_layOut e (chars_natural n)
      rw [Double.text]
      dsimp only
      split_ifs
      · exact letters _ (by simp)
      · intro c inside
        rcases List.mem_cons.mp inside with rfl | inside
        · decide
        · exact layout _ _ c inside
      · exact layout _ _
  | infinity negative =>
      rw [Double.text]
      split_ifs
      · exact letters _ (by simp)
      · exact letters _ (by simp)
  | nan =>
      rw [Double.text]
      exact letters _ (by simp)

/-! ## The smaller and the larger -/

/-- `Math.min(x, y)`. -/
def Double.min (x y : Double) : Double :=
  if x = .nan ∨ y = .nan then .nan else if y.lt x then y else x

/-- `Math.max(x, y)`. -/
def Double.max (x y : Double) : Double :=
  if x = .nan ∨ y = .nan then .nan else if x.lt y then y else x

/-- `ToLength(x)`, with which `Array.from({ length: x })` begins. -/
def Double.toLength : Double → Nat
  | .finite x => x.floor.toNat
  | .infinity negative => if negative then 0 else 2 ^ 53 - 1
  | .nan => 0

theorem Double.min_finite (x y : Rat) : (finite x).min (finite y) = finite (Min.min x y) := by
  rw [Double.min, if_neg (by simp), min_comm, min_def_lt, apply_ite finite]
  simp only [Double.lt, decide_eq_true_eq]

theorem Double.max_finite (x y : Rat) : (finite x).max (finite y) = finite (Max.max x y) := by
  rw [Double.max, if_neg (by simp), max_def_lt, apply_ite finite]
  simp only [Double.lt, decide_eq_true_eq]

end Ecma
