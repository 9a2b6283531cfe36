import Proxora.Ecma.Text

/-!
# Base64

`buffer.toString("base64")` and `Buffer.from(s, "base64")`. The reader takes both alphabets, passes
over every other character and stops at the first padding; what is left of a last group of four
characters gives one byte less than it has characters.
-/

namespace Ecma

def base64Digits : Text := "ABCDEFGHIJKLMNOPQRSTUVWXYZabcdefghijklmnopqrstuvwxyz0123456789+/"

/-- The character of six bits. -/
def base64Char (n : Nat) : Char := base64Digits.getD n '/'

/-- The six bits of a character, in the standard alphabet or the one for URLs. -/
def base64Value (c : Char) : Option Nat :=
  if 'A' ≤ c ∧ c ≤ 'Z' then some (c.toNat - 65)
  else if 'a' ≤ c ∧ c ≤ 'z' then some (c.toNat - 97 + 26)
  else if '0' ≤ c ∧ c ≤ '9' then some (c.toNat - 48 + 52)
  else if c = '+' ∨ c = '-' then some 62
  else if c = '/' ∨ c = '_' then some 63
  else none

def base64Encode : List UInt8 → Text
  | [] => []
  | [a] => [base64Char (a.toNat / 4), base64Char (a.toNat % 4 * 16), '=', '=']
  | [a, b] =>
      [base64Char (a.toNat / 4), base64Char (a.toNat % 4 * 16 + b.toNat / 16),
        base64Char (b.toNat % 16 * 4), '=']
  | a :: b :: c :: rest =>
      base64Char (a.toNat / 4) :: base64Char (a.toNat % 4 * 16 + b.toNat / 16) ::
        base64Char (b.toNat % 16 * 4 + c.toNat / 64) :: base64Char (c.toNat % 64) ::
        base64Encode rest

/-- The bytes of groups of six bits. -/
def base64Bytes : List Nat → List UInt8
  | a :: b :: c :: d :: rest =>
      UInt8.ofNat (a * 4 + b / 16) :: UInt8.ofNat (b % 16 * 16 + c / 4) ::
        UInt8.ofNat (c % 4 * 64 + d) :: base64Bytes rest
  | [a, b, c] => [UInt8.ofNat (a * 4 + b / 16), UInt8.ofNat (b % 16 * 16 + c / 4)]
  | [a, b] => [UInt8.ofNat (a * 4 + b / 16)]
  | _ => []

def base64Decode (s : Text) : List UInt8 :=
  base64Bytes ((s.takeWhile (· ≠ '=')).filterMap base64Value)

/-! ## What is written reads back -/

theorem base64_char : ∀ n < 64, base64Value (base64Char n) = some n ∧ base64Char n ≠ '=' ∧
    isSpace (base64Char n) = false ∧ base64Char n ≠ '\n' := by
  decide +kernel

theorem base64Decode_cons {n : Nat} (six : n < 64) (rest : Text) :
    (base64Char n :: rest).takeWhile (· ≠ '=') = base64Char n :: rest.takeWhile (· ≠ '=') := by
  rw [List.takeWhile_cons_of_pos]
  exact decide_eq_true (base64_char n six).2.1

/-- The six bits of a group before others. -/
theorem base64_read_cons {n : Nat} (six : n < 64) (rest : Text) :
    ((base64Char n :: rest).takeWhile (· ≠ '=')).filterMap base64Value =
      n :: (rest.takeWhile (· ≠ '=')).filterMap base64Value := by
  rw [base64Decode_cons six, List.filterMap_cons_some (base64_char n six).1]

theorem base64_read_padding (rest : Text) :
    (('=' :: rest).takeWhile (· ≠ '=')).filterMap base64Value = [] := by
  rw [List.takeWhile_cons_of_neg (by decide), List.filterMap_nil]

theorem base64Decode_base64Encode (bytes : List UInt8) :
    base64Decode (base64Encode bytes) = bytes := by
  have whole (x : UInt8) {n : Nat} (same : n = x.toNat) : UInt8.ofNat n = x := by
    rw [same, UInt8.ofNat_toNat]
  induction bytes using base64Encode.induct with
  | case1 => rfl
  | case2 a =>
      have first := a.toNat_lt
      rw [base64Decode, base64Encode, base64_read_cons (by omega), base64_read_cons (by omega),
        base64_read_padding, base64Bytes, whole a (by omega)]
  | case3 a b =>
      have first := a.toNat_lt
      have second := b.toNat_lt
      rw [base64Decode, base64Encode, base64_read_cons (by omega), base64_read_cons (by omega),
        base64_read_cons (by omega), base64_read_padding, base64Bytes, whole a (by omega),
        whole b (by omega)]
  | case4 a b c rest ih =>
      have first := a.toNat_lt
      have second := b.toNat_lt
      have third := c.toNat_lt
      rw [base64Decode] at ih
      rw [base64Decode, base64Encode, base64_read_cons (by omega), base64_read_cons (by omega),
        base64_read_cons (by omega), base64_read_cons (by omega), base64Bytes, ih,
        whole a (by omega), whole b (by omega), whole c (by omega)]

/-! ## Lengths and characters -/

theorem length_base64Encode (bytes : List UInt8) :
    (base64Encode bytes).length = (bytes.length + 2) / 3 * 4 := by
  induction bytes using base64Encode.induct with
  | case1 => rfl
  | case2 a => simp [base64Encode]
  | case3 a b => simp [base64Encode]
  | case4 a b c rest ih =>
      rw [base64Encode]
      simp only [List.length_cons, ih]
      omega

theorem length_base64Bytes (groups : List Nat) :
    4 * (base64Bytes groups).length ≤ 3 * groups.length := by
  induction groups using base64Bytes.induct with
  | case1 a b c d rest ih =>
      rw [base64Bytes]
      simp only [List.length_cons]
      omega
  | case2 a b c =>
      simp [base64Bytes]
  | case3 a b =>
      simp [base64Bytes]
  | case4 groups other₁ other₂ other₃ =>
      rw [base64Bytes]
      · exact Nat.zero_le _
      · exact other₁
      · exact other₂
      · exact other₃

/-- A decoded text has at most three bytes for four characters. -/
theorem length_base64Decode (s : Text) : 4 * (base64Decode s).length ≤ 3 * s.length := by
  have bytes := length_base64Bytes ((s.takeWhile (· ≠ '=')).filterMap base64Value)
  have read := List.length_filterMap_le base64Value (s.takeWhile (· ≠ '='))
  have front := (List.takeWhile_prefix (p := (· ≠ '=')) (l := s)).length_le
  rw [base64Decode]
  omega

/-- What holds of the digits and of the padding holds of every character that is written. -/
theorem forall_mem_base64Encode {P : Char → Prop} (digit : ∀ n < 64, P (base64Char n))
    (padding : P '=') (bytes : List UInt8) : ∀ c ∈ base64Encode bytes, P c := by
  induction bytes using base64Encode.induct with
  | case1 => exact nofun
  | case2 a =>
      have first := a.toNat_lt
      simp only [base64Encode, List.forall_mem_cons, List.not_mem_nil, IsEmpty.forall_iff,
        implies_true, and_true, padding]
      exact ⟨digit _ (by omega), digit _ (by omega)⟩
  | case3 a b =>
      have first := a.toNat_lt
      have second := b.toNat_lt
      simp only [base64Encode, List.forall_mem_cons, List.not_mem_nil, IsEmpty.forall_iff,
        implies_true, and_true, padding]
      exact ⟨digit _ (by omega), digit _ (by omega), digit _ (by omega)⟩
  | case4 a b c rest ih =>
      have first := a.toNat_lt
      have second := b.toNat_lt
      have third := c.toNat_lt
      simp only [base64Encode, List.forall_mem_cons]
      exact ⟨digit _ (by omega), digit _ (by omega), digit _ (by omega), digit _ (by omega), ih⟩

/-- Nothing written is white space. -/
theorem isSpace_base64Encode (bytes : List UInt8) :
    ∀ c ∈ base64Encode bytes, isSpace c = false :=
  forall_mem_base64Encode (fun n six => (base64_char n six).2.2.1) (by decide) bytes

end Ecma
