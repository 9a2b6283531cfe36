import Proxora.Ecma.Text

/-!
# Percent-encoding

`percentEncode keep` writes the UTF-8 bytes of every character outside `keep`
as `%XX`; `encodeURIComponent` is the instance ECMAScript fixes.  Decoding is
the percent-decoding of the URL standard, so it leaves a stray `%` alone.
`percentDecode_percentEncode` is the round trip, `decodeText_encodeURIComponent`
its textual form.
-/

namespace Ecma

/-- The UTF-8 bytes of a text. -/
def utf8Encode (s : Text) : List UInt8 := s.flatMap String.utf8EncodeChar

/-- UTF-8 decoding; `none` for an ill-formed sequence. -/
def utf8Decode (bytes : List UInt8) : Option Text :=
  bytes.toByteArray.utf8Decode?.map Array.toList

theorem utf8Decode_utf8Encode (s : Text) : utf8Decode (utf8Encode s) = some s := by
  have encoded : (utf8Encode s).toByteArray = s.utf8Encode := rfl
  rw [utf8Decode, encoded, List.utf8Decode?_utf8Encode]
  rfl

theorem utf8Encode_injective : Function.Injective utf8Encode := by
  intro s t same
  have decoded := utf8Decode_utf8Encode s
  rw [same, utf8Decode_utf8Encode, Option.some.injEq] at decoded
  exact decoded.symm

theorem utf8Encode_of_utf8Decode {bytes : List UInt8} {t : Text}
    (decoded : utf8Decode bytes = some t) : utf8Encode t = bytes := by
  rw [utf8Decode, Option.map_eq_some_iff] at decoded
  obtain ⟨chars, charsEq, rfl⟩ := decoded
  have back : chars.toList.utf8Encode = bytes.toByteArray := by
    have encoded := ByteArray.utf8Encode_get_utf8Decode? (b := bytes.toByteArray)
      (h := by rw [charsEq]; rfl)
    simpa [charsEq] using encoded
  have data := congrArg (fun b => b.data.toList) back
  have left : (chars.toList.utf8Encode).data.toList = utf8Encode chars.toList :=
    congrArg Array.toList (List.data_toByteArray (l := utf8Encode chars.toList))
  simpa [left, List.data_toByteArray] using data

/-- The encodings of two characters are never proper prefixes of each other. -/
theorem utf8EncodeChar_append_inj {c d : Char} {x y : List UInt8}
    (same : String.utf8EncodeChar c ++ x = String.utf8EncodeChar d ++ y) : c = d := by
  have arrays := congrArg (fun bytes => (List.toByteArray bytes).utf8DecodeChar? 0) same
  simp only [List.toByteArray_append, ByteArray.utf8DecodeChar?_utf8EncodeChar_append] at arrays
  exact Option.some.inj arrays

/-! ## Encoding -/

/-- The upper-case hexadecimal digit of a number below 16. -/
def hexDigit (n : Nat) : Char := Char.ofNat (if n < 10 then 0x30 + n else 0x37 + n)

/-- The value of a hexadecimal digit of either case. -/
def hexValue (c : Char) : Option Nat :=
  if c.isDigit then some (c.toNat - 0x30)
  else if 'A' ≤ c ∧ c ≤ 'F' then some (c.toNat - 0x37)
  else if 'a' ≤ c ∧ c ≤ 'f' then some (c.toNat - 0x57)
  else none

def percentEncodeByte (b : UInt8) : Text :=
  ['%', hexDigit (b.toNat / 16), hexDigit (b.toNat % 16)]

/-- One character: itself when `keep` holds, else its bytes. -/
def percentEncodeChar (keep : Char → Bool) (c : Char) : Text :=
  if keep c then [c] else (String.utf8EncodeChar c).flatMap percentEncodeByte

def percentEncode (keep : Char → Bool) (s : Text) : Text := s.flatMap (percentEncodeChar keep)

/-- The characters `encodeURIComponent` keeps. -/
def uriUnreserved (c : Char) : Bool := c.isAlphanum || "-_.!~*'()".toList.contains c

def encodeURIComponent (s : Text) : Text := percentEncode uriUnreserved s

/-! ## Decoding -/

/-- The percent-decoding of the URL standard, from characters to bytes. -/
def percentDecode : Text → List UInt8
  | [] => []
  | '%' :: a :: b :: rest =>
      match hexValue a, hexValue b with
      | some high, some low => UInt8.ofNat (16 * high + low) :: percentDecode rest
      | _, _ => 0x25 :: percentDecode (a :: b :: rest)
  | c :: rest => String.utf8EncodeChar c ++ percentDecode rest

/-- The text a percent-encoded component stands for. -/
def decodeText (s : Text) : Option Text := utf8Decode (percentDecode s)

/-- Every percent sign has two hexadecimal digits behind it. -/
def wellEscaped : Text → Bool
  | [] => true
  | '%' :: a :: b :: rest => (hexValue a).isSome && (hexValue b).isSome && wellEscaped rest
  | c :: rest => c ≠ '%' && wellEscaped rest

/-- `decodeURIComponent(s)`; `none` is its `URIError`. -/
def decodeURIComponent (s : Text) : Option Text := if wellEscaped s then decodeText s else none

theorem hexValue_hexDigit : ∀ n < 16, hexValue (hexDigit n) = some n := by
  decide

theorem percentDecode_cons_of_ne {c : Char} (other : c ≠ '%') (rest : Text) :
    percentDecode (c :: rest) = String.utf8EncodeChar c ++ percentDecode rest := by
  rw [percentDecode]
  rintro a b tail rfl
  exact (other rfl).elim

theorem percentDecode_escape {a b : Char} (high low : Nat) (highEq : hexValue a = some high)
    (lowEq : hexValue b = some low) (rest : Text) :
    percentDecode ('%' :: a :: b :: rest) =
      UInt8.ofNat (16 * high + low) :: percentDecode rest := by
  simp only [percentDecode, highEq, lowEq]

theorem percentDecode_percentEncodeByte (b : UInt8) (rest : Text) :
    percentDecode (percentEncodeByte b ++ rest) = b :: percentDecode rest := by
  have bound : b.toNat < 256 := b.toNat_lt
  have high := hexValue_hexDigit (b.toNat / 16) (by omega)
  have low := hexValue_hexDigit (b.toNat % 16) (by omega)
  simp only [percentEncodeByte, List.cons_append, List.nil_append, percentDecode_escape _ _ high low]
  rw [Nat.div_add_mod]
  simp

theorem percentDecode_bytes (bytes : List UInt8) (rest : Text) :
    percentDecode (bytes.flatMap percentEncodeByte ++ rest) = bytes ++ percentDecode rest := by
  induction bytes with
  | nil => rfl
  | cons b bytes ih =>
      rw [List.flatMap_cons, List.append_assoc, percentDecode_percentEncodeByte, ih,
        List.cons_append]

/-- **Round trip.** Decoding an encoded text gives its bytes, whatever is kept,
as long as `%` is not. -/
theorem percentDecode_percentEncode (keep : Char → Bool) (percent : keep '%' = false)
    (s rest : Text) :
    percentDecode (percentEncode keep s ++ rest) = utf8Encode s ++ percentDecode rest := by
  induction s with
  | nil => rfl
  | cons c s ih =>
      rw [percentEncode, List.flatMap_cons, List.append_assoc]
      rw [percentEncode] at ih
      rw [utf8Encode, List.flatMap_cons, List.append_assoc]
      rw [utf8Encode] at ih
      unfold percentEncodeChar at ih ⊢
      split
      · rename_i kept
        have other : c ≠ '%' := by
          rintro rfl
          rw [percent] at kept
          cases kept
        rw [List.cons_append, List.nil_append, percentDecode_cons_of_ne other, ih]
      · rw [percentDecode_bytes, ih]

theorem percentDecode_encodeURIComponent (s : Text) :
    percentDecode (encodeURIComponent s) = utf8Encode s := by
  have trip := percentDecode_percentEncode uriUnreserved (by decide) s []
  rwa [List.append_nil, percentDecode, List.append_nil] at trip

theorem decodeText_encodeURIComponent (s : Text) : decodeText (encodeURIComponent s) = some s := by
  rw [decodeText, percentDecode_encodeURIComponent, utf8Decode_utf8Encode]

/-! ## What decodes to a given character -/

theorem hexValue_lt {c : Char} {n : Nat} (value : hexValue c = some n) : n < 16 := by
  unfold hexValue at value
  split_ifs at value with digit upper lower
  · simp only [Char.isDigit, Bool.and_eq_true, decide_eq_true_eq, ge_iff_le,
      UInt32.le_iff_toNat_le] at digit
    have bounds : c.toNat ≤ 57 := digit.2
    rw [Option.some.injEq] at value
    omega
  · have bounds : c.toNat ≤ 70 := UInt32.le_iff_toNat_le.mp upper.2
    rw [Option.some.injEq] at value
    omega
  · have bounds : c.toNat ≤ 102 := UInt32.le_iff_toNat_le.mp lower.2
    rw [Option.some.injEq] at value
    omega

/-- The characters with a given hexadecimal value. -/
theorem eq_of_hexValue {c : Char} {n : Nat} (value : hexValue c = some n) :
    c = hexDigit n ∨ c = (hexDigit n).toLower := by
  have table : ∀ k < 128, (hexValue (Char.ofNat k)).all (fun m =>
      Char.ofNat k = hexDigit m || Char.ofNat k = (hexDigit m).toLower) = true := by decide
  have ascii : c.toNat < 128 := by
    unfold hexValue at value
    split_ifs at value with digit upper lower
    · simp only [Char.isDigit, Bool.and_eq_true, decide_eq_true_eq, ge_iff_le,
        UInt32.le_iff_toNat_le] at digit
      exact lt_of_le_of_lt digit.2 (by decide)
    · exact lt_of_le_of_lt (UInt32.le_iff_toNat_le.mp upper.2) (by decide)
    · exact lt_of_le_of_lt (UInt32.le_iff_toNat_le.mp lower.2) (by decide)
  have entry := table c.toNat ascii
  rw [Char.ofNat_toNat, value] at entry
  simpa using entry

/-- A text whose first byte is that of an ASCII character starts with the
character or with an escape of it. -/
theorem percentDecode_eq_cons {d : Char} (ascii : d.toNat < 128) {s : Text} {bytes : List UInt8}
    (decoded : percentDecode s = UInt8.ofNat d.toNat :: bytes) :
    (∃ rest, s = d :: rest ∧ percentDecode rest = bytes) ∨
      ∃ a b rest, s = '%' :: a :: b :: rest ∧ hexValue a = some (d.toNat / 16) ∧
        hexValue b = some (d.toNat % 16) ∧ percentDecode rest = bytes := by
  have single : ∀ e < 128, String.utf8EncodeChar (Char.ofNat e) = [UInt8.ofNat e] := by decide
  have encoded : String.utf8EncodeChar d = [UInt8.ofNat d.toNat] := by
    have entry := single d.toNat ascii
    rwa [Char.ofNat_toNat] at entry
  have plain : ∀ c rest, String.utf8EncodeChar c ++ percentDecode rest =
      UInt8.ofNat d.toNat :: bytes → c = d ∧ percentDecode rest = bytes := by
    intro c rest eq
    have whole : String.utf8EncodeChar c ++ percentDecode rest =
        String.utf8EncodeChar d ++ bytes := by rw [eq, encoded]; rfl
    have same := utf8EncodeChar_append_inj whole
    subst same
    exact ⟨rfl, List.append_cancel_left whole⟩
  unfold percentDecode at decoded
  split at decoded
  · cases decoded
  · rename_i a b rest
    split at decoded
    · rename_i high low highEq lowEq
      rw [List.cons.injEq] at decoded
      obtain ⟨byte, tail⟩ := decoded
      have highBound := hexValue_lt highEq
      have lowBound := hexValue_lt lowEq
      have value := congrArg UInt8.toNat byte
      rw [UInt8.toNat_ofNat_of_lt' (show 16 * high + low < 256 by omega),
        UInt8.toNat_ofNat_of_lt' (show d.toNat < 256 by omega)] at value
      refine Or.inr ⟨a, b, rest, rfl, ?_, ?_, tail⟩
      · rw [highEq]
        congr 1
        omega
      · rw [lowEq]
        congr 1
        omega
    · have percent : ([0x25] : List UInt8) = String.utf8EncodeChar '%' := by decide
      have shape : String.utf8EncodeChar '%' ++ percentDecode (a :: b :: rest) =
          UInt8.ofNat d.toNat :: bytes := by rw [← percent]; exact decoded
      obtain ⟨rfl, tail⟩ := plain '%' _ shape
      exact Or.inl ⟨a :: b :: rest, rfl, tail⟩
  · rename_i c rest _
    obtain ⟨rfl, tail⟩ := plain c rest decoded
    exact Or.inl ⟨rest, rfl, tail⟩

/-! ## The characters an encoded text can hold -/

theorem mem_percentEncode {keep : Char → Bool} {s : Text} {c : Char}
    (member : c ∈ percentEncode keep s) :
    keep c = true ∨ c = '%' ∨ ∃ n < 16, c = hexDigit n := by
  obtain ⟨d, _, inside⟩ := List.mem_flatMap.mp member
  unfold percentEncodeChar at inside
  split at inside
  · rename_i kept
    rw [List.mem_singleton] at inside
    exact Or.inl (inside ▸ kept)
  · obtain ⟨b, _, digit⟩ := List.mem_flatMap.mp inside
    have bound : b.toNat < 256 := b.toNat_lt
    simp only [percentEncodeByte, List.mem_cons, List.not_mem_nil, or_false] at digit
    rcases digit with rfl | rfl | rfl
    · exact Or.inr (Or.inl rfl)
    · exact Or.inr (Or.inr ⟨_, by omega, rfl⟩)
    · exact Or.inr (Or.inr ⟨_, by omega, rfl⟩)

/-- The characters that `encodeURIComponent` can write. -/
def uriEncoded (c : Char) : Bool := uriUnreserved c || c == '%'

theorem uriEncoded_of_mem {s : Text} {c : Char} (member : c ∈ encodeURIComponent s) :
    uriEncoded c = true := by
  have digits : ∀ n < 16, uriEncoded (hexDigit n) = true := by decide
  rcases mem_percentEncode member with kept | rfl | ⟨n, small, rfl⟩
  · rw [uriEncoded, kept, Bool.true_or]
  · decide
  · exact digits n small

theorem ascii_of_uriEncoded {c : Char} (encoded : uriEncoded c = true) : c.toNat < 128 := by
  simp only [uriEncoded, uriUnreserved, Bool.or_eq_true, beq_iff_eq, List.contains_iff_mem] at encoded
  rcases encoded with (alphanum | kept) | rfl
  · simp only [Char.isAlphanum, Char.isAlpha, Char.isUpper, Char.isLower, Char.isDigit,
      Bool.or_eq_true, Bool.and_eq_true, decide_eq_true_eq, ge_iff_le,
      UInt32.le_iff_toNat_le] at alphanum
    have small : c.val.toNat < 128 := by
      rcases alphanum with (bounds | bounds) | bounds
      · exact lt_of_le_of_lt bounds.2 (by decide)
      · exact lt_of_le_of_lt bounds.2 (by decide)
      · exact lt_of_le_of_lt bounds.2 (by decide)
    exact small
  · have all : ("-_.!~*'()".toList.all fun d => d.toNat < 128) = true := by decide
    exact of_decide_eq_true (List.all_eq_true.mp all c kept)
  · decide

/-! ## Names that need no escape -/

theorem encodeURIComponent_eq_self {a : Text} (plain : ∀ c ∈ a, uriUnreserved c = true) :
    encodeURIComponent a = a := by
  induction a with
  | nil => rfl
  | cons c rest ih =>
      have tail := ih fun d member => plain d (List.mem_cons_of_mem c member)
      unfold encodeURIComponent percentEncode at tail ⊢
      rw [List.flatMap_cons, tail, percentEncodeChar, if_pos (plain c List.mem_cons_self)]
      rfl

/-- A character that is not kept leaves a percent sign. -/
theorem percent_mem_encodeURIComponent {a : Text} {c : Char} (member : c ∈ a)
    (escaped : uriUnreserved c = false) : '%' ∈ encodeURIComponent a := by
  refine List.mem_flatMap.mpr ⟨c, member, ?_⟩
  rw [percentEncodeChar, escaped, if_neg Bool.false_ne_true]
  have some : String.utf8EncodeChar c ≠ [] := by
    intro none
    have length := String.length_utf8EncodeChar c
    rw [none, List.length_nil] at length
    exact absurd length (Nat.ne_of_lt c.utf8Size_pos)
  obtain ⟨b, rest, bytes⟩ := List.exists_cons_of_ne_nil some
  rw [bytes, List.flatMap_cons]
  exact List.mem_append_left _ List.mem_cons_self

theorem uriUnreserved_of_toLower {c : Char} (kept : uriUnreserved c.toLower = true) :
    uriUnreserved c = true := by
  by_cases upper : c.isUpper = true
  · simp [uriUnreserved, Char.isAlphanum, Char.isAlpha, upper]
  · rwa [Char.toLower_eq_of_not_isUpper upper] at kept

/-- A word that needs no escape is met, capitals or not, by itself alone. -/
theorem map_toLower_encodeURIComponent {a w : Text} (word : w.all uriUnreserved = true) :
    (encodeURIComponent a).map Char.toLower = w ↔ a.map Char.toLower = w := by
  rw [List.all_eq_true] at word
  constructor
  · rintro rfl
    have plain : ∀ c ∈ a, uriUnreserved c = true := by
      intro c member
      by_contra escaped
      have sign := percent_mem_encodeURIComponent member (Bool.eq_false_iff.mpr escaped)
      exact absurd (word '%' (List.mem_map.mpr ⟨'%', sign, by decide⟩)) (by decide)
    rw [encodeURIComponent_eq_self plain]
  · rintro rfl
    have plain : ∀ c ∈ a, uriUnreserved c = true := fun c member =>
      uriUnreserved_of_toLower (word c.toLower (List.mem_map_of_mem member))
    rw [encodeURIComponent_eq_self plain]

end Ecma
