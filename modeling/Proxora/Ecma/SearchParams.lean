import Proxora.Ecma.Uri

/-!
# `URLSearchParams`

The list of name-value pairs with `set` and `append`, its
`application/x-www-form-urlencoded` serialisation and the parser that reads
such a text back.
-/

namespace Ecma

/-- The name-value pairs, in order. -/
abbrev Params := List (Text × Text)

/-- `params.append(key, value)`. -/
def Params.append (params : Params) (key value : Text) : Params := params ++ [(key, value)]

/-- `params.set(key, value)`: the first pair of that name takes the value, the
others go; a new name is appended. -/
def Params.set : Params → Text → Text → Params
  | [], key, value => [(key, value)]
  | (k, v) :: rest, key, value =>
      if k = key then (key, value) :: rest.filter (fun entry => entry.1 ≠ key)
      else (k, v) :: Params.set rest key value

/-- The characters the form serialiser keeps. -/
def formUnreserved (c : Char) : Bool := c.isAlphanum || "*-._".toList.contains c

def formEncode (s : Text) : Text :=
  s.flatMap fun c => if c = ' ' then ['+'] else percentEncodeChar formUnreserved c

/-- `params.toString()`. -/
def Params.serialize (params : Params) : Text :=
  join '&' (params.map fun entry => formEncode entry.1 ++ '=' :: formEncode entry.2)

/-- One component read back: `+` is a space, `%XX` a byte.  Bytes that are not
UTF-8 give the replacement character. -/
def formDecode (s : Text) : Text :=
  (decodeText (s.map fun c => if c = '+' then ' ' else c)).getD [Char.ofNat 0xFFFD]

/-- The form parser. -/
def Params.parse (s : Text) : Params :=
  ((split '&' s).filter (· ≠ [])).map fun pair =>
    (formDecode (pair.takeWhile (· ≠ '=')), formDecode ((pair.dropWhile (· ≠ '=')).drop 1))

/-- Every value of a name: `params.getAll(key)`. -/
def Params.getAll (params : Params) (key : Text) : List Text :=
  (params.filter fun entry => entry.1 = key).map Prod.snd

/-! ## What is written reads back -/

/-- The characters of an encoded component. -/
def isFormChar (c : Char) : Bool := c = '+' || c = '%' || formUnreserved c

theorem isFormChar_hexDigit : ∀ n < 16, isFormChar (hexDigit n) = true ∧ hexDigit n ≠ '+' := by
  decide

theorem chars_percentEncodeByte (b : UInt8) :
    ∀ c ∈ percentEncodeByte b, isFormChar c = true ∧ c ≠ '+' := by
  have bound : b.toNat < 256 := b.toNat_lt
  intro c inside
  simp only [percentEncodeByte, List.mem_cons, List.not_mem_nil, or_false] at inside
  rcases inside with rfl | rfl | rfl
  · exact ⟨by decide, by decide⟩
  · exact isFormChar_hexDigit _ (by omega)
  · exact isFormChar_hexDigit _ (by omega)

theorem plus_of_formUnreserved {c : Char} (kept : formUnreserved c = true) : c ≠ '+' := by
  rintro rfl
  exact absurd kept (by decide)

theorem chars_percentEncodeChar (c : Char) :
    ∀ d ∈ percentEncodeChar formUnreserved c, isFormChar d = true ∧ d ≠ '+' := by
  intro d inside
  rw [percentEncodeChar] at inside
  split_ifs at inside with kept
  · rw [List.mem_singleton.mp inside, isFormChar, kept, Bool.or_true]
    exact ⟨rfl, plus_of_formUnreserved kept⟩
  · obtain ⟨byte, -, within⟩ := List.mem_flatMap.mp inside
    exact chars_percentEncodeByte byte d within

theorem chars_formEncode (s : Text) : ∀ c ∈ formEncode s, isFormChar c = true := by
  intro c inside
  obtain ⟨d, -, within⟩ := List.mem_flatMap.mp inside
  split_ifs at within
  · rw [List.mem_singleton.mp within]
    decide
  · exact (chars_percentEncodeChar d c within).1

theorem notMem_formEncode {c : Char} (other : isFormChar c = false) (s : Text) :
    c ∉ formEncode s := by
  intro inside
  rw [chars_formEncode s c inside] at other
  cases other

/-- With its plus signs read as spaces an encoded component is the percent encoding that keeps
spaces. -/
theorem map_formEncode (s : Text) :
    ((formEncode s).map fun c => if c = '+' then ' ' else c) =
      percentEncode (fun c => c = ' ' || formUnreserved c) s := by
  rw [formEncode, percentEncode, List.map_flatMap]
  refine List.flatMap_congr fun c _ => ?_
  by_cases space : c = ' '
  · rw [if_pos space, percentEncodeChar, decide_eq_true space, space]
    rfl
  · have same : percentEncodeChar (fun c => c = ' ' || formUnreserved c) c =
        percentEncodeChar formUnreserved c := by
      rw [percentEncodeChar, decide_eq_false space, Bool.false_or]
      rfl
    rw [if_neg space, same]
    refine (List.map_congr_left fun d inside => ?_).trans (List.map_id _)
    exact if_neg (chars_percentEncodeChar c d inside).2

theorem formDecode_formEncode (s : Text) : formDecode (formEncode s) = s := by
  have decoded := percentDecode_percentEncode (fun c => c = ' ' || formUnreserved c) (by decide) s []
  rw [List.append_nil, percentDecode, List.append_nil] at decoded
  rw [formDecode, map_formEncode, decodeText, decoded, utf8Decode_utf8Encode]
  rfl

/-- The parser reads back the pairs that were written. -/
theorem Params.parse_serialize (params : Params) : Params.parse (Params.serialize params) = params := by
  let pair (entry : Text × Text) : Text := formEncode entry.1 ++ '=' :: formEncode entry.2
  have free : ∀ word ∈ params.map pair, '&' ∉ word := by
    intro word listed
    obtain ⟨entry, -, rfl⟩ := List.mem_map.mp listed
    simp only [pair, List.mem_append, List.mem_cons, not_or]
    exact ⟨notMem_formEncode (by decide) _, by decide, notMem_formEncode (by decide) _⟩
  have pieces : ((split '&' (Params.serialize params)).filter (· ≠ [])) = params.map pair := by
    by_cases empty : params = []
    · rw [empty]
      rfl
    · rw [Params.serialize, split_join (by simpa using empty) free]
      refine List.filter_eq_self.mpr fun word listed => ?_
      obtain ⟨entry, -, rfl⟩ := List.mem_map.mp listed
      simp [pair]
  have name (entry : Text × Text) : (pair entry).takeWhile (· ≠ '=') = formEncode entry.1 := by
    refine List.takeWhile_append_of_pos ?_ |>.trans ?_
    · intro c inside
      rw [decide_eq_true_eq]
      rintro rfl
      exact notMem_formEncode (by decide) _ inside
    · simp
  have value (entry : Text × Text) :
      ((pair entry).dropWhile (· ≠ '=')).drop 1 = formEncode entry.2 := by
    rw [List.dropWhile_append_of_pos]
    · simp
    · intro c inside
      rw [decide_eq_true_eq]
      rintro rfl
      exact notMem_formEncode (by decide) _ inside
  rw [Params.parse, pieces, List.map_map]
  refine (List.map_congr_left fun entry _ => ?_).trans (List.map_id _)
  rw [Function.comp_apply, name, value, formDecode_formEncode, formDecode_formEncode]
  rfl

end Ecma
