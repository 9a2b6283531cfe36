import Mathlib

/-!
# ECMAScript text

A string is modelled by the list of its Unicode scalar values.  The functions
below carry the names of the `String.prototype` methods they follow; only the
cases a program written against ASCII patterns can tell apart are spelled out
(see `lowerChar`, `upperChar`).

* `split` cuts a text at a separator; `split_append_cons` and `join_split` are
  the two facts every segment argument uses.
* `includes` is the executable infix test, `includes_iff` its meaning.
* `trim` and `removeSpaces` treat white space, `numberOfDigits` reads a numeral.
* `Lower` says that a text has no ASCII capital; `toLowerCase` produces such
  texts and leaves them alone.
-/

namespace Ecma

/-- An ECMAScript string, as the list of its characters. -/
abbrev Text := List Char

instance : Coe String Text := ⟨String.toList⟩

instance Text.lawfulBEq : LawfulBEq Text := inferInstance

/-! ## Case mapping -/

/-- `String.prototype.toLowerCase` on one character.  `Char.toLower` covers
ASCII; the Kelvin sign and the dotted capital I are the only other characters
whose lower case contains an ASCII letter.  The remaining capitals have lower
cases outside ASCII and are kept: an ASCII test cannot tell the difference. -/
def lowerChar (c : Char) : Text :=
  if c.toNat = 0x212A then ['k']
  else if c.toNat = 0x130 then ['i', Char.ofNat 0x307]
  else [c.toLower]

/-- `String.prototype.toLowerCase`. -/
def toLowerCase (s : Text) : Text := s.flatMap lowerChar

/-- The characters outside ASCII whose upper case contains an ASCII letter. -/
def upperSpecial : List (Nat × Text) :=
  [(0xDF, "SS"), (0x131, "I"), (0x149, Char.ofNat 0x2BC :: "N"), (0x17F, "S"),
   (0x1F0, "J" ++ [Char.ofNat 0x30C]), (0x1E96, "H" ++ [Char.ofNat 0x331]),
   (0x1E97, "T" ++ [Char.ofNat 0x308]), (0x1E98, "W" ++ [Char.ofNat 0x30A]),
   (0x1E99, "Y" ++ [Char.ofNat 0x30A]), (0x1E9A, "A" ++ [Char.ofNat 0x2BE]),
   (0xFB00, "FF"), (0xFB01, "FI"), (0xFB02, "FL"), (0xFB03, "FFI"),
   (0xFB04, "FFL"), (0xFB05, "ST"), (0xFB06, "ST")]

/-- `String.prototype.toUpperCase` on one character, exact as far as ASCII is
concerned (compare `lowerChar`). -/
def upperChar (c : Char) : Text := (upperSpecial.lookup c.toNat).getD [c.toUpper]

/-- `String.prototype.toUpperCase`. -/
def toUpperCase (s : Text) : Text := s.flatMap upperChar

/-- A text without ASCII capitals. -/
def Lower (s : Text) : Prop := ∀ c ∈ s, c.toLower = c

instance (s : Text) : Decidable (Lower s) := List.decidableBAll (fun c : Char => c.toLower = c) s

theorem lower_map_toLower (s : Text) : Lower (s.map Char.toLower) := by
  intro c member
  obtain ⟨d, _, rfl⟩ := List.mem_map.mp member
  exact Char.toLower_toLower_eq_toLower d

theorem Lower.append {s t : Text} (left : Lower s) (right : Lower t) : Lower (s ++ t) := by
  intro c member
  rcases List.mem_append.mp member with member | member
  · exact left c member
  · exact right c member

theorem lower_lowerChar (c : Char) : Lower (lowerChar c) := by
  intro d member
  unfold lowerChar at member
  split at member
  · simp only [List.mem_singleton] at member
    subst member
    rfl
  · split at member
    · simp only [List.mem_cons, List.not_mem_nil, or_false] at member
      rcases member with rfl | rfl <;> decide
    · simp only [List.mem_singleton] at member
      subst member
      exact Char.toLower_toLower_eq_toLower c

theorem lower_toLowerCase (s : Text) : Lower (toLowerCase s) := by
  intro d member
  obtain ⟨c, _, inside⟩ := List.mem_flatMap.mp member
  exact lower_lowerChar c d inside

/-- Lower-casing ASCII. -/
theorem toLowerCase_of_ascii {s : Text} (ascii : ∀ c ∈ s, c.toNat < 128) :
    toLowerCase s = s.map Char.toLower := by
  induction s with
  | nil => rfl
  | cons c rest ih =>
      have small := ascii c List.mem_cons_self
      have image : lowerChar c = [c.toLower] := by
        unfold lowerChar
        rw [if_neg (by omega), if_neg (by omega)]
      have tail := ih fun d member => ascii d (List.mem_cons_of_mem c member)
      unfold toLowerCase at tail ⊢
      rw [List.flatMap_cons, image, tail]
      rfl

@[simp] theorem toLowerCase_append (s t : Text) :
    toLowerCase (s ++ t) = toLowerCase s ++ toLowerCase t :=
  List.flatMap_append

/-- A character of a lower-cased text is lower-cased no further. -/
theorem lowerChar_of_mem {s : Text} {c : Char} (member : c ∈ toLowerCase s) : lowerChar c = [c] := by
  have plain {d : Char} (lower : d.toLower = d) (kelvin : d.toNat ≠ 0x212A)
      (dotted : d.toNat ≠ 0x130) : lowerChar d = [d] := by
    rw [lowerChar, if_neg kelvin, if_neg dotted, lower]
  obtain ⟨d, -, image⟩ := List.mem_flatMap.mp member
  have lower : c.toLower = c := lower_lowerChar d c image
  unfold lowerChar at image
  split at image
  · obtain rfl := List.mem_singleton.mp image
    rfl
  · rename_i kelvin
    split at image
    · rcases List.mem_cons.mp image with rfl | image
      · rfl
      · obtain rfl := List.mem_singleton.mp image
        decide
    · rename_i dotted
      obtain rfl := List.mem_singleton.mp image
      by_cases upper : d.isUpper = true
      · have small : d.toLower.toNat < 128 := by
          rw [Char.toLower_eq_of_isUpper upper]
          simp only [Char.isUpper, decide_eq_true_eq, ge_iff_le,
            UInt32.le_iff_toNat_le] at upper
          have top : d.toNat ≤ 90 := upper.2
          rw [Char.toNat_ofNat]
          split
          · omega
          · decide
        exact plain lower (by omega) (by omega)
      · rw [Char.toLower_eq_of_not_isUpper upper] at lower ⊢
        exact plain lower kelvin dotted

theorem toLowerCase_of_fixed {s : Text} (fixed : ∀ c ∈ s, lowerChar c = [c]) :
    toLowerCase s = s := by
  induction s with
  | nil => rfl
  | cons c s ih =>
      have rest := ih fun d member => fixed d (List.mem_cons_of_mem c member)
      rw [toLowerCase] at rest ⊢
      rw [List.flatMap_cons, fixed c List.mem_cons_self, rest]
      rfl

theorem toLowerCase_ne_nil {s : Text} (given : s ≠ []) : toLowerCase s ≠ [] := by
  obtain ⟨c, rest, rfl⟩ := List.exists_cons_of_ne_nil given
  have head : lowerChar c ≠ [] := by
    unfold lowerChar
    split
    · exact List.cons_ne_nil _ _
    · split <;> exact List.cons_ne_nil _ _
  intro empty
  exact head (List.append_eq_nil_iff.mp empty).1

/-! ## Searching -/

/-- `s.includes(sub)`. -/
def includes : Text → Text → Bool
  | [], sub => sub.isEmpty
  | c :: s, sub => sub.isPrefixOf (c :: s) || includes s sub

theorem includes_iff {s sub : Text} : includes s sub = true ↔ sub <:+: s := by
  induction s with
  | nil => simp [includes]
  | cons c s ih =>
      rw [includes, Bool.or_eq_true, ih, List.isPrefixOf_iff_prefix, List.infix_cons_iff]

/-- `s.startsWith(sub)`. -/
def startsWith (s sub : Text) : Bool := sub.isPrefixOf s

/-- `s.endsWith(sub)`. -/
def endsWith (s sub : Text) : Bool := sub.isSuffixOf s

/-- `s.length`, in UTF-16 units. -/
def utf16Length (s : Text) : Nat := (s.map fun c => if c.toNat < 0x10000 then 1 else 2).sum

theorem utf16Length_append (s t : Text) : utf16Length (s ++ t) = utf16Length s + utf16Length t := by
  rw [utf16Length, List.map_append, List.sum_append]
  rfl

/-! ## White space -/

/-- The characters of `\s`, which `trim` strips too. -/
def isSpace (c : Char) : Bool :=
  let n := c.toNat
  (9 ≤ n && n ≤ 13) || n = 0x20 || n = 0xA0 || n = 0x1680 || (0x2000 ≤ n && n ≤ 0x200A) ||
    n = 0x2028 || n = 0x2029 || n = 0x202F || n = 0x205F || n = 0x3000 || n = 0xFEFF

/-- `s.trim()`. -/
def trim (s : Text) : Text := ((s.dropWhile isSpace).reverse.dropWhile isSpace).reverse

/-- What is trimmed is not trimmed any further. -/
theorem trim_trim (s : Text) : trim (trim s) = trim s := by
  have form (t : Text) : trim t = (t.dropWhile isSpace).rdropWhile isSpace := rfl
  have starts : trim s <+: s.dropWhile isSpace :=
    form s ▸ List.rdropWhile_prefix isSpace (s.dropWhile isSpace)
  have front : (trim s).dropWhile isSpace = trim s := by
    rw [List.dropWhile_eq_self_iff]
    intro some
    rw [starts.getElem some]
    exact List.dropWhile_get_zero_not isSpace s (Nat.lt_of_lt_of_le some starts.length_le)
  rw [form (trim s), front, form s]
  exact List.rdropWhile_idempotent isSpace (s.dropWhile isSpace)

/-- `s.replace(/\s+/g, "")`. -/
def removeSpaces (s : Text) : Text := s.filter fun c => !isSpace c

/-! ## Numerals -/

/-- The number that decimal digits write. -/
def digitsValue (digits : Text) : Nat := Nat.ofDigitChars 10 digits 0

theorem digitsValue_toString (n : Nat) : digitsValue (toString n : String) = n := by
  rw [digitsValue, Nat.toString_eq_ofList_toDigits, String.toList_ofList,
    Nat.ofDigitChars_ten_toDigits]

/-- A number is known by its numeral. -/
theorem digits_toString {n : Nat} : ∀ c ∈ (toString n : String).toList, c.isDigit = true := by
  intro c member
  rw [Nat.toString_eq_ofList_toDigits, String.toList_ofList] at member
  exact Nat.isDigit_of_mem_toDigits (by decide) (by decide) member

theorem toString_nat_inj {m n : Nat}
    (same : (toString m : String).toList = (toString n : String).toList) : m = n := by
  rw [← digitsValue_toString m, same, digitsValue_toString]

/-- The double nearest to a natural number, ties to even; `2 ^ 1024` stands for `Infinity`. -/
def nearestDouble (n : Nat) : Nat :=
  if n < 2 ^ 53 then n
  else
    let unit := 2 ^ (Nat.log2 n - 52)
    let low := n / unit
    let up := unit < 2 * (n % unit) ∨ (unit = 2 * (n % unit) ∧ low % 2 = 1)
    min ((if up then low + 1 else low) * unit) (2 ^ 1024)

/-- `Number(digits)`. -/
def numberOfDigits (digits : Text) : Nat := nearestDouble (digitsValue digits)

/-! ## Splitting -/

/-- `s.split(sep)` for a separator of one character. -/
def split (sep : Char) : Text → List Text
  | [] => [[]]
  | c :: s =>
      if c = sep then [] :: split sep s
      else
        match split sep s with
        | [] => [[c]]
        | word :: words => (c :: word) :: words

variable {sep : Char}

theorem split_ne_nil (sep : Char) (s : Text) : split sep s ≠ [] := by
  cases s with
  | nil => simp [split]
  | cons c s =>
      rw [split]
      split_ifs
      · simp
      · split <;> simp

theorem split_cons_ne {c : Char} {s word : Text} {words : List Text} (other : c ≠ sep)
    (tail : split sep s = word :: words) : split sep (c :: s) = (c :: word) :: words := by
  rw [split, if_neg other, tail]

/-- Cutting at a known separator. -/
theorem split_append_cons (s t : Text) :
    split sep (s ++ sep :: t) = split sep s ++ split sep t := by
  induction s with
  | nil => simp [split]
  | cons c s ih =>
      by_cases same : c = sep
      · rw [List.cons_append, split, split, if_pos same, if_pos same, ih]
        rfl
      · obtain ⟨word, words, tail⟩ := List.exists_cons_of_ne_nil (split_ne_nil sep s)
        rw [tail] at ih
        rw [List.cons_append, split_cons_ne same ih, split_cons_ne same tail]
        rfl

/-- A text without the separator is one word. -/
theorem split_of_notMem {s : Text} (free : sep ∉ s) : split sep s = [s] := by
  induction s with
  | nil => rfl
  | cons c s ih =>
      rw [List.mem_cons, not_or] at free
      exact split_cons_ne (Ne.symm free.1) (ih free.2)

/-- The words of a split hold no separator. -/
theorem sep_notMem_of_mem_split {s word : Text} (member : word ∈ split sep s) : sep ∉ word := by
  induction s generalizing word with
  | nil =>
      simp only [split, List.mem_singleton] at member
      subst member
      simp
  | cons c s ih =>
      obtain ⟨first, words, tail⟩ := List.exists_cons_of_ne_nil (split_ne_nil sep s)
      by_cases same : c = sep
      · rw [split, if_pos same, List.mem_cons] at member
        rcases member with rfl | member
        · simp
        · exact ih member
      · rw [split_cons_ne same tail, List.mem_cons] at member
        rcases member with rfl | member
        · have free : sep ∉ first := ih (by rw [tail]; exact List.mem_cons_self)
          simp [free, Ne.symm same]
        · exact ih (by rw [tail]; exact List.mem_cons_of_mem first member)

/-- A word holds characters of the text only. -/
theorem mem_of_mem_split {s word : Text} {d : Char} (member : word ∈ split sep s) (inside : d ∈ word) :
    d ∈ s := by
  induction s generalizing word with
  | nil =>
      simp only [split, List.mem_singleton] at member
      subst member
      exact inside
  | cons c s ih =>
      obtain ⟨first, words, tail⟩ := List.exists_cons_of_ne_nil (split_ne_nil sep s)
      by_cases same : c = sep
      · rw [split, if_pos same, List.mem_cons] at member
        rcases member with rfl | member
        · cases inside
        · exact List.mem_cons_of_mem c (ih member inside)
      · rw [split_cons_ne same tail, List.mem_cons] at member
        rcases member with rfl | member
        · rcases List.mem_cons.mp inside with rfl | inside
          · exact List.mem_cons_self
          · exact List.mem_cons_of_mem c (ih (by rw [tail]; exact List.mem_cons_self) inside)
        · exact List.mem_cons_of_mem c
            (ih (by rw [tail]; exact List.mem_cons_of_mem first member) inside)

theorem Lower.of_mem_split {s word : Text} (lower : Lower s) (member : word ∈ split sep s) :
    Lower word :=
  fun d inside => lower d (mem_of_mem_split member inside)

/-- `words.join(sep)`. -/
def join (sep : Char) : List Text → Text
  | [] => []
  | [word] => word
  | word :: next :: words => word ++ sep :: join sep (next :: words)

theorem join_cons {word : Text} {words : List Text} (more : words ≠ []) :
    join sep (word :: words) = word ++ sep :: join sep words := by
  cases words with
  | nil => exact (more rfl).elim
  | cons next words => rfl

theorem mem_join {parts : List Text} {c : Char} (inside : c ∈ join sep parts) :
    c = sep ∨ ∃ seg ∈ parts, c ∈ seg := by
  induction parts with
  | nil => cases inside
  | cons seg rest ih =>
      by_cases last : rest = []
      · subst last
        exact .inr ⟨seg, List.mem_cons_self, inside⟩
      · rw [join_cons last] at inside
        rcases List.mem_append.mp inside with here | later
        · exact .inr ⟨seg, List.mem_cons_self, here⟩
        · rcases List.mem_cons.mp later with same | later
          · exact .inl same
          · rcases ih later with same | ⟨s, member, here⟩
            · exact .inl same
            · exact .inr ⟨s, List.mem_cons_of_mem _ member, here⟩

theorem join_append {front back : List Text} (left : front ≠ []) (right : back ≠ []) :
    join sep (front ++ back) = join sep front ++ sep :: join sep back := by
  induction front with
  | nil => exact (left rfl).elim
  | cons word front ih =>
      cases front with
      | nil => exact join_cons right
      | cons next front =>
          have rest : next :: front ≠ [] := List.cons_ne_nil next front
          rw [List.cons_append, join_cons (List.append_ne_nil_of_left_ne_nil rest back), ih rest,
            join_cons rest, List.append_assoc, List.cons_append]

theorem join_split (s : Text) : join sep (split sep s) = s := by
  induction s with
  | nil => rfl
  | cons c s ih =>
      obtain ⟨word, words, tail⟩ := List.exists_cons_of_ne_nil (split_ne_nil sep s)
      by_cases same : c = sep
      · rw [split, if_pos same, join_cons (split_ne_nil sep s), ih, same]
        rfl
      · rw [split_cons_ne same tail]
        rw [tail] at ih
        cases words with
        | nil => rw [← ih]; rfl
        | cons next words =>
            rw [join_cons (by simp)] at ih ⊢
            rw [← ih, List.cons_append]

/-- Joining words without the separator and splitting gives the words back. -/
theorem split_join {words : List Text} (some : words ≠ [])
    (free : ∀ word ∈ words, sep ∉ word) : split sep (join sep words) = words := by
  induction words with
  | nil => exact (some rfl).elim
  | cons word words ih =>
      have head := split_of_notMem (free word List.mem_cons_self)
      cases words with
      | nil => exact head
      | cons next words =>
          rw [join_cons (by simp), split_append_cons, head,
            ih (by simp) (fun w member => free w (List.mem_cons_of_mem word member))]
          rfl

end Ecma
