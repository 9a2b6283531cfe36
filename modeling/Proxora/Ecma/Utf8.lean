import Proxora.Ecma.Uri

/-!
# Reading UTF-8

`buffer.toString("utf8")`: the decoder of the encoding standard, byte by byte. An ill-formed
sequence gives the replacement character, one for each longest beginning of a character, and the
byte that broke it off is read again. `utf8Text_utf8Encode` is the round trip;
`starts_le_length_utf8Run` says that no beginning of a character is lost.
-/

namespace Ecma

/-! ## Definitions -/

/-- Inside a character: how many bytes are to come, the bits so far and the range of the next
byte. The character will be none of ASCII. -/
structure Utf8Pending where
  needed : Nat
  point : Nat
  lower : Nat
  upper : Nat
  some : 1 ≤ needed
  high : 0x80 ≤ lower
  low : upper ≤ 0xBF
  far : 0x80 ≤ (point * 64 + (lower - 0x80)) * 64 ^ (needed - 1)
deriving DecidableEq

def replacement : Char := Char.ofNat 0xFFFD

/-- The beginning of a character, by the value of its first byte. -/
def pendingTwo (n : Nat) (low : 0xC2 ≤ n) : Utf8Pending where
  needed := 1
  point := n - 0xC0
  lower := 0x80
  upper := 0xBF
  some := le_rfl
  high := le_rfl
  low := le_rfl
  far := by
    rw [pow_zero]
    omega

def pendingThree (n : Nat) (low : 0xE0 ≤ n) : Utf8Pending where
  needed := 2
  point := n - 0xE0
  lower := if n = 0xE0 then 0xA0 else 0x80
  upper := if n = 0xED then 0x9F else 0xBF
  some := by decide
  high := by split <;> omega
  low := by split <;> omega
  far := by split <;> omega

def pendingFour (n : Nat) (low : 0xF0 ≤ n) : Utf8Pending where
  needed := 3
  point := n - 0xF0
  lower := if n = 0xF0 then 0x90 else 0x80
  upper := if n = 0xF4 then 0x8F else 0xBF
  some := by decide
  high := by split <;> omega
  low := by split <;> omega
  far := by split <;> omega

/-- A byte inside of a character that is not its last one. -/
def Utf8Pending.next (p : Utf8Pending) (n : Nat) (range : p.lower ≤ n) (more : p.needed ≠ 1) :
    Utf8Pending where
  needed := p.needed - 1
  point := p.point * 64 + (n - 0x80)
  lower := 0x80
  upper := 0xBF
  some := by
    have given := p.some
    omega
  high := le_rfl
  low := le_rfl
  far := by
    have given := p.some
    have power : 64 ^ (p.needed - 1) = 64 * 64 ^ (p.needed - 1 - 1) := by
      rw [← pow_succ']
      congr 1
      omega
    calc 0x80 ≤ (p.point * 64 + (p.lower - 0x80)) * 64 ^ (p.needed - 1) := p.far
      _ = (p.point * 64 + (p.lower - 0x80)) * 64 * 64 ^ (p.needed - 1 - 1) := by
        rw [power, ← Nat.mul_assoc]
      _ ≤ ((p.point * 64 + (n - 0x80)) * 64 + (0x80 - 0x80)) * 64 ^ (p.needed - 1 - 1) := by
        apply Nat.mul_le_mul_right
        omega

/-- A byte outside a character. -/
def utf8Begin (b : UInt8) : Text × Option Utf8Pending :=
  if b.toNat < 0x80 then ([Char.ofNat b.toNat], none)
  else if low : b.toNat < 0xC2 then ([replacement], none)
  else if three : b.toNat < 0xE0 then ([], some (pendingTwo b.toNat (Nat.le_of_not_lt low)))
  else if four : b.toNat < 0xF0 then ([], some (pendingThree b.toNat (Nat.le_of_not_lt three)))
  else if b.toNat < 0xF5 then ([], some (pendingFour b.toNat (Nat.le_of_not_lt four)))
  else ([replacement], none)

/-- What a byte gives, and where it leads. -/
def utf8Step (pending : Option Utf8Pending) (b : UInt8) : Text × Option Utf8Pending :=
  match pending with
  | none => utf8Begin b
  | some p =>
      if range : p.lower ≤ b.toNat ∧ b.toNat ≤ p.upper then
        if more : p.needed = 1 then ([Char.ofNat (p.point * 64 + (b.toNat - 0x80))], none)
        else ([], some (p.next b.toNat range.1 more))
      else (replacement :: (utf8Begin b).1, (utf8Begin b).2)

def utf8Run : Option Utf8Pending → List UInt8 → Text
  | none, [] => []
  | some _, [] => [replacement]
  | pending, b :: rest => (utf8Step pending b).1 ++ utf8Run (utf8Step pending b).2 rest

/-- `buffer.toString("utf8")`. -/
def utf8Text (bytes : List UInt8) : Text := utf8Run none bytes

/-! ## Characters -/

variable {pending : Option Utf8Pending} {b : UInt8} {rest : List UInt8}

theorem utf8Run_cons : utf8Run pending (b :: rest) =
    (utf8Step pending b).1 ++ utf8Run (utf8Step pending b).2 rest := by
  cases pending <;> rfl

theorem utf8Run_pending {p : Utf8Pending} (low : p.lower ≤ b.toNat) (high : b.toNat ≤ p.upper)
    (more : p.needed ≠ 1) :
    utf8Run (some p) (b :: rest) = utf8Run (some (p.next b.toNat low more)) rest := by
  rw [utf8Run_cons, utf8Step, dif_pos ⟨low, high⟩, dif_neg more, List.nil_append]

theorem utf8Run_last {p : Utf8Pending} (low : p.lower ≤ b.toNat) (high : b.toNat ≤ p.upper)
    (one : p.needed = 1) :
    utf8Run (some p) (b :: rest) =
      Char.ofNat (p.point * 64 + (b.toNat - 0x80)) :: utf8Run none rest := by
  rw [utf8Run_cons, utf8Step, dif_pos ⟨low, high⟩, dif_pos one, List.singleton_append]

theorem utf8Run_ascii (ascii : b.toNat < 0x80) :
    utf8Run none (b :: rest) = Char.ofNat b.toNat :: utf8Run none rest := by
  rw [utf8Run_cons, utf8Step, utf8Begin]
  rw [if_pos ascii, List.singleton_append]

/-- The beginning of a character of two bytes. -/
theorem utf8Run_two (low : 0xC2 ≤ b.toNat) (high : b.toNat < 0xE0) :
    utf8Run none (b :: rest) = utf8Run (some (pendingTwo b.toNat low)) rest := by
  rw [utf8Run_cons, utf8Step, utf8Begin]
  rw [if_neg (by omega), dif_neg (by omega), dif_pos high, List.nil_append]

/-- The beginning of a character of three bytes. -/
theorem utf8Run_three (low : 0xE0 ≤ b.toNat) (high : b.toNat < 0xF0) :
    utf8Run none (b :: rest) = utf8Run (some (pendingThree b.toNat low)) rest := by
  rw [utf8Run_cons, utf8Step, utf8Begin]
  rw [if_neg (by omega), dif_neg (by omega), dif_neg (by omega), dif_pos high, List.nil_append]

/-- The beginning of a character of four bytes. -/
theorem utf8Run_four (low : 0xF0 ≤ b.toNat) (high : b.toNat < 0xF5) :
    utf8Run none (b :: rest) = utf8Run (some (pendingFour b.toNat low)) rest := by
  rw [utf8Run_cons, utf8Step, utf8Begin]
  rw [if_neg (by omega), dif_neg (by omega), dif_neg (by omega), dif_neg (by omega), if_pos high,
    List.nil_append]

/-- A whole character is read as such. -/
theorem utf8Run_utf8EncodeChar (c : Char) (rest : List UInt8) :
    utf8Run none (String.utf8EncodeChar c ++ rest) = c :: utf8Run none rest := by
  have valid : c.toNat < 0xD800 ∨ (0xDFFF < c.toNat ∧ c.toNat < 0x110000) := c.valid
  have same {n : Nat} (value : n = c.toNat) : Char.ofNat n = c := by
    rw [value, Char.ofNat_toNat]
  have byte {n : Nat} (small : n < 256) : (UInt8.ofNat n).toNat = n := by
    rw [UInt8.toNat_ofNat', Nat.mod_eq_of_lt small]
  have last : (UInt8.ofNat (c.toNat % 0x40 + 0x80)).toNat = c.toNat % 0x40 + 0x80 :=
    byte (by omega)
  have second : (UInt8.ofNat (c.toNat / 64 % 0x40 + 0x80)).toNat = c.toNat / 64 % 0x40 + 0x80 :=
    byte (by omega)
  have third : (UInt8.ofNat (c.toNat / 4096 % 0x40 + 0x80)).toNat =
      c.toNat / 4096 % 0x40 + 0x80 :=
    byte (by omega)
  by_cases one : c.toNat ≤ 0x7F
  · have bytes : String.utf8EncodeChar c = [UInt8.ofNat c.toNat] := if_pos one
    have lead : (UInt8.ofNat c.toNat).toNat = c.toNat := byte (by omega)
    rw [bytes, List.singleton_append, utf8Run_ascii (by omega), same lead]
  by_cases two : c.toNat ≤ 0x7FF
  · have bytes : String.utf8EncodeChar c = [UInt8.ofNat (c.toNat / 64 % 0x20 + 0xC0),
        UInt8.ofNat (c.toNat % 0x40 + 0x80)] :=
      (if_neg one).trans (if_pos two)
    have lead : (UInt8.ofNat (c.toNat / 64 % 0x20 + 0xC0)).toNat =
        c.toNat / 64 % 0x20 + 0xC0 :=
      byte (by omega)
    rw [bytes, List.cons_append, List.singleton_append, utf8Run_two (by omega) (by omega),
      utf8Run_last (by simp only [pendingTwo]; omega) (by simp only [pendingTwo]; omega) rfl]
    rw [same (by simp only [pendingTwo]; omega)]
  by_cases three : c.toNat ≤ 0xFFFF
  · have bytes : String.utf8EncodeChar c = [UInt8.ofNat (c.toNat / 4096 % 0x10 + 0xE0),
        UInt8.ofNat (c.toNat / 64 % 0x40 + 0x80), UInt8.ofNat (c.toNat % 0x40 + 0x80)] :=
      ((if_neg one).trans (if_neg two)).trans (if_pos three)
    have lead : (UInt8.ofNat (c.toNat / 4096 % 0x10 + 0xE0)).toNat =
        c.toNat / 4096 % 0x10 + 0xE0 :=
      byte (by omega)
    rw [bytes, List.cons_append, List.cons_append, List.singleton_append,
      utf8Run_three (by omega) (by omega),
      utf8Run_pending (by simp only [pendingThree]; split <;> omega)
        (by simp only [pendingThree]; split <;> omega) (show (2 : Nat) ≠ 1 by decide),
      utf8Run_last (by simp only [Utf8Pending.next]; omega)
        (by simp only [Utf8Pending.next]; omega) rfl]
    rw [same (by simp only [Utf8Pending.next, pendingThree]; omega)]
  · have bytes : String.utf8EncodeChar c = [UInt8.ofNat (c.toNat / 262144 % 0x08 + 0xF0),
        UInt8.ofNat (c.toNat / 4096 % 0x40 + 0x80), UInt8.ofNat (c.toNat / 64 % 0x40 + 0x80),
        UInt8.ofNat (c.toNat % 0x40 + 0x80)] :=
      ((if_neg one).trans (if_neg two)).trans (if_neg three)
    have lead : (UInt8.ofNat (c.toNat / 262144 % 0x08 + 0xF0)).toNat =
        c.toNat / 262144 % 0x08 + 0xF0 :=
      byte (by omega)
    rw [bytes, List.cons_append, List.cons_append, List.cons_append, List.singleton_append,
      utf8Run_four (by omega) (by omega),
      utf8Run_pending (by simp only [pendingFour]; split <;> omega)
        (by simp only [pendingFour]; split <;> omega) (show (3 : Nat) ≠ 1 by decide),
      utf8Run_pending (by simp only [Utf8Pending.next]; omega)
        (by simp only [Utf8Pending.next]; omega) (show (2 : Nat) ≠ 1 by decide),
      utf8Run_last (by simp only [Utf8Pending.next]; omega)
        (by simp only [Utf8Pending.next]; omega) rfl]
    rw [same (by simp only [Utf8Pending.next, pendingFour]; omega)]

theorem utf8Run_utf8Encode (s : Text) (rest : List UInt8) :
    utf8Run none (utf8Encode s ++ rest) = s ++ utf8Run none rest := by
  induction s with
  | nil => rfl
  | cons c s ih =>
      rw [utf8Encode] at ih
      rw [utf8Encode, List.flatMap_cons, List.append_assoc, utf8Run_utf8EncodeChar, ih,
        List.cons_append]

/-- What is encoded reads back. -/
theorem utf8Text_utf8Encode (s : Text) : utf8Text (utf8Encode s) = s := by
  have whole := utf8Run_utf8Encode s []
  rw [List.append_nil] at whole
  rw [utf8Text, whole]
  exact List.append_nil s

/-- A character of one byte stands for itself anywhere. -/
theorem utf8Step_ascii (ascii : b.toNat < 0x80) :
    utf8Step pending b =
      ((if pending = none then [] else [replacement]) ++ [Char.ofNat b.toNat], none) := by
  have start : utf8Begin b = ([Char.ofNat b.toNat], none) := if_pos ascii
  cases pending with
  | none => exact start
  | some p =>
      have outside : ¬(p.lower ≤ b.toNat ∧ b.toNat ≤ p.upper) := by
        have bound := p.high
        omega
      rw [utf8Step, dif_neg outside, start]
      rfl

/-- It cuts a text in two. -/
theorem utf8Run_append_ascii (front : List UInt8) (ascii : b.toNat < 0x80) :
    utf8Run pending (front ++ b :: rest) =
      utf8Run pending front ++ Char.ofNat b.toNat :: utf8Run none rest := by
  induction front generalizing pending with
  | nil =>
      rw [List.nil_append, utf8Run_cons, utf8Step_ascii ascii]
      cases pending <;> rfl
  | cons x front ih =>
      rw [List.cons_append, utf8Run_cons, ih, utf8Run_cons, List.append_assoc]

theorem utf8Text_append_ascii (front : List UInt8) (ascii : b.toNat < 0x80) :
    utf8Text (front ++ b :: rest) = utf8Text front ++ Char.ofNat b.toNat :: utf8Text rest :=
  utf8Run_append_ascii front ascii

/-! ## Nothing is lost -/

/-- A byte that is not inside a character. -/
def isUtf8Start (b : UInt8) : Bool := b.toNat < 0x80 || 0xC0 ≤ b.toNat

/-- A byte that begins a character gives one or leads into one; any other byte gives one. -/
theorem utf8Begin_gives : 1 ≤ (utf8Begin b).1.length + (utf8Begin b).2.toList.length := by
  rw [utf8Begin]
  split
  · simp
  split
  · simp
  split
  · simp
  split
  · simp
  split
  · simp
  · simp

theorem utf8Step_gives : (isUtf8Start b).toNat + pending.toList.length ≤
    (utf8Step pending b).1.length + (utf8Step pending b).2.toList.length := by
  have gives := @utf8Begin_gives b
  have one := Bool.toNat_le (isUtf8Start b)
  cases pending with
  | none => exact le_trans one gives
  | some p =>
      rw [utf8Step]
      split
      · next range =>
          have inside : isUtf8Start b = false := by
            have high := p.high
            have low := p.low
            rw [isUtf8Start, Bool.or_eq_false_iff, decide_eq_false_iff_not,
              decide_eq_false_iff_not]
            omega
          rw [inside]
          split
          · simp
          · simp
      · dsimp only
        rw [List.length_cons, Option.toList_some, List.length_singleton]
        omega

/-- Each beginning of a character gives a character of its own, and so does the character that is
open. -/
theorem starts_le_length_utf8Run (bytes : List UInt8) :
    bytes.countP isUtf8Start + pending.toList.length ≤ (utf8Run pending bytes).length := by
  induction bytes generalizing pending with
  | nil => cases pending <;> simp [utf8Run]
  | cons b rest ih =>
      have here := @utf8Step_gives pending b
      have later := @ih (utf8Step pending b).2
      rw [utf8Run_cons, List.length_append, List.countP_cons]
      cases start : isUtf8Start b
      · simp only [start, Bool.toNat_false] at here
        simp only [Bool.false_eq_true, if_false]
        omega
      · simp only [start, Bool.toNat_true] at here
        simp only [if_true]
        omega

/-- A byte inside of a character that begins a text gives a character too. -/
theorem utf8Text_of_inside (inside : isUtf8Start b = false) :
    utf8Text (b :: rest) = replacement :: utf8Text rest := by
  rw [isUtf8Start, Bool.or_eq_false_iff, decide_eq_false_iff_not, decide_eq_false_iff_not] at inside
  have gives : utf8Begin b = ([replacement], none) := by
    rw [utf8Begin, if_neg inside.1, dif_pos (by omega)]
  rw [utf8Text, utf8Run_cons, utf8Step, gives]
  rfl

/-! ## ASCII -/

/-- A number beyond ASCII is no character of it but, maybe, the null character. -/
theorem ofNat_ne_of_ascii {c : Char} (ascii : c.toNat < 0x80) (some : c ≠ '\x00') {n : Nat}
    (high : 0x80 ≤ n) : c ≠ Char.ofNat n := by
  rintro rfl
  rw [Char.toNat_ofNat] at ascii
  split at ascii
  · omega
  · next invalid =>
      refine some ?_
      rw [Char.ofNat, dif_neg invalid]
      rfl

/-- A character of ASCII, the null character apart, is given by its own byte only. -/
theorem byte_of_mem_utf8Begin {c : Char} (ascii : c.toNat < 0x80)
    (inside : c ∈ (utf8Begin b).1) : UInt8.ofNat c.toNat = b := by
  have other : c ≠ replacement := by
    rintro rfl
    exact absurd ascii (by decide)
  rw [utf8Begin] at inside
  split at inside
  · next low =>
      have same := List.mem_singleton.mp inside
      have value : (Char.ofNat b.toNat).toNat = b.toNat := by
        rw [Char.toNat_ofNat, if_pos (Or.inl (by omega))]
      rw [same, value, UInt8.ofNat_toNat]
  split at inside
  · exact absurd (List.mem_singleton.mp inside) other
  split at inside
  · cases inside
  split at inside
  · cases inside
  split at inside
  · cases inside
  · exact absurd (List.mem_singleton.mp inside) other

theorem byte_of_mem_utf8Step {c : Char} (ascii : c.toNat < 0x80) (some : c ≠ '\x00')
    (inside : c ∈ (utf8Step pending b).1) : UInt8.ofNat c.toNat = b := by
  have other : c ≠ replacement := by
    rintro rfl
    exact absurd ascii (by decide)
  cases pending with
  | none => exact byte_of_mem_utf8Begin ascii inside
  | some p =>
      rw [utf8Step] at inside
      split at inside
      · next range =>
          split at inside
          · next one =>
              have far := p.far
              rw [one, pow_zero, Nat.mul_one] at far
              refine absurd (List.mem_singleton.mp inside) (ofNat_ne_of_ascii ascii some ?_)
              omega
          · cases inside
      · rcases List.mem_cons.mp inside with same | inside
        · exact absurd same other
        · exact byte_of_mem_utf8Begin ascii inside

theorem byte_mem_of_mem_utf8Run {c : Char} (ascii : c.toNat < 0x80) (some : c ≠ '\x00')
    {bytes : List UInt8} (inside : c ∈ utf8Run pending bytes) :
    UInt8.ofNat c.toNat ∈ bytes := by
  induction bytes generalizing pending with
  | nil =>
      cases pending with
      | none => cases inside
      | some p =>
          rw [List.mem_singleton.mp inside] at ascii
          exact absurd ascii (by decide)
  | cons b rest ih =>
      rw [utf8Run_cons] at inside
      rcases List.mem_append.mp inside with here | later
      · exact byte_of_mem_utf8Step ascii some here ▸ List.mem_cons_self
      · exact List.mem_cons_of_mem b (ih later)

/-! ## Lengths -/

theorem length_le_utf8Encode (s : Text) : s.length ≤ (utf8Encode s).length := by
  induction s with
  | nil => exact le_rfl
  | cons c s ih =>
      have one := List.length_pos_of_ne_nil (String.utf8EncodeChar_ne_nil (c := c))
      rw [utf8Encode] at ih
      rw [utf8Encode, List.flatMap_cons, List.length_append, List.length_cons]
      omega

theorem length_utf8Encode_append (s t : Text) :
    (utf8Encode (s ++ t)).length = (utf8Encode s).length + (utf8Encode t).length := by
  rw [utf8Encode, List.flatMap_append, List.length_append]
  rfl

/-! ## Cutting between characters -/

theorem isUtf8Start_of_lead {n : Nat} (lead : n < 0x80 ∨ 0xC0 ≤ n ∧ n < 256) :
    isUtf8Start (UInt8.ofNat n) = true := by
  have byte : (UInt8.ofNat n).toNat = n := by
    rw [UInt8.toNat_ofNat', Nat.mod_eq_of_lt (by omega)]
  rw [isUtf8Start, byte, Bool.or_eq_true, decide_eq_true_eq, decide_eq_true_eq]
  omega

theorem isUtf8Start_of_inside (n : Nat) : isUtf8Start (UInt8.ofNat (n % 0x40 + 0x80)) = false := by
  have byte : (UInt8.ofNat (n % 0x40 + 0x80)).toNat = n % 0x40 + 0x80 := by
    rw [UInt8.toNat_ofNat', Nat.mod_eq_of_lt (by omega)]
  rw [isUtf8Start, byte, Bool.or_eq_false_iff, decide_eq_false_iff_not, decide_eq_false_iff_not]
  omega

/-- The bytes of a character behind its first one are inside of it. -/
theorem utf8EncodeChar_form (c : Char) : ∃ first rest, String.utf8EncodeChar c = first :: rest ∧
    isUtf8Start first = true ∧ ∀ b ∈ rest, isUtf8Start b = false := by
  by_cases one : c.toNat ≤ 0x7F
  · exact ⟨_, _, if_pos one, @isUtf8Start_of_lead c.toNat (.inl (by omega)), nofun⟩
  by_cases two : c.toNat ≤ 0x7FF
  · refine ⟨_, _, (if_neg one).trans (if_pos two), isUtf8Start_of_lead (by omega), ?_⟩
    simp only [List.forall_mem_cons, List.not_mem_nil, IsEmpty.forall_iff, implies_true, and_true]
    exact isUtf8Start_of_inside _
  by_cases three : c.toNat ≤ 0xFFFF
  · refine ⟨_, _, ((if_neg one).trans (if_neg two)).trans (if_pos three),
      isUtf8Start_of_lead (by omega), ?_⟩
    simp only [List.forall_mem_cons, List.not_mem_nil, IsEmpty.forall_iff, implies_true, and_true]
    exact ⟨isUtf8Start_of_inside _, isUtf8Start_of_inside _⟩
  · refine ⟨_, _, ((if_neg one).trans (if_neg two)).trans (if_neg three),
      isUtf8Start_of_lead (by omega), ?_⟩
    simp only [List.forall_mem_cons, List.not_mem_nil, IsEmpty.forall_iff, implies_true, and_true]
    exact ⟨isUtf8Start_of_inside _, isUtf8Start_of_inside _, isUtf8Start_of_inside _⟩

theorem countP_utf8Encode (s : Text) : (utf8Encode s).countP isUtf8Start = s.length := by
  induction s with
  | nil => rfl
  | cons c s ih =>
      obtain ⟨first, rest, form, start, inside⟩ := utf8EncodeChar_form c
      have none : rest.countP isUtf8Start = 0 := by
        rw [List.countP_eq_zero]
        exact fun b member => by rw [inside b member]; exact Bool.false_ne_true
      rw [utf8Encode] at ih
      rw [utf8Encode, List.flatMap_cons, form, List.countP_append, List.countP_cons, none, start,
        ih, List.length_cons]
      simp only [if_true]
      omega

/-- A cut before a byte that begins a character is a cut of the text. -/
theorem utf8Encode_cut {s : Text} {front back : List UInt8} (whole : utf8Encode s = front ++ back)
    (start : ∀ b ∈ back.head?, isUtf8Start b = true) :
    ∃ t u, s = t ++ u ∧ utf8Encode t = front ∧ utf8Encode u = back := by
  induction s generalizing front with
  | nil =>
      obtain ⟨rfl, rfl⟩ := List.append_eq_nil_iff.mp whole.symm
      exact ⟨[], [], rfl, rfl, rfl⟩
  | cons c s ih =>
      by_cases nothing : front = []
      · subst nothing
        exact ⟨[], c :: s, rfl, rfl, whole⟩
      obtain ⟨first, rest, form, -, inside⟩ := utf8EncodeChar_form c
      have cut : String.utf8EncodeChar c ++ utf8Encode s = front ++ back := whole
      rcases List.append_eq_append_iff.mp cut with ⟨more, rfl, later⟩ | ⟨more, split, later⟩
      · obtain ⟨t, u, rfl, rfl, rfl⟩ := ih later
        exact ⟨c :: t, u, rfl, rfl, rfl⟩
      · cases more with
        | nil =>
            have behind : utf8Encode s = [] ++ back := later.symm
            obtain ⟨t, u, rfl, encoded, rfl⟩ := ih behind
            have empty : t = [] := by
              cases t with
              | nil => rfl
              | cons d t =>
                  obtain ⟨x, y, headed, -⟩ := utf8EncodeChar_form d
                  rw [utf8Encode, List.flatMap_cons, headed] at encoded
                  cases encoded
            subst empty
            rw [List.append_nil] at split
            exact ⟨[c], u, rfl, by rw [← split]; exact List.append_nil _, rfl⟩
        | cons b more =>
            rw [form] at split
            obtain ⟨x, tail, rfl⟩ := List.exists_cons_of_ne_nil nothing
            have behind : b ∈ rest := by
              rw [(List.cons.inj split).2]
              exact List.mem_append_right tail List.mem_cons_self
            rw [later] at start
            have begins := start b rfl
            rw [inside b behind] at begins
            cases begins

/-! ## A text in pieces -/

/-- Every piece is read on its own. -/
def piecesText (pieces : List (List UInt8)) : Text := pieces.flatMap utf8Text

variable {pieces : List (List UInt8)}

theorem piecesText_cons (piece : List UInt8) (pieces : List (List UInt8)) :
    piecesText (piece :: pieces) = utf8Text piece ++ piecesText pieces := rfl

/-- At a byte that is a character the pieces can be cut. -/
theorem piecesText_cut {front back : List UInt8} (whole : pieces.flatten = front ++ b :: back)
    (ascii : b.toNat < 0x80) :
    ∃ before after, before.flatten = front ∧ after.flatten = back ∧
      piecesText pieces = piecesText before ++ Char.ofNat b.toNat :: piecesText after := by
  induction pieces generalizing front with
  | nil =>
      have empty := (List.append_eq_nil_iff.mp whole.symm).2
      cases empty
  | cons piece pieces ih =>
      rw [List.flatten_cons] at whole
      rcases List.append_eq_append_iff.mp whole with ⟨more, rfl, later⟩ | ⟨more, split, later⟩
      · obtain ⟨before, after, rfl, rfl, text⟩ := ih later
        refine ⟨piece :: before, after, rfl, rfl, ?_⟩
        rw [piecesText_cons, text, piecesText_cons, List.append_assoc]
      · cases more with
        | nil =>
            rw [List.append_nil] at split
            have behind : pieces.flatten = [] ++ b :: back := later.symm
            obtain ⟨before, after, nothing, rfl, text⟩ := ih behind
            refine ⟨piece :: before, after, ?_, rfl, ?_⟩
            · rw [List.flatten_cons, nothing, List.append_nil, split]
            · rw [piecesText_cons, text, piecesText_cons, List.append_assoc]
        | cons c more =>
            obtain ⟨rfl, rfl⟩ := List.cons.inj later
            refine ⟨[front], more :: pieces, List.append_nil _, rfl, ?_⟩
            rw [piecesText_cons, split, utf8Text_append_ascii front ascii, List.append_assoc,
              piecesText_cons, piecesText_cons]
            rw [show piecesText [] = [] from rfl, List.append_nil, List.cons_append]

/-- The pieces give at least the characters that begin in them, and more where one begins inside a
character. -/
theorem length_piecesText (pieces : List (List UInt8)) :
    pieces.flatten.countP isUtf8Start ≤ (piecesText pieces).length ∧
      (pieces.flatten.countP isUtf8Start = (piecesText pieces).length →
        ∀ piece ∈ pieces, ∀ b ∈ piece.head?, isUtf8Start b = true) := by
  induction pieces with
  | nil => exact ⟨le_rfl, nofun⟩
  | cons piece pieces ih =>
      have here : piece.countP isUtf8Start ≤ (utf8Text piece).length :=
        @starts_le_length_utf8Run none piece
      rw [List.flatten_cons, List.countP_append, piecesText_cons, List.length_append]
      refine ⟨by omega, ?_⟩
      intro same
      refine List.forall_mem_cons.mpr ⟨?_, ih.2 (by omega)⟩
      intro b first
      by_contra inside
      obtain ⟨rest, rfl⟩ : ∃ rest, piece = b :: rest := by
        cases piece with
        | nil => cases first
        | cons c rest => exact ⟨rest, by rw [Option.mem_some_iff.mp first]⟩
      have later : rest.countP isUtf8Start ≤ (utf8Text rest).length :=
        @starts_le_length_utf8Run none rest
      rw [utf8Text_of_inside (Bool.eq_false_iff.mpr inside), List.length_cons,
        List.countP_cons_of_neg inside] at same
      omega

/-- Pieces that begin with a character give the text. -/
theorem piecesText_of_starts {s : Text} (whole : pieces.flatten = utf8Encode s)
    (starts : ∀ piece ∈ pieces, ∀ b ∈ piece.head?, isUtf8Start b = true) :
    piecesText pieces = s := by
  induction pieces generalizing s with
  | nil =>
      have empty : s.length ≤ 0 := by
        rw [← countP_utf8Encode s, ← whole]
        exact le_rfl
      exact (List.eq_nil_of_length_eq_zero (Nat.le_zero.mp empty)).symm
  | cons piece pieces ih =>
      rw [List.forall_mem_cons] at starts
      have next : ∀ b ∈ pieces.flatten.head?, isUtf8Start b = true := by
        intro b first
        rw [List.head?_flatten] at first
        obtain ⟨piece, member, here⟩ := List.exists_of_findSome?_eq_some first
        exact starts.2 piece member b here
      rw [List.flatten_cons] at whole
      obtain ⟨t, u, rfl, front, back⟩ := utf8Encode_cut whole.symm next
      rw [piecesText_cons, ih back.symm starts.2, ← front, utf8Text_utf8Encode]

theorem piecesText_of_empty (nothing : pieces.flatten = []) : piecesText pieces = [] := by
  refine piecesText_of_starts (s := []) nothing ?_
  intro piece member b first
  rw [List.flatten_eq_nil_iff.mp nothing piece member] at first
  cases first

/-- A line feed in the text stands in it before it is encoded and cut. -/
theorem break_mem_of_mem_piecesText {s : Text} (whole : pieces.flatten = utf8Encode s)
    (inside : '\n' ∈ piecesText pieces) : '\n' ∈ s := by
  obtain ⟨piece, member, here⟩ := List.mem_flatMap.mp inside
  have byte : (10 : UInt8) ∈ piece := byte_mem_of_mem_utf8Run (by decide) (by decide) here
  have sent : (10 : UInt8) ∈ utf8Encode s := by
    rw [← whole]
    exact List.mem_flatten_of_mem member byte
  obtain ⟨front, back, cut⟩ := List.append_of_mem sent
  have text : utf8Text (front ++ 10 :: back) = utf8Text front ++ '\n' :: utf8Text back :=
    utf8Text_append_ascii front (by decide)
  rw [← cut, utf8Text_utf8Encode] at text
  rw [text]
  exact List.mem_append_right _ List.mem_cons_self

end Ecma
