import Mathlib.Tactic.IntervalCases
import Proxora.Ecma.Lines
import Proxora.Ecma.Uri

/-!
# Internet addresses as text

IPv4 addresses in dotted decimal, and IPv6 addresses in every textual form: eight groups of up to
four hexadecimal digits, `::` for one or more groups of zeros, and the last two groups in dotted
decimal. `Ipv6.text` is the canonical form in which the longest run of zeros is left out.

The classes of addresses are given by their numbers. An IPv4-mapped IPv6 address stands for the
IPv4 address in its last two groups.
-/

namespace Ecma

/-! ## Addresses -/

instance neZero_byte : NeZero 256 := ⟨by decide⟩

instance neZero_hextet : NeZero 65536 := ⟨by decide⟩

structure Ipv4 where
  a : Fin 256
  b : Fin 256
  c : Fin 256
  d : Fin 256
deriving DecidableEq, Repr

abbrev Hextet : Type := Fin 65536

/-- Eight groups of sixteen bits. -/
structure Ipv6 where
  pieces : List Hextet
  length : pieces.length = 8
deriving DecidableEq, Repr

namespace Ipv4

def isUnspecified (ip : Ipv4) : Bool := ip = ⟨0, 0, 0, 0⟩

def isLoopback (ip : Ipv4) : Bool := ip.a = 127

/-- 169.254.0.0/16. -/
def isLinkLocal (ip : Ipv4) : Bool := ip.a = 169 && ip.b = 254

/-- 10.0.0.0/8, 172.16.0.0/12 and 192.168.0.0/16. -/
def isPrivate (ip : Ipv4) : Bool :=
  ip.a = 10 || (ip.a = 172 && 16 ≤ ip.b && ip.b ≤ 31) || (ip.a = 192 && ip.b = 168)

/-- 224.0.0.0/4. -/
def isMulticast (ip : Ipv4) : Bool := 224 ≤ ip.a && ip.a ≤ 239

/-- The two groups of the address. -/
def groups (ip : Ipv4) : List Hextet :=
  [⟨256 * ip.a + ip.b, by omega⟩, ⟨256 * ip.c + ip.d, by omega⟩]

def ofGroups (high low : Hextet) : Ipv4 :=
  ⟨⟨high / 256, by omega⟩, ⟨high % 256, by omega⟩, ⟨low / 256, by omega⟩, ⟨low % 256, by omega⟩⟩

theorem ofGroups_groups {ip : Ipv4} {high low : Hextet} (groups : ip.groups = [high, low]) :
    ofGroups high low = ip := by
  obtain ⟨a, b, c, d⟩ := ip
  cases groups
  simp only [ofGroups, Ipv4.mk.injEq, Fin.ext_iff]
  omega

end Ipv4

namespace Ipv6

def first (ip : Ipv6) : Hextet := ip.pieces.headD 0

def isUnspecified (ip : Ipv6) : Bool := ip.pieces = [0, 0, 0, 0, 0, 0, 0, 0]

def isLoopback (ip : Ipv6) : Bool := ip.pieces = [0, 0, 0, 0, 0, 0, 0, 1]

/-- fe80::/10. -/
def isLinkLocal (ip : Ipv6) : Bool := 0xfe80 ≤ ip.first && ip.first ≤ 0xfebf

/-- ff00::/8. -/
def isMulticast (ip : Ipv6) : Bool := 0xff00 ≤ ip.first

/-- fc00::/7. -/
def isUniqueLocal (ip : Ipv6) : Bool := 0xfc00 ≤ ip.first && ip.first ≤ 0xfdff

/-- The IPv4 address that the address stands for. -/
def mapped (ip : Ipv6) : Option Ipv4 :=
  match ip.pieces.drop 6 with
  | [high, low] =>
      if ip.pieces.take 6 = [0, 0, 0, 0, 0, 0xffff] then some (Ipv4.ofGroups high low) else none
  | _ => none

end Ipv6

/-! ## Reading -/

/-- One to three decimal digits up to 255. -/
def readOctet (s : Text) : Option (Fin 256) :=
  if 1 ≤ s.length && s.length ≤ 3 && s.all Char.isDigit then
    if small : digitsValue s < 256 then some ⟨digitsValue s, small⟩ else none
  else none

def readIpv4 (s : Text) : Option Ipv4 :=
  match split '.' s with
  | [a, b, c, d] => do return ⟨← readOctet a, ← readOctet b, ← readOctet c, ← readOctet d⟩
  | _ => none

def isHexDigit (c : Char) : Bool := (hexValue c).isSome

/-- The number of hexadecimal digits. -/
def hexNumber (s : Text) : Nat := s.foldl (fun n c => 16 * n + (hexValue c).getD 0) 0

/-- One to four hexadecimal digits. -/
def readGroup (s : Text) : Option Hextet :=
  if 1 ≤ s.length && s.length ≤ 4 && s.all isHexDigit then
    if small : hexNumber s < 65536 then some ⟨hexNumber s, small⟩ else none
  else none

/-- Groups, of which the last two may be in dotted decimal. -/
def readWords : List Text → Option (List Hextet)
  | [] => some []
  | [word] => ((readGroup word).map fun group => [group]) <|> (readIpv4 word).map Ipv4.groups
  | word :: words => do return (← readGroup word) :: (← readWords words)

/-- The texts before and behind the first `::`. -/
def cutDouble : Text → Option (Text × Text)
  | [] => none
  | c :: rest =>
      if c = ':' ∧ rest.head? = some ':' then some ([], rest.tail)
      else (cutDouble rest).map fun cut => (c :: cut.1, cut.2)

/-- The groups between colons; none in an empty text. -/
def readFront (s : Text) : Option (List Hextet) :=
  if s = [] then some [] else (split ':' s).mapM readGroup

def readBack (s : Text) : Option (List Hextet) :=
  if s = [] then some [] else readWords (split ':' s)

/-- The address of eight groups. -/
def ofPieces (pieces : List Hextet) : Option Ipv6 :=
  if length : pieces.length = 8 then some ⟨pieces, length⟩ else none

def readIpv6 (s : Text) : Option Ipv6 :=
  match cutDouble s with
  | none => (readWords (split ':' s)).bind ofPieces
  | some (front, back) => do
      let front ← readFront front
      let back ← readBack back
      if front.length + back.length < 8 then
        ofPieces (front ++ List.replicate (8 - front.length - back.length) 0 ++ back)
      else none

/-! ## Writing -/

def decimalText (n : Nat) : Text := (toString n : String)

def Ipv4.text (ip : Ipv4) : Text :=
  join '.' [decimalText ip.a, decimalText ip.b, decimalText ip.c, decimalText ip.d]

/-- Hexadecimal digits in lower case, without leading zeros. -/
def groupText (piece : Hextet) : Text := Nat.toDigits 16 piece.val

/-- The first of the longest runs of two or more zeros. -/
def zeroRun (pieces : List Hextet) : Option (Nat × Nat) :=
  [8, 7, 6, 5, 4, 3, 2].findSome? fun length =>
    ((List.range (9 - length)).find? fun start =>
      ((pieces.drop start).take length).all (· == 0)).map fun start => (start, length)

/-- The canonical form, without the brackets of a URL. -/
def Ipv6.text (ip : Ipv6) : Text :=
  match zeroRun ip.pieces with
  | none => join ':' (ip.pieces.map groupText)
  | some (start, length) =>
      join ':' ((ip.pieces.take start).map groupText) ++ ':' :: ':' ::
        join ':' ((ip.pieces.drop (start + length)).map groupText)

example : (readIpv6 "fe80:0:0:0:0:0:127.0.0.1").map Ipv6.text =
    some ("fe80::7f00:1" : Text) := by
  decide

/-! ## Characters of an address -/

/-- A character of an IPv6 address. -/
def isAddressChar (c : Char) : Bool := isHexDigit c || c = ':' || c = '.'

theorem isHexDigit_of_isDigit {c : Char} (digit : c.isDigit = true) : isHexDigit c = true := by
  rw [isHexDigit, hexValue, if_pos digit]
  rfl

theorem readGroup_eq_some {s : Text} {piece : Hextet} (read : readGroup s = some piece) :
    (1 ≤ s.length ∧ s.length ≤ 4) ∧ (∀ c ∈ s, isHexDigit c = true) ∧ hexNumber s = piece := by
  rw [readGroup] at read
  split_ifs at read with shape small
  · rw [Bool.and_eq_true, Bool.and_eq_true, decide_eq_true_eq, decide_eq_true_eq,
      List.all_eq_true] at shape
    exact ⟨shape.1, shape.2, congrArg Fin.val (Option.some.inj read)⟩

theorem readOctet_eq_some {s : Text} {octet : Fin 256} (read : readOctet s = some octet) :
    (1 ≤ s.length ∧ s.length ≤ 3) ∧ (∀ c ∈ s, c.isDigit = true) ∧ digitsValue s = octet := by
  rw [readOctet] at read
  split_ifs at read with shape small
  · rw [Bool.and_eq_true, Bool.and_eq_true, decide_eq_true_eq, decide_eq_true_eq,
      List.all_eq_true] at shape
    exact ⟨shape.1, shape.2, congrArg Fin.val (Option.some.inj read)⟩

theorem readIpv4_eq_some {s : Text} {ip : Ipv4} (read : readIpv4 s = some ip) :
    ∃ a b c d, split '.' s = [a, b, c, d] ∧ readOctet a = some ip.a ∧ readOctet b = some ip.b ∧
      readOctet c = some ip.c ∧ readOctet d = some ip.d := by
  rw [readIpv4] at read
  split at read
  · rename_i a b c d form
    simp only [bind, Option.bind_eq_some_iff, pure, Option.some.injEq] at read
    obtain ⟨w, first, x, second, y, third, z, fourth, rfl⟩ := read
    exact ⟨a, b, c, d, form, first, second, third, fourth⟩
  · cases read

/-- A character of a text is the separator or in a word. -/
theorem mem_word_of_mem (sep : Char) {c : Char} {s : Text} (inside : c ∈ s) :
    c = sep ∨ ∃ word ∈ split sep s, c ∈ word := by
  rw [← @join_split sep s] at inside
  exact mem_join inside

theorem chars_of_readIpv4 {s : Text} {ip : Ipv4} (read : readIpv4 s = some ip) :
    ∀ c ∈ s, c.isDigit = true ∨ c = '.' := by
  obtain ⟨a, b, c, d, form, first, second, third, fourth⟩ := readIpv4_eq_some read
  intro ch inside
  rcases mem_word_of_mem '.' inside with dot | ⟨word, listed, within⟩
  · exact .inr dot
  · refine .inl ?_
    rw [form] at listed
    simp only [List.mem_cons, List.not_mem_nil, or_false] at listed
    rcases listed with rfl | rfl | rfl | rfl
    · exact (readOctet_eq_some first).2.1 ch within
    · exact (readOctet_eq_some second).2.1 ch within
    · exact (readOctet_eq_some third).2.1 ch within
    · exact (readOctet_eq_some fourth).2.1 ch within

/-- The last word is a group or two in dotted decimal; the others are groups. -/
theorem readWords_cons {word next : Text} {words : List Text} {pieces : List Hextet}
    (read : readWords (word :: next :: words) = some pieces) :
    ∃ piece rest, readGroup word = some piece ∧ readWords (next :: words) = some rest ∧
      pieces = piece :: rest := by
  rw [readWords] at read
  · simp only [bind, Option.bind_eq_some_iff, pure, Option.some.injEq] at read
    obtain ⟨piece, first, rest, later, rfl⟩ := read
    exact ⟨piece, rest, first, later, rfl⟩
  · exact List.cons_ne_nil next words

theorem readWords_singleton {word : Text} {pieces : List Hextet}
    (read : readWords [word] = some pieces) :
    (∃ piece, readGroup word = some piece ∧ pieces = [piece]) ∨
      ∃ ip, readIpv4 word = some ip ∧ pieces = ip.groups := by
  rw [readWords] at read
  cases group : readGroup word with
  | some piece =>
      rw [group] at read
      exact .inl ⟨piece, rfl, (Option.some.inj read).symm⟩
  | none =>
      rw [group] at read
      obtain ⟨ip, dotted, same⟩ := Option.map_eq_some_iff.mp read
      exact .inr ⟨ip, dotted, same.symm⟩

theorem chars_of_readWords {words : List Text} {pieces : List Hextet}
    (read : readWords words = some pieces) :
    ∀ word ∈ words, ∀ c ∈ word, isHexDigit c = true ∨ c = '.' := by
  induction words generalizing pieces with
  | nil => exact fun word listed => absurd listed List.not_mem_nil
  | cons word words ih =>
      intro w listed c inside
      cases words with
      | nil =>
          cases List.mem_singleton.mp listed
          rcases readWords_singleton read with ⟨piece, group, -⟩ | ⟨ip, dotted, -⟩
          · exact .inl ((readGroup_eq_some group).2.1 c inside)
          · exact (chars_of_readIpv4 dotted c inside).imp_left isHexDigit_of_isDigit
      | cons next words =>
          obtain ⟨piece, rest, group, later, -⟩ := readWords_cons read
          rcases List.mem_cons.mp listed with rfl | listed
          · exact .inl ((readGroup_eq_some group).2.1 c inside)
          · exact ih later w listed c inside

theorem cutDouble_eq_some {s front back : Text} (cut : cutDouble s = some (front, back)) :
    s = front ++ ':' :: ':' :: back := by
  induction s generalizing front with
  | nil => cases cut
  | cons c s ih =>
      rw [cutDouble] at cut
      split_ifs at cut with double
      · obtain ⟨rfl, second⟩ := double
        cases s with
        | nil => cases second
        | cons d s =>
            cases second
            cases cut
            rfl
      · obtain ⟨⟨f, b⟩, later, same⟩ := Option.map_eq_some_iff.mp cut
        cases same
        rw [ih later]
        rfl

theorem ofPieces_eq_some {pieces : List Hextet} {ip : Ipv6} (made : ofPieces pieces = some ip) :
    ip.pieces = pieces := by
  rw [ofPieces] at made
  split_ifs at made with length
  exact (congrArg Ipv6.pieces (Option.some.inj made)).symm

theorem mapM_readGroup_eq_some {words : List Text} {pieces : List Hextet}
    (read : words.mapM readGroup = some pieces) :
    List.Forall₂ (fun word piece => readGroup word = some piece) words pieces := by
  induction words generalizing pieces with
  | nil =>
      cases read
      exact .nil
  | cons word words ih =>
      rw [List.mapM_cons] at read
      simp only [bind, Option.bind_eq_some_iff, pure, Option.some.injEq] at read
      obtain ⟨piece, first, rest, later, rfl⟩ := read
      exact .cons first (ih later)

theorem readGroup_of_mem {words : List Text} {pieces : List Hextet}
    (read : words.mapM readGroup = some pieces) {word : Text} (listed : word ∈ words) :
    ∃ piece, readGroup word = some piece := by
  have matched := mapM_readGroup_eq_some read
  clear read
  induction matched with
  | nil => cases listed
  | cons group _ ih =>
      rcases List.mem_cons.mp listed with rfl | listed
      · exact ⟨_, group⟩
      · exact ih listed

theorem chars_of_readFront {s : Text} {pieces : List Hextet} (read : readFront s = some pieces) :
    ∀ c ∈ s, isHexDigit c = true ∨ c = ':' := by
  rw [readFront] at read
  split_ifs at read with empty
  · rw [empty]
    exact fun c inside => absurd inside List.not_mem_nil
  · intro c inside
    rcases mem_word_of_mem ':' inside with colon | ⟨word, listed, within⟩
    · exact .inr colon
    · obtain ⟨piece, group⟩ := readGroup_of_mem read listed
      exact .inl ((readGroup_eq_some group).2.1 c within)

theorem chars_of_readBack {s : Text} {pieces : List Hextet} (read : readBack s = some pieces) :
    ∀ c ∈ s, isHexDigit c = true ∨ c = '.' ∨ c = ':' := by
  rw [readBack] at read
  split_ifs at read with empty
  · rw [empty]
    exact fun c inside => absurd inside List.not_mem_nil
  · intro c inside
    rcases mem_word_of_mem ':' inside with colon | ⟨word, listed, within⟩
    · exact .inr (.inr colon)
    · exact (chars_of_readWords read word listed c within).imp_right .inl

/-- The two ways in which an address is written. -/
theorem readIpv6_eq_some {s : Text} {ip : Ipv6} (read : readIpv6 s = some ip) :
    (cutDouble s = none ∧ readWords (split ':' s) = some ip.pieces) ∨
      ∃ front back fronts backs, cutDouble s = some (front, back) ∧
        readFront front = some fronts ∧ readBack back = some backs ∧
        fronts.length + backs.length < 8 ∧
        ip.pieces = fronts ++ List.replicate (8 - fronts.length - backs.length) 0 ++ backs := by
  rw [readIpv6] at read
  split at read
  · rename_i none
    obtain ⟨pieces, words, made⟩ := Option.bind_eq_some_iff.mp read
    rw [← ofPieces_eq_some made] at words
    exact .inl ⟨none, words⟩
  · rename_i front back cut
    simp only [bind, Option.bind_eq_some_iff] at read
    obtain ⟨fronts, first, backs, later, made⟩ := read
    split_ifs at made with short
    exact .inr ⟨front, back, fronts, backs, cut, first, later, short, ofPieces_eq_some made⟩

theorem isAddressChar_of_readIpv6 {s : Text} {ip : Ipv6} (read : readIpv6 s = some ip) :
    ∀ c ∈ s, isAddressChar c = true := by
  have hex {c : Char} (digit : isHexDigit c = true) : isAddressChar c = true := by
    rw [isAddressChar, digit]
    rfl
  intro c inside
  rcases readIpv6_eq_some read with ⟨-, words⟩ | ⟨front, back, fronts, backs, cut, first, later, -⟩
  · rcases mem_word_of_mem ':' inside with rfl | ⟨word, listed, within⟩
    · decide
    · rcases chars_of_readWords words word listed c within with digit | rfl
      · exact hex digit
      · decide
  · rw [cutDouble_eq_some cut] at inside
    simp only [List.mem_append, List.mem_cons] at inside
    rcases inside with inside | rfl | rfl | inside
    · rcases chars_of_readFront first c inside with digit | rfl
      · exact hex digit
      · decide
    · decide
    · decide
    · rcases chars_of_readBack later c inside with digit | rfl | rfl
      · exact hex digit
      · decide
      · decide

theorem length_of_readWords {words : List Text} {pieces : List Hextet}
    (read : readWords words = some pieces) : pieces.length ≤ words.length + 1 := by
  induction words generalizing pieces with
  | nil =>
      cases read
      exact Nat.zero_le _
  | cons word words ih =>
      cases words with
      | nil =>
          rcases readWords_singleton read with ⟨piece, -, rfl⟩ | ⟨ip, -, rfl⟩
          · exact Nat.le_succ 1
          · exact le_refl 2
      | cons next words =>
          obtain ⟨piece, rest, -, later, rfl⟩ := readWords_cons read
          exact Nat.succ_le_succ (ih later)

theorem colon_mem_of_readIpv6 {s : Text} {ip : Ipv6} (read : readIpv6 s = some ip) : ':' ∈ s := by
  rcases readIpv6_eq_some read with ⟨-, words⟩ | ⟨front, back, fronts, backs, cut, -⟩
  · by_contra free
    rw [split_of_notMem free] at words
    have short := length_of_readWords words
    rw [ip.length, List.length_singleton] at short
    omega
  · rw [cutDouble_eq_some cut]
    exact List.mem_append_right front List.mem_cons_self

/-! ## The first group -/

theorem cutDouble_append_of_free {w : Text} (free : ':' ∉ w) (t : Text) :
    cutDouble (w ++ t) = (cutDouble t).map fun cut => (w ++ cut.1, cut.2) := by
  induction w with
  | nil => simp
  | cons c w ih =>
      rw [List.mem_cons, not_or] at free
      rw [List.cons_append, cutDouble, if_neg fun double => free.1 double.1.symm, ih free.2,
        Option.map_map]
      rfl

/-- The text before the first colon is the first group. -/
theorem first_of_readIpv6 {w rest : Text} {ip : Ipv6} (given : w ≠ []) (free : ':' ∉ w)
    (read : readIpv6 (w ++ ':' :: rest) = some ip) : readGroup w = some ip.first := by
  have words (t : Text) : split ':' (w ++ ':' :: t) = w :: split ':' t := by
    rw [split_append_cons, split_of_notMem free]
    rfl
  rcases readIpv6_eq_some read with ⟨-, read⟩ | ⟨front, back, fronts, backs, cut, first, -, -, form⟩
  · rw [words] at read
    obtain ⟨next, later, more⟩ := List.exists_cons_of_ne_nil (split_ne_nil ':' rest)
    rw [more] at read
    obtain ⟨piece, others, group, -, form⟩ := readWords_cons read
    rw [group, Ipv6.first, form]
    rfl
  · have starts : front = w ∨ ∃ t, front = w ++ ':' :: t := by
      rw [cutDouble_append_of_free free, Option.map_eq_some_iff] at cut
      obtain ⟨⟨f, b⟩, behind, same⟩ := cut
      cases same
      rw [cutDouble] at behind
      split_ifs at behind
      · cases behind
        exact .inl (List.append_nil w)
      · obtain ⟨⟨f', b'⟩, -, same⟩ := Option.map_eq_some_iff.mp behind
        cases same
        exact .inr ⟨f', rfl⟩
    have listed : ∃ others, split ':' front = w :: others := by
      rcases starts with rfl | ⟨t, rfl⟩
      · exact ⟨[], split_of_notMem free⟩
      · exact ⟨_, words t⟩
    have some_text : front ≠ [] := by
      rcases starts with rfl | ⟨t, rfl⟩
      · exact given
      · exact List.append_ne_nil_of_left_ne_nil given _
    obtain ⟨others, listed⟩ := listed
    rw [readFront, if_neg some_text, listed] at first
    cases mapM_readGroup_eq_some first with
    | cons group _ =>
        rw [group, Ipv6.first, form]
        rfl

theorem readIpv6_unspecified : readIpv6 "::" = some ⟨[0, 0, 0, 0, 0, 0, 0, 0], rfl⟩ := by
  decide

theorem readIpv6_loopback : readIpv6 "::1" = some ⟨[0, 0, 0, 0, 0, 0, 0, 1], rfl⟩ := by
  decide

theorem first_of_fe80 {text : Text} {ip : Ipv6} (starts : startsWith text "fe80:" = true)
    (read : readIpv6 text = some ip) : ip.first = 0xfe80 := by
  obtain ⟨rest, form⟩ := List.isPrefixOf_iff_prefix.mp starts
  rw [← form] at read
  have group := first_of_readIpv6 (w := ['f', 'e', '8', '0']) (by decide) (by decide) read
  have known : readGroup ['f', 'e', '8', '0'] = some 0xfe80 := by decide
  exact Option.some.inj (group.symm.trans known)

/-! ## Mapped addresses -/

/-- The groups behind `::ffff:` stand at the end. -/
theorem pieces_of_ffff {tail : Text} {ip : Ipv6}
    (read : readIpv6 (':' :: ':' :: 'f' :: 'f' :: 'f' :: 'f' :: ':' :: tail) = some ip) :
    ∃ rest, readWords (split ':' tail) = some rest ∧ rest.length ≤ 6 ∧
      ip.pieces = List.replicate (7 - rest.length) 0 ++ 0xffff :: rest := by
  have cut : cutDouble (':' :: ':' :: 'f' :: 'f' :: 'f' :: 'f' :: ':' :: tail) =
      some ([], 'f' :: 'f' :: 'f' :: 'f' :: ':' :: tail) := rfl
  have words : split ':' ('f' :: 'f' :: 'f' :: 'f' :: ':' :: tail) =
      ['f', 'f', 'f', 'f'] :: split ':' tail := by
    rw [show 'f' :: 'f' :: 'f' :: 'f' :: ':' :: tail = ['f', 'f', 'f', 'f'] ++ ':' :: tail from rfl,
      split_append_cons]
    rfl
  rcases readIpv6_eq_some read with
    ⟨none, -⟩ | ⟨front, back, fronts, backs, cut', first, later, short, form⟩
  · cases none.symm.trans cut
  · cases cut.symm.trans cut'
    cases first
    rw [readBack, if_neg (List.cons_ne_nil _ _), words] at later
    obtain ⟨next, others, more⟩ := List.exists_cons_of_ne_nil (split_ne_nil ':' tail)
    rw [more] at later ⊢
    obtain ⟨piece, rest, group, read_rest, rfl⟩ := readWords_cons later
    have value : piece = 0xffff := by
      have known : readGroup ['f', 'f', 'f', 'f'] = some 0xffff := by decide
      exact Option.some.inj (group.symm.trans known)
    rw [List.length_nil, List.length_cons] at short
    refine ⟨rest, read_rest, by omega, ?_⟩
    rw [form, value, List.nil_append, List.length_nil, List.length_cons]
    congr 2
    omega

/-- A text that begins with `::ffff:` and stands for an IPv4 address. -/
theorem mapped_of_readIpv6 {tail : Text} {ip : Ipv6} {v4 : Ipv4}
    (read : readIpv6 (':' :: ':' :: 'f' :: 'f' :: 'f' :: 'f' :: ':' :: tail) = some ip)
    (mapped : ip.mapped = some v4) :
    readIpv4 tail = some v4 ∨
      ∃ high low h l, split ':' tail = [high, low] ∧ readGroup high = some h ∧
        readGroup low = some l ∧ v4 = Ipv4.ofGroups h l := by
  obtain ⟨rest, read_rest, bound, form⟩ := pieces_of_ffff read
  obtain ⟨next, others, more⟩ := List.exists_cons_of_ne_nil (split_ne_nil ':' tail)
  rw [more] at read_rest
  rw [Ipv6.mapped, form] at mapped
  split at mapped
  · rename_i high low ends
    split_ifs at mapped with begins
    -- Only two groups behind `ffff` leave it in the sixth place.
    have two : rest.length = 2 := by
      generalize rest.length = n at begins bound
      interval_cases n <;> first | rfl | simp [List.replicate] at begins
    rw [two] at ends
    have last : rest = [high, low] := by simpa [List.replicate] using ends
    subst last
    cases Option.some.inj mapped
    cases others with
    | nil =>
        rcases readWords_singleton read_rest with ⟨piece, -, one⟩ | ⟨v4, dotted, same⟩
        · cases one
        · have whole : next = tail := by
            rw [← @join_split ':' tail, more]
            rfl
          rw [Ipv4.ofGroups_groups same.symm, ← whole]
          exact .inl dotted
    | cons second others =>
        obtain ⟨h, rest, first_group, read_last, same⟩ := readWords_cons read_rest
        cases same
        cases others with
        | nil =>
            rcases readWords_singleton read_last with ⟨l, second_group, one⟩ | ⟨v4, -, same⟩
            · cases one
              exact .inr ⟨next, second, high, low, more, first_group, second_group, rfl⟩
            · cases same
        | cons third others =>
            obtain ⟨l, more_rest, -, read_more, same⟩ := readWords_cons read_last
            cases same
            cases others with
            | nil =>
                rcases readWords_singleton read_more with ⟨_, -, none⟩ | ⟨_, -, none⟩ <;>
                  cases none
            | cons fourth others =>
                obtain ⟨_, _, -, -, none⟩ := readWords_cons read_more
                cases none
  · cases mapped

/-! ## The end of an address -/

theorem readIpv4_append_dot (s : Text) : readIpv4 (s ++ ['.']) = none := by
  cases read : readIpv4 (s ++ ['.']) with
  | none => rfl
  | some ip =>
      obtain ⟨a, b, c, d, form, -, -, -, fourth⟩ := readIpv4_eq_some read
      rw [split_append_cons] at form
      have last : [a, b, c, d].getLast? = some [] := by
        rw [← form]
        exact List.getLast?_concat
      cases Option.some.inj last
      cases fourth

theorem readWords_concat {front : List Text} {word : Text} {pieces : List Hextet}
    (read : readWords (front ++ [word]) = some pieces) : ∃ last, readWords [word] = some last := by
  induction front generalizing pieces with
  | nil => exact ⟨pieces, read⟩
  | cons first front ih =>
      obtain ⟨next, more, form⟩ := List.exists_cons_of_ne_nil
        (List.append_ne_nil_of_right_ne_nil front (List.cons_ne_nil word []))
      rw [List.cons_append, form] at read
      obtain ⟨piece, rest, -, later, -⟩ := readWords_cons read
      rw [← form] at later
      exact ih later

theorem readWords_split_append_dot (s : Text) : readWords (split ':' (s ++ ['.'])) = none := by
  cases read : readWords (split ':' (s ++ ['.'])) with
  | none => rfl
  | some pieces =>
      obtain ⟨front, last, -, form⟩ := split_append_last (show '.' ≠ ':' by decide) s
      rw [form] at read
      obtain ⟨ends, read⟩ := readWords_concat read
      rcases readWords_singleton read with ⟨piece, group, -⟩ | ⟨ip, dotted, -⟩
      · have digit := (readGroup_eq_some group).2.1 '.' (by simp)
        exact absurd digit (by decide)
      · rw [readIpv4_append_dot] at dotted
        cases dotted

/-- No address ends with a dot. -/
theorem readIpv6_append_dot (s : Text) : readIpv6 (s ++ ['.']) = none := by
  cases read : readIpv6 (s ++ ['.']) with
  | none => rfl
  | some ip =>
      rcases readIpv6_eq_some read with ⟨-, words⟩ | ⟨front, back, fronts, backs, cut, -, later, -⟩
      · rw [readWords_split_append_dot] at words
        cases words
      · have form := cutDouble_eq_some cut
        rcases List.eq_nil_or_concat back with rfl | ⟨init, last, rfl⟩
        · have ends := congrArg List.getLast? form
          rw [List.getLast?_concat] at ends
          simp at ends
        · rw [List.concat_eq_append] at form later
          have ends := congrArg List.getLast? form
          rw [List.getLast?_concat, show front ++ ':' :: ':' :: (init ++ [last]) =
            (front ++ ':' :: ':' :: init) ++ [last] by simp, List.getLast?_concat] at ends
          cases ends
          rw [readBack, if_neg (List.append_ne_nil_of_right_ne_nil _ (List.cons_ne_nil _ _)),
            readWords_split_append_dot] at later
          cases later

end Ecma
