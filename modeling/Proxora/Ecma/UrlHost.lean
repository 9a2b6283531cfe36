import Proxora.Ecma.IpText
import Proxora.Ecma.UrlParser

/-!
# Hosts of URLs

What the host parser of the URL standard makes of the host of an `http` or `https` URL: a domain
or an address. A domain is not empty, its characters are in lower case and none of them is a
forbidden one, and its last label is not a number, since such a host is an IPv4 address or none.
The parser itself stays a parameter of `parseUrl`.
-/

namespace Ecma

/-- The texts that the parser takes for the last part of an IPv4 address. -/
def isIpv4Number (s : Text) : Bool :=
  (s ≠ [] && s.all Char.isDigit) ||
    match s with
    | '0' :: x :: digits => (x = 'x' || x = 'X') && digits.all isHexDigit
    | _ => false

/-- The labels, without the empty one behind a last dot. -/
def domainLabels (name : Text) : List Text :=
  let labels := split '.' name
  if labels.getLast? = some [] then labels.dropLast else labels

/-- The checker of the URL standard for hosts that end in a number. -/
def endsInNumber (name : Text) : Bool := (domainLabels name).getLast?.any isIpv4Number

/-- Printable ASCII without capitals and forbidden domain characters. -/
def isDomainChar (c : Char) : Bool :=
  0x20 < c.toNat && c.toNat < 0x7F && !c.isUpper && !"#/:<>?@[\\]^|%".toList.contains c

structure DomainName where
  name : Text
  given : name ≠ []
  chars : ∀ c ∈ name, isDomainChar c = true
  notNumber : endsInNumber name = false

inductive UrlHost : Type
  | domain (domain : DomainName)
  | ipv4 (ip : Ipv4)
  | ipv6 (ip : Ipv6)

/-- `url.hostname`. -/
def UrlHost.hostname : UrlHost → Text
  | .domain name => name.name
  | .ipv4 ip => ip.text
  | .ipv6 ip => '[' :: ip.text ++ [']']

/-- `replace(/\.+$/, "")`. -/
def withoutLastDots (s : Text) : Text := s.rdropWhile (· = '.')

/-- What stands between the scheme of a URL with an authority and its path. -/
def authorityText (input : Text) : Text :=
  match schemeOf (urlText input) with
  | none => []
  | some (_, rest) =>
      (rest.dropWhile isSlash).takeWhile fun c => !(isSlash c || c = '?' || c = '#')

/-- `url.username || url.password`: something other than a colon before the last `@`. -/
def hasCredentials (input : Text) : Bool :=
  let authority := authorityText input
  let userinfo := (authority.reverse.dropWhile (· ≠ '@')).tail.reverse
  '@' ∈ authority && userinfo ≠ [] && userinfo ≠ [':']

/-! ## Addresses -/

theorem readOctet_decimalText : ∀ n : Fin 256, readOctet (decimalText n) = some n := by
  decide +kernel

/-- Decimal digits without a dot. -/
theorem digits_decimalText (n : Nat) : ∀ c ∈ decimalText n, c.isDigit = true := digits_toString

theorem split_text (ip : Ipv4) :
    split '.' ip.text =
      [decimalText ip.a, decimalText ip.b, decimalText ip.c, decimalText ip.d] := by
  refine split_join (List.cons_ne_nil _ _) ?_
  intro word listed inside
  simp only [List.mem_cons, List.not_mem_nil, or_false] at listed
  rcases listed with rfl | rfl | rfl | rfl <;>
    exact absurd (digits_decimalText _ _ inside) (by decide)

theorem readIpv4_text (ip : Ipv4) : readIpv4 ip.text = some ip := by
  rw [readIpv4, split_text]
  dsimp only
  rw [readOctet_decimalText, readOctet_decimalText, readOctet_decimalText, readOctet_decimalText]
  rfl

theorem chars_text (ip : Ipv4) : ∀ c ∈ ip.text, c.isDigit = true ∨ c = '.' :=
  chars_of_readIpv4 (readIpv4_text ip)

theorem dottedDecimal_table : ∀ k < 128,
    (Char.ofNat k).isDigit = true ∨ Char.ofNat k = '.' →
      isSpace (Char.ofNat k) = false ∧ lowerChar (Char.ofNat k) = [Char.ofNat k] := by
  decide

theorem dottedDecimal_facts {c : Char} (char : c.isDigit = true ∨ c = '.') :
    isSpace c = false ∧ lowerChar c = [c] := by
  have ascii : c.toNat < 128 := by
    rcases char with digit | rfl
    · simp only [Char.isDigit, Bool.and_eq_true, decide_eq_true_eq, ge_iff_le,
        UInt32.le_iff_toNat_le] at digit
      exact lt_of_le_of_lt digit.2 (by decide)
    · decide
  have entry := dottedDecimal_table c.toNat ascii
  rw [Char.ofNat_toNat] at entry
  exact entry char

namespace Ipv4

variable (ip : Ipv4)

theorem trim_text : trim ip.text = ip.text :=
  trim_of_notSpace fun c inside => (dottedDecimal_facts (chars_text ip c inside)).1

theorem toLowerCase_text : toLowerCase ip.text = ip.text :=
  toLowerCase_of_fixed fun c inside => (dottedDecimal_facts (chars_text ip c inside)).2

/-- No dot stands at the end. -/
theorem withoutLastDots_text : withoutLastDots ip.text = ip.text := by
  have given : decimalText ip.d ≠ [] := by
    intro empty
    have read := readOctet_decimalText ip.d
    rw [empty] at read
    cases read
  obtain ⟨init, last, form⟩ := (List.eq_nil_or_concat (decimalText ip.d)).resolve_left given
  rw [List.concat_eq_append] at form
  have digit : last.isDigit = true :=
    digits_decimalText _ last (by rw [form]; exact List.mem_append_right init List.mem_cons_self)
  have whole : ∃ front, ip.text = front ++ [last] := by
    refine ⟨decimalText ip.a ++ '.' :: (decimalText ip.b ++ '.' :: (decimalText ip.c ++
      '.' :: init)), ?_⟩
    rw [Ipv4.text, form]
    simp [join]
  obtain ⟨front, whole⟩ := whole
  rw [whole, withoutLastDots]
  refine List.rdropWhile_concat_neg _ front last ?_
  rw [decide_eq_true_eq]
  rintro rfl
  exact absurd digit (by decide)

end Ipv4

/-! ## Domains -/

theorem isDomainChar_table : ∀ k < 128, isDomainChar (Char.ofNat k) = true →
    isSpace (Char.ofNat k) = false ∧ lowerChar (Char.ofNat k) = [Char.ofNat k] ∧
      Char.ofNat k ≠ ':' := by
  decide

/-- Domain characters are no white space, in lower case and no colons. -/
theorem isDomainChar_facts {c : Char} (char : isDomainChar c = true) :
    isSpace c = false ∧ lowerChar c = [c] ∧ c ≠ ':' := by
  have ascii : c.toNat < 128 := by
    simp only [isDomainChar, Bool.and_eq_true, decide_eq_true_eq] at char
    exact lt_trans char.1.1.2 (by decide)
  have entry := isDomainChar_table c.toNat ascii
  rw [Char.ofNat_toNat] at entry
  exact entry char

namespace DomainName

variable (domain : DomainName)

theorem trim_name : trim domain.name = domain.name :=
  trim_of_notSpace fun c inside => (isDomainChar_facts (domain.chars c inside)).1

theorem toLowerCase_name : toLowerCase domain.name = domain.name :=
  toLowerCase_of_fixed fun c inside => (isDomainChar_facts (domain.chars c inside)).2.1

theorem colon_notMem_name : ':' ∉ domain.name := fun inside =>
  (isDomainChar_facts (domain.chars _ inside)).2.2 rfl

end DomainName

/-- A text that is an IPv4 address ends in a number, also with a dot behind it. -/
theorem endsInNumber_of_readIpv4 {s : Text} {ip : Ipv4} (read : readIpv4 s = some ip) :
    endsInNumber s = true ∧ endsInNumber (s ++ ['.']) = true := by
  obtain ⟨a, b, c, d, form, -, -, -, fourth⟩ := readIpv4_eq_some read
  obtain ⟨⟨long, -⟩, digits, -⟩ := readOctet_eq_some fourth
  have given : d ≠ [] := List.ne_nil_of_length_pos long
  have number : isIpv4Number d = true := by
    simp [isIpv4Number, given, List.all_eq_true.mpr digits]
  have labels : domainLabels s = [a, b, c, d] := by
    rw [domainLabels, form]
    exact if_neg fun last => given (Option.some.inj last)
  have dotted : domainLabels (s ++ ['.']) = [a, b, c, d] := by
    rw [domainLabels, split_append_cons, form]
    rfl
  rw [endsInNumber, labels, endsInNumber, dotted]
  exact ⟨number, number⟩

end Ecma
