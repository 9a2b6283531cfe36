import Proxora.Ecma.Text

/-!
# Cookies in a browser

The parsing and storing of a `Set-Cookie` header after RFC 6265, sections 5.1.4, 5.2
and 5.3, as far as name, domain and path go.  Whether the browser takes a domain that is
not the host's own is a parameter.
-/

namespace Cookies

open Ecma

/-! ## The header -/

/-- `WSP`. -/
def isWsp (c : Char) : Bool := c = ' ' || c = '\t'

def stripWsp (s : Text) : Text := (s.dropWhile isWsp).rdropWhile isWsp

/-- The name and the value of a pair; without an equals sign the value is empty. -/
def parsePair (s : Text) : Text × Text :=
  (stripWsp (s.takeWhile (· ≠ '=')), stripWsp ((s.dropWhile (· ≠ '=')).drop 1))

/-- An attribute name in lower case. -/
def attributeName (s : Text) : Text := (parsePair s).1.map Char.toLower

/-- The value of a Domain attribute without its first dot; an empty one is ignored. -/
def domainAttribute (s : Text) : Option Text :=
  let value := (parsePair s).2
  if attributeName s = "domain" && value ≠ [] then
    some ((if value.head? = some '.' then value.tail else value).map Char.toLower)
  else none

/-- The value of a Path attribute. -/
def pathAttribute (s : Text) : Option Text :=
  if attributeName s = "path" then some (parsePair s).2 else none

/-- The last one that an attribute gives. -/
def lastOf {α : Type} (read : Text → Option α) (attributes : List Text) : Option α :=
  (attributes.filterMap read).getLast?

/-! ## The store -/

/-- What the browser makes of a cookie whose domain is not empty: it ignores the cookie,
keeps it for the host alone, or keeps it for the domain. -/
inductive DomainVerdict : Type
  | refused | hostOnly | granted
deriving DecidableEq, Repr

/-- The default path of a request. -/
def defaultPath (requestPath : Text) : Text :=
  let front := ((requestPath.reverse.dropWhile (· ≠ '/')).drop 1).reverse
  if requestPath.head? = some '/' && front ≠ [] then front else "/"

/-- The path of a cookie with these attributes. -/
def cookiePath (requestPath : Text) (attributes : List Text) : Text :=
  match lastOf pathAttribute attributes with
  | some path => if path.head? = some '/' then path else defaultPath requestPath
  | none => defaultPath requestPath

structure StoredCookie where
  name : Text
  value : Text
  domain : Option Text
  path : Text
deriving DecidableEq, Repr

/-- What is stored of a `Set-Cookie` header. -/
def storeCookie (judge : Text → DomainVerdict) (requestPath header : Text) : Option StoredCookie :=
  let pair := (split ';' header).headD []
  let attributes := (split ';' header).tail
  let name := (parsePair pair).1
  let value := (parsePair pair).2
  let path := cookiePath requestPath attributes
  if !(pair.contains '=') || name = [] then none
  else
    match (lastOf domainAttribute attributes).filter (· ≠ []) with
    | none => some ⟨name, value, none, path⟩
    | some domain =>
        match judge domain with
        | .refused => none
        | .hostOnly => some ⟨name, value, none, path⟩
        | .granted => some ⟨name, value, some domain, path⟩

/-! ## Paths -/

/-- A path at or below another one. -/
def Below (root path : Text) : Prop := path = root ∨ root ++ ['/'] <+: path

instance (root path : Text) : Decidable (Below root path) :=
  inferInstanceAs (Decidable (path = root ∨ root ++ ['/'] <+: path))

theorem below_append (root rest : Text) : Below root (root ++ '/' :: rest) :=
  .inr ⟨rest, List.append_assoc root ['/'] rest⟩

/-- The default path is what stands before the last slash. -/
theorem defaultPath_append {front back : Text} (slash : front.head? = some '/')
    (last : '/' ∉ back) : defaultPath (front ++ '/' :: back) = front := by
  have cut : (((front ++ '/' :: back).reverse.dropWhile (· ≠ '/')).drop 1).reverse = front := by
    have skipped : ∀ c ∈ back.reverse, decide (c ≠ '/') = true := by
      intro c member
      refine decide_eq_true fun same => last ?_
      rw [← same]
      exact List.mem_reverse.mp member
    have reversed : (front ++ '/' :: back).reverse = back.reverse ++ '/' :: front.reverse := by
      simp
    rw [reversed, List.dropWhile_append_of_pos skipped]
    exact List.reverse_reverse front
  have starts : (front ++ '/' :: back).head? = some '/' := by
    rw [List.head?_append, slash]
    rfl
  have some_front : front ≠ [] := by
    rintro rfl
    cases slash
  unfold defaultPath
  rw [cut, starts]
  exact if_pos (Bool.and_eq_true_iff.mpr ⟨decide_eq_true rfl, decide_eq_true some_front⟩)

/-- A request below a directory has the directory as its default path, or a path below it. -/
theorem below_defaultPath {root : Text} (slash : root.head? = some '/') (rest : Text) :
    Below root (defaultPath (root ++ '/' :: rest)) := by
  by_cases more : '/' ∈ rest
  · obtain ⟨back, front, cut, last⟩ := List.eq_append_cons_of_mem (List.mem_reverse.mpr more)
    have shape : rest = front.reverse ++ '/' :: back.reverse := by
      rw [← List.reverse_reverse rest, cut]
      simp
    have starts : (root ++ '/' :: front.reverse).head? = some '/' := by
      rw [List.head?_append, slash]
      rfl
    have whole : root ++ '/' :: rest = (root ++ '/' :: front.reverse) ++ '/' :: back.reverse := by
      rw [shape]
      simp
    rw [whole, defaultPath_append starts fun member => last (List.mem_reverse.mp member)]
    exact below_append root front.reverse
  · rw [defaultPath_append slash more]
    exact .inl rfl

/-- The last of two lists. -/
theorem lastOf_append {α : Type} {read : Text → Option α} {front back : List Text} :
    lastOf read (front ++ back) = (lastOf read back).or (lastOf read front) := by
  unfold lastOf
  rw [List.filterMap_append, List.getLast?_append]

end Cookies
