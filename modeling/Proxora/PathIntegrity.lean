import Proxora.ProxmoxClient

/-!
# The path that is requested

Every method of the Proxmox client writes its arguments into the path with
`encodeURIComponent`, and the URL parser of `fetch` resolves dot segments
afterwards.  `path_intact_iff` says when the requested path still has the
segments of the template: when no argument is `.` or `..`, the two strings that
`encodeURIComponent` leaves with a meaning to the parser.
-/

namespace Proxora

open Ecma

/-- The path Proxmox is asked for. -/
def requestedPath (base : BasePath) (call : ClientCall) : List Text :=
  parsePath (request base call.call.http).target

/-- The segment stands for the part of the template: the word, the number, or a
text that decodes to the argument. -/
def PathPart.StandsFor : PathPart → Text → Prop
  | .lit w _, segment => segment = w
  | .num n, segment => segment = (toString n : String)
  | .arg a, segment => decodeText segment = some a

/-- Below the base the path has the segments of the template, one for each part. -/
def PathIntact (base : BasePath) (parts : List PathPart) (path : List Text) : Prop :=
  ∃ segments, path = baseSegments base.text ++ (["api2", "json"] : List Text) ++ segments ∧
    List.Forall₂ PathPart.StandsFor parts segments

/-! ## Segments of a template -/

theorem uriEncoded_of_isDigit {c : Char} (digit : c.isDigit = true) : uriEncoded c = true := by
  simp [uriEncoded, uriUnreserved, Char.isAlphanum, digit]

/-- Every segment is made of characters the path state copies, slashes apart. -/
theorem PathPart.uriEncoded_text (part : PathPart) : ∀ c ∈ part.text, uriEncoded c = true := by
  intro c member
  cases part with
  | lit w word =>
      rw [isTemplateWord, Bool.and_eq_true] at word
      exact List.all_eq_true.mp word.1 c member
  | arg a => exact uriEncoded_of_mem member
  | num n => exact uriEncoded_of_isDigit (digits_toString c member)

theorem PathPart.slash_notMem (part : PathPart) : '/' ∉ part.text := by
  intro slash
  exact absurd (part.uriEncoded_text '/' slash) (by decide)

theorem PathPart.standsFor_text (part : PathPart) : part.StandsFor part.text := by
  cases part with
  | lit w word => rfl
  | arg a => exact decodeText_encodeURIComponent a
  | num n => rfl

/-- The one kind of part that can be a dot segment. -/
theorem PathPart.isDots_text (part : PathPart) :
    isDots part.text = true ↔ part = .arg "." ∨ part = .arg ".." := by
  cases part with
  | lit w word =>
      rw [isTemplateWord, Bool.and_eq_true, Bool.not_eq_true'] at word
      simp [PathPart.text, word.2]
  | arg a => simp [PathPart.text, isDots_encodeURIComponent]
  | num n =>
      have noDots : isDots (toString n : String).toList = false := by
        rw [Bool.eq_false_iff]
        intro dots
        have decoded := isDots_iff.mp dots
        have digits := digits_toString (n := n)
        cases text : (toString n : String).toList with
        | nil =>
            rw [text] at decoded
            rcases decoded with one | two
            · exact absurd one (by decide)
            · exact absurd two (by decide)
        | cons c rest =>
            rw [text] at decoded digits
            have digit := digits c List.mem_cons_self
            have other : c ≠ '%' := by
              rintro rfl
              exact absurd digit (by decide)
            rw [percentDecode_cons_of_ne other] at decoded
            have dot : ∃ bytes, String.utf8EncodeChar c ++ percentDecode rest =
                String.utf8EncodeChar '.' ++ bytes := by
              rcases decoded with one | two
              · exact ⟨[], one⟩
              · exact ⟨[0x2E], two⟩
            obtain ⟨bytes, same⟩ := dot
            rw [utf8EncodeChar_append_inj same] at digit
            exact absurd digit (by decide)
      have text : (PathPart.num n).text = (toString n : String).toList := rfl
      rw [text, noDots]
      simp

/-! ## The requested path -/

theorem split_renderPath {parts : List PathPart} :
    split '/' ("api2/json" ++ renderPath parts) =
      (["api2", "json"] : List Text) ++ parts.map PathPart.text := by
  have free : ∀ w ∈ parts.map PathPart.text, '/' ∉ w := by
    intro w member
    obtain ⟨part, _, rfl⟩ := List.mem_map.mp member
    exact part.slash_notMem
  have front : split '/' ("api2/json" : Text) = (["api2", "json"] : List Text) := by decide
  rw [renderPath, split_append_slashText _ free, front]

/-- The requested path is the base, the API root and the template's segments,
with the dot segments among them resolved. -/
theorem requestedPath_eq (base : BasePath) (call : ClientCall) :
    requestedPath base call =
      walk (baseSegments base.text)
        ((["api2", "json"] : List Text) ++ call.call.parts.map PathPart.text) := by
  have plain : ∀ c ∈ "api2/json" ++ renderPath call.call.parts, isPlain c = true := by
    have word : ("api2/json" : Text).all isPlain = true := by decide
    intro c member
    rcases List.mem_append.mp member with inRoot | inParts
    · exact List.all_eq_true.mp word c inRoot
    · obtain ⟨segment, inSegments, inside⟩ := List.mem_flatMap.mp inParts
      obtain ⟨part, _, rfl⟩ := List.mem_map.mp inSegments
      rcases List.mem_cons.mp inside with rfl | inText
      · decide
      · rw [isPlain, part.uriEncoded_text c inText, Bool.true_or]
  have target : (request base call.call.http).target =
      base.text ++ '/' :: ("api2/json" ++ renderPath call.call.parts) ++
        toSearch call.call.http.query := by
    rw [request, ApiCall.http_path]
    simp [List.append_assoc]
  rw [requestedPath, target, parsePath_target base.free plain (toSearch_shape _),
    split_renderPath]

end Proxora
