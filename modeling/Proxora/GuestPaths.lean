import Proxora.Ecma.Text

/-!
# Paths on a guest

`resolveGuestPath` of `lib/guest-files.ts` and the names of the upload sidecars
built on it.  A `GuestPath` is a path that `resolveGuestPath` leaves as it is;
everything it returns is one (`resolveGuestPath_resolved`).
-/

namespace Proxora

open Ecma

def guestFileMaxPath : Nat := 4096

/-- The loop of `resolveGuestPath` over the segments. -/
def resolveParts : List Text → List Text → Except String (List Text)
  | parts, [] => .ok parts
  | parts, seg :: rest =>
      if seg = [] ∨ seg = "." then resolveParts parts rest
      else if seg = ".." then
        if parts = [] then .error "Invalid path" else resolveParts parts.dropLast rest
      else resolveParts (parts ++ [seg]) rest

/-- A backslash is taken for a slash. -/
def toSlash (c : Char) : Char := if c = '\\' then '/' else c

/-- The path before it is resolved; an empty `name` is none. -/
def joinedPath (cwd name : Text) : Text :=
  let cwd : Text := if cwd = [] then "/" else cwd
  if name = [] then cwd
  else if startsWith name "/" then name
  else (cwd.reverse.dropWhile (· = '/')).reverse ++ "/" ++ name

def resolveGuestPath (cwd name : Text) : Except String Text :=
  if '\x00' ∈ joinedPath cwd name then .error "Invalid path"
  else
    match resolveParts [] (split '/' ((joinedPath cwd name).map toSlash)) with
    | .error message => .error message
    | .ok parts =>
        let path := '/' :: join '/' parts
        if utf16Length path > guestFileMaxPath then .error "Path too long" else .ok path

/-- What follows the last slash. -/
def afterLastSlash (path : Text) : Text := (path.reverse.takeWhile (· ≠ '/')).reverse

def guestFileName (path : Text) : Except String Text :=
  match resolveGuestPath path [] with
  | .error message => .error message
  | .ok resolved => .ok (if resolved = "/" then "/" else afterLastSlash resolved)

def guestUploadPartSuffix : Text := ".proxora-part"

def guestUploadMetaSuffix : Text := ".proxora-part.meta"

def isGuestUploadPartName (name : Text) : Bool :=
  endsWith name guestUploadPartSuffix && !endsWith name guestUploadMetaSuffix

def guestUploadPartPath (dest : Text) : Except String Text :=
  match resolveGuestPath dest [] with
  | .error message => .error message
  | .ok path =>
      match guestFileName path with
      | .error message => .error message
      | .ok name =>
          .ok (if isGuestUploadPartName name then path else path ++ guestUploadPartSuffix)

def guestUploadMetaPath (dest : Text) : Except String Text :=
  (guestUploadPartPath dest).map (· ++ ".meta")

/-! ## Resolved paths -/

/-- A segment that `resolveParts` keeps. -/
def PlainSegment (seg : Text) : Prop :=
  seg ≠ [] ∧ seg ≠ "." ∧ seg ≠ ".." ∧ ∀ c ∈ seg, c ≠ '/' ∧ c ≠ '\\' ∧ c ≠ '\x00'

/-- The segments of a resolved path are plain. -/
theorem resolveParts_plain {segs parts result : List Text}
    (chars : ∀ seg ∈ segs, ∀ c ∈ seg, c ≠ '/' ∧ c ≠ '\\' ∧ c ≠ '\x00')
    (before : ∀ seg ∈ parts, PlainSegment seg) (done : resolveParts parts segs = .ok result) :
    ∀ seg ∈ result, PlainSegment seg := by
  induction segs generalizing parts with
  | nil =>
      cases done
      exact before
  | cons seg rest ih =>
      have others : ∀ s ∈ rest, ∀ c ∈ s, c ≠ '/' ∧ c ≠ '\\' ∧ c ≠ '\x00' :=
        fun s member => chars s (List.mem_cons_of_mem _ member)
      rw [resolveParts] at done
      split at done
      · exact ih others before done
      · next named =>
          split at done
          · split at done
            · cases done
            · exact ih others (fun s member => before s (List.mem_of_mem_dropLast member)) done
          · next below =>
              refine ih others ?_ done
              intro s member
              rcases List.mem_append.mp member with old | new
              · exact before s old
              · rw [List.mem_singleton] at new
                subst new
                exact ⟨fun empty => named (.inl empty), fun dot => named (.inr dot), below,
                  chars s List.mem_cons_self⟩

/-- Plain segments are kept as they are. -/
theorem resolveParts_of_plain {segs parts : List Text} (plain : ∀ seg ∈ segs, PlainSegment seg) :
    resolveParts parts segs = .ok (parts ++ segs) := by
  induction segs generalizing parts with
  | nil => rw [resolveParts, List.append_nil]
  | cons seg rest ih =>
      obtain ⟨some, dot, dots, -⟩ := plain seg List.mem_cons_self
      rw [resolveParts, if_neg (not_or.mpr ⟨some, dot⟩), if_neg dots,
        ih fun s member => plain s (List.mem_cons_of_mem _ member), List.append_assoc]
      rfl

/-- Resolving the path of plain segments gives it back, unless it is too long. -/
theorem resolveGuestPath_of_segments {parts : List Text}
    (plain : ∀ seg ∈ parts, PlainSegment seg) :
    resolveGuestPath ('/' :: join '/' parts) [] =
      if utf16Length ('/' :: join '/' parts) > guestFileMaxPath then .error "Path too long"
      else .ok ('/' :: join '/' parts) := by
  have chars : ∀ c ∈ '/' :: join '/' parts, c ≠ '\\' ∧ c ≠ '\x00' := by
    intro c inside
    rcases List.mem_cons.mp inside with rfl | inside
    · decide
    · rcases mem_join inside with rfl | ⟨seg, member, here⟩
      · decide
      · exact ((plain seg member).2.2.2 c here).2
  have kept : ('/' :: join '/' parts).map toSlash = '/' :: join '/' parts := by
    rw [List.map_congr_left (g := id), List.map_id]
    intro c inside
    exact if_neg (chars c inside).1
  have cut : resolveParts [] (split '/' ('/' :: join '/' parts)) = .ok parts := by
    rw [split, if_pos rfl, resolveParts, if_pos (.inl rfl)]
    by_cases root : parts = []
    · subst root
      rfl
    · rw [split_join root fun seg member inside => ((plain seg member).2.2.2 _ inside).1 rfl,
        resolveParts_of_plain plain, List.nil_append]
  have joined : joinedPath ('/' :: join '/' parts) [] = '/' :: join '/' parts := rfl
  rw [resolveGuestPath, joined, kept, cut, if_neg fun inside => (chars _ inside).2 rfl]

/-- What `resolveGuestPath` returns is made of plain segments, and not too long. -/
theorem resolveGuestPath_segments {cwd name path : Text}
    (done : resolveGuestPath cwd name = .ok path) :
    ∃ parts, (∀ seg ∈ parts, PlainSegment seg) ∧ path = '/' :: join '/' parts ∧
      utf16Length path ≤ guestFileMaxPath := by
  unfold resolveGuestPath at done
  split at done
  · cases done
  · next clean =>
      split at done
      · cases done
      · next parts resolved =>
          dsimp only at done
          split at done
          · cases done
          · next short =>
              cases done
              refine ⟨parts, ?_, rfl, Nat.le_of_not_lt short⟩
              refine resolveParts_plain ?_ (fun seg member => by cases member) resolved
              intro seg member c inside
              have from_ := mem_of_mem_split member inside
              obtain ⟨d, held, rfl⟩ := List.mem_map.mp from_
              refine ⟨fun slash => sep_notMem_of_mem_split member (slash ▸ inside), ?_, ?_⟩
              · unfold toSlash
                split
                · decide
                · next other => exact other
              · unfold toSlash
                split
                · decide
                · rintro rfl
                  exact clean held

/-- What `resolveGuestPath` returns it leaves as it is. -/
theorem resolveGuestPath_resolved {cwd name path : Text}
    (done : resolveGuestPath cwd name = .ok path) : resolveGuestPath path [] = .ok path := by
  obtain ⟨parts, plain, rfl, short⟩ := resolveGuestPath_segments done
  rw [resolveGuestPath_of_segments plain, if_neg (Nat.not_lt_of_le short)]

/-- A path that `resolveGuestPath` leaves as it is. -/
structure GuestPath where
  text : Text
  resolved : resolveGuestPath text [] = .ok text

namespace GuestPath

variable (dest : GuestPath)

/-- The last component is one of a part file. -/
def isPart : Bool :=
  isGuestUploadPartName (if dest.text = "/" then "/" else afterLastSlash dest.text)

/-- The part file of an upload. -/
def partPath : Text := if dest.isPart then dest.text else dest.text ++ guestUploadPartSuffix

/-- The file beside it that says what is being uploaded. -/
def metaPath : Text := dest.partPath ++ ".meta"

theorem guestUploadPartPath_eq : guestUploadPartPath dest.text = .ok dest.partPath := by
  simp only [guestUploadPartPath, guestFileName, dest.resolved, partPath, isPart]
  rfl

theorem guestUploadMetaPath_eq : guestUploadMetaPath dest.text = .ok dest.metaPath := by
  rw [guestUploadMetaPath, guestUploadPartPath_eq]
  rfl

theorem partPath_eq_iff : dest.partPath = dest.text ↔ dest.isPart = true := by
  unfold partPath
  split
  · next named => simp [named]
  · next named =>
      refine ⟨fun same => ?_, fun other => absurd other named⟩
      cases List.append_cancel_left (same.trans (List.append_nil _).symm)

theorem text_ne_partPath {dest : GuestPath} (other : dest.isPart = false) :
    dest.text ≠ dest.partPath := by
  intro same
  rw [dest.partPath_eq_iff.mp same.symm] at other
  cases other

theorem metaPath_ne_partPath : dest.metaPath ≠ dest.partPath := by
  intro same
  cases List.append_cancel_left (same.trans (List.append_nil _).symm)

theorem metaPath_ne_text : dest.metaPath ≠ dest.text := by
  intro same
  have long : dest.text.length ≤ dest.partPath.length := by
    unfold partPath
    split
    · exact le_rfl
    · exact (List.prefix_append _ _).length_le
  have longer : dest.metaPath.length = dest.partPath.length + 5 := List.length_append
  rw [same] at longer
  omega

end GuestPath

/-- A path for examples. -/
def note : GuestPath := ⟨"/note", by decide⟩

end Proxora
