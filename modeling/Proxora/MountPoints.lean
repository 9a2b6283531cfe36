import Proxora.Ecma.Lines

/-!
# Mount points

`parseMpSpec` and `buildMpSpec` of `lib/proxmox-mp.ts`, and the two ways in which the guest
configuration form adds a mount point (`addBindMount` and `addVolumeMount` of
`components/guests/guest-config-form.tsx`).

`mountForm_roundTrip_iff` says which of the mount points that the form adds are read back as they
were typed: those without a comma in the volume and in the guest path.
-/

namespace Proxora

open Ecma

/-- The parts between commas, trimmed, without empty ones. -/
def specParts (value : Text) : List Text := ((split ',' value).map trim).filter (· ≠ [])

structure MpSpec where
  volume : Text
  path : Text
  options : List Text
deriving DecidableEq, Repr

/-- One part behind the volume. -/
def MpSpec.readPart (spec : MpSpec) (part : Text) : MpSpec :=
  if startsWith part "mp=" then { spec with path := part.drop 3 }
  else { spec with options := spec.options ++ [part] }

def parseMpSpec (value : Text) : MpSpec :=
  (specParts value).tail.foldl MpSpec.readPart ⟨(specParts value).head?.getD [], [], []⟩

/-- With a slash in front. -/
def mpGuestPath (path : Text) : Text := if startsWith path "/" then path else '/' :: path

def buildMpSpec (volume path : Text) (options : List Text) : Text :=
  join ',' (trim volume :: (("mp=" : Text) ++ mpGuestPath path) :: options.filter (· ≠ []))

/-! ## The form -/

/-- What is typed into one of the two dialogs. -/
inductive MountForm : Type
  | bind (bindHost bindGuest : Text) (bindRo : Bool)
  | volume (volStorage volGuest : Text) (volBackup : Bool)
deriving DecidableEq, Repr

namespace MountForm

/-- The volume or host directory. -/
def source : MountForm → Text
  | bind bindHost _ _ => trim bindHost
  | volume volStorage _ _ => trim volStorage

def guest : MountForm → Text
  | bind _ bindGuest _ => trim bindGuest
  | volume _ volGuest _ => trim volGuest

def options : MountForm → List Text
  | bind _ _ bindRo => if bindRo then ["ro=1"] else []
  | volume _ _ volBackup => if volBackup then ["backup=1"] else []

/-- What `addBindMount` and `addVolumeMount` write to the field; `none` is their error. -/
def spec : MountForm → Option Text
  | bind bindHost bindGuest bindRo =>
      if !startsWith (trim bindHost) "/" || trim bindGuest = [] then none
      else some (buildMpSpec (trim bindHost) (trim bindGuest) (if bindRo then ["ro=1"] else []))
  | volume volStorage volGuest volBackup =>
      if trim volStorage = [] || trim volGuest = [] then none
      else
        some (buildMpSpec (trim volStorage) (trim volGuest)
          (if volBackup then ["backup=1"] else []))

end MountForm

/-! ## The parts -/

theorem sep_notMem_of_mem_specParts {value part : Text} (member : part ∈ specParts value) :
    ',' ∉ part := by
  obtain ⟨word, listed, rfl⟩ := List.mem_map.mp (List.mem_filter.mp member).1
  exact fun inside => sep_notMem_of_mem_split listed (mem_of_mem_trim inside)

/-- Parts that are trimmed and hold no comma are read as they are. -/
theorem specParts_join {parts : List Text} (some : parts ≠ [])
    (clean : ∀ part ∈ parts, part ≠ [] ∧ trim part = part ∧ ',' ∉ part) :
    specParts (join ',' parts) = parts := by
  have trimmed : parts.map trim = parts :=
    (List.map_congr_left fun part member => (clean part member).2.1).trans (List.map_id parts)
  rw [specParts, split_join some fun part member => (clean part member).2.2, trimmed,
    List.filter_eq_self]
  exact fun part member => decide_eq_true (clean part member).1

/-- No comma comes out of the parser. -/
theorem foldl_readPart_free {parts : List Text} {spec : MpSpec} (free : ',' ∉ spec.path)
    (parts_free : ∀ part ∈ parts, ',' ∉ part) :
    ',' ∉ (parts.foldl MpSpec.readPart spec).path := by
  induction parts generalizing spec with
  | nil => exact free
  | cons part parts ih =>
      have head := parts_free part List.mem_cons_self
      refine ih ?_ fun p member => parts_free p (List.mem_cons_of_mem part member)
      rw [MpSpec.readPart]
      split_ifs
      · exact fun inside => head (List.mem_of_mem_drop inside)
      · exact free

theorem parseMpSpec_free (value : Text) :
    ',' ∉ (parseMpSpec value).volume ∧ ',' ∉ (parseMpSpec value).path := by
  have volume (parts : List Text) (spec : MpSpec) :
      (parts.foldl MpSpec.readPart spec).volume = spec.volume := by
    induction parts generalizing spec with
    | nil => rfl
    | cons part parts ih =>
        rw [List.foldl_cons, ih, MpSpec.readPart]
        split_ifs <;> rfl
  constructor
  · rw [parseMpSpec, volume]
    cases form : specParts value with
    | nil => exact List.not_mem_nil
    | cons first rest =>
        exact @sep_notMem_of_mem_specParts value _ (by rw [form]; exact List.mem_cons_self)
  · refine foldl_readPart_free List.not_mem_nil fun part member => ?_
    exact sep_notMem_of_mem_specParts (List.mem_of_mem_tail member)

/-- Options are kept in their order. -/
theorem foldl_readPart_options {options : List Text}
    (other : ∀ option ∈ options, startsWith option "mp=" = false) (spec : MpSpec) :
    options.foldl MpSpec.readPart spec = { spec with options := spec.options ++ options } := by
  induction options generalizing spec with
  | nil => rw [List.append_nil]; rfl
  | cons option options ih =>
      have head : spec.readPart option = { spec with options := spec.options ++ [option] } := by
        rw [MpSpec.readPart, other option List.mem_cons_self]
        rfl
      rw [List.foldl_cons, head, ih fun o member => other o (List.mem_cons_of_mem option member),
        List.append_assoc]
      rfl

/-! ## The round trip -/

/-- An option that does not look like another part. -/
structure PlainOption (option : Text) : Prop where
  some : option ≠ []
  trimmed : trim option = option
  free : ',' ∉ option
  other : startsWith option "mp=" = false

theorem mpGuestPath_free_iff {path : Text} : ',' ∉ mpGuestPath path ↔ ',' ∉ path := by
  rw [mpGuestPath]
  split_ifs
  · exact Iff.rfl
  · rw [List.mem_cons, not_or]
    exact and_iff_right (by decide)

/-- The part that names the guest path is trimmed already. -/
theorem trim_mpGuestPath {path : Text} (given : path ≠ []) (trimmed : trim path = path) :
    trim (("mp=" : Text) ++ mpGuestPath path) = ("mp=" : Text) ++ mpGuestPath path := by
  obtain ⟨init, last, form⟩ := (List.eq_nil_or_concat path).resolve_left given
  rw [List.concat_eq_append] at form
  have mark : isSpace last = false := by
    by_contra space
    rw [Bool.not_eq_false] at space
    rw [form, trim_append_space init space] at trimmed
    have shorter : (trim init).length ≤ init.length := by
      rw [trim_eq]
      exact Nat.le_trans (List.rdropWhile_prefix isSpace _).length_le
        (List.dropWhile_suffix isSpace).length_le
    rw [trimmed, List.length_append, List.length_singleton] at shorter
    omega
  have ends : ∃ front, mpGuestPath path = front ++ [last] := by
    rw [mpGuestPath, form]
    split_ifs
    · exact ⟨init, rfl⟩
    · exact ⟨'/' :: init, rfl⟩
  obtain ⟨front, ends⟩ := ends
  apply trim_of_marks
  · intro c first
    cases first
    decide
  · intro c final
    rw [ends, ← List.append_assoc, List.getLast?_concat] at final
    cases final
    exact mark

/-- What is built is read back just if neither the volume nor the path holds a comma. -/
theorem parseMpSpec_buildMpSpec_iff {volume path : Text} {options : List Text}
    (volumeGiven : volume ≠ []) (volumeTrimmed : trim volume = volume) (pathGiven : path ≠ [])
    (pathTrimmed : trim path = path) (plain : ∀ option ∈ options, PlainOption option) :
    parseMpSpec (buildMpSpec volume path options) = ⟨volume, mpGuestPath path, options⟩ ↔
      ',' ∉ volume ∧ ',' ∉ path := by
  constructor
  · intro same
    have free := parseMpSpec_free (buildMpSpec volume path options)
    rw [same] at free
    exact ⟨free.1, mpGuestPath_free_iff.mp free.2⟩
  · rintro ⟨volumeFree, pathFree⟩
    have kept : options.filter (· ≠ []) = options := by
      rw [List.filter_eq_self]
      exact fun option member => decide_eq_true (plain option member).some
    have parts : specParts (buildMpSpec volume path options) =
        volume :: (("mp=" : Text) ++ mpGuestPath path) :: options := by
      rw [buildMpSpec, kept, volumeTrimmed]
      refine specParts_join (List.cons_ne_nil _ _) ?_
      intro part member
      rcases List.mem_cons.mp member with rfl | member
      · exact ⟨volumeGiven, volumeTrimmed, volumeFree⟩
      · rcases List.mem_cons.mp member with rfl | member
        · refine ⟨List.append_ne_nil_of_left_ne_nil (by decide) _,
            trim_mpGuestPath pathGiven pathTrimmed, ?_⟩
          rw [List.mem_append, not_or]
          exact ⟨by decide, mpGuestPath_free_iff.mpr pathFree⟩
        · have option := plain part member
          exact ⟨option.some, option.trimmed, option.free⟩
    rw [parseMpSpec, parts]
    show options.foldl MpSpec.readPart ⟨volume, mpGuestPath path, []⟩ = _
    rw [foldl_readPart_options fun option member => (plain option member).other]
    rfl

theorem plain_ro : PlainOption "ro=1" := ⟨by decide, by decide, by decide, by decide⟩

theorem plain_backup : PlainOption "backup=1" := ⟨by decide, by decide, by decide, by decide⟩

theorem MountForm.plain_options (form : MountForm) :
    ∀ option ∈ form.options, PlainOption option := by
  intro option member
  cases form with
  | bind bindHost bindGuest bindRo =>
      cases bindRo with
      | false => cases member
      | true => exact List.mem_singleton.mp member ▸ plain_ro
  | volume volStorage volGuest volBackup =>
      cases volBackup with
      | false => cases member
      | true => exact List.mem_singleton.mp member ▸ plain_backup

/-- What the form accepts is built from trimmed texts that are not empty. -/
theorem MountForm.spec_eq_some {form : MountForm} {value : Text} (added : form.spec = some value) :
    form.source ≠ [] ∧ form.guest ≠ [] ∧
      value = buildMpSpec form.source form.guest form.options := by
  cases form with
  | bind bindHost bindGuest bindRo =>
      rw [spec] at added
      split at added
      · cases added
      · rename_i refused
        rw [Bool.or_eq_true, not_or] at refused
        refine ⟨?_, fun none => refused.2 (decide_eq_true none), (Option.some.inj added).symm⟩
        intro none
        change trim bindHost = [] at none
        rw [none] at refused
        exact refused.1 (by decide)
  | volume volStorage volGuest volBackup =>
      rw [spec] at added
      split at added
      · cases added
      · rename_i refused
        rw [Bool.or_eq_true, not_or] at refused
        exact ⟨fun none => refused.1 (decide_eq_true none),
          fun none => refused.2 (decide_eq_true none), (Option.some.inj added).symm⟩

/-- A mount point that the form adds is read back as it was typed just if neither the volume or
host directory nor the guest path holds a comma. -/
theorem mountForm_roundTrip_iff {form : MountForm} {value : Text} (added : form.spec = some value) :
    parseMpSpec value = ⟨form.source, mpGuestPath form.guest, form.options⟩ ↔
      ',' ∉ form.source ∧ ',' ∉ form.guest := by
  obtain ⟨sourceGiven, guestGiven, rfl⟩ := MountForm.spec_eq_some added
  have trimmed : trim form.source = form.source ∧ trim form.guest = form.guest := by
    cases form <;> exact ⟨trim_trim _, trim_trim _⟩
  exact parseMpSpec_buildMpSpec_iff sourceGiven trimmed.1 guestGiven trimmed.2 form.plain_options

theorem mountForm_roundTrip_data :
    parseMpSpec "/srv/data,mp=/mnt/data,ro=1" = ⟨"/srv/data", "/mnt/data", ["ro=1"]⟩ :=
  (@mountForm_roundTrip_iff (.bind " /srv/data" "mnt/data" true) "/srv/data,mp=/mnt/data,ro=1"
    (by decide +kernel)).mpr (by decide +kernel)

/-- A guest path that switches the backup of the volume on. -/
theorem path_adds_option :
    (MountForm.volume "local-lvm:8" "/data,backup=1" false).spec =
        some ("local-lvm:8,mp=/data,backup=1" : Text) ∧
      parseMpSpec "local-lvm:8,mp=/data,backup=1" = ⟨"local-lvm:8", "/data", ["backup=1"]⟩ ∧
      ¬∀ (form : MountForm) (value : Text), form.spec = some value →
        parseMpSpec value = ⟨form.source, mpGuestPath form.guest, form.options⟩ := by
  refine ⟨by decide +kernel, by decide +kernel, fun all => ?_⟩
  have read := all (.volume "local-lvm:8" "/data,backup=1" false) "local-lvm:8,mp=/data,backup=1"
    (by decide +kernel)
  exact absurd (congrArg MpSpec.options read) (by decide +kernel)

end Proxora
