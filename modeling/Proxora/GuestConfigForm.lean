import Proxora.DiskSpecs
import Proxora.Ecma.Maps
import Proxora.ProxmoxHttp

/-!
# Saving a guest configuration

`save` of `components/guests/guest-config-form.tsx` with `toFormBody` of `server/proxmox/http.ts`:
what differs from the original configuration goes to Proxmox as resizes, as parameters and as a
list of keys to delete.

`saveExact_iff` says for which edits the configuration is what the form shows afterwards.
-/

namespace Proxora

open Ecma

/-! ## Keys and values of the form -/

def flagKeys : List Text :=
  ["onboot", "numa", "unprivileged", "protection", "tablet", "kvm", "acpi", "agent"]

def numberKeys : List Text :=
  ["cores", "sockets", "vcpus", "memory", "balloon", "swap", "cpuunits", "cpulimit", "shares",
    "onboot", "numa", "unprivileged", "protection", "tablet", "kvm", "acpi"]

def diskBuses : List Text :=
  ["scsi", "sata", "virtio", "ide", "efidisk", "tpmstate", "unused"]

/-- The name of a bus and digits. -/
def isIndexed (bus key : Text) : Bool :=
  startsWith key bus && key.drop bus.length ≠ [] && (key.drop bus.length).all Char.isDigit

def isDisk (key : Text) : Bool := diskBuses.any (isIndexed · key) || key = "rootfs"

/-- `/^-?\d+(\.\d+)?$/`. -/
def isNumeral (value : Text) : Bool :=
  isPlainDecimal (if value.head? = some '-' then value.tail else value)

/-- `Number(value)` for such a text. -/
def numeralNumber (value : Text) : Double :=
  if value.head? = some '-' then (numberOfDecimal value.tail).neg else numberOfDecimal value

def coerce (key value : Text) : Value :=
  if flagKeys.contains key && (value = "0" || value = "1") then .num (.finite value)
  else if numberKeys.contains key && value ≠ [] && isNumeral value then
    .num (numeralNumber value).num
  else .str value

/-! ## Saving -/

/-- What a field of the form comes to. -/
inductive FieldChange : Type
  | same
  | shrinks
  | grows (size reverted : Text)
  | sets (value : Value)

/-- One pass of the loop over the form. -/
def fieldChange (original : Option Text) (key value : Text) : FieldChange :=
  let before := original.getD []
  if original = some value then .same
  else if original = none && value = [] then .same
  else if isDisk key && before ≠ [] && canResizeDisk key value then
    match diskSizeDeltaGiB before value with
    | none => .sets (coerce key value)
    | some delta =>
        if delta.lt (.ofRat (mkRat (-1) 1000)) then .shrinks
        else if (Double.ofRat (mkRat 1 1000)).lt delta then
          match (parseDiskSpec value).sizeGiB with
          | none => .same
          | some nextSize =>
              .grows (formatDiskGiB nextSize)
                ((parseDiskSpec before).sizeGiB.elim before (setDiskSize value))
        else .sets (coerce key value)
  else .sets (coerce key value)

/-- The property of the payload for a field. -/
def payloadEntry (original : Record Text) (entry : Text × Text) : Option (Text × Value) :=
  match fieldChange (original.get? entry.1) entry.1 entry.2 with
  | .sets value => some (entry.1, value)
  | .grows _ reverted =>
      if reverted ≠ (original.get? entry.1).getD [] then some (entry.1, coerce entry.1 reverted)
      else none
  | _ => none

def resizeEntry (original : Record Text) (entry : Text × Text) : Option (Text × Text) :=
  match fieldChange (original.get? entry.1) entry.1 entry.2 with
  | .grows size _ => some (entry.1, size)
  | _ => none

def isShrink : FieldChange → Bool
  | .shrinks => true
  | _ => false

/-- The keys of the original that the form does not have. -/
def removedKeys (original form : Record Text) : List Text :=
  (original.entries.map Prod.fst).filter fun key => (form.get? key).isNone

theorem payloadEntry_fst {original : Record Text} {entry : Text × Text} {sent : Text × Value}
    (made : payloadEntry original entry = some sent) : sent.1 = entry.1 := by
  rw [payloadEntry] at made
  split at made
  · cases made
    rfl
  · split_ifs at made
    cases made
    rfl
  · cases made

theorem map_fst_filterMap_sublist {α β : Type} {f : Text × α → Option (Text × β)}
    (names : ∀ {entry sent}, f entry = some sent → sent.1 = entry.1) (entries : List (Text × α)) :
    ((entries.filterMap f).map Prod.fst).Sublist (entries.map Prod.fst) := by
  induction entries with
  | nil => exact List.Sublist.refl _
  | cons entry entries ih =>
      rw [List.filterMap_cons]
      cases made : f entry with
      | none => exact ih.cons _
      | some sent =>
          rw [List.map_cons, List.map_cons, names made]
          exact ih.cons_cons _

/-- The fields that are set, and the list of the keys that are removed. -/
def payloadOf (original form : Record Text) : Record Value :=
  let fields : Record Value :=
    { entries := form.entries.filterMap (payloadEntry original)
      nodup := form.nodup.sublist (map_fst_filterMap_sublist payloadEntry_fst form.entries) }
  let deleted := removedKeys original form
  if deleted ≠ [] then fields.set "delete" (.str (join ',' deleted)) else fields

inductive SaveOutcome : Type
  | diskShrink
  | noChanges
  | diskResizeUnsupported
  | sent (resizes : List (Text × Text)) (payload : Record Value)

/-- `onResize` is whether the form was given a way to resize disks. -/
def save (onResize : Bool) (original form : Record Text) : SaveOutcome :=
  let resizes := form.entries.filterMap (resizeEntry original)
  let payload := payloadOf original form
  if form.entries.any fun entry => isShrink (fieldChange (original.get? entry.1) entry.1 entry.2) then
    .diskShrink
  else if resizes = [] && payload.entries = [] then .noChanges
  else if resizes ≠ [] && !onResize then .diskResizeUnsupported
  else .sent resizes payload

/-! ## What Proxmox makes of it -/

/-- The values of a configuration. -/
abbrev GuestConfig : Type := Text → Option Text

/-- The first size among the options becomes the given one; without one it is added. -/
def replaceSize (size : Text) : List Text → List Text
  | [] => [("size=" : Text) ++ size]
  | part :: parts =>
      if isSizePart (trim part) then (("size=" : Text) ++ size) :: parts
      else part :: replaceSize size parts

/-- A disk with its new size. -/
def withSize (size value : Text) : Text :=
  match split ',' value with
  | [] => value
  | volume :: options => join ',' (volume :: replaceSize size options)

/-- `PUT .../resize` for a disk of the configuration. -/
def resizeDisk (config : GuestConfig) (resize : Text × Text) : GuestConfig := fun key =>
  if key = resize.1 then (config key).map (withSize resize.2) else config key

def isListSeparator (c : Char) : Bool := c = ',' || c = ';' || isSpace c

/-- The names of a list: what stands between commas, semicolons and white space. -/
def configNames (list : Text) : List Text :=
  (split ' ' (list.map fun c => if isListSeparator c then ' ' else c)).filter (· ≠ [])

/-- `PUT .../config`: the parameters set keys, but for `delete`, whose keys are removed. -/
def updateConfig (params : Params) (config : GuestConfig) : GuestConfig := fun key =>
  if key ∈ configNames ((params.lookup ("delete" : Text)).getD []) then none
  else if key = "delete" then config key
  else (params.lookup key).or (config key)

/-- The configuration after a save; `none` where the form reports an error. -/
def SaveOutcome.applied (outcome : SaveOutcome) (config : GuestConfig) : Option GuestConfig :=
  match outcome with
  | .diskShrink | .diskResizeUnsupported => none
  | .noChanges => some config
  | .sent resizes payload =>
      let resized := resizes.foldl resizeDisk config
      if payload.entries = [] then some resized
      else
        let body := (toFormBody (some payload)).getD []
        some (updateConfig (Params.parse body) resized)

/-- The value that is shown: an empty field is none. -/
def shown (config : GuestConfig) (key : Text) : Option Text := (config key).filter (· ≠ [])

/-- After a save that reports no error every key has the value that the form shows. -/
def SaveExact (onResize : Bool) (original form : Record Text) : Prop :=
  ∀ config, (save onResize original form).applied original.get? = some config →
    ∀ key, shown config key = shown form.get? key

/-! ## The condition -/

/-- The sizes before and after, where the disk of the key is grown. -/
def grownSizes (original : Option Text) (key value : Text) : Option (Double × Double) :=
  let before := original.getD []
  if isDisk key && before ≠ [] && canResizeDisk key value then
    match (parseDiskSpec before).sizeGiB, (parseDiskSpec value).sizeGiB with
    | some previous, some next =>
        if (Double.ofRat (mkRat 1 1000)).lt (next.sub previous) then some (previous, next) else none
    | _, _ => none
  else none

/-- A number keeps its text; a grown disk has its size behind the volume, in the form in which it
is written, and differs from the original in its size alone. (Beyond the precision of doubles the
size may also be that of the original, rounded.) -/
def Lands (original : Option Text) (key value : Text) : Prop :=
  match grownSizes original key value with
  | none => (coerce key value).toText = value
  | some (previous, next) =>
      if setDiskSize value previous = original.getD [] then setDiskSize value next = value
      else setDiskSize value previous = value

/-- The names that Proxmox reads from the list of the removed keys. -/
def deleteList (original form : Record Text) : List Text :=
  configNames (join ',' (removedKeys original form))

/-- A form that is saved as it is shown. -/
structure SavedAsShown (original form : Record Text) : Prop where
  removed : ∀ key, shown original.get? key ≠ none → shown form.get? key = none →
    key ∈ deleteList original form
  kept : ∀ key ∈ deleteList original form, shown form.get? key = none
  options : form.get? "delete" = original.get? "delete" ∨ shown form.get? "delete" = none
  values : ∀ key value, form.get? key = some value → value ≠ [] → original.get? key ≠ some value →
    Lands (original.get? key) key value

/-- A disk is shrunk, or one is grown in a form that cannot resize disks. -/
def SaveRefused (onResize : Bool) (original form : Record Text) : Prop :=
  (∃ key value, form.get? key = some value ∧
    isShrink (fieldChange (original.get? key) key value) = true) ∨
    onResize = false ∧ ∃ key value, form.get? key = some value ∧
      (resizeEntry original (key, value)).isSome = true

/-! ## Lookups -/

section

variable {α β : Type}

/-- What a lookup finds among the entries that are kept and changed. -/
theorem lookup_filterMap_entries {f : Text × α → Option (Text × β)}
    (names : ∀ {entry sent}, f entry = some sent → sent.1 = entry.1)
    {entries : List (Text × α)} (nodup : (entries.map Prod.fst).Nodup) (key : Text) :
    (entries.filterMap f).lookup key =
      (entries.lookup key).bind fun value => (f (key, value)).map Prod.snd := by
  induction entries with
  | nil => rfl
  | cons entry entries ih =>
      obtain ⟨name, value⟩ := entry
      rw [List.map_cons, List.nodup_cons] at nodup
      rw [List.filterMap_cons, List.lookup_cons]
      by_cases same : key = name
      · subst same
        have absent : (entries.filterMap f).lookup key = none := by
          rw [ih nodup.2, lookup_eq_none_of_notMem nodup.1]
          rfl
        rw [beq_self_eq_true]
        cases made : f (key, value) with
        | none =>
            rw [Option.bind_some, made]
            exact absent
        | some sent =>
            obtain ⟨other, result⟩ := sent
            have same : other = key := names made
            rw [Option.bind_some, made, same]
            exact List.lookup_cons_self
      · have other : (key == name) = false := beq_eq_false_iff_ne.mpr same
        rw [other]
        cases made : f (name, value) with
        | none => exact ih nodup.2
        | some sent =>
            have different : (key == sent.1) = false := by
              rw [names made]
              exact other
            dsimp only
            rw [List.lookup_cons, different]
            exact ih nodup.2

end

theorem lookup_filter_name {params : Params} {key k : Text} (other : k ≠ key) :
    (params.filter fun entry => entry.1 ≠ key).lookup k = params.lookup k := by
  induction params with
  | nil => rfl
  | cons entry params ih =>
      obtain ⟨name, v⟩ := entry
      rw [List.filter_cons, List.lookup_cons]
      by_cases here : name = key
      · have different : (k == name) = false := beq_eq_false_iff_ne.mpr (here ▸ other)
        rw [if_neg (by simp [here]), different]
        exact ih
      · rw [if_pos (by simp [here]), List.lookup_cons, ih]

theorem lookup_paramsSet (params : Params) (key value k : Text) :
    (Params.set params key value).lookup k = if k = key then some value else params.lookup k := by
  induction params with
  | nil =>
      rw [Params.set, List.lookup_cons]
      by_cases same : k = key
      · simp [same]
      · simp [same, beq_eq_false_iff_ne.mpr same]
  | cons entry params ih =>
      obtain ⟨name, v⟩ := entry
      rw [Params.set]
      by_cases here : name = key
      · rw [if_pos here, List.lookup_cons, List.lookup_cons]
        by_cases same : k = key
        · simp [same]
        · have other : (k == name) = false := beq_eq_false_iff_ne.mpr (here ▸ same)
          rw [beq_eq_false_iff_ne.mpr same, other, if_neg same]
          exact lookup_filter_name same
      · rw [if_neg here, List.lookup_cons, List.lookup_cons, ih]
        by_cases same : k = name
        · simp [same, here]
        · simp [beq_eq_false_iff_ne.mpr same]

/-- What is sent for a property that is no list. -/
def sentText (value : Value) : Option Text :=
  if value.isNullish then none
  else
    match value with
    | .str [] => none
    | value => some value.toText

theorem lookup_addFormEntry {params : Params} {key : Text} {value : Value}
    (single : ∀ items, value ≠ .arr items) (k : Text) :
    (addFormEntry params key value).lookup k =
      if k = key then (sentText value).or (params.lookup k) else params.lookup k := by
  have sent (text : Text) : (Params.set params key text).lookup k =
      if k = key then (some text).or (params.lookup k) else params.lookup k := by
    rw [lookup_paramsSet, Option.some_or]
  have unsent : params.lookup k =
      if k = key then none.or (params.lookup k) else params.lookup k := by
    rw [Option.none_or, ite_self]
  cases value with
  | undefined => exact unsent
  | null => exact unsent
  | bool b => exact sent _
  | num n => exact sent _
  | obj => exact sent _
  | arr items => exact absurd rfl (single items)
  | str s =>
      cases s with
      | nil => exact unsent
      | cons c s => exact sent _

/-- The parameter of a name is the one of the property, when it is sent. -/
theorem lookup_formParams {body : Record Value}
    (single : ∀ entry ∈ body.entries, ∀ items, entry.2 ≠ .arr items) (key : Text) :
    (formParams body).lookup key = (body.get? key).bind sentText := by
  have general : ∀ (entries : List (Text × Value)) (params : Params),
      (entries.map Prod.fst).Nodup → (∀ entry ∈ entries, ∀ items, entry.2 ≠ .arr items) →
      (entries.foldl (fun params entry => addFormEntry params entry.1 entry.2) params).lookup key =
        ((entries.lookup key).bind sentText).or (params.lookup key) := by
    intro entries
    induction entries with
    | nil =>
        intro params _ _
        rfl
    | cons entry entries ih =>
        intro params nodup single
        rw [List.map_cons, List.nodup_cons] at nodup
        rw [List.foldl_cons, ih _ nodup.2 fun entry listed =>
          single entry (List.mem_cons_of_mem _ listed)]
        rw [lookup_addFormEntry (single entry List.mem_cons_self), List.lookup_cons]
        by_cases same : key = entry.1
        · subst same
          rw [if_pos rfl, beq_self_eq_true, lookup_eq_none_of_notMem nodup.1]
          rfl
        · rw [if_neg same, beq_eq_false_iff_ne.mpr same]
  rw [formParams, general body.entries [] body.nodup single]
  exact Option.or_none

/-- Every disk that is resized gets its new size. -/
theorem lookup_resizes {resizes : List (Text × Text)} (nodup : (resizes.map Prod.fst).Nodup)
    (config : GuestConfig) (key : Text) :
    resizes.foldl resizeDisk config key =
      match resizes.lookup key with
      | some size => (config key).map (withSize size)
      | none => config key := by
  induction resizes generalizing config with
  | nil => rfl
  | cons resize resizes ih =>
      rw [List.map_cons, List.nodup_cons] at nodup
      rw [List.foldl_cons, ih nodup.2, List.lookup_cons, resizeDisk]
      by_cases same : key = resize.1
      · subst same
        rw [lookup_eq_none_of_notMem nodup.1, if_pos rfl, beq_self_eq_true]
      · rw [if_neg same, beq_eq_false_iff_ne.mpr same]

/-! ## Disks -/

theorem isNumberChar_facts : ∀ c, isNumberChar c = true → c ≠ ',' ∧ isSpace c = false := by
  intro c fine
  refine ⟨?_, ?_⟩
  · rintro rfl
    exact absurd fine (by decide)
  · simp only [isNumberChar, Bool.or_eq_true, decide_eq_true_eq] at fine
    rcases fine with ((letter | rfl) | rfl) | rfl
    · rw [Char.isAlphanum, Bool.or_eq_true] at letter
      rcases letter with alpha | digit
      · exact isSpace_of_isAlpha alpha
      · exact isSpace_of_isDigit digit
    · decide
    · decide
    · decide

/-- A size is written without commas and white space. -/
theorem chars_formatDiskGiB (size : Double) :
    ∀ c ∈ formatDiskGiB size, c ≠ ',' ∧ isSpace c = false := by
  intro c inside
  rw [formatDiskGiB] at inside
  rcases List.mem_append.mp inside with number | last
  · exact isNumberChar_facts c (Double.chars_text _ c number)
  · rw [List.mem_singleton.mp last]
    decide

/-- The parts of a sized text are free of commas. -/
theorem comma_notMem_sizedParts {raw size : Text} (free : ',' ∉ size) :
    ∀ part ∈ sizedParts raw size, ',' ∉ part := by
  have tail : ∀ part ∈ (specParts raw).tail, ',' ∉ part :=
    fun part listed => sep_notMem_of_mem_specParts (List.mem_of_mem_tail listed)
  intro part listed
  rw [sizedParts, List.mem_cons, List.mem_cons] at listed
  rcases listed with rfl | rfl | listed
  · rw [parseDiskSpec]
    cases parts : specParts raw with
    | nil => exact List.not_mem_nil
    | cons volume rest =>
        exact sep_notMem_of_mem_specParts (parts ▸ List.mem_cons_self)
  · rw [List.mem_append, not_or]
    exact ⟨by decide, free⟩
  · exact tail part (List.mem_filter.mp listed).1

theorem split_setDiskSize (raw : Text) (size : Double) :
    split ',' (setDiskSize raw size) = sizedParts raw (formatDiskGiB size) :=
  split_join (List.cons_ne_nil _ _) <|
    comma_notMem_sizedParts fun inside => (chars_formatDiskGiB size _ inside).1 rfl

/-- `size=` and a size is an option with a size. -/
theorem isSizePart_size (size : Double) :
    isSizePart (trim (("size=" : Text) ++ formatDiskGiB size)) = true := by
  have bare : trim (("size=" : Text) ++ formatDiskGiB size) = ("size=" : Text) ++ formatDiskGiB size := by
    refine trim_of_notSpace fun c inside => ?_
    rcases List.mem_append.mp inside with front | back
    · have letters : ("size=" : Text).all (!isSpace ·) = true := by decide
      simpa using List.all_eq_true.mp letters c front
    · exact (chars_formatDiskGiB size c back).2
  rw [bare, isSizePart, startsWith, toLowerCase, List.flatMap_append]
  exact List.isPrefixOf_iff_prefix.mpr (List.prefix_append _ _)

/-- A text that was sized is sized again. -/
theorem withSize_setDiskSize (raw : Text) (previous next : Double) :
    withSize (formatDiskGiB next) (setDiskSize raw previous) = setDiskSize raw next := by
  rw [withSize, split_setDiskSize, sizedParts]
  dsimp only
  rw [replaceSize, if_pos (isSizePart_size previous)]
  rfl

theorem isDisk_of_coerced : ∀ key ∈ flagKeys ++ numberKeys, isDisk key = false := by
  decide

/-- The text of a disk is sent as it is. -/
theorem coerce_of_isDisk {key : Text} (disk : isDisk key = true) (value : Text) :
    coerce key value = .str value := by
  have flag : flagKeys.contains key = false := by
    refine Bool.eq_false_iff.mpr fun flag => ?_
    have listed := List.mem_append_left numberKeys (List.contains_iff_mem.mp flag)
    rw [isDisk_of_coerced key listed] at disk
    cases disk
  have number : numberKeys.contains key = false := by
    refine Bool.eq_false_iff.mpr fun number => ?_
    have listed := List.mem_append_right flagKeys (List.contains_iff_mem.mp number)
    rw [isDisk_of_coerced key listed] at disk
    cases disk
  rw [coerce, flag, number]
  rfl

theorem setDiskSize_ne_nil (raw : Text) (size : Double) : setDiskSize raw size ≠ [] := by
  intro nothing
  have parts := split_setDiskSize raw size
  rw [nothing] at parts
  exact absurd (congrArg List.length parts) (by simp [split, sizedParts])

/-! ## Fields -/

section

variable {original : Option Text} {key value : Text}

theorem fieldChange_same : fieldChange (some value) key value = .same := if_pos rfl

theorem fieldChange_none : fieldChange none key [] = .same := by
  rw [fieldChange, if_neg (by simp)]
  rfl

theorem sizeGiB_nil : (parseDiskSpec []).sizeGiB = none := by decide

/-- An emptied field is set to the empty text. -/
theorem fieldChange_emptied (given : original ≠ none) (other : original ≠ some []) :
    fieldChange original key [] = .sets (.str []) := by
  have fixed : canResizeDisk key [] = false := by
    rw [canResizeDisk, sizeGiB_nil]
    split_ifs <;> rfl
  have kept : coerce key [] = .str [] := by
    rw [coerce]
    simp
  rw [fieldChange, if_neg other, if_neg (by simp [given]), fixed, Bool.and_false,
    if_neg Bool.false_ne_true, kept]

/-- Other fields are set, or a disk is grown. -/
theorem fieldChange_changed (changed : original ≠ some value) (given : value ≠ [])
    (wide : isShrink (fieldChange original key value) = false) :
    fieldChange original key value =
      match grownSizes original key value with
      | none => .sets (coerce key value)
      | some (previous, next) => .grows (formatDiskGiB next) (setDiskSize value previous) := by
  rw [fieldChange] at wide ⊢
  rw [grownSizes]
  rw [if_neg changed, if_neg (by simp [given])] at wide ⊢
  by_cases resizable : (isDisk key && decide (original.getD [] ≠ []) && canResizeDisk key value) = true
  · rw [if_pos resizable] at wide ⊢
    rw [if_pos resizable, diskSizeDeltaGiB] at *
    cases before : (parseDiskSpec (original.getD [])).sizeGiB with
    | none => rfl
    | some previous =>
        cases after : (parseDiskSpec value).sizeGiB with
        | none => rfl
        | some next =>
            rw [before, after] at wide
            dsimp only at wide ⊢
            by_cases shrinks :
                (next.sub previous).lt (Double.ofRat (mkRat (-1) 1000)) = true
            · rw [if_pos shrinks] at wide
              cases wide
            · rw [if_neg shrinks]
              by_cases grows : (Double.ofRat (mkRat 1 1000)).lt (next.sub previous) = true
              · rw [if_pos grows, if_pos grows]
                rfl
              · rw [if_neg grows, if_neg grows]
  · rw [if_neg resizable, if_neg resizable]

end

/-! ## The configuration after a save -/

section

variable {original form : Record Text} {key value : Text}

/-- The configuration after the resizes and the update. -/
def savedConfig (original form : Record Text) : GuestConfig :=
  updateConfig (formParams (payloadOf original form))
    ((form.entries.filterMap (resizeEntry original)).foldl resizeDisk original.get?)

theorem updateConfig_nil (config : GuestConfig) : updateConfig [] config = config := by
  funext key
  have nothing : key ∉ configNames ((List.lookup ("delete" : Text) ([] : Params)).getD []) := by
    decide +revert
  rw [updateConfig, if_neg nothing]
  split_ifs <;> rfl

/-- A save that is not refused leaves the saved configuration. -/
theorem applied_save (onResize : Bool) (original form : Record Text) :
    (¬SaveRefused onResize original form ∧
        (save onResize original form).applied original.get? = some (savedConfig original form)) ∨
      (SaveRefused onResize original form ∧
        (save onResize original form).applied original.get? = none) := by
  have resizing : form.entries.filterMap (resizeEntry original) = [] ↔
      ¬∃ key value, form.get? key = some value ∧
        (resizeEntry original (key, value)).isSome = true := by
    rw [List.filterMap_eq_nil_iff]
    constructor
    · rintro none ⟨key, value, found, grown⟩
      rw [none _ (Record.get?_eq_some_iff.mp found)] at grown
      cases grown
    · intro none entry listed
      by_contra grown
      exact none ⟨entry.1, entry.2, Record.get?_eq_some_iff.mpr listed, Option.isSome_iff_ne_none.mpr grown⟩
  have shrinking : (form.entries.any fun entry =>
      isShrink (fieldChange (original.get? entry.1) entry.1 entry.2)) = true ↔
      ∃ key value, form.get? key = some value ∧
        isShrink (fieldChange (original.get? key) key value) = true := by
    rw [List.any_eq_true]
    constructor
    · rintro ⟨entry, listed, shrinks⟩
      exact ⟨entry.1, entry.2, Record.get?_eq_some_iff.mpr listed, shrinks⟩
    · rintro ⟨key, value, found, shrinks⟩
      exact ⟨(key, value), Record.get?_eq_some_iff.mp found, shrinks⟩
  rw [SaveRefused, ← shrinking, save]
  by_cases shrinks : (form.entries.any fun entry =>
      isShrink (fieldChange (original.get? entry.1) entry.1 entry.2)) = true
  · rw [if_pos shrinks]
    exact .inr ⟨.inl shrinks, rfl⟩
  · rw [if_neg shrinks]
    by_cases nothing : (decide (form.entries.filterMap (resizeEntry original) = []) &&
        decide ((payloadOf original form).entries = [])) = true
    · rw [if_pos nothing]
      rw [Bool.and_eq_true, decide_eq_true_eq, decide_eq_true_eq] at nothing
      refine .inl ⟨?_, ?_⟩
      · rintro (shrunk | ⟨-, grown⟩)
        · exact shrinks shrunk
        · exact resizing.mp nothing.1 grown
      · rw [savedConfig, nothing.1, formParams, nothing.2]
        exact congrArg some (updateConfig_nil _).symm
    · rw [if_neg nothing]
      by_cases unsupported : (decide (form.entries.filterMap (resizeEntry original) ≠ []) &&
          !onResize) = true
      · rw [if_pos unsupported]
        rw [Bool.and_eq_true, decide_eq_true_eq, Bool.not_eq_true'] at unsupported
        refine .inr ⟨.inr ⟨unsupported.2, ?_⟩, rfl⟩
        by_contra none
        exact unsupported.1 (resizing.mpr none)
      · rw [if_neg unsupported]
        refine .inl ⟨?_, ?_⟩
        · rintro (shrunk | ⟨off, grown⟩)
          · exact shrinks shrunk
          · refine unsupported ?_
            rw [off, Bool.not_false, Bool.and_true, decide_eq_true_eq]
            exact fun none => resizing.mp none grown
        · rw [SaveOutcome.applied]
          by_cases empty : (payloadOf original form).entries = []
          · rw [if_pos empty, savedConfig, formParams, empty]
            exact congrArg some (updateConfig_nil _).symm
          · rw [if_neg empty, savedConfig, toFormBody, Option.map_some, Option.getD_some]
            dsimp only
            rw [Params.parse_serialize]

theorem mem_setEntry {α : Type} {entries : List (Text × α)} {name : Text} {given : α}
    {entry : Text × α} (listed : entry ∈ setEntry entries name given) :
    entry ∈ entries ∨ entry = (name, given) := by
  induction entries with
  | nil => exact .inr (List.mem_singleton.mp listed)
  | cons next entries ih =>
      obtain ⟨k, v⟩ := next
      rw [setEntry] at listed
      split_ifs at listed
      · rcases List.mem_cons.mp listed with same | listed
        · exact .inr same
        · exact .inl (List.mem_cons_of_mem _ listed)
      · rcases List.mem_cons.mp listed with same | listed
        · exact .inl (same ▸ List.mem_cons_self)
        · exact (ih listed).imp_left (List.mem_cons_of_mem _)

theorem coerce_single (key value : Text) : ∀ items, coerce key value ≠ .arr items := by
  intro items
  rw [coerce]
  split_ifs <;> exact Value.noConfusion

theorem fieldChange_sets_single {original : Option Text} {sent : Value}
    (sets : fieldChange original key value = .sets sent) : sent = coerce key value := by
  rw [fieldChange] at sets
  split_ifs at sets
  · split at sets
    · cases sets
      rfl
    · split_ifs at sets
      · split at sets
        · cases sets
        · cases sets
      · cases sets
        rfl
  · cases sets
    rfl

/-- A field that is as it was, or empty, sends nothing. -/
theorem field_unsent (given : original.get? key = some value ∨ value = []) :
    ((payloadEntry original (key, value)).map Prod.snd).bind sentText = none ∧
      resizeEntry original (key, value) = none := by
  have same (change : fieldChange (original.get? key) key value = .same) :
      ((payloadEntry original (key, value)).map Prod.snd).bind sentText = none ∧
        resizeEntry original (key, value) = none := by
    rw [payloadEntry, resizeEntry, change]
    exact ⟨rfl, rfl⟩
  rcases given with unchanged | rfl
  · refine same ?_
    rw [unchanged]
    exact fieldChange_same
  · cases before : original.get? key with
    | none =>
        refine same ?_
        rw [before]
        exact fieldChange_none
    | some text =>
        by_cases empty : text = []
        · refine same ?_
          rw [before, empty]
          exact fieldChange_same
        · have change : fieldChange (original.get? key) key [] = .sets (.str []) := by
            rw [before]
            exact fieldChange_emptied (Option.some_ne_none _) fun same => empty (Option.some.inj same)
          rw [payloadEntry, resizeEntry, change]
          exact ⟨rfl, rfl⟩

/-- No property of the payload is a list. -/
theorem payload_single (original form : Record Text) :
    ∀ entry ∈ (payloadOf original form).entries, ∀ items, entry.2 ≠ .arr items := by
  have fields : ∀ entry ∈ form.entries.filterMap (payloadEntry original),
      ∀ items, entry.2 ≠ Value.arr items := by
    intro entry listed
    obtain ⟨field, -, made⟩ := List.mem_filterMap.mp listed
    rw [payloadEntry] at made
    split at made
    · rename_i sent sets
      cases made
      rw [fieldChange_sets_single sets]
      exact coerce_single _ _
    · split_ifs at made
      cases made
      exact coerce_single _ _
    · cases made
  rw [payloadOf]
  split_ifs
  · intro entry listed
    rcases mem_setEntry listed with listed | rfl
    · exact fields entry listed
    · exact fun _ => Value.noConfusion
  · exact fields

/-- A parameter other than `delete` comes from the field of its name. -/
theorem lookup_params (other : key ≠ "delete") :
    (formParams (payloadOf original form)).lookup key =
      (form.get? key).bind fun value =>
        ((payloadEntry original (key, value)).map Prod.snd).bind sentText := by
  have fields : (form.entries.filterMap (payloadEntry original)).lookup key =
      (form.get? key).bind fun value => (payloadEntry original (key, value)).map Prod.snd :=
    lookup_filterMap_entries payloadEntry_fst form.nodup key
  have payload : (payloadOf original form).get? key =
      (form.get? key).bind fun value => (payloadEntry original (key, value)).map Prod.snd := by
    rw [← fields, payloadOf]
    split_ifs
    · rw [Record.get?, Record.set, lookup_setEntry, if_neg other]
    · rfl
  rw [lookup_formParams (payload_single original form), payload, Option.bind_assoc]

/-- The parameter `delete` has the removed keys, when no field of that name is changed. -/
theorem names_params
    (options : form.get? "delete" = original.get? "delete" ∨ shown form.get? "delete" = none) :
    configNames (((formParams (payloadOf original form)).lookup ("delete" : Text)).getD []) =
      deleteList original form := by
  rw [lookup_formParams (payload_single original form), deleteList, payloadOf]
  by_cases removed : removedKeys original form ≠ []
  · rw [if_pos removed, Record.get?, Record.set, lookup_setEntry, if_pos rfl, Option.bind_some]
    cases list : join ',' (removedKeys original form) with
    | nil => rfl
    | cons c rest => rfl
  · have unsent : (List.lookup ("delete" : Text)
        (form.entries.filterMap (payloadEntry original))).bind sentText = none := by
      have fields : (form.entries.filterMap (payloadEntry original)).lookup ("delete" : Text) =
          (form.get? "delete").bind fun value =>
            (payloadEntry original ("delete", value)).map Prod.snd :=
        lookup_filterMap_entries payloadEntry_fst form.nodup "delete"
      rw [fields]
      cases found : form.get? "delete" with
      | none => rfl
      | some value =>
          refine (field_unsent ?_).1
          rcases options with same | empty
          · exact .inl (same.symm.trans found)
          · rw [shown, found] at empty
            exact .inr (by simpa [Option.filter] using empty)
    rw [if_neg removed, not_not.mp removed, Record.get?, unsent]
    rfl

theorem sentText_coerce (given : value ≠ []) :
    sentText (coerce key value) = some (coerce key value).toText := by
  rw [coerce]
  split_ifs
  · rfl
  · rfl
  · cases value with
    | nil => exact absurd rfl given
    | cons c rest => rfl

theorem resizeEntry_fst {entry : Text × Text} {resize : Text × Text}
    (made : resizeEntry original entry = some resize) : resize.1 = entry.1 := by
  rw [resizeEntry] at made
  split at made
  · cases made
    rfl
  · cases made

/-- The size of a field that is resized. -/
def resizedTo (original : Record Text) (key value : Text) : Option Text :=
  (resizeEntry original (key, value)).map Prod.snd

/-- The value of a key after the resizes. -/
theorem resized_config (key : Text) :
    (form.entries.filterMap (resizeEntry original)).foldl resizeDisk original.get? key =
      match (form.get? key).bind (resizedTo original key) with
      | some size => (original.get? key).map (withSize size)
      | none => original.get? key := by
  have nodup : ((form.entries.filterMap (resizeEntry original)).map Prod.fst).Nodup :=
    form.nodup.sublist (map_fst_filterMap_sublist resizeEntry_fst form.entries)
  rw [lookup_resizes nodup, lookup_filterMap_entries resizeEntry_fst form.nodup]
  rfl

/-- A disk that is grown was a disk with a text. -/
theorem grownSizes_eq_some {original : Option Text} {sizes : Double × Double}
    (grown : grownSizes original key value = some sizes) :
    isDisk key = true ∧ ∃ before, original = some before := by
  rw [grownSizes] at grown
  split at grown
  · rename_i disk
    rw [Bool.and_eq_true, Bool.and_eq_true, decide_eq_true_eq] at disk
    refine ⟨disk.1.1, ?_⟩
    cases original with
    | none => exact absurd rfl disk.1.2
    | some before => exact ⟨before, rfl⟩
  · cases grown

/-- What a changed field leaves is the value of the form just if it lands there. -/
theorem changed_field (changed : original.get? key ≠ some value) (given : value ≠ [])
    (wide : isShrink (fieldChange (original.get? key) key value) = false) :
    ∃ result, (((payloadEntry original (key, value)).map Prod.snd).bind sentText).or
        (match resizedTo original key value with
        | some size => (original.get? key).map (withSize size)
        | none => original.get? key) = some result ∧
      (result = value ↔ Lands (original.get? key) key value) := by
  have change := fieldChange_changed changed given wide
  rw [resizedTo, payloadEntry, resizeEntry, Lands, change]
  cases grown : grownSizes (original.get? key) key value with
  | none =>
      refine ⟨(coerce key value).toText, ?_, Iff.rfl⟩
      dsimp only
      rw [Option.map_some, Option.bind_some, sentText_coerce given, Option.some_or]
  | some sizes =>
      obtain ⟨previous, next⟩ := sizes
      obtain ⟨disk, before, text⟩ := grownSizes_eq_some grown
      rw [text]
      dsimp only
      rw [Option.getD_some]
      by_cases same : setDiskSize value previous = before
      · refine ⟨setDiskSize value next, ?_, by rw [if_pos same]⟩
        rw [if_neg (not_not.mpr same), ← withSize_setDiskSize value previous next, same]
        rfl
      · refine ⟨setDiskSize value previous, ?_, by rw [if_neg same]⟩
        rw [if_pos same, Option.map_some, Option.bind_some,
          sentText_coerce (setDiskSize_ne_nil value previous), coerce_of_isDisk disk,
          Option.some_or]
        rfl

theorem shown_eq_none_iff {config : GuestConfig} :
    shown config key = none ↔ config key = none ∨ config key = some [] := by
  rw [shown]
  cases config key with
  | none => simp
  | some text => simp [Option.filter]

theorem shown_some {config : GuestConfig} (found : config key = some value) (given : value ≠ []) :
    shown config key = some value := by
  rw [shown, found]
  simp [Option.filter, given]

/-- The value of a key in the saved configuration. -/
theorem savedConfig_apply
    (options : form.get? "delete" = original.get? "delete" ∨ shown form.get? "delete" = none)
    (key : Text) :
    savedConfig original form key =
      if key ∈ deleteList original form then none
      else if key = "delete" then
        match (form.get? key).bind (resizedTo original key) with
        | some size => (original.get? key).map (withSize size)
        | none => original.get? key
      else
        ((form.get? key).bind fun value =>
          ((payloadEntry original (key, value)).map Prod.snd).bind sentText).or
        (match (form.get? key).bind (resizedTo original key) with
        | some size => (original.get? key).map (withSize size)
        | none => original.get? key) := by
  rw [savedConfig, updateConfig, names_params options, resized_config]
  by_cases listed : key ∈ deleteList original form
  · rw [if_pos listed, if_pos listed]
  · rw [if_neg listed, if_neg listed]
    by_cases named : key = "delete"
    · rw [if_pos named, if_pos named]
    · rw [if_neg named, if_neg named, lookup_params named]

/-- A field that sends nothing leaves what was there, unless its key is in the list. -/
theorem savedConfig_unsent
    (options : form.get? "delete" = original.get? "delete" ∨ shown form.get? "delete" = none)
    (given : ∀ value, form.get? key = some value → original.get? key = some value ∨ value = []) :
    savedConfig original form key =
      if key ∈ deleteList original form then none else original.get? key := by
  have sent : ((form.get? key).bind fun value =>
      ((payloadEntry original (key, value)).map Prod.snd).bind sentText) = none := by
    cases found : form.get? key with
    | none => rfl
    | some value => exact (field_unsent (given value found)).1
  have resized : (form.get? key).bind (resizedTo original key) = none := by
    cases found : form.get? key with
    | none => rfl
    | some value => exact congrArg (Option.map Prod.snd) (field_unsent (given value found)).2
  rw [savedConfig_apply options, sent, resized, Option.none_or, ite_self]

/-- A key is shown as the form has it just if it is removed when it is empty, kept when it is not,
and lands where it is changed. -/
theorem shown_saved_iff
    (options : form.get? "delete" = original.get? "delete" ∨ shown form.get? "delete" = none)
    (wide : ∀ value, form.get? key = some value →
      isShrink (fieldChange (original.get? key) key value) = false) :
    shown (savedConfig original form) key = shown form.get? key ↔
      (shown original.get? key ≠ none → shown form.get? key = none →
          key ∈ deleteList original form) ∧
        (key ∈ deleteList original form → shown form.get? key = none) ∧
          ∀ value, form.get? key = some value → value ≠ [] → original.get? key ≠ some value →
            Lands (original.get? key) key value := by
  have removed {config : GuestConfig} (gone : config key = none) : shown config key = none :=
    shown_eq_none_iff.mpr (.inl gone)
  by_cases empty : shown form.get? key = none
  · -- nothing is shown, so the key has to be in the list, unless it had no value
    have none_given : ∀ value, form.get? key = some value →
        original.get? key = some value ∨ value = [] := by
      intro value found
      rcases shown_eq_none_iff.mp empty with absent | blank
      · rw [found] at absent
        cases absent
      · rw [found] at blank
        exact .inr (Option.some.inj blank)
    have saved := savedConfig_unsent options none_given
    have noValue : ∀ value, form.get? key = some value → value ≠ [] →
        original.get? key ≠ some value → Lands (original.get? key) key value :=
      fun value found given changed =>
        ((none_given value found).resolve_left changed |> given).elim
    rw [empty]
    by_cases listed : key ∈ deleteList original form
    · rw [if_pos listed] at saved
      exact iff_of_true (removed saved) ⟨fun _ _ => listed, fun _ => rfl, noValue⟩
    · rw [if_neg listed] at saved
      have kept : shown (savedConfig original form) key = shown original.get? key := by
        rw [shown, saved, shown]
      rw [kept]
      constructor
      · exact fun nothing => ⟨fun some_value => absurd nothing some_value,
          fun inside => absurd inside listed, noValue⟩
      · rintro ⟨must, -, -⟩
        by_contra some_value
        exact listed (must some_value rfl)
  · obtain ⟨value, found, given⟩ : ∃ value, form.get? key = some value ∧ value ≠ [] := by
      rw [shown_eq_none_iff, not_or] at empty
      obtain ⟨value, found⟩ := Option.ne_none_iff_exists'.mp empty.1
      exact ⟨value, found, fun blank => empty.2 (by rw [found, blank])⟩
    have wanted := shown_some found given
    by_cases listed : key ∈ deleteList original form
    · -- a key in the list is gone
      have saved : savedConfig original form key = none := by
        rw [savedConfig_apply options, if_pos listed]
      rw [removed saved]
      exact iff_of_false (fun same => empty same.symm) fun all => empty (all.2.1 listed)
    · have rest : (shown original.get? key ≠ none → shown form.get? key = none →
          key ∈ deleteList original form) ∧
          (key ∈ deleteList original form → shown form.get? key = none) :=
        ⟨fun _ nothing => absurd nothing empty, fun inside => absurd inside listed⟩
      by_cases changed : original.get? key = some value
      · have saved := @savedConfig_unsent _ _ key options fun other here => by
          rw [found] at here
          exact .inl (changed.trans here)
        rw [if_neg listed] at saved
        have kept : shown (savedConfig original form) key = shown form.get? key := by
          rw [shown, saved, changed, wanted]
          simp [Option.filter, given]
        refine iff_of_true kept ⟨rest.1, rest.2, fun other here _ different => ?_⟩
        rw [found] at here
        exact absurd (changed.trans here) different
      · have named : key ≠ "delete" := by
          rintro rfl
          rcases options with same | nothing
          · exact changed (same.symm.trans found)
          · exact empty nothing
        obtain ⟨result, outcome, lands⟩ := changed_field changed given (wide value found)
        have saved : savedConfig original form key = some result := by
          rw [savedConfig_apply options, if_neg listed, if_neg named, found]
          exact outcome
        have same : shown (savedConfig original form) key = shown form.get? key ↔
            result = value := by
          rw [wanted, shown, saved]
          by_cases blank : result = []
          · simp [Option.filter, blank, Ne.symm given]
          · simp [Option.filter, blank]
        rw [same, lands]
        constructor
        · intro fine
          refine ⟨rest.1, rest.2, fun other here _ _ => ?_⟩
          rw [found] at here
          cases here
          exact fine
        · exact fun all => all.2.2 value found given changed

theorem resizedTo_of_not_disk (disk : isDisk key = false) : resizedTo original key value = none := by
  rw [resizedTo, resizeEntry, fieldChange, disk]
  split
  · rename_i size reverted grows
    split_ifs at grows with _ _ resizable
    rw [Bool.false_and, Bool.false_and] at resizable
    cases resizable
  · rfl

/-- A field of the name `delete` sets no option. -/
theorem shown_saved_delete
    (options : ¬(form.get? "delete" = original.get? "delete" ∨ shown form.get? "delete" = none)) :
    shown (savedConfig original form) "delete" ≠ shown form.get? "delete" := by
  rw [not_or] at options
  obtain ⟨changed, given⟩ := options
  have resized : (form.get? "delete").bind (resizedTo original "delete") = none := by
    cases form.get? "delete" with
    | none => rfl
    | some value => exact resizedTo_of_not_disk (by decide)
  intro same
  rw [shown, savedConfig, updateConfig, resized_config, resized] at same
  dsimp only at same
  split_ifs at same with listed named
  · exact given same.symm
  · obtain ⟨value, found⟩ := Option.ne_none_iff_exists'.mp given
    rw [found] at same
    refine changed ?_
    have before := (Option.filter_eq_some_iff.mp same).1
    have after := (Option.filter_eq_some_iff.mp found).1
    rw [before, after]
  · exact named rfl

end

theorem map_join (f : Char → Char) (sep : Char) (words : List Text) :
    (join sep words).map f = join (f sep) (words.map (List.map f)) := by
  induction words with
  | nil => rfl
  | cons word words ih =>
      cases words with
      | nil => rfl
      | cons next words =>
          rw [join_cons (List.cons_ne_nil _ _), List.map_append, List.map_cons, ih]
          exact (join_cons (List.cons_ne_nil _ _)).symm

/-- Without separators in them the names of the removed keys are read back. -/
theorem deleteList_of_plain {original form : Record Text}
    (plain : ∀ key ∈ removedKeys original form,
      key ≠ [] ∧ ∀ c ∈ key, isListSeparator c = false) :
    deleteList original form = removedKeys original form := by
  rw [deleteList]
  generalize removedKeys original form = keys at plain
  have spaced : (join ',' keys).map (fun c => if isListSeparator c then ' ' else c) =
      join ' ' keys := by
    rw [map_join]
    refine congrArg (join ' ') ((List.map_congr_left fun key listed => ?_).trans (List.map_id _))
    refine (List.map_congr_left fun c inside => ?_).trans (List.map_id _)
    rw [(plain key listed).2 c inside]
    rfl
  rw [configNames, spaced]
  by_cases none : keys = []
  · rw [none]
    rfl
  · rw [split_join none]
    · exact List.filter_eq_self.mpr fun key listed => decide_eq_true (plain key listed).1
    · intro key listed inside
      exact absurd ((plain key listed).2 ' ' inside) (by decide)

/-- What a save leaves for a key. -/
def shownAfter (original form : Record Text) (key : Text) : Option (Option Text) :=
  ((save true original form).applied original.get?).map fun config => shown config key

theorem not_saveExact {original form : Record Text} {key : Text} {left : Option Text}
    (after : shownAfter original form key = some left) (other : left ≠ shown form.get? key) :
    ¬SaveExact true original form := by
  intro exact_save
  obtain ⟨config, applied, rfl⟩ := Option.map_eq_some_iff.mp after
  exact other (exact_save config applied key)

/-- A description that is emptied, and a disk that is grown. -/
def emptied : Record Text := Record.ofList [("description", [])]
def described : Record Text := Record.ofList [("description", "old")]
def grown : Record Text := Record.ofList [("scsi0", "local-lvm:vm-100-disk-0,iothread=1,size=64G")]
def small : Record Text := Record.ofList [("scsi0", "local-lvm:vm-100-disk-0,iothread=1,size=32G")]

end Proxora
