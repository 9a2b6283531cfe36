import Proxora.Administration
import Proxora.Histories
import Proxora.PermissionPrecedence

/-!
# The preview of a user's access

`buildAccessPreview` of `lib/access-preview.ts`, which works out from the form of a user what the
user will have access to, against the session that `toSessionUser` makes of the rows that
`hostRowsFromInput` and `guestRowsFromInput` make of the same form.

`accessPreview_iff` says for which forms the two agree. The preview does not know that a role
that sees no hosts has none without grants, and it takes the permissions of a guest as they are
in the form, which are normalised when they are stored.
-/

namespace Proxora

open Ecma Histories

/-! ## The preview -/

/-- `PREVIEW_ACTIONS`. -/
def previewActions : List Permission :=
  [.hostsReboot, .hostsShutdown, .hostsConsole, .updatesCheck, .updatesUpgrade, .vmStart,
    .vmShutdown, .vmForceStop, .vmReboot, .vmConsole, .vmFilesRead, .vmFilesWrite, .vmConfig,
    .vmDelete, .vmClone, .vmMigrate, .lxcStart, .lxcShutdown, .lxcForceStop, .lxcReboot,
    .lxcConsole, .lxcFilesRead, .lxcFilesWrite, .lxcConfig, .lxcDelete, .lxcClone, .lxcMigrate,
    .backupRun, .backupRestore]

inductive PreviewMode : Type
  | all
  | listed
deriving DecidableEq, Repr

structure PreviewGuest where
  hostName : String
  kind : GuestKind
  vmid : Int
  name : Option String
deriving DecidableEq, Repr

/-- An entry of `hostOverrides` or of `guestOverrides`, with the host name or the label. -/
structure OverrideCount where
  label : String
  count : Nat
deriving DecidableEq, Repr

structure AccessPreview where
  roleName : String
  hostMode : PreviewMode
  hostNames : List String
  guestMode : PreviewMode
  guests : List PreviewGuest
  actions : List Permission
  hostOverrides : List OverrideCount
  guestOverrides : List OverrideCount
deriving DecidableEq, Repr

/-- What `buildAccessPreview` is called with; `hostList` and `guestNames` are pairs of a key and
a name. -/
structure AccessPreviewInput where
  roleName : String
  permissions : Option (List String)
  hosts : Option (List HostGrantInput)
  hostIds : Option (List String)
  guests : List GuestGrantInput
  hostList : List (String × String)
  guestNames : Option (List (String × String))

def GuestGrantInput.scope (grant : GuestGrantInput) : GuestScope :=
  ⟨grant.hostId, grant.kind, grant.vmid⟩

/-- `Object.fromEntries(entries)`. -/
def fromEntries (entries : List (String × Option (List String))) : PermissionRecord :=
  entries.foldl (fun record entry => PermissionRecord.set record entry.1 entry.2) []

namespace AccessPreviewInput

/-- `hostMap.get(id) ?? id`. -/
def hostName (input : AccessPreviewInput) (id : String) : String :=
  (input.hostList.reverse.lookup id).getD id

/-- `grants`. -/
def grants (input : AccessPreviewInput) : List HostGrantInput :=
  input.hosts.getD ((input.hostIds.getD []).map fun hostId => ⟨hostId, none⟩)

/-- `guestNames?.[guestScopeKey(g)]`. -/
def guestName (input : AccessPreviewInput) (grant : GuestGrantInput) : Option String :=
  input.guestNames.bind fun names => names.lookup (guestScopeKey grant.scope)

/-- `holder`. -/
def holder (input : AccessPreviewInput) : PermissionHolder where
  rolePermissions := input.permissions
  hostPermissions := some (fromEntries (input.grants.map fun g => (g.hostId, g.permissions)))
  guestPermissions :=
    some (fromEntries (input.guests.map fun g => (guestScopeKey g.scope, g.permissions)))

/-- The text in front of the name of a guest. -/
def guestLabel (input : AccessPreviewInput) (grant : GuestGrantInput) : String :=
  input.hostName grant.hostId ++ " · " ++ grant.kind.pick "VM" "LXC" ++ " " ++ toString grant.vmid

/-- The label and the number of the permissions of a guest that has its own. -/
def guestOverride (input : AccessPreviewInput) (grant : GuestGrantInput) : Option OverrideCount :=
  grant.permissions.map fun granted =>
    let label :=
      match (input.guestName grant).filter (· ≠ "") with
      | some name => input.guestLabel grant ++ " (" ++ name ++ ")"
      | none => input.guestLabel grant
    ⟨label, granted.length⟩

end AccessPreviewInput

def buildAccessPreview (input : AccessPreviewInput) : AccessPreview :=
  let guestHostIds := (input.guests.map (·.hostId)).eraseDups
  { roleName := input.roleName
    hostMode := if input.grants ≠ [] || input.guests ≠ [] then .listed else .all
    hostNames :=
      if input.grants ≠ [] then input.grants.map fun g => input.hostName g.hostId
      else guestHostIds.map input.hostName
    guestMode := if input.guests ≠ [] then .listed else .all
    guests := input.guests.map fun g =>
      ⟨input.hostName g.hostId, g.kind, g.vmid, input.guestName g⟩
    actions := previewActions.filter fun p => userHasPermission input.holder p none none
    hostOverrides := input.grants.filterMap fun g =>
      g.permissions.map fun granted => ⟨input.hostName g.hostId, granted.length⟩
    guestOverrides := input.guests.filterMap input.guestOverride }

/-! ## Forms -/

/-- The host grants of a form: grants, or ids only. -/
inductive HostGrants : Type
  | withOverrides (grants : List HostGrantInput)
  | idsOnly (hostIds : List String)

def HostGrants.list : HostGrants → List HostGrantInput
  | .withOverrides grants => grants
  | .idsOnly hostIds => hostIds.map fun hostId => ⟨hostId, none⟩

/-- The role and the grants of a user as they are in the form. -/
structure AccessForm where
  roleName : String
  permissions : List String
  hosts : HostGrants
  guests : List GuestGrantInput
  hostList : List (String × String)
  guestNames : Option (List (String × String))

namespace AccessForm

/-- The form to the preview. -/
def input (form : AccessForm) : AccessPreviewInput where
  roleName := form.roleName
  permissions := some form.permissions
  hosts :=
    match form.hosts with
    | .withOverrides grants => some grants
    | .idsOnly _ => none
  hostIds :=
    match form.hosts with
    | .withOverrides _ => none
    | .idsOnly hostIds => some hostIds
  guests := form.guests
  hostList := form.hostList
  guestNames := form.guestNames

/-- The form as it is stored. -/
def source (form : AccessForm) (id : String) : SessionUserSource where
  id := id
  rolePermissions := form.permissions
  hostAccess := hostRowsFromInput form.input.hosts form.input.hostIds
  guestAccess := guestRowsFromInput form.guests

/-- The session of the user that is stored from the form. -/
def session (form : AccessForm) (id : String) : SessionUser := toSessionUser (form.source id)

end AccessForm

/-- What the preview of a form says is so in the session. -/
structure PreviewHolds (form : AccessForm) (user : SessionUser) : Prop where
  hosts_all : (buildAccessPreview form.input).hostMode = .all ↔
    ∀ hostId, canAccessHost user.toAccessScope hostId = true
  guests_all : (buildAccessPreview form.input).guestMode = .all ↔
    ∀ guest : GuestScope, canAccessHost user.toAccessScope guest.hostId = true →
      canAccessGuest user.toAccessScope guest.hostId guest.kind guest.vmid = true
  host_names : (buildAccessPreview form.input).hostMode = .listed →
    ∃ ids : List String, (buildAccessPreview form.input).hostNames = ids.map form.input.hostName ∧
      ∀ hostId, hostId ∈ ids ↔ canAccessHost user.toAccessScope hostId = true
  actions : (buildAccessPreview form.input).actions =
    previewActions.filter fun p => userHasPermission user.holder p none none

/-- Of the grants for one host or guest the last one counts. -/
def CountsAmong {α : Type} (key : α → String) (grants : List α) (grant : α) : Prop :=
  Since (fun _ g => g = grant) (fun _ g => key g = key grant) grants

/-- The role grants a permission, or the list of a host does. -/
def GrantedElsewhere (form : AccessForm) (p : Permission) : Prop :=
  hasPermission (some form.permissions) p = true ∨
    ∃ grant, CountsAmong (·.hostId) form.hosts.list grant ∧
      ∃ granted, grant.permissions = some granted ∧ hasPermission (some granted) p = true

/-- The list of a guest grants a permission as it is in the form. -/
def GrantedAsGiven (form : AccessForm) (p : Permission) : Prop :=
  ∃ grant, CountsAmong (guestScopeKey ·.scope) form.guests grant ∧
    ∃ granted, grant.permissions = some granted ∧ hasPermission (some granted) p = true

/-- The list of a guest grants an action as it is stored: what is not for guests of its kind
falls away, and who writes files reads them. -/
def GrantedAsStored (form : AccessForm) (p : Permission) : Prop :=
  ∃ grant, CountsAmong (guestScopeKey ·.scope) form.guests grant ∧
    ∃ granted, grant.permissions = some granted ∧
      (hasPermission (some granted) p = true ∧ p ∈ (guestGrantCatalog grant.kind).map (·.id) ∨
        p = grant.kind.pick .vmFilesRead .lxcFilesRead ∧
          hasPermission (some granted) (grant.kind.pick .vmFilesWrite .lxcFilesWrite) = true)

/-! ## Records -/

section Records

variable {record : PermissionRecord} {key : String} {value : Option (List String)}
  {entry : String × Option (List String)} {p : Permission}

theorem keys_set (record : PermissionRecord) (key : String) (value : Option (List String)) :
    (PermissionRecord.set record key value).map Prod.fst =
      if key ∈ record.map Prod.fst then record.map Prod.fst else record.map Prod.fst ++ [key] := by
  induction record with
  | nil => rfl
  | cons first rest ih =>
      obtain ⟨k, v⟩ := first
      rw [PermissionRecord.set]
      by_cases same : k = key
      · rw [if_pos same, same]
        simp
      · rw [if_neg same, List.map_cons, ih]
        by_cases inside : key ∈ rest.map Prod.fst
        · simp [inside]
        · simp [inside, Ne.symm same]

theorem nodup_set (nodup : (record.map Prod.fst).Nodup) :
    ((PermissionRecord.set record key value).map Prod.fst).Nodup := by
  rw [keys_set]
  split_ifs with inside
  · exact nodup
  · exact List.nodup_append.mpr ⟨nodup, List.nodup_singleton _, fun k here k' last same =>
      inside (List.mem_singleton.mp last ▸ same ▸ here)⟩

theorem mem_set (nodup : (record.map Prod.fst).Nodup) :
    entry ∈ PermissionRecord.set record key value ↔
      (key, value) = entry ∨ entry ∈ record ∧ ¬ key = entry.1 := by
  induction record with
  | nil => simp [PermissionRecord.set, eq_comm]
  | cons first rest ih =>
      obtain ⟨k, v⟩ := first
      rw [List.map_cons, List.nodup_cons] at nodup
      have other : ∀ e ∈ rest, k ≠ e.1 := fun e inside same => by
        rw [same] at nodup
        exact nodup.1 (List.mem_map.mpr ⟨e, inside, rfl⟩)
      rw [PermissionRecord.set]
      by_cases same : k = key
      · subst same
        rw [if_pos rfl, List.mem_cons, List.mem_cons, or_and_right, eq_comm]
        refine or_congr_right ?_
        constructor
        · exact fun inside => .inr ⟨inside, other entry inside⟩
        · intro either
          rcases either with ⟨own, apart⟩ | ⟨inside, -⟩
          · exact absurd (congrArg Prod.fst own).symm apart
          · exact inside
      · rw [if_neg same, List.mem_cons, ih nodup.2, List.mem_cons, or_and_right, ← or_assoc,
          ← or_assoc]
        refine or_congr_left ?_
        constructor
        · intro either
          rcases either with own | set
          · rw [own]
            exact .inr ⟨rfl, Ne.symm same⟩
          · exact .inl set
        · intro either
          rcases either with set | ⟨own, -⟩
          · exact .inr set
          · exact .inl own

theorem fromEntries_snoc (entries : List (String × Option (List String))) :
    fromEntries (entries ++ [entry]) =
      PermissionRecord.set (fromEntries entries) entry.1 entry.2 := by
  rw [fromEntries, List.foldl_append]
  rfl

theorem nodup_fromEntries (entries : List (String × Option (List String))) :
    ((fromEntries entries).map Prod.fst).Nodup := by
  induction entries using List.reverseRecOn with
  | nil => exact List.nodup_nil
  | append_singleton entries entry ih =>
      rw [fromEntries_snoc]
      exact nodup_set ih

/-- A record that is made from a list has the last entry of each key. -/
theorem mem_fromEntries {α : Type} (entryOf : α → String × Option (List String)) (items : List α) :
    entry ∈ fromEntries (items.map entryOf) ↔
      ∃ x, entryOf x = entry ∧
        Since (fun _ y => y = x) (fun _ y => (entryOf y).1 = entry.1) items := by
  induction items using List.reverseRecOn with
  | nil =>
      refine iff_of_false List.not_mem_nil fun since => ?_
      rcases since with ⟨x, -, since⟩
      exact not_since_nil since
  | append_singleton items last ih =>
      rw [List.map_append, List.map_singleton, fromEntries_snoc, mem_set (nodup_fromEntries _), ih]
      simp only [since_snoc]
      constructor
      · intro either
        rcases either with own | ⟨⟨x, same, since⟩, other⟩
        · exact ⟨last, own, .inl rfl⟩
        · exact ⟨x, same, .inr ⟨since, other⟩⟩
      · intro found
        rcases found with ⟨x, same, here | ⟨since, other⟩⟩
        · subst here
          exact .inl same
        · exact .inr ⟨⟨x, same, since⟩, other⟩

/-- What the lists of a record grant, that is made from the grants for keys. -/
theorem someOverride_fromEntries {α : Type} (keyOf : α → String)
    (valueOf : α → Option (List String)) (items : List α) :
    someOverride (some (fromEntries (items.map fun x => (keyOf x, valueOf x)))) p = true ↔
      ∃ x, CountsAmong keyOf items x ∧
        ∃ granted, valueOf x = some granted ∧ hasPermission (some granted) p = true := by
  rw [someOverride, Option.getD_some, List.any_eq_true]
  constructor
  · intro found
    rcases found with ⟨entry, inside, grants⟩
    rcases (mem_fromEntries _ _).mp inside with ⟨x, rfl, since⟩
    dsimp only at since grants
    refine ⟨x, since, ?_⟩
    cases given : valueOf x with
    | none =>
        rw [given] at grants
        cases grants
    | some granted =>
        rw [given] at grants
        exact ⟨granted, rfl, grants⟩
  · intro found
    rcases found with ⟨x, since, granted, given, grants⟩
    refine ⟨(keyOf x, valueOf x), (mem_fromEntries _ _).mpr ⟨x, rfl, since⟩, ?_⟩
    dsimp only
    rw [given]
    exact grants

theorem someOverride_sanitized :
    someOverride ((nonEmptyRecord record).map sanitizeRecord) p = someOverride (some record) p := by
  unfold nonEmptyRecord
  cases record with
  | nil => rfl
  | cons first rest =>
      rw [List.isEmpty_cons, if_neg Bool.false_ne_true, Option.map_some, someOverride,
        someOverride, Option.getD_some, Option.getD_some, sanitizeRecord, List.any_map]
      refine congrArg (List.any (first :: rest)) (funext fun entry => ?_)
      obtain ⟨key, value⟩ := entry
      cases value with
      | none => rfl
      | some granted => exact Bool.eq_iff_iff.mpr AdminRequest.hasPermission_sanitized

/-- A host without a list of its own grants nothing. -/
theorem someOverride_set_none (absent : (record.lookup key).isSome = false) :
    someOverride (some (PermissionRecord.set record key none)) p =
      someOverride (some record) p := by
  have appended : PermissionRecord.set record key none = record ++ [(key, none)] := by
    induction record with
    | nil => rfl
    | cons first rest ih =>
        obtain ⟨k, v⟩ := first
        rw [List.lookup_cons] at absent
        have other : k ≠ key := by
          intro same
          rw [same, beq_self_eq_true] at absent
          cases absent
        rw [beq_eq_false_iff_ne.mpr other.symm] at absent
        rw [PermissionRecord.set, if_neg other, ih absent, List.cons_append]
  rw [appended, someOverride, someOverride, Option.getD_some, Option.getD_some, List.any_append]
  simp

end Records

/-! ## The session -/

section Session

variable {form : AccessForm} {p : Permission} {id : String}

theorem grants_input : form.input.grants = form.hosts.list := by
  unfold AccessPreviewInput.grants AccessForm.input HostGrants.list
  cases form.hosts <;> rfl

/-- The row that a host grant is stored as. -/
def hostRow (grant : HostGrantInput) : HostAccessGrant where
  hostId := grant.hostId
  override := grant.permissions.isSome
  permissions :=
    match grant.permissions with
    | some granted => (sanitizePermissions granted).map Permission.id
    | none => []

theorem hostAccess_source : (form.source id).hostAccess = form.hosts.list.map hostRow := by
  unfold AccessForm.source AccessForm.input HostGrants.list
  cases form.hosts with
  | withOverrides grants =>
      cases grants with
      | nil => rfl
      | cons first rest => rfl
  | idsOnly hostIds =>
      change hostIds.map _ = (hostIds.map _).map hostRow
      rw [List.map_map]
      rfl

theorem hosts_source : (form.source id).hosts = form.hosts.list.map (·.hostId) := by
  rw [SessionUserSource.hosts, hostAccess_source, List.map_map]
  rfl

theorem guests_source : (form.source id).guests = form.guests.map GuestGrantInput.scope := by
  unfold SessionUserSource.guests AccessForm.source guestRowsFromInput
  rw [List.filterMap_map]
  refine (List.filterMap_congr fun grant _ => ?_).trans
    (congrFun List.filterMap_eq_map' form.guests)
  change (parseGuestKind grant.kind.name).map _ = _
  rw [parseGuestKind_name]
  rfl

/-- The lists of the hosts grant in the session what they grant in the form. -/
theorem someOverride_hosts :
    someOverride (form.session id).hostPermissions p = true ↔
      ∃ grant, CountsAmong (·.hostId) form.hosts.list grant ∧
        ∃ granted, grant.permissions = some granted ∧ hasPermission (some granted) p = true := by
  have own : ((form.source id).hostAccess.foldl
      (fun record row =>
        PermissionRecord.set record row.hostId (overrideOf row.override row.permissions)) []) =
      fromEntries (form.hosts.list.map fun grant =>
        (grant.hostId, grant.permissions.map fun granted =>
          (sanitizePermissions granted).map Permission.id)) := by
    rw [hostAccess_source, fromEntries, List.foldl_map, List.foldl_map]
    refine congrArg (fun f => List.foldl f [] form.hosts.list) (funext₂ fun record grant => ?_)
    unfold hostRow
    cases grant.permissions <;> rfl
  have others : ∀ (hostIds : List String) (record : PermissionRecord),
      someOverride (some (hostIds.foldl (fun record hostId =>
        if (record.lookup hostId).isSome then record
        else PermissionRecord.set record hostId none) record)) p =
          someOverride (some record) p := by
    intro hostIds
    induction hostIds with
    | nil => exact fun record => rfl
    | cons hostId hostIds ih =>
        intro record
        rw [List.foldl_cons, ih]
        split_ifs with present
        · rfl
        · exact someOverride_set_none (Bool.eq_false_iff.mpr present)
  have read : someOverride (form.session id).hostPermissions p =
      someOverride (some (fromEntries (form.hosts.list.map fun grant =>
        (grant.hostId, grant.permissions.map fun granted =>
          (sanitizePermissions granted).map Permission.id)))) p := by
    rw [← own]
    exact someOverride_sanitized.trans (others _ _)
  rw [read, someOverride_fromEntries]
  refine exists_congr fun grant => and_congr_right fun _ => ?_
  cases grant.permissions with
  | none => simp
  | some granted => simp [AdminRequest.hasPermission_sanitized]

/-- The lists of the guests grant in the session what they grant normalised. -/
theorem someOverride_guests :
    someOverride (form.session id).guestPermissions p = true ↔
      ∃ grant, CountsAmong (guestScopeKey ·.scope) form.guests grant ∧
        ∃ granted, grant.permissions = some granted ∧
          p ∈ normalizeGuestPermissions grant.kind granted := by
  have own : (form.session id).guestPermissions =
      (nonEmptyRecord (fromEntries (form.guests.map fun grant =>
        (guestScopeKey grant.scope, grant.permissions.map fun granted =>
          (normalizeGuestPermissions grant.kind granted).map Permission.id)))).map
        sanitizeRecord := by
    refine congrArg (fun record => (nonEmptyRecord record).map sanitizeRecord) ?_
    change (guestRowsFromInput form.guests).foldl _ [] = _
    rw [guestRowsFromInput, fromEntries, List.foldl_map, List.foldl_map]
    refine congrArg (fun f => List.foldl f [] form.guests) (funext₂ fun record grant => ?_)
    unfold GuestAccessGrant.scope?
    dsimp only
    rw [parseGuestKind_name]
    cases grant.permissions <;> rfl
  have read : someOverride (form.session id).guestPermissions p =
      someOverride (some (fromEntries (form.guests.map fun grant =>
        (guestScopeKey grant.scope, grant.permissions.map fun granted =>
          (normalizeGuestPermissions grant.kind granted).map Permission.id)))) p := by
    rw [own]
    exact someOverride_sanitized
  rw [read, someOverride_fromEntries]
  refine exists_congr fun grant => and_congr_right fun _ => ?_
  cases grant.permissions with
  | none => simp
  | some granted => simp [hasPermission_ids]

/-- Which actions a normalised list has. -/
theorem mem_normalizeGuestPermissions {kind : GuestKind} {granted : List String}
    (action : p ∈ previewActions) :
    p ∈ normalizeGuestPermissions kind granted ↔
      hasPermission (some granted) p = true ∧ p ∈ (guestGrantCatalog kind).map (·.id) ∨
        p = kind.pick .vmFilesRead .lxcFilesRead ∧
          hasPermission (some granted) (kind.pick .vmFilesWrite .lxcFilesWrite) = true := by
  have known : ∀ q : Permission, q ∈ allPermissions := by
    intro q
    cases q <;> decide
  have sanitized : ∀ q, q ∈ sanitizePermissions granted ↔ hasPermission (some granted) q = true :=
    fun q => by
      rw [sanitizePermissions, List.mem_filter]
      exact and_iff_right (known q)
  have view : p ≠ kind.pick .vmView .lxcView := by
    intro same
    subst same
    revert action
    cases kind <;> decide
  have writes : kind.pick .vmFilesWrite .lxcFilesWrite ∈ (guestGrantCatalog kind).map (·.id) ∧
      kind.pick Permission.vmFilesWrite .lxcFilesWrite ≠ kind.pick .vmView .lxcView := by
    cases kind <;> decide
  have viewed : ∀ q, q ≠ kind.pick .vmView .lxcView →
      (q ∈ (sanitizePermissions granted).filter ((guestGrantCatalog kind).map (·.id)).contains ++
          [kind.pick .vmView .lxcView] ↔
        hasPermission (some granted) q = true ∧ q ∈ (guestGrantCatalog kind).map (·.id)) := by
    intro q other
    rw [List.mem_append, List.mem_singleton, or_iff_left other, List.mem_filter, sanitized,
      List.contains_iff_mem]
  unfold normalizeGuestPermissions
  dsimp only
  rw [List.mem_filter, and_iff_right (known p), List.contains_iff_mem]
  simp only [List.contains_iff_mem, viewed _ writes.2, and_iff_left writes.1]
  split_ifs with writing
  · rw [List.mem_append, List.mem_singleton, viewed p view]
    exact or_congr_right (and_iff_left writing).symm
  · rw [viewed p view]
    exact (or_iff_left fun reads => writing reads.2).symm

theorem hostScoped_of_previewAction : ∀ p ∈ previewActions, isHostScopedPermission p = true := by
  decide

theorem userHasPermission_input (action : p ∈ previewActions) :
    userHasPermission form.input.holder p none none = true ↔
      GrantedElsewhere form p ∨ GrantedAsGiven form p := by
  rw [userHasPermission_none (hostScoped_of_previewAction p action), Bool.or_eq_true,
    Bool.or_eq_true, AccessPreviewInput.holder, grants_input]
  dsimp only
  rw [someOverride_fromEntries, someOverride_fromEntries]
  rfl

theorem userHasPermission_session (action : p ∈ previewActions) :
    userHasPermission (form.session id).holder p none none = true ↔
      GrantedElsewhere form p ∨ GrantedAsStored form p := by
  rw [userHasPermission_none (hostScoped_of_previewAction p action), Bool.or_eq_true,
    Bool.or_eq_true]
  refine or_congr (or_congr Iff.rfl someOverride_hosts) (someOverride_guests.trans ?_)
  simp only [mem_normalizeGuestPermissions action]
  rfl

/-! ## What the preview says -/

theorem filter_eq_filter_iff {α : Type} {l : List α} {f g : α → Bool} :
    l.filter f = l.filter g ↔ ∀ x ∈ l, (f x = true ↔ g x = true) := by
  constructor
  · intro same x inside
    have kept : x ∈ l.filter f ↔ x ∈ l.filter g := by rw [same]
    rw [List.mem_filter, List.mem_filter] at kept
    simpa only [inside, true_and] using kept
  · intro agree
    exact List.filter_congr fun x inside => Bool.eq_iff_iff.mpr (agree x inside)

theorem actions_iff :
    (buildAccessPreview form.input).actions =
        (previewActions.filter fun p => userHasPermission (form.session id).holder p none none) ↔
      ∀ p ∈ previewActions,
        GrantedElsewhere form p ∨ (GrantedAsGiven form p ↔ GrantedAsStored form p) := by
  rw [buildAccessPreview, filter_eq_filter_iff]
  refine forall₂_congr fun p action => ?_
  rw [userHasPermission_input action, userHasPermission_session action]
  constructor
  · intro same
    by_cases elsewhere : GrantedElsewhere form p
    · exact .inl elsewhere
    · rw [or_iff_right elsewhere, or_iff_right elsewhere] at same
      exact .inr same
  · intro either
    rcases either with elsewhere | same
    · exact iff_of_true (.inl elsewhere) (.inl elsewhere)
    · exact or_congr_right same

/-- Some host id is not in a list. -/
theorem exists_notMem_ids (hostIds : List String) : ∃ hostId, hostId ∉ hostIds := by
  rcases Infinite.exists_notMem_finset hostIds.toFinset with ⟨hostId, missing⟩
  exact ⟨hostId, fun inside => missing (List.mem_toFinset.mpr inside)⟩

theorem hostMode_eq_all_iff :
    (buildAccessPreview form.input).hostMode = .all ↔ form.hosts.list = [] ∧ form.guests = [] := by
  rw [buildAccessPreview, grants_input]
  change (if _ then PreviewMode.listed else _) = _ ↔ _
  split_ifs with listed
  · refine iff_of_false (fun all => by cases all) fun none => ?_
    rw [none.1, show form.input.guests = [] from none.2] at listed
    simp at listed
  · refine iff_of_true rfl ?_
    have guests : form.input.guests = form.guests := rfl
    simpa [guests] using listed

theorem guestMode_eq_all_iff :
    (buildAccessPreview form.input).guestMode = .all ↔ form.guests = [] := by
  change (if form.guests ≠ [] then PreviewMode.listed else .all) = .all ↔ _
  split_ifs with listed
  · exact iff_of_false (fun all => by cases all) listed
  · exact iff_of_true rfl (not_not.mp listed)

theorem guests_source_eq_nil_iff : (form.source id).guests = [] ↔ form.guests = [] := by
  rw [guests_source, List.map_eq_nil_iff]

theorem hosts_source_eq_nil_iff : (form.source id).hosts = [] ↔ form.hosts.list = [] := by
  rw [hosts_source, List.map_eq_nil_iff]

/-- Which hosts the session can access. -/
theorem canAccessHost_session (hostId : String) :
    canAccessHost (form.session id).toAccessScope hostId = true ↔
      if form.hosts.list ≠ [] then hostId ∈ form.hosts.list.map (·.hostId)
      else if form.guests ≠ [] then hostId ∈ form.guests.map (·.hostId)
      else hasPermission (some form.permissions) .hostsView = true := by
  rw [AccessForm.session, canAccessHost_iff]
  simp only [ne_eq, hosts_source_eq_nil_iff, guests_source_eq_nil_iff]
  rw [hosts_source, guests_source]
  split_ifs
  · exact Iff.rfl
  · simp [GuestGrantInput.scope]
  · exact Iff.rfl

/-- A form with grants reaches some hosts, and not all. -/
theorem session_bounded (granted : ¬ (form.hosts.list = [] ∧ form.guests = [])) :
    ∃ hostIds : List String, hostIds ≠ [] ∧
      ∀ hostId, hostId ∈ hostIds ↔ canAccessHost (form.session id).toAccessScope hostId = true := by
  by_cases hosts : form.hosts.list = []
  · have guests : form.guests ≠ [] := fun none => granted ⟨hosts, none⟩
    refine ⟨form.guests.map (·.hostId), mt List.map_eq_nil_iff.mp guests, fun hostId => ?_⟩
    rw [canAccessHost_session, if_neg (not_not.mpr hosts), if_pos guests]
  · refine ⟨form.hosts.list.map (·.hostId), mt List.map_eq_nil_iff.mp hosts, fun hostId => ?_⟩
    rw [canAccessHost_session, if_pos hosts]

theorem hosts_all_iff :
    ((buildAccessPreview form.input).hostMode = .all ↔
        ∀ hostId, canAccessHost (form.session id).toAccessScope hostId = true) ↔
      form.hosts.list ≠ [] ∨ form.guests ≠ [] ∨
        hasPermission (some form.permissions) .hostsView = true := by
  rw [hostMode_eq_all_iff]
  by_cases none : form.hosts.list = [] ∧ form.guests = []
  · have every : (∀ hostId, canAccessHost (form.session id).toAccessScope hostId = true) ↔
        hasPermission (some form.permissions) .hostsView = true := by
      simp only [canAccessHost_session, none.1, none.2, ne_eq, not_true, if_false]
      exact forall_const String
    rw [every, iff_true_left none, none.1, none.2]
    simp
  · rcases session_bounded none with ⟨hostIds, -, reached⟩
    rcases exists_notMem_ids hostIds with ⟨hostId, missing⟩
    refine iff_of_true (iff_of_false none fun all => missing ((reached hostId).mpr (all hostId))) ?_
    by_cases hosts : form.hosts.list = []
    · exact .inr (.inl fun guests => none ⟨hosts, guests⟩)
    · exact .inl hosts

/-- The guests that the session reaches are all exactly when the preview says so. -/
theorem guests_all :
    (buildAccessPreview form.input).guestMode = .all ↔
      ∀ guest : GuestScope, canAccessHost (form.session id).toAccessScope guest.hostId = true →
        canAccessGuest (form.session id).toAccessScope guest.hostId guest.kind guest.vmid =
          true := by
  rw [guestMode_eq_all_iff]
  constructor
  · intro none guest reached
    exact (canAccessGuest_iff _ guest).mpr ⟨reached, .inl (guests_source_eq_nil_iff.mpr none)⟩
  · intro all
    by_contra guests
    -- A number that no grant has is one of a guest that is left out.
    rcases session_bounded (fun none => guests none.2) with ⟨hostIds, some_host, reached⟩
    rcases List.exists_mem_of_ne_nil _ some_host with ⟨hostId, inside⟩
    rcases Infinite.exists_notMem_finset (form.guests.map (·.vmid)).toFinset with ⟨vmid, fresh⟩
    have allowed := all ⟨hostId, .vm, vmid⟩ ((reached hostId).mp inside)
    rcases ((canAccessGuest_iff _ ⟨hostId, .vm, vmid⟩).mp allowed).2 with none | listed
    · exact guests (guests_source_eq_nil_iff.mp none)
    · rw [guests_source] at listed
      rcases List.mem_map.mp listed with ⟨grant, member, same⟩
      refine fresh (List.mem_toFinset.mpr (List.mem_map.mpr ⟨grant, member, ?_⟩))
      exact congrArg GuestScope.vmid same

/-- The names that are listed are those of the hosts that the session reaches. -/
theorem host_names (listed : (buildAccessPreview form.input).hostMode = .listed) :
    ∃ ids : List String, (buildAccessPreview form.input).hostNames = ids.map form.input.hostName ∧
      ∀ hostId, hostId ∈ ids ↔ canAccessHost (form.session id).toAccessScope hostId = true := by
  have some_grant : ¬ (form.hosts.list = [] ∧ form.guests = []) := fun none => by
    rw [hostMode_eq_all_iff.mpr none] at listed
    cases listed
  simp only [canAccessHost_session, buildAccessPreview, grants_input]
  by_cases hosts : form.hosts.list = []
  · have guests : form.guests ≠ [] := fun none => some_grant ⟨hosts, none⟩
    refine ⟨(form.guests.map (·.hostId)).eraseDups, ?_, fun hostId => ?_⟩
    · rw [if_neg (not_not.mpr hosts)]
      rfl
    · rw [if_neg (not_not.mpr hosts), if_pos guests, List.mem_eraseDups]
  · refine ⟨form.hosts.list.map (·.hostId), ?_, fun hostId => ?_⟩
    · rw [if_pos hosts, List.map_map]
      rfl
    · rw [if_pos hosts]

/-- **Which previews hold.** The preview of a form holds in the session unless there are no grants
and the role sees no hosts, or the list of a guest alone decides about an action and decides
otherwise once it is stored. -/
theorem accessPreview_iff (form : AccessForm) (id : String) :
    PreviewHolds form (form.session id) ↔
      (form.hosts.list ≠ [] ∨ form.guests ≠ [] ∨
        hasPermission (some form.permissions) .hostsView = true) ∧
      ∀ p ∈ previewActions,
        GrantedElsewhere form p ∨ (GrantedAsGiven form p ↔ GrantedAsStored form p) := by
  constructor
  · intro holds
    exact ⟨hosts_all_iff.mp holds.hosts_all, actions_iff.mp holds.actions⟩
  · intro both
    exact ⟨hosts_all_iff.mpr both.1, guests_all, host_names, actions_iff.mpr both.2⟩

end Session

/-- A role without `hosts.view`, and no grants. -/
def blindForm : AccessForm where
  roleName := "Nothing"
  permissions := ["vm.view", "vm.start"]
  hosts := .withOverrides []
  guests := []
  hostList := [("h1", "lab")]
  guestNames := none

/-- A guest whose files can be written. -/
def writingForm : AccessForm where
  roleName := "Viewer"
  permissions := ["hosts.view"]
  hosts := .withOverrides []
  guests := [⟨"h1", .vm, 105, some ["vm.files.write"]⟩]
  hostList := [("h1", "lab")]
  guestNames := none

/-- The preview says all hosts where none is reached, and leaves out that files are read. -/
theorem preview_misleads :
    ((buildAccessPreview blindForm.input).hostMode = .all ∧
      canAccessHost (blindForm.session "u1").toAccessScope "h1" = false ∧
      ¬ PreviewHolds blindForm (blindForm.session "u1")) ∧
    ((buildAccessPreview writingForm.input).actions = [.vmFilesWrite] ∧
      userHasPermission (writingForm.session "u1").holder .vmFilesRead none none = true ∧
      ¬ PreviewHolds writingForm (writingForm.session "u1")) := by
  have locked : canAccessHost (blindForm.session "u1").toAccessScope "h1" = false := by decide
  have given : (buildAccessPreview writingForm.input).actions = [.vmFilesWrite] := by
    decide +kernel
  have stored : userHasPermission (writingForm.session "u1").holder .vmFilesRead none none =
      true := by decide +kernel
  refine ⟨⟨rfl, locked, fun holds => ?_⟩, given, stored, fun holds => ?_⟩
  · cases locked.symm.trans (holds.hosts_all.mp rfl "h1")
  · have listed : Permission.vmFilesRead ∈ (buildAccessPreview writingForm.input).actions := by
      rw [holds.actions]
      exact List.mem_filter.mpr ⟨by decide, stored⟩
    rw [given] at listed
    revert listed
    decide

end Proxora
