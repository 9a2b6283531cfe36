import Proxora.Ecma.Text

/-!
# Permissions

`lib/permissions.ts`: the permission ids, the catalog that groups them, the
coarse strings of old databases and the tests made on a list of granted
strings.  Lists that come from the database or from a request are lists of
`String`; the ids this code knows are the type `Permission`.
-/

namespace Proxora

open Ecma

/-- `PERMISSIONS`: one constructor for each id. -/
inductive Permission : Type
  | hostsView | hostsCreate | hostsUpdate | hostsCredentials | hostsDelete | hostsReboot
  | hostsShutdown | hostsConsole
  | vmView | vmCreate | vmConfig | vmDelete | vmStart | vmShutdown | vmForceStop
  | vmReboot | vmReset | vmPause | vmResume | vmConsole | vmFilesRead | vmFilesWrite
  | vmSnapshotCreate | vmSnapshotDelete | vmSnapshotRollback | vmClone | vmMigrate
  | lxcView | lxcCreate | lxcConfig | lxcDelete | lxcStart | lxcShutdown | lxcForceStop
  | lxcReboot | lxcConsole | lxcFilesRead | lxcFilesWrite | lxcSnapshotCreate
  | lxcSnapshotDelete | lxcSnapshotRollback | lxcClone | lxcMigrate
  | storageView | storageDelete
  | zfsView
  | backupView | backupRun | backupRestore | backupDelete | backupJobCreate
  | backupJobUpdate | backupJobDelete
  | updatesView | updatesCheck | updatesUpgrade
  | proxoraUpdate
  | usersView | usersCreate | usersUpdate | usersDelete
  | rolesView | rolesCreate | rolesUpdate | rolesDelete
  | auditView
  | tasksView | tasksCancel
  | settingsView | settingsUpdate
  | peersManage
  | notificationsView | notificationsCreate | notificationsUpdate | notificationsDelete
deriving DecidableEq, Repr

/-- The stored id. -/
def Permission.id : Permission → String
  | .hostsView => "hosts.view"
  | .hostsCreate => "hosts.create"
  | .hostsUpdate => "hosts.update"
  | .hostsCredentials => "hosts.credentials"
  | .hostsDelete => "hosts.delete"
  | .hostsReboot => "hosts.reboot"
  | .hostsShutdown => "hosts.shutdown"
  | .hostsConsole => "hosts.console"
  | .vmView => "vm.view"
  | .vmCreate => "vm.create"
  | .vmConfig => "vm.config"
  | .vmDelete => "vm.delete"
  | .vmStart => "vm.start"
  | .vmShutdown => "vm.shutdown"
  | .vmForceStop => "vm.force-stop"
  | .vmReboot => "vm.reboot"
  | .vmReset => "vm.reset"
  | .vmPause => "vm.pause"
  | .vmResume => "vm.resume"
  | .vmConsole => "vm.console"
  | .vmFilesRead => "vm.files.read"
  | .vmFilesWrite => "vm.files.write"
  | .vmSnapshotCreate => "vm.snapshot.create"
  | .vmSnapshotDelete => "vm.snapshot.delete"
  | .vmSnapshotRollback => "vm.snapshot.rollback"
  | .vmClone => "vm.clone"
  | .vmMigrate => "vm.migrate"
  | .lxcView => "lxc.view"
  | .lxcCreate => "lxc.create"
  | .lxcConfig => "lxc.config"
  | .lxcDelete => "lxc.delete"
  | .lxcStart => "lxc.start"
  | .lxcShutdown => "lxc.shutdown"
  | .lxcForceStop => "lxc.force-stop"
  | .lxcReboot => "lxc.reboot"
  | .lxcConsole => "lxc.console"
  | .lxcFilesRead => "lxc.files.read"
  | .lxcFilesWrite => "lxc.files.write"
  | .lxcSnapshotCreate => "lxc.snapshot.create"
  | .lxcSnapshotDelete => "lxc.snapshot.delete"
  | .lxcSnapshotRollback => "lxc.snapshot.rollback"
  | .lxcClone => "lxc.clone"
  | .lxcMigrate => "lxc.migrate"
  | .storageView => "storage.view"
  | .storageDelete => "storage.delete"
  | .zfsView => "zfs.view"
  | .backupView => "backup.view"
  | .backupRun => "backup.run"
  | .backupRestore => "backup.restore"
  | .backupDelete => "backup.delete"
  | .backupJobCreate => "backup.job.create"
  | .backupJobUpdate => "backup.job.update"
  | .backupJobDelete => "backup.job.delete"
  | .updatesView => "updates.view"
  | .updatesCheck => "updates.check"
  | .updatesUpgrade => "updates.upgrade"
  | .proxoraUpdate => "proxora.update"
  | .usersView => "users.view"
  | .usersCreate => "users.create"
  | .usersUpdate => "users.update"
  | .usersDelete => "users.delete"
  | .rolesView => "roles.view"
  | .rolesCreate => "roles.create"
  | .rolesUpdate => "roles.update"
  | .rolesDelete => "roles.delete"
  | .auditView => "audit.view"
  | .tasksView => "tasks.view"
  | .tasksCancel => "tasks.cancel"
  | .settingsView => "settings.view"
  | .settingsUpdate => "settings.update"
  | .peersManage => "peers.manage"
  | .notificationsView => "notifications.view"
  | .notificationsCreate => "notifications.create"
  | .notificationsUpdate => "notifications.update"
  | .notificationsDelete => "notifications.delete"

/-- `ALL_PERMISSIONS`, in the order of the source. -/
def allPermissions : List Permission :=
  [.hostsView, .hostsCreate, .hostsUpdate, .hostsCredentials, .hostsDelete, .hostsReboot,
   .hostsShutdown, .hostsConsole, .vmView, .vmCreate, .vmConfig, .vmDelete, .vmStart,
   .vmShutdown, .vmForceStop, .vmReboot, .vmReset, .vmPause, .vmResume, .vmConsole,
   .vmFilesRead, .vmFilesWrite, .vmSnapshotCreate, .vmSnapshotDelete, .vmSnapshotRollback,
   .vmClone, .vmMigrate, .lxcView, .lxcCreate, .lxcConfig, .lxcDelete, .lxcStart, .lxcShutdown,
   .lxcForceStop, .lxcReboot, .lxcConsole, .lxcFilesRead, .lxcFilesWrite, .lxcSnapshotCreate,
   .lxcSnapshotDelete, .lxcSnapshotRollback, .lxcClone, .lxcMigrate, .storageView,
   .storageDelete, .zfsView, .backupView, .backupRun, .backupRestore, .backupDelete,
   .backupJobCreate, .backupJobUpdate, .backupJobDelete, .updatesView, .updatesCheck,
   .updatesUpgrade, .proxoraUpdate, .usersView, .usersCreate, .usersUpdate, .usersDelete,
   .rolesView, .rolesCreate, .rolesUpdate, .rolesDelete, .auditView, .tasksView, .tasksCancel,
   .settingsView, .settingsUpdate, .peersManage, .notificationsView, .notificationsCreate,
   .notificationsUpdate, .notificationsDelete]

/-- `PermissionGroupId`. -/
inductive PermissionGroupId : Type
  | hosts | vm | lxc | storage | backup | updates | access | system
deriving DecidableEq, Repr

/-- `PermissionMeta` without its two labels. -/
structure PermissionMeta where
  id : Permission
  group : PermissionGroupId
deriving DecidableEq, Repr

/-- `PERMISSION_CATALOG`. -/
def permissionCatalog : List PermissionMeta :=
  [⟨.hostsView, .hosts⟩, ⟨.hostsCreate, .hosts⟩, ⟨.hostsUpdate, .hosts⟩,
   ⟨.hostsCredentials, .hosts⟩, ⟨.hostsDelete, .hosts⟩, ⟨.hostsReboot, .hosts⟩,
   ⟨.hostsShutdown, .hosts⟩, ⟨.hostsConsole, .hosts⟩, ⟨.vmView, .vm⟩, ⟨.vmCreate, .vm⟩,
   ⟨.vmConfig, .vm⟩, ⟨.vmDelete, .vm⟩, ⟨.vmStart, .vm⟩, ⟨.vmShutdown, .vm⟩,
   ⟨.vmForceStop, .vm⟩, ⟨.vmReboot, .vm⟩, ⟨.vmReset, .vm⟩, ⟨.vmPause, .vm⟩, ⟨.vmResume, .vm⟩,
   ⟨.vmConsole, .vm⟩, ⟨.vmFilesRead, .vm⟩, ⟨.vmFilesWrite, .vm⟩, ⟨.vmSnapshotCreate, .vm⟩,
   ⟨.vmSnapshotDelete, .vm⟩, ⟨.vmSnapshotRollback, .vm⟩, ⟨.vmClone, .vm⟩, ⟨.vmMigrate, .vm⟩,
   ⟨.lxcView, .lxc⟩, ⟨.lxcCreate, .lxc⟩, ⟨.lxcConfig, .lxc⟩, ⟨.lxcDelete, .lxc⟩,
   ⟨.lxcStart, .lxc⟩, ⟨.lxcShutdown, .lxc⟩, ⟨.lxcForceStop, .lxc⟩, ⟨.lxcReboot, .lxc⟩,
   ⟨.lxcConsole, .lxc⟩, ⟨.lxcFilesRead, .lxc⟩, ⟨.lxcFilesWrite, .lxc⟩,
   ⟨.lxcSnapshotCreate, .lxc⟩, ⟨.lxcSnapshotDelete, .lxc⟩, ⟨.lxcSnapshotRollback, .lxc⟩,
   ⟨.lxcClone, .lxc⟩, ⟨.lxcMigrate, .lxc⟩, ⟨.storageView, .storage⟩,
   ⟨.storageDelete, .storage⟩, ⟨.zfsView, .storage⟩, ⟨.backupView, .backup⟩,
   ⟨.backupRun, .backup⟩, ⟨.backupRestore, .backup⟩, ⟨.backupDelete, .backup⟩,
   ⟨.backupJobCreate, .backup⟩, ⟨.backupJobUpdate, .backup⟩, ⟨.backupJobDelete, .backup⟩,
   ⟨.updatesView, .updates⟩, ⟨.updatesCheck, .updates⟩, ⟨.updatesUpgrade, .updates⟩,
   ⟨.proxoraUpdate, .updates⟩, ⟨.usersView, .access⟩, ⟨.usersCreate, .access⟩,
   ⟨.usersUpdate, .access⟩, ⟨.usersDelete, .access⟩, ⟨.rolesView, .access⟩,
   ⟨.rolesCreate, .access⟩, ⟨.rolesUpdate, .access⟩, ⟨.rolesDelete, .access⟩,
   ⟨.auditView, .system⟩, ⟨.tasksView, .system⟩, ⟨.tasksCancel, .system⟩,
   ⟨.settingsView, .system⟩, ⟨.settingsUpdate, .system⟩, ⟨.peersManage, .system⟩,
   ⟨.notificationsView, .system⟩, ⟨.notificationsCreate, .system⟩,
   ⟨.notificationsUpdate, .system⟩, ⟨.notificationsDelete, .system⟩]

/-- `LEGACY_PERMISSION_ALIASES`: old coarse role strings still stored in existing
databases. -/
def legacyPermissionAliases : List (String × List Permission) :=
  [("hosts.edit", [.hostsUpdate, .hostsCredentials]),
   ("vm.edit", [.vmConfig]),
   ("vm.files", [.vmFilesRead, .vmFilesWrite]),
   ("vm.stop", [.vmForceStop, .vmShutdown, .vmReboot, .vmReset, .vmPause, .vmResume]),
   ("vm.snapshot", [.vmSnapshotCreate, .vmSnapshotDelete, .vmSnapshotRollback]),
   ("lxc.edit", [.lxcConfig]),
   ("lxc.files", [.lxcFilesRead, .lxcFilesWrite]),
   ("lxc.stop", [.lxcForceStop, .lxcShutdown, .lxcReboot]),
   ("lxc.snapshot", [.lxcSnapshotCreate, .lxcSnapshotDelete, .lxcSnapshotRollback]),
   ("storage.manage", [.storageView, .storageDelete]),
   ("zfs.manage", [.zfsView]),
   ("backup.manage", [.backupRun, .backupRestore, .backupDelete, .backupJobCreate,
      .backupJobUpdate, .backupJobDelete]),
   ("updates.execute", [.updatesCheck, .updatesUpgrade, .proxoraUpdate]),
   ("users.manage", [.usersCreate, .usersUpdate, .usersDelete]),
   ("roles.manage", [.rolesCreate, .rolesUpdate, .rolesDelete]),
   ("settings.manage", [.settingsUpdate, .notificationsView, .notificationsCreate,
      .notificationsUpdate, .notificationsDelete])]

/-- The two guest kinds of the source, `"vm"` and `"lxc"`. -/
inductive GuestKind : Type
  | vm | lxc
deriving DecidableEq, Repr

/-- The text of a guest kind. -/
def GuestKind.name : GuestKind → String
  | .vm => "vm"
  | .lxc => "lxc"

/-- The template `${prefix}.…` of the source, its two values written out. -/
def GuestKind.pick {α : Type} (kind : GuestKind) (vm lxc : α) : α :=
  match kind with
  | .vm => vm
  | .lxc => lxc

/-! ## Granted strings -/

/-- `expandPermissions`; the set is read through membership only. -/
def expandPermissions : Option (List String) → List String
  | none => []
  | some granted =>
      granted.flatMap fun raw =>
        raw :: ((legacyPermissionAliases.lookup raw).getD []).map Permission.id

def sanitizePermissions (values : List String) : List Permission :=
  let expanded := expandPermissions (some values)
  allPermissions.filter fun p => expanded.contains p.id

def hasPermission (granted : Option (List String)) (required : Permission) : Bool :=
  (expandPermissions granted).contains required.id

def hasAnyPermission (granted : Option (List String)) (required : List Permission) : Bool :=
  let expanded := expandPermissions granted
  required.any fun p => expanded.contains p.id

/-! ## Catalogs -/

/-- `HOST_SCOPED_GROUP_IDS`. -/
def hostScopedGroupIds : List PermissionGroupId :=
  [.hosts, .vm, .lxc, .storage, .backup, .updates]

def isHostScopedPermission (id : Permission) : Bool :=
  if id = .hostsCreate || id = .proxoraUpdate then false
  else if id = .tasksView || id = .tasksCancel then true
  else
    match permissionCatalog.find? fun p => p.id = id with
    | some entry => hostScopedGroupIds.contains entry.group
    | none => false

def hostGrantCatalog : List PermissionMeta :=
  permissionCatalog.filter fun p => isHostScopedPermission p.id

def isGuestActionPermission (id : Permission) : Bool :=
  if id = .vmCreate || id = .lxcCreate then false
  else startsWith id.id "vm." || startsWith id.id "lxc."

def guestGrantCatalog (kind : GuestKind) : List PermissionMeta :=
  permissionCatalog.filter fun p =>
    p.group = kind.pick .vm .lxc && isGuestActionPermission p.id

def normalizeGuestPermissions (kind : GuestKind) (granted : List String) : List Permission :=
  let allowed := (guestGrantCatalog kind).map (·.id)
  let kept := (sanitizePermissions granted).filter allowed.contains
  let viewed := kept ++ [kind.pick .vmView .lxcView]
  let out :=
    if viewed.contains (kind.pick .vmFilesWrite .lxcFilesWrite) then
      viewed ++ [kind.pick .vmFilesRead .lxcFilesRead]
    else viewed
  allPermissions.filter out.contains

/-! ## A user's permissions -/

/-- `GuestPermissionRef`, also the `GuestScope` of `lib/guest-scope.ts`. -/
structure GuestScope where
  hostId : String
  kind : GuestKind
  vmid : Int
deriving DecidableEq, Repr

/-- `guestPermissionKey`, also `guestScopeKey`. -/
def guestScopeKey (guest : GuestScope) : String :=
  guest.hostId ++ ":" ++ guest.kind.name ++ ":" ++ toString guest.vmid

/-- `Record<string, string[] | null>`, in insertion order. -/
abbrev PermissionRecord := List (String × Option (List String))

/-- `PermissionHolder`. -/
structure PermissionHolder where
  rolePermissions : Option (List String)
  hostPermissions : Option PermissionRecord
  guestPermissions : Option PermissionRecord

/-- The entry `record?.[key]`; an absent key and a `null` entry are both falsy. -/
def override (record : Option PermissionRecord) (key : String) : Option (List String) :=
  record.bind fun entries => (entries.lookup key).join

/-- `Object.values(record).some(granted => …)` over the entries that are lists. -/
def someOverride (record : Option PermissionRecord) (required : Permission) : Bool :=
  (record.getD []).any fun entry =>
    match entry.2 with
    | some granted => hasPermission (some granted) required
    | none => false

/-- `userHasPermission`: guest overrides win for actions on that guest, host
overrides win otherwise, the role decides the rest.  Without a host a
host-scoped permission is granted when the role or any override has it. -/
def userHasPermission (holder : PermissionHolder) (required : Permission)
    (hostId : Option String) (guest : Option GuestScope) : Bool :=
  let role := holder.rolePermissions
  if !isHostScopedPermission required then hasPermission role required
  else
    let guestOverride :=
      if isGuestActionPermission required then
        guest.bind fun g => override holder.guestPermissions (guestScopeKey g)
      else none
    match guestOverride with
    | some granted => hasPermission (some granted) required
    | none =>
        match hostId.filter (· ≠ "") with
        | some id =>
            match override holder.hostPermissions id with
            | some granted => hasPermission (some granted) required
            | none => hasPermission role required
        | none =>
            hasPermission role required || someOverride holder.hostPermissions required ||
              someOverride holder.guestPermissions required

def userHasAnyPermission (holder : PermissionHolder) (required : List Permission)
    (hostId : Option String) (guest : Option GuestScope) : Bool :=
  required.any fun p => userHasPermission holder p hostId guest

/-! ## Permissions of actions -/

def permissionForGuestAction (kind : GuestKind) (action : String) : Permission :=
  match action with
  | "start" | "sendkey" | "nudge-cd-boot" => kind.pick .vmStart .lxcStart
  | "stop" => kind.pick .vmForceStop .lxcForceStop
  | "shutdown" => kind.pick .vmShutdown .lxcShutdown
  | "reboot" => kind.pick .vmReboot .lxcReboot
  | "reset" => .vmReset
  | "pause" => .vmPause
  | "resume" => .vmResume
  | "delete" => kind.pick .vmDelete .lxcDelete
  | "clone" => kind.pick .vmClone .lxcClone
  | "migrate" => kind.pick .vmMigrate .lxcMigrate
  | "snapshot" => kind.pick .vmSnapshotCreate .lxcSnapshotCreate
  | "snapshot-delete" => kind.pick .vmSnapshotDelete .lxcSnapshotDelete
  | "snapshot-rollback" => kind.pick .vmSnapshotRollback .lxcSnapshotRollback
  | "config" | "resize" => kind.pick .vmConfig .lxcConfig
  | _ => kind.pick .vmView .lxcView

def backupPermissionForAction (action : String) : Permission :=
  match action with
  | "create-job" => .backupJobCreate
  | "update-job" => .backupJobUpdate
  | "delete-job" => .backupJobDelete
  | "run" | "run-job" => .backupRun
  | "restore" => .backupRestore
  | "delete-file" | "cleanup-orphans" => .backupDelete
  | _ => .backupView

/-! ## Lists of known ids -/

/-- No id of the catalog is an old coarse string. -/
theorem legacyPermissionAliases_lookup_id (p : Permission) :
    legacyPermissionAliases.lookup p.id = none := by
  cases p <;> decide

/-- The id determines the permission. -/
theorem Permission.id_injective : Function.Injective Permission.id := by
  have inverse : Function.LeftInverse
      (fun s => (allPermissions.find? fun p => p.id = s).getD .hostsView) Permission.id := by
    intro p
    cases p <;> decide
  exact inverse.injective

/-- A list of known ids expands to itself. -/
theorem expandPermissions_ids (granted : List Permission) :
    expandPermissions (some (granted.map Permission.id)) = granted.map Permission.id := by
  induction granted with
  | nil => rfl
  | cons p rest ih =>
      simp only [expandPermissions, List.map_cons, List.flatMap_cons,
        legacyPermissionAliases_lookup_id] at ih ⊢
      rw [ih]
      rfl

/-- On known ids the test is membership. -/
theorem hasPermission_ids (granted : List Permission) (required : Permission) :
    hasPermission (some (granted.map Permission.id)) required = true ↔ required ∈ granted := by
  rw [hasPermission, expandPermissions_ids, List.contains_iff_mem,
    List.mem_map_of_injective Permission.id_injective]

theorem hasAnyPermission_ids (granted required : List Permission) :
    hasAnyPermission (some (granted.map Permission.id)) required = true ↔
      ∃ p ∈ required, p ∈ granted := by
  simp only [hasAnyPermission, expandPermissions_ids, List.any_eq_true, List.contains_iff_mem,
    List.mem_map_of_injective Permission.id_injective]

end Proxora
