import Proxora.Ecma.SlashPattern
import Proxora.Ecma.Value
import Proxora.Permissions

/-!
# Federation access

`lib/federation-access.ts`: the permission that a proxied Proxmox call needs,
and what a host share grants.  The path patterns carry the source's regular
expressions in their docstrings.
-/

namespace Proxora

open Ecma

/-- `ShareLevel`. -/
inductive ShareLevel : Type
  | view | control | create
deriving DecidableEq, Repr

/-- `SHARE_VIEW`. -/
def shareView : List Permission :=
  [.hostsView, .vmView, .lxcView, .storageView, .zfsView, .backupView, .updatesView, .tasksView]

/-- `SHARE_CREATE_ONLY`. -/
def shareCreateOnly : List Permission := [.vmCreate, .vmClone, .lxcCreate, .lxcClone]

/-- `SHARE_DEFAULT_DENY`. -/
def shareDefaultDeny : List Permission :=
  [.hostsConsole, .hostsDelete, .hostsCredentials, .updatesCheck, .updatesUpgrade]

def permissionsForShareLevel (level : ShareLevel) : List Permission :=
  let catalog := hostGrantCatalog.map (·.id)
  match level with
  | .view => shareView.filter catalog.contains
  | .control => catalog.filter fun p => !(shareDefaultDeny ++ shareCreateOnly).contains p
  | .create => catalog.filter fun p => !shareDefaultDeny.contains p

def effectiveSharePermissions (level : ShareLevel) (permissions : List String) : List Permission :=
  if permissions ≠ [] then
    (sanitizePermissions permissions).filter fun p => hostGrantCatalog.any (·.id = p)
  else permissionsForShareLevel level

def shareHasPermission (level : ShareLevel) (permissions : List String)
    (needed : List Permission) : Bool :=
  hasAnyPermission (some ((effectiveSharePermissions level permissions).map Permission.id)) needed

/-! ## Path patterns -/

/-- `/\/nodes\/[^/]+\/…$/i`, the segments after the node given. -/
def nodePath (segments : List Text) : Regex :=
  endsIn (.word "nodes" :: .name :: segments.map .word)

/-- A word of a pattern: no capitals, no slash, not a number. -/
def IsPatternWord (w : Text) : Prop :=
  Lower w ∧ '/' ∉ w.map Char.toLower ∧ w.all Char.isDigit = false

instance (w : Text) : Decidable (IsPatternWord w) :=
  inferInstanceAs (Decidable (Lower w ∧ '/' ∉ w.map Char.toLower ∧ w.all Char.isDigit = false))

theorem nodePath_plain {segments : List Text} (bare : ∀ w ∈ segments, '/' ∉ w.map Char.toLower) :
    ∀ p ∈ Piece.word "nodes" :: .name :: segments.map .word, p.Plain := by
  intro p member
  rcases List.mem_cons.mp member with rfl | member
  · decide
  rcases List.mem_cons.mp member with rfl | member
  · exact trivial
  obtain ⟨w, inside, rfl⟩ := List.mem_map.mp member
  intro v only
  rw [List.mem_singleton] at only
  exact only ▸ bare w inside

/-- `/\/nodes\/[^/]+\/status\/stopall$/i` or `/\/nodes\/[^/]+\/startall$/i`. -/
def isMassPower (lower : Text) : Bool :=
  (nodePath ["status", "stopall"]).test lower || (nodePath ["startall"]).test lower

/-- `/\/(qemu|lxc)\//i`. -/
def isUnderGuests (lower : Text) : Bool := (inside (.oneOf ["qemu", "lxc"])).test lower

/-- `/\/qemu\//i` or `/\/nodes\/[^/]+\/qemu$/i`; the same with `lxc`. -/
def isGuestPath (kind : GuestKind) (lower : Text) : Bool :=
  (inside (.word (kind.pick "qemu" "lxc"))).test lower ||
    (nodePath [kind.pick "qemu" "lxc"]).test lower

/-! ## The needed permission -/

/-- `FederationExtra`. -/
structure FederationExtra where
  query : Option (Record Text)
  body : Option (Record Value)

def extraCmd (extra : Option FederationExtra) : Text :=
  let fromBody : Value :=
    match extra.bind (·.body) with
    | some body => (body.get "cmd").orElse (body.get "command")
    | none => .undefined
  let fromQuery : Value :=
    match extra.bind (·.query) with
    | some query =>
        ((query.map Value.str).get "cmd").orElse ((query.map Value.str).get "command")
    | none => .undefined
  toLowerCase ((fromBody.orElse fromQuery).orElse (.str "")).toText

/-- `Permission | Permission[] | "deny"`. -/
inductive FederationNeed : Type
  | deny
  | one (p : Permission)
  | anyOf (ps : List Permission)
deriving DecidableEq, Repr

/-- The needed permissions as a list, as `shareHasPermission` reads them. -/
def FederationNeed.list : FederationNeed → List Permission
  | .deny => []
  | .one p => [p]
  | .anyOf ps => ps

/-- The tests of `guestActionPermission` that only look at how the path ends, in
the order of the source. -/
def guestActionRules (kind : GuestKind) : List (Regex × Permission) :=
  [(endsIn [.word "status", .word "start"], kind.pick .vmStart .lxcStart),
   (endsIn [.word "status", .word "stop"], kind.pick .vmForceStop .lxcForceStop),
   (endsIn [.word "status", .word "shutdown"], kind.pick .vmShutdown .lxcShutdown),
   (endsIn [.word "status", .word "reboot"], kind.pick .vmReboot .lxcReboot),
   (endsIn [.word "status", .word "reset"], .vmReset),
   (endsIn [.word "status", .word "suspend"], .vmPause),
   (endsIn [.word "status", .word "resume"], .vmResume),
   (endsIn [.word "clone"], kind.pick .vmClone .lxcClone),
   (endsIn [.word "migrate"], kind.pick .vmMigrate .lxcMigrate),
   (endsIn [.oneOf ["termproxy", "vncproxy", "vncwebsocket"]], kind.pick .vmConsole .lxcConsole),
   (endsIn [.word "snapshot", .name, .word "rollback"],
      kind.pick .vmSnapshotRollback .lxcSnapshotRollback)]

def guestActionPermission (kind : GuestKind) (method lower : Text) : Permission :=
  match (guestActionRules kind).find? fun rule => rule.1.test lower with
  | some rule => rule.2
  | none =>
      if (insideOrEnd (.word "snapshot")).test lower then
        if method = "DELETE" then kind.pick .vmSnapshotDelete .lxcSnapshotDelete
        else if method = "POST" then kind.pick .vmSnapshotCreate .lxcSnapshotCreate
        else kind.pick .vmView .lxcView
      else if method = "DELETE" then kind.pick .vmDelete .lxcDelete
      else if method = "PUT" || method = "POST" then kind.pick .vmConfig .lxcConfig
      else kind.pick .vmView .lxcView

/-- `m === "GET" || m === "HEAD"`. -/
def isReadMethod (m : Text) : Bool := m = "GET" || m = "HEAD"

/-- `federationPermission` from its storage rules on.  A rule that matches the
path but not the method falls through to the next one: `none`. -/
def federationStorageRule (m lower : Text) : FederationNeed :=
  let backupStorage : Option FederationNeed :=
    if includes lower "/storage/" && (includes lower "backup" || includes lower "vzdump") then
      if isReadMethod m then some (.one .backupView)
      else if m = "DELETE" then some (.one .backupDelete)
      else if m = "POST" && (Regex.litI "restore").test lower then some (.one .backupRestore)
      else if m = "POST" then some (.one .backupRun)
      else none
    else none
  let vzdump : Option FederationNeed :=
    if includes lower "vzdump" then
      if isReadMethod m then some (.one .backupView)
      else if m = "POST" then some (.one .backupRun)
      else none
    else none
  let storage : Option FederationNeed :=
    if includes lower "/storage/" then
      if isReadMethod m then some (.one .storageView)
      else if m = "DELETE" then some (.one .storageDelete)
      else none
    else none
  let rest : FederationNeed :=
    if includes lower "/disks/" || includes lower "/zfs" then .one .zfsView
    else if includes lower "/tasks" then
      if m = "DELETE" || ((endsIn [.word "status"]).test lower && m = "POST") then
        .one .tasksCancel
      else .one .tasksView
    else if isReadMethod m then .one .hostsView
    else .deny
  (backupStorage <|> vzdump <|> storage).getD rest

/-- `federationPermission` from its guest rules on. -/
def federationGuestRule (m lower : Text) : FederationNeed :=
  if m = "POST" && (nodePath ["qemu"]).test lower then .one .vmCreate
  else if m = "POST" && (nodePath ["lxc"]).test lower then .one .lxcCreate
  else if isGuestPath .vm lower then
    if isReadMethod m then .one .vmView else .one (guestActionPermission .vm m lower)
  else if isGuestPath .lxc lower then
    if isReadMethod m then .one .lxcView else .one (guestActionPermission .lxc m lower)
  else federationStorageRule m lower

/-- `federationPermission` once the method is in capitals and the path is in
lower case and without query. -/
def federationRule (m lower : Text) (extra : Option FederationExtra) : FederationNeed :=
  if isMassPower lower then .deny
  else if includes lower "/apt/" then
    if isReadMethod m then .one .updatesView
    else if m = "POST" && (endsIn [.word "apt", .word "update"]).test lower then .one .updatesCheck
    else .deny
  else if (nodePath ["status"]).test lower && m = "POST" && !isUnderGuests lower then
    if extraCmd extra = "reboot" then .one .hostsReboot
    else if extraCmd extra = "shutdown" then .one .hostsShutdown
    else .deny
  else if (nodePath ["status", "reboot"]).test lower then
    if m = "POST" then .one .hostsReboot else .one .hostsView
  else if (nodePath ["status", "shutdown"]).test lower then
    if m = "POST" then .one .hostsShutdown else .one .hostsView
  else if (nodePath ["termproxy"]).test lower && !isUnderGuests lower then
    if extraCmd extra = "upgrade" then .one .updatesUpgrade else .one .hostsConsole
  else if (nodePath ["vncshell"]).test lower && !isUnderGuests lower then .one .hostsConsole
  else if (nodePath ["vncwebsocket"]).test lower && !isUnderGuests lower then
    .anyOf [.hostsConsole, .updatesUpgrade]
  else federationGuestRule m lower

/-- `(path.split("?")[0] ?? "").toLowerCase()`. -/
def lowerPath (path : Text) : Text := toLowerCase ((split '?' path).headD [])

/-- Fine-grained permission for a proxied Proxmox call. -/
def federationPermission (method path : Text) (extra : Option FederationExtra) : FederationNeed :=
  federationRule (toUpperCase method) (lowerPath path) extra

/-! ## The share check -/

/-- `HostOrigin`. -/
inductive HostOrigin : Type
  | localHost | peer
deriving DecidableEq, Repr

/-- A `HostShare` row together with the origin of its host. -/
structure HostShare where
  level : ShareLevel
  permissions : List String
  hostOrigin : HostOrigin

/-- `AppError` with its code, its message and its HTTP status. -/
structure AppError where
  code : String
  message : String
  status : Nat
deriving DecidableEq, Repr

def notFoundError (message : String) : AppError := ⟨"NOT_FOUND", message, 404⟩
def forbiddenError (message : String) : AppError := ⟨"FORBIDDEN", message, 403⟩
def validationError (message : String) : AppError := ⟨"VALIDATION_ERROR", message, 400⟩

/-- `assertSharedHost`, given what the share lookup found. -/
def assertSharedHost (share : Option HostShare) (method path : Text)
    (extra : Option FederationExtra) : Except AppError Unit :=
  match share with
  | none => .error (notFoundError "Host not shared")
  | some share =>
      if share.hostOrigin ≠ .localHost then .error (notFoundError "Host not shared")
      else
        let needed := federationPermission method path extra
        if needed = .deny ∨ !shareHasPermission share.level share.permissions needed.list then
          .error (forbiddenError "This host is not shared at that level")
        else .ok ()

end Proxora
