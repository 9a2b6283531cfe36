import Proxora.Permissions

/-!
# Host and guest scope

`lib/guest-scope.ts` and `toSessionUser` of `server/auth/session-core.ts`: from
the access rows of a user to the hosts and guests the user may touch.  An
absent allow-list allows everything.

`canAccessHost_iff` and `canAccessGuest_iff` read the two tests of a session
off the rows it was built from.
-/

namespace Proxora

open Ecma

/-- `AccessScope`; `none` is `null`. -/
structure AccessScope where
  allowedHostIds : Option (List String)
  allowedGuests : Option (List GuestScope)

/-- `HostAccessGrant`. -/
structure HostAccessGrant where
  hostId : String
  permissions : List String
  override : Bool
deriving DecidableEq, Repr

/-- `GuestAccessGrant`; the kind is the text of a database column. -/
structure GuestAccessGrant where
  hostId : String
  kind : String
  vmid : Int
  permissions : List String
  override : Bool
deriving DecidableEq, Repr

def parseGuestKind (value : String) : Option GuestKind :=
  if value = "vm" then some .vm else if value = "lxc" then some .lxc else none

theorem parseGuestKind_name (kind : GuestKind) : parseGuestKind kind.name = some kind := by
  cases kind <;> rfl

/-- The guest a row names, when its kind is one. -/
def GuestAccessGrant.scope? (row : GuestAccessGrant) : Option GuestScope :=
  (parseGuestKind row.kind).map fun kind => ⟨row.hostId, kind, row.vmid⟩

theorem GuestAccessGrant.hostId_of_scope? {row : GuestAccessGrant} {guest : GuestScope}
    (named : row.scope? = some guest) : guest.hostId = row.hostId := by
  obtain ⟨kind, _, rfl⟩ := Option.map_eq_some_iff.mp named
  rfl

/-- `record[key] = value`. -/
def PermissionRecord.set : PermissionRecord → String → Option (List String) → PermissionRecord
  | [], key, value => [(key, value)]
  | (k, v) :: rest, key, value =>
      if k = key then (key, value) :: rest else (k, v) :: PermissionRecord.set rest key value

/-- The list of an overriding row, `null` for the others. -/
def overrideOf (override : Bool) (permissions : List String) : Option (List String) :=
  if override then some permissions else none

/-- What `sessionScopeFromGrants` returns. -/
structure GrantedScope extends AccessScope where
  hostPermissions : Option PermissionRecord
  guestPermissions : Option PermissionRecord

/-- `null` for a record without keys. -/
def nonEmptyRecord (record : PermissionRecord) : Option PermissionRecord :=
  if record.isEmpty then none else some record

def sessionScopeFromGrants (hostAccess : List HostAccessGrant)
    (guestAccess : List GuestAccessGrant) : GrantedScope :=
  let guests := guestAccess.filterMap GuestAccessGrant.scope?
  let hostFromAccess := hostAccess.map (·.hostId)
  let hostFromGuests := guests.map (·.hostId)
  let allowedHostIds :=
    if hostFromAccess ≠ [] then some hostFromAccess.eraseDups
    else if hostFromGuests ≠ [] then some hostFromGuests.eraseDups
    else none
  let ownHosts := hostAccess.foldl
    (fun record row =>
      PermissionRecord.set record row.hostId (overrideOf row.override row.permissions)) []
  let hostPermissions := hostFromGuests.foldl
    (fun record hostId =>
      if (record.lookup hostId).isSome then record else PermissionRecord.set record hostId none)
    ownHosts
  let guestPermissions := guestAccess.foldl
    (fun record row =>
      match row.scope? with
      | none => record
      | some guest =>
          PermissionRecord.set record (guestScopeKey guest)
            (overrideOf row.override row.permissions)) []
  { allowedHostIds
    allowedGuests := if guests ≠ [] then some guests else none
    hostPermissions := nonEmptyRecord hostPermissions
    guestPermissions := nonEmptyRecord guestPermissions }

/-- Empty host and guest grants mean all hosts only when the role can see hosts. -/
def lockHostsWithoutHostView (allowedHostIds : Option (List String)) (hasHostView : Bool) :
    Option (List String) :=
  if allowedHostIds = none ∧ !hasHostView then some [] else allowedHostIds

def canAccessHost (user : AccessScope) (hostId : String) : Bool :=
  match user.allowedHostIds with
  | none => true
  | some ids => ids.contains hostId

def canAccessGuest (user : AccessScope) (hostId : String) (kind : GuestKind) (vmid : Int) : Bool :=
  if !canAccessHost user hostId then false
  else
    match user.allowedGuests with
    | none => true
    | some guests => guests.any fun g => g.hostId = hostId && g.kind = kind && g.vmid = vmid

def filterGuestsForUser {α : Type} (vmidOf : α → Int) (user : AccessScope) (hostId : String)
    (kind : GuestKind) (items : List α) : List α :=
  if !canAccessHost user hostId then []
  else
    match user.allowedGuests with
    | none => items
    | some guests =>
        let allowed := (guests.filter fun g => g.hostId = hostId && g.kind = kind).map (·.vmid)
        items.filter fun item => allowed.contains (vmidOf item)

/-! ## Sessions -/

/-- `SessionUser`, as far as scope and permissions go. -/
structure SessionUser extends AccessScope where
  id : String
  rolePermissions : List String
  hostPermissions : Option PermissionRecord
  guestPermissions : Option PermissionRecord

/-- The user row with its role and its access rows, as `toSessionUser` gets it. -/
structure SessionUserSource where
  id : String
  rolePermissions : List String
  hostAccess : List HostAccessGrant
  guestAccess : List GuestAccessGrant

/-- The lists of a record, sanitised. -/
def sanitizeRecord (record : PermissionRecord) : PermissionRecord :=
  record.map fun entry =>
    (entry.1, entry.2.map fun granted => (sanitizePermissions granted).map Permission.id)

def toSessionUser (user : SessionUserSource) : SessionUser :=
  let scope := sessionScopeFromGrants user.hostAccess user.guestAccess
  { id := user.id
    rolePermissions := user.rolePermissions
    allowedHostIds := lockHostsWithoutHostView scope.allowedHostIds
      (hasPermission (some user.rolePermissions) .hostsView)
    allowedGuests := scope.allowedGuests
    hostPermissions := scope.hostPermissions.map sanitizeRecord
    guestPermissions := scope.guestPermissions.map sanitizeRecord }

/-- The session as `userHasPermission` reads it. -/
def SessionUser.holder (user : SessionUser) : PermissionHolder where
  rolePermissions := some user.rolePermissions
  hostPermissions := user.hostPermissions
  guestPermissions := user.guestPermissions

/-! ## Reading the scope off the rows -/

/-- The hosts a user is bound to by rows of either kind, host rows first. -/
def SessionUserSource.hosts (source : SessionUserSource) : List String :=
  source.hostAccess.map (·.hostId)

/-- The guests the rows name. -/
def SessionUserSource.guests (source : SessionUserSource) : List GuestScope :=
  source.guestAccess.filterMap GuestAccessGrant.scope?

/-- The role sees hosts. -/
def SessionUserSource.seesHosts (source : SessionUserSource) : Bool :=
  hasPermission (some source.rolePermissions) .hostsView

theorem toSessionUser_allowedHostIds (source : SessionUserSource) :
    (toSessionUser source).allowedHostIds =
      lockHostsWithoutHostView
        (if source.hosts ≠ [] then some source.hosts.eraseDups
          else if source.guests.map (·.hostId) ≠ [] then
            some (source.guests.map (·.hostId)).eraseDups
          else none)
        source.seesHosts :=
  rfl

theorem toSessionUser_allowedGuests (source : SessionUserSource) :
    (toSessionUser source).allowedGuests =
      if source.guests ≠ [] then some source.guests else none :=
  rfl

/-- Host rows decide; without any, guest rows; without either, the role. -/
theorem canAccessHost_iff (source : SessionUserSource) (hostId : String) :
    canAccessHost (toSessionUser source).toAccessScope hostId = true ↔
      if source.hosts ≠ [] then hostId ∈ source.hosts
      else if source.guests ≠ [] then ∃ guest ∈ source.guests, guest.hostId = hostId
      else source.seesHosts = true := by
  rw [canAccessHost, toSessionUser_allowedHostIds, lockHostsWithoutHostView]
  by_cases hosts : source.hosts = []
  · by_cases guests : source.guests = []
    · cases sees : source.seesHosts <;> simp [hosts, guests]
    · simp [hosts, guests, List.mem_eraseDups]
  · simp [hosts, List.mem_eraseDups]

/-- Without guest rows every guest of an allowed host is allowed. -/
theorem canAccessGuest_iff (source : SessionUserSource) (guest : GuestScope) :
    canAccessGuest (toSessionUser source).toAccessScope guest.hostId guest.kind guest.vmid = true ↔
      canAccessHost (toSessionUser source).toAccessScope guest.hostId = true ∧
        (source.guests = [] ∨ guest ∈ source.guests) := by
  unfold canAccessGuest
  cases host : canAccessHost (toSessionUser source).toAccessScope guest.hostId with
  | false => simp
  | true =>
      rw [toSessionUser_allowedGuests]
      by_cases guests : source.guests = []
      · simp [guests]
      · have named : ∀ g : GuestScope, (g.hostId = guest.hostId && g.kind = guest.kind &&
            g.vmid = guest.vmid : Bool) = true ↔ g = guest := by
          intro g
          cases g
          cases guest
          simp [and_assoc]
        simp only [Bool.not_true, Bool.false_eq_true, if_false, ne_eq, guests, not_false_eq_true,
          if_true, List.any_eq_true, named, exists_eq_right, true_and, false_or]

end Proxora
