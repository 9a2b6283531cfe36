import Proxora.FederationAccess
import Proxora.GuestScope

/-!
# The tables behind users and hosts

The part of `prisma/schema.prisma` that user administration and scope work on.
A `Database` carries the unique keys and foreign keys of the schema, so a
statement is a function on the bare `Tables` followed by `Database.commit`,
which succeeds when the constraints still hold.
-/

namespace Proxora

/-- `UserStatus`. -/
inductive UserStatus : Type
  | active | disabled
deriving DecidableEq, Repr

structure RoleRow where
  id : String
  permissions : List String
deriving DecidableEq, Repr

structure UserRow where
  id : String
  username : String
  email : String
  passwordHash : String
  status : UserStatus
  roleId : String
deriving DecidableEq, Repr

/-- A `Session` row; only whose it is. -/
structure SessionRow where
  id : String
  userId : String
deriving DecidableEq, Repr

/-- A `Host` row; only what identifies it and where it comes from. -/
structure HostRow where
  id : String
  origin : HostOrigin
  peerId : Option String
  remoteHostId : Option String
deriving DecidableEq, Repr

structure UserHostAccess extends HostAccessGrant where
  userId : String
deriving DecidableEq, Repr

structure UserGuestAccess extends GuestAccessGrant where
  userId : String
deriving DecidableEq, Repr

structure Tables where
  roles : List RoleRow
  users : List UserRow
  sessions : List SessionRow
  hosts : List HostRow
  hostAccess : List UserHostAccess
  guestAccess : List UserGuestAccess
deriving DecidableEq, Repr

/-- `@@id([userId, hostId])`. -/
def UserHostAccess.key (row : UserHostAccess) : String × String := (row.userId, row.hostId)

/-- `@@id([userId, hostId, kind, vmid])`. -/
def UserGuestAccess.key (row : UserGuestAccess) : String × String × String × Int :=
  (row.userId, row.hostId, row.kind, row.vmid)

/-- The unique keys and foreign keys of the schema. -/
structure Tables.Consistent (t : Tables) : Prop where
  roleIds : (t.roles.map (·.id)).Nodup
  userIds : (t.users.map (·.id)).Nodup
  usernames : (t.users.map (·.username)).Nodup
  emails : (t.users.map (·.email)).Nodup
  sessionIds : (t.sessions.map (·.id)).Nodup
  hostIds : (t.hosts.map (·.id)).Nodup
  hostAccessKeys : (t.hostAccess.map (·.key)).Nodup
  guestAccessKeys : (t.guestAccess.map (·.key)).Nodup
  userRole : ∀ user ∈ t.users, user.roleId ∈ t.roles.map (·.id)
  sessionUser : ∀ row ∈ t.sessions, row.userId ∈ t.users.map (·.id)
  hostAccessUser : ∀ row ∈ t.hostAccess, row.userId ∈ t.users.map (·.id)
  hostAccessHost : ∀ row ∈ t.hostAccess, row.hostId ∈ t.hosts.map (·.id)
  guestAccessUser : ∀ row ∈ t.guestAccess, row.userId ∈ t.users.map (·.id)
  guestAccessHost : ∀ row ∈ t.guestAccess, row.hostId ∈ t.hosts.map (·.id)

theorem Tables.consistent_iff (t : Tables) :
    t.Consistent ↔
      (t.roles.map (·.id)).Nodup ∧ (t.users.map (·.id)).Nodup ∧
      (t.users.map (·.username)).Nodup ∧ (t.users.map (·.email)).Nodup ∧
      (t.sessions.map (·.id)).Nodup ∧ (t.hosts.map (·.id)).Nodup ∧
      (t.hostAccess.map (·.key)).Nodup ∧ (t.guestAccess.map (·.key)).Nodup ∧
      (∀ user ∈ t.users, user.roleId ∈ t.roles.map (·.id)) ∧
      (∀ row ∈ t.sessions, row.userId ∈ t.users.map (·.id)) ∧
      (∀ row ∈ t.hostAccess, row.userId ∈ t.users.map (·.id)) ∧
      (∀ row ∈ t.hostAccess, row.hostId ∈ t.hosts.map (·.id)) ∧
      (∀ row ∈ t.guestAccess, row.userId ∈ t.users.map (·.id)) ∧
      (∀ row ∈ t.guestAccess, row.hostId ∈ t.hosts.map (·.id)) := by
  constructor
  · rintro ⟨a, b, c, d, e, f, g, h, i, j, k, l, m, n⟩
    exact ⟨a, b, c, d, e, f, g, h, i, j, k, l, m, n⟩
  · rintro ⟨a, b, c, d, e, f, g, h, i, j, k, l, m, n⟩
    exact ⟨a, b, c, d, e, f, g, h, i, j, k, l, m, n⟩

instance (t : Tables) : Decidable t.Consistent := decidable_of_iff' _ t.consistent_iff

/-- The stored state. -/
structure Database extends Tables where
  consistent : toTables.Consistent

/-- A statement takes effect when its result satisfies the constraints. -/
def Database.commit (t : Tables) : Option Database :=
  if ok : t.Consistent then some ⟨t, ok⟩ else none

theorem Database.commit_eq_some {t : Tables} {db : Database} (done : Database.commit t = some db) :
    db.toTables = t := by
  unfold Database.commit at done
  split at done
  · rw [Option.some.injEq] at done
    rw [← done]
  · cases done

/-! ## Deleting a host -/

/-- `prisma.host.delete`: the access rows of the host go with it. -/
def Tables.deleteHost (t : Tables) (id : String) : Tables where
  roles := t.roles
  users := t.users
  sessions := t.sessions
  hosts := t.hosts.filter (·.id ≠ id)
  hostAccess := t.hostAccess.filter (·.hostId ≠ id)
  guestAccess := t.guestAccess.filter (·.hostId ≠ id)

/-- The cascade keeps the constraints. -/
theorem Tables.Consistent.deleteHost {t : Tables} (ok : t.Consistent) (id : String) :
    (t.deleteHost id).Consistent where
  roleIds := ok.roleIds
  userIds := ok.userIds
  usernames := ok.usernames
  emails := ok.emails
  sessionIds := ok.sessionIds
  hostIds := ok.hostIds.sublist (List.filter_sublist.map _)
  hostAccessKeys := ok.hostAccessKeys.sublist (List.filter_sublist.map _)
  guestAccessKeys := ok.guestAccessKeys.sublist (List.filter_sublist.map _)
  userRole := ok.userRole
  sessionUser := ok.sessionUser
  hostAccessUser := fun row member => ok.hostAccessUser row (List.mem_of_mem_filter member)
  hostAccessHost := by
    intro row member
    obtain ⟨kept, other⟩ := List.mem_filter.mp member
    obtain ⟨host, inHosts, same⟩ := List.mem_map.mp (ok.hostAccessHost row kept)
    exact List.mem_map.mpr ⟨host, List.mem_filter.mpr ⟨inHosts, by rw [same]; exact other⟩, same⟩
  guestAccessUser := fun row member => ok.guestAccessUser row (List.mem_of_mem_filter member)
  guestAccessHost := by
    intro row member
    obtain ⟨kept, other⟩ := List.mem_filter.mp member
    obtain ⟨host, inHosts, same⟩ := List.mem_map.mp (ok.guestAccessHost row kept)
    exact List.mem_map.mpr ⟨host, List.mem_filter.mpr ⟨inHosts, by rw [same]; exact other⟩, same⟩

def Database.deleteHost (db : Database) (id : String) : Database :=
  ⟨db.toTables.deleteHost id, db.consistent.deleteHost id⟩

/-- Several hosts deleted one after the other. -/
def Database.deleteHosts (db : Database) (ids : List String) : Database :=
  ids.foldl Database.deleteHost db

theorem Database.deleteHosts_tables (db : Database) (ids : List String) :
    (db.deleteHosts ids).toTables =
      { roles := db.roles
        users := db.users
        sessions := db.sessions
        hosts := db.hosts.filter (·.id ∉ ids)
        hostAccess := db.hostAccess.filter (·.hostId ∉ ids)
        guestAccess := db.guestAccess.filter (·.hostId ∉ ids) } := by
  induction ids generalizing db with
  | nil => simp [Database.deleteHosts]
  | cons id ids ih =>
      have tail := ih (db.deleteHost id)
      rw [Database.deleteHosts, List.foldl_cons, ← Database.deleteHosts, tail]
      simp only [Database.deleteHost, Tables.deleteHost, List.filter_filter, List.mem_cons, not_or,
        ne_eq, Bool.decide_and, Bool.and_comm]

/-! ## Sessions -/

/-- The row of a user with its role and its access rows. -/
def Database.sourceOf (db : Database) (user : UserRow) : SessionUserSource where
  id := user.id
  rolePermissions := ((db.roles.find? (·.id = user.roleId)).map (·.permissions)).getD []
  hostAccess := (db.hostAccess.filter (·.userId = user.id)).map (·.toHostAccessGrant)
  guestAccess := (db.guestAccess.filter (·.userId = user.id)).map (·.toGuestAccessGrant)

/-- The session a user gets. -/
def Database.session (db : Database) (user : UserRow) : SessionUser :=
  toSessionUser (db.sourceOf user)

/-- The hosts of the database. -/
def Database.hostIds (db : Database) : List String := db.hosts.map (·.id)

theorem Database.mem_hosts_sourceOf {db : Database} {user : UserRow} {id : String}
    (member : id ∈ (db.sourceOf user).hosts) : id ∈ db.hostIds := by
  obtain ⟨grant, inGrants, rfl⟩ := List.mem_map.mp member
  obtain ⟨row, inRows, rfl⟩ := List.mem_map.mp inGrants
  exact db.consistent.hostAccessHost row (List.mem_of_mem_filter inRows)

theorem Database.mem_guests_sourceOf {db : Database} {user : UserRow} {guest : GuestScope}
    (member : guest ∈ (db.sourceOf user).guests) : guest.hostId ∈ db.hostIds := by
  obtain ⟨grant, inGrants, named⟩ := List.mem_filterMap.mp member
  obtain ⟨row, inRows, rfl⟩ := List.mem_map.mp inGrants
  rw [GuestAccessGrant.hostId_of_scope? named]
  exact db.consistent.guestAccessHost row (List.mem_of_mem_filter inRows)

end Proxora
