import Proxora.Database
import Proxora.Steps

/-!
# Updating a user

`updateUser` of `server/services/user-service.ts`: a read, the update of the
user row, and the replacement of the access rows, one statement after the other
and outside any transaction.  A statement fails when its result breaks a
constraint or when the database refuses it, which `UpdateFaults` decides.

`updateUser_atomic_iff` says when a failed update leaves the user as he was: the
statements before the failing one changed nothing of his.
-/

namespace Proxora

open Steps Steps.Program

/-! ## Input -/

/-- `hostGrantSchema`; `null` and an absent list are the same to the code. -/
structure HostGrantInput where
  hostId : String
  permissions : Option (List String)

/-- `guestScopeSchema`. -/
structure GuestGrantInput where
  hostId : String
  kind : GuestKind
  vmid : Int
  permissions : Option (List String)

/-- `updateUserSchema`. -/
structure UpdateUserInput where
  email : Option String
  password : Option String
  roleId : Option String
  status : Option UserStatus
  hostIds : Option (List String)
  hosts : Option (List HostGrantInput)
  guests : Option (List GuestGrantInput)

def guestRowsFromInput (guests : List GuestGrantInput) : List GuestAccessGrant :=
  guests.map fun g =>
    { hostId := g.hostId
      kind := g.kind.name
      vmid := g.vmid
      override := g.permissions.isSome
      permissions :=
        match g.permissions with
        | some granted => (normalizeGuestPermissions g.kind granted).map Permission.id
        | none => [] }

def hostRowsFromInput (hosts : Option (List HostGrantInput)) (hostIds : Option (List String)) :
    List HostAccessGrant :=
  if hosts.getD [] ≠ [] then
    (hosts.getD []).map fun h =>
      { hostId := h.hostId
        override := h.permissions.isSome
        permissions :=
          match h.permissions with
          | some granted => (sanitizePermissions granted).map Permission.id
          | none => [] }
  else (hostIds.getD []).map fun hostId => { hostId, override := false, permissions := [] }

/-! ## Statements -/

/-- What a service call can throw. -/
inductive ServiceError : Type
  | app (error : AppError)
  | database
deriving DecidableEq, Repr

/-- Which statements of `updateUser` the database refuses on its own account. -/
structure UpdateFaults where
  findUser : Bool
  updateUser : Bool
  destroySessions : Bool
  deleteHosts : Bool
  createHosts : Bool
  deleteGuests : Bool
  createGuests : Bool
  findFresh : Bool

/-- A statement that changes rows. -/
def statement (fault : Bool) (change : Tables → Tables) : Program Database ServiceError Unit :=
  call fun db =>
    if fault then .error .database
    else
      match Database.commit (change db.toTables) with
      | some after => .ok ((), after)
      | none => .error .database

/-- A statement that reads. -/
def query {α : Type} (fault : Bool) (read : Database → Except ServiceError α) :
    Program Database ServiceError α :=
  call fun db =>
    if fault then .error .database
    else
      match read db with
      | .ok found => .ok (found, db)
      | .error e => .error e

/-- `prisma.user.update`. -/
def Tables.updateUser (id : String) (patch : UserRow → UserRow) (t : Tables) : Tables :=
  { t with users := t.users.map fun user => if user.id = id then patch user else user }

/-- `destroyUserSessions`. -/
def Tables.destroySessions (id : String) (t : Tables) : Tables :=
  { t with sessions := t.sessions.filter (·.userId ≠ id) }

/-- `prisma.userHostAccess.deleteMany`. -/
def Tables.deleteHostAccess (id : String) (t : Tables) : Tables :=
  { t with hostAccess := t.hostAccess.filter (·.userId ≠ id) }

/-- `prisma.userHostAccess.createMany`. -/
def Tables.createHostAccess (id : String) (rows : List HostAccessGrant) (t : Tables) : Tables :=
  { t with hostAccess := t.hostAccess ++ rows.map (⟨·, id⟩) }

/-- `prisma.userGuestAccess.deleteMany`. -/
def Tables.deleteGuestAccess (id : String) (t : Tables) : Tables :=
  { t with guestAccess := t.guestAccess.filter (·.userId ≠ id) }

/-- `prisma.userGuestAccess.createMany`. -/
def Tables.createGuestAccess (id : String) (rows : List GuestAccessGrant) (t : Tables) : Tables :=
  { t with guestAccess := t.guestAccess ++ rows.map (⟨·, id⟩) }

/-! ## The update -/

/-- A present, non-empty string. -/
def truthy (value : Option String) : Option String := value.filter (· ≠ "")

/-- The fields of `data`, written over a row. -/
def userPatch (hashPassword : String → String) (input : UpdateUserInput) (user : UserRow) :
    UserRow :=
  { user with
    email := (truthy input.email).getD user.email
    roleId := (truthy input.roleId).getD user.roleId
    status := input.status.getD user.status
    passwordHash := ((truthy input.password).map hashPassword).getD user.passwordHash }

/-- `input.password || input.status === "DISABLED"`. -/
def UpdateUserInput.endsSessions (input : UpdateUserInput) : Bool :=
  (truthy input.password).isSome || input.status = some .disabled

/-- `input.hosts || input.hostIds`. -/
def UpdateUserInput.givesHosts (input : UpdateUserInput) : Bool :=
  input.hosts.isSome || input.hostIds.isSome

def UpdateUserInput.hostRows (input : UpdateUserInput) : List HostAccessGrant :=
  hostRowsFromInput input.hosts input.hostIds

def UpdateUserInput.guestRows (input : UpdateUserInput) : List GuestAccessGrant :=
  guestRowsFromInput (input.guests.getD [])

/-- A host grant as it is shown: the overriding permissions or `null`. -/
structure HostGrantDto where
  hostId : String
  permissions : Option (List Permission)

/-- A guest grant as it is shown. -/
structure GuestGrant extends GuestScope where
  permissions : Option (List Permission)

/-- What `withScope` returns: the row without its secrets, and the grants. -/
structure UserDto where
  id : String
  username : String
  email : String
  status : UserStatus
  roleId : String
  hosts : List HostGrantDto
  guests : List GuestGrant

def toHostGrants (rows : List HostAccessGrant) : List HostGrantDto :=
  rows.map fun h =>
    ⟨h.hostId, if h.override then some (sanitizePermissions h.permissions) else none⟩

def toGuestGrants (rows : List GuestAccessGrant) : List GuestGrant :=
  rows.filterMap fun g =>
    g.scope?.map fun guest =>
      ⟨guest, if g.override then some (sanitizePermissions g.permissions) else none⟩

def withScope (db : Database) (user : UserRow) : UserDto where
  id := user.id
  username := user.username
  email := user.email
  status := user.status
  roleId := user.roleId
  hosts := toHostGrants (db.sourceOf user).hostAccess
  guests := toGuestGrants (db.sourceOf user).guestAccess

def replaceHostAccess (faults : UpdateFaults) (id : String) (rows : List HostAccessGrant) :
    Program Database ServiceError Unit := do
  statement faults.deleteHosts (Tables.deleteHostAccess id)
  onlyIf (rows ≠ []) (statement faults.createHosts (Tables.createHostAccess id rows))

def replaceGuestAccess (faults : UpdateFaults) (id : String) (rows : List GuestAccessGrant) :
    Program Database ServiceError Unit := do
  statement faults.deleteGuests (Tables.deleteGuestAccess id)
  onlyIf (rows ≠ []) (statement faults.createGuests (Tables.createGuestAccess id rows))

/-- `prisma.user.findUnique`, a missing user reported. -/
def findUser (faults : UpdateFaults) (id : String) : Program Database ServiceError Unit :=
  query faults.findUser fun db =>
    match db.users.find? (·.id = id) with
    | some _ => .ok ()
    | none => .error (.app (notFoundError "User not found"))

/-- `prisma.user.findUniqueOrThrow` at the end, with the relations. -/
def findFresh (faults : UpdateFaults) (id : String) : Program Database ServiceError UserDto :=
  query faults.findFresh fun db =>
    match db.users.find? (·.id = id) with
    | some fresh => .ok (withScope db fresh)
    | none => .error .database

def updateUser (hashPassword : String → String) (faults : UpdateFaults) (id : String)
    (input : UpdateUserInput) : Program Database ServiceError UserDto := do
  findUser faults id
  statement faults.updateUser (Tables.updateUser id (userPatch hashPassword input))
  onlyIf input.endsSessions (statement faults.destroySessions (Tables.destroySessions id))
  onlyIf input.givesHosts (replaceHostAccess faults id input.hostRows)
  onlyIf input.guests.isSome (replaceGuestAccess faults id input.guestRows)
  findFresh faults id

/-! ## How far an update has come -/

/-- The rows written so far, `none` for rows not touched yet. -/
structure Progress where
  sessionsEnded : Bool
  hosts : Option (List HostAccessGrant)
  guests : Option (List GuestAccessGrant)

/-- The rows of one user replaced. -/
def replaceRows {ρ : Type} (userOf : ρ → String) (id : String) (old fresh : List ρ) : List ρ :=
  old.filter (userOf · ≠ id) ++ fresh

/-- The tables after the user row and the rows of `progress` have been written. -/
def Progress.tables (progress : Progress) (db : Database) (id : String)
    (patch : UserRow → UserRow) : Tables where
  roles := db.roles
  users := db.users.map fun user => if user.id = id then patch user else user
  sessions := if progress.sessionsEnded then db.sessions.filter (·.userId ≠ id) else db.sessions
  hosts := db.hosts
  hostAccess :=
    match progress.hosts with
    | some rows => replaceRows (·.userId) id db.hostAccess (rows.map (⟨·, id⟩))
    | none => db.hostAccess
  guestAccess :=
    match progress.guests with
    | some rows => replaceRows (·.userId) id db.guestAccess (rows.map (⟨·, id⟩))
    | none => db.guestAccess

/-- The patched row takes no other user's e-mail address and a role that exists. -/
def PatchAllowed (db : Database) (id : String) (patch : UserRow → UserRow) : Prop :=
  ∀ user ∈ db.users, user.id = id →
    (patch user).roleId ∈ db.roles.map (·.id) ∧
      ∀ other ∈ db.users, other.id ≠ id → other.email ≠ (patch user).email

/-- No host twice, and every host exists. -/
def HostRowsAllowed (db : Database) (rows : List HostAccessGrant) : Prop :=
  (rows.map (·.hostId)).Nodup ∧ ∀ row ∈ rows, row.hostId ∈ db.hostIds

/-- No guest twice, and every host exists. -/
def GuestRowsAllowed (db : Database) (rows : List GuestAccessGrant) : Prop :=
  (rows.map fun row => (row.hostId, row.kind, row.vmid)).Nodup ∧
    ∀ row ∈ rows, row.hostId ∈ db.hostIds

instance (db : Database) (id : String) (patch : UserRow → UserRow) :
    Decidable (PatchAllowed db id patch) := by
  unfold PatchAllowed
  infer_instance

instance (db : Database) (rows : List HostAccessGrant) : Decidable (HostRowsAllowed db rows) := by
  unfold HostRowsAllowed
  infer_instance

instance (db : Database) (rows : List GuestAccessGrant) :
    Decidable (GuestRowsAllowed db rows) := by
  unfold GuestRowsAllowed
  infer_instance

/-- Replaced rows collide only among themselves. -/
theorem nodup_replaceRows_iff {ρ κ : Type} {userOf : ρ → String} {keyOf : ρ → String × κ}
    {id : String} {old fresh : List ρ} (owner : ∀ row, (keyOf row).1 = userOf row)
    (nodup : (old.map keyOf).Nodup) (own : ∀ row ∈ fresh, userOf row = id) :
    ((replaceRows userOf id old fresh).map keyOf).Nodup ↔
      (fresh.map fun row => (keyOf row).2).Nodup := by
  have keys : (fresh.map keyOf).Nodup ↔ (fresh.map fun row => (keyOf row).2).Nodup := by
    have pairs : fresh.map keyOf = (fresh.map fun row => (keyOf row).2).map (Prod.mk id) := by
      rw [List.map_map]
      refine List.map_congr_left fun row member => ?_
      exact Prod.ext ((owner row).trans (own row member)) rfl
    rw [pairs, List.nodup_map_iff fun _ _ same => (Prod.mk.inj same).2]
  rw [← keys, replaceRows, List.map_append, List.nodup_append]
  constructor
  · exact fun all => all.2.1
  · intro freshNodup
    refine ⟨nodup.sublist (List.filter_sublist.map _), freshNodup, ?_⟩
    intro key inOld key' inFresh same
    obtain ⟨row, kept, rfl⟩ := List.mem_map.mp inOld
    obtain ⟨row', member, rfl⟩ := List.mem_map.mp inFresh
    have other : userOf row ≠ id := by simpa using (List.mem_filter.mp kept).2
    rw [← owner, same, owner, own row' member] at other
    exact other rfl

theorem forall_replaceRows_iff {ρ : Type} {userOf : ρ → String} {id : String}
    {old fresh : List ρ} {P : ρ → Prop} (holds : ∀ row ∈ old, P row) :
    (∀ row ∈ replaceRows userOf id old fresh, P row) ↔ ∀ row ∈ fresh, P row := by
  constructor
  · exact fun all row member => all row (List.mem_append_right _ member)
  · intro all row member
    rcases List.mem_append.mp member with kept | added
    · exact holds row (List.mem_of_mem_filter kept)
    · exact all row added

/-- The constraints on an access table after the rows of a user are replaced: the rows made of the
grants collide only among themselves, and name hosts that exist. -/
theorem replaceRows_allowed_iff {ρ γ κ : Type} {userOf hostOf : ρ → String}
    {keyOf : ρ → String × κ} {made : γ → ρ} {id : String} {old : List ρ} {users hosts : List String}
    (owner : ∀ row, (keyOf row).1 = userOf row) (own : ∀ grant, userOf (made grant) = id)
    (keys : (old.map keyOf).Nodup) (user : ∀ row ∈ old, userOf row ∈ users)
    (host : ∀ row ∈ old, hostOf row ∈ hosts) (stored : id ∈ users) (rows : List γ) :
    (((replaceRows userOf id old (rows.map made)).map keyOf).Nodup ∧
      (∀ row ∈ replaceRows userOf id old (rows.map made), userOf row ∈ users) ∧
      ∀ row ∈ replaceRows userOf id old (rows.map made), hostOf row ∈ hosts) ↔
      (rows.map fun grant => (keyOf (made grant)).2).Nodup ∧
        ∀ grant ∈ rows, hostOf (made grant) ∈ hosts := by
  have owned : ∀ row ∈ rows.map made, userOf row = id := by
    intro row member
    obtain ⟨grant, -, rfl⟩ := List.mem_map.mp member
    exact own grant
  rw [nodup_replaceRows_iff owner keys owned, forall_replaceRows_iff user,
    forall_replaceRows_iff host, List.map_map, List.forall_mem_map, List.forall_mem_map]
  exact ⟨fun all => ⟨all.1, all.2.2⟩,
    fun all => ⟨all.1, fun grant _ => (own grant).symm ▸ stored, all.2⟩⟩

section progress

variable {db : Database} {id : String} {patch : UserRow → UserRow}

/-- The patch keeps what identifies the row. -/
structure KeepsIdentity (patch : UserRow → UserRow) : Prop where
  id : ∀ user, (patch user).id = user.id
  username : ∀ user, (patch user).username = user.username

theorem userPatch_keepsIdentity (hashPassword : String → String) (input : UpdateUserInput) :
    KeepsIdentity (userPatch hashPassword input) :=
  ⟨fun _ => rfl, fun _ => rfl⟩

theorem map_patched {α : Type} {field : UserRow → α} (keeps : ∀ user, field (patch user) = field user)
    (users : List UserRow) :
    (users.map fun user => if user.id = id then patch user else user).map field =
      users.map field := by
  rw [List.map_map]
  refine List.map_congr_left fun user _ => ?_
  simp only [Function.comp_apply]
  split_ifs
  · exact keeps user
  · rfl

/-- The patched table is consistent when the patch is allowed. -/
theorem patched_users_iff :
    ((db.users.map fun user => if user.id = id then patch user else user).map (·.email)).Nodup ∧
        (∀ user ∈ db.users.map fun user => if user.id = id then patch user else user,
          user.roleId ∈ db.roles.map (·.id)) ↔
      PatchAllowed db id patch := by
  have distinct : db.users.Nodup := List.Nodup.of_map _ db.consistent.userIds
  rw [List.map_map]
  constructor
  · rintro ⟨emails, roles⟩ user member same
    refine ⟨?_, ?_⟩
    · have role := roles _ (List.mem_map_of_mem member)
      rwa [if_pos same] at role
    · intro other otherMember otherId equal
      have merged := List.inj_on_of_nodup_map emails otherMember member
        (by simp only [Function.comp_apply, if_neg otherId, if_pos same, equal])
      rw [merged] at otherId
      exact otherId same
  · intro allowed
    refine ⟨List.Nodup.map_on ?_ distinct, ?_⟩
    · intro x inX y inY equal
      simp only [Function.comp_apply] at equal
      split_ifs at equal with sameX sameY sameY
      · exact List.inj_on_of_nodup_map db.consistent.userIds inX inY (sameX.trans sameY.symm)
      · exact absurd equal.symm ((allowed x inX sameX).2 y inY sameY)
      · exact absurd equal ((allowed y inY sameY).2 x inX sameX)
      · exact List.inj_on_of_nodup_map db.consistent.emails inX inY equal
    · intro patched member
      obtain ⟨user, inUsers, rfl⟩ := List.mem_map.mp member
      split_ifs with same
      · exact (allowed user inUsers same).1
      · exact db.consistent.userRole user inUsers

theorem Progress.hostAccess_iff (stored : id ∈ db.users.map (·.id)) (progress : Progress) :
    (((progress.tables db id patch).hostAccess.map (·.key)).Nodup ∧
      (∀ row ∈ (progress.tables db id patch).hostAccess, row.userId ∈ db.users.map (·.id)) ∧
      ∀ row ∈ (progress.tables db id patch).hostAccess, row.hostId ∈ db.hosts.map (·.id)) ↔
      ∀ rows, progress.hosts = some rows → HostRowsAllowed db rows := by
  have ok := db.consistent
  unfold Progress.tables
  cases progress.hosts with
  | none =>
      exact ⟨fun _ _ absent => (by cases absent),
        fun _ => ⟨ok.hostAccessKeys, ok.hostAccessUser, ok.hostAccessHost⟩⟩
  | some rows =>
      simp only [Option.some.injEq, forall_eq']
      have owner : ∀ row : UserHostAccess, row.key.1 = row.userId := fun _ => rfl
      have own : ∀ grant, (UserHostAccess.mk grant id).userId = id := fun _ => rfl
      exact replaceRows_allowed_iff owner own ok.hostAccessKeys ok.hostAccessUser
        ok.hostAccessHost stored rows

theorem Progress.guestAccess_iff (stored : id ∈ db.users.map (·.id)) (progress : Progress) :
    (((progress.tables db id patch).guestAccess.map (·.key)).Nodup ∧
      (∀ row ∈ (progress.tables db id patch).guestAccess, row.userId ∈ db.users.map (·.id)) ∧
      ∀ row ∈ (progress.tables db id patch).guestAccess, row.hostId ∈ db.hosts.map (·.id)) ↔
      ∀ rows, progress.guests = some rows → GuestRowsAllowed db rows := by
  have ok := db.consistent
  unfold Progress.tables
  cases progress.guests with
  | none =>
      exact ⟨fun _ _ absent => (by cases absent),
        fun _ => ⟨ok.guestAccessKeys, ok.guestAccessUser, ok.guestAccessHost⟩⟩
  | some rows =>
      simp only [Option.some.injEq, forall_eq']
      have owner : ∀ row : UserGuestAccess, row.key.1 = row.userId := fun _ => rfl
      have own : ∀ grant, (UserGuestAccess.mk grant id).userId = id := fun _ => rfl
      exact replaceRows_allowed_iff owner own ok.guestAccessKeys ok.guestAccessUser
        ok.guestAccessHost stored rows

/-- **The constraints after a part of the update.** -/
theorem Progress.consistent_iff (keeps : KeepsIdentity patch)
    (stored : id ∈ db.users.map (·.id)) (progress : Progress) :
    (progress.tables db id patch).Consistent ↔
      PatchAllowed db id patch ∧
        (∀ rows, progress.hosts = some rows → HostRowsAllowed db rows) ∧
        (∀ rows, progress.guests = some rows → GuestRowsAllowed db rows) := by
  have ok := db.consistent
  have ids : (progress.tables db id patch).users.map (·.id) = db.users.map (·.id) :=
    map_patched keeps.id db.users
  have names : (progress.tables db id patch).users.map (·.username) = db.users.map (·.username) :=
    map_patched keeps.username db.users
  have sessions : ((progress.tables db id patch).sessions).Sublist db.sessions := by
    unfold Progress.tables
    simp only
    split_ifs
    · exact List.filter_sublist
    · exact List.Sublist.refl _
  rw [← patched_users_iff, ← Progress.hostAccess_iff stored, ← Progress.guestAccess_iff stored]
  constructor
  · intro after
    exact ⟨⟨after.emails, after.userRole⟩,
      ⟨after.hostAccessKeys, ids ▸ after.hostAccessUser, after.hostAccessHost⟩,
      ⟨after.guestAccessKeys, ids ▸ after.guestAccessUser, after.guestAccessHost⟩⟩
  · rintro ⟨⟨emails, roles⟩, ⟨hostKeys, hostUsers, hostHosts⟩, guestKeys, guestUsers, guestHosts⟩
    exact
      { roleIds := ok.roleIds
        userIds := ids ▸ ok.userIds
        usernames := names ▸ ok.usernames
        emails := emails
        sessionIds := ok.sessionIds.sublist (sessions.map _)
        hostIds := ok.hostIds
        hostAccessKeys := hostKeys
        guestAccessKeys := guestKeys
        userRole := roles
        sessionUser := fun row member => ids ▸ ok.sessionUser row (sessions.subset member)
        hostAccessUser := ids ▸ hostUsers
        hostAccessHost := hostHosts
        guestAccessUser := ids ▸ guestUsers
        guestAccessHost := guestHosts }

/-! ## What a user is left with -/

/-- The same user row, host rows and guest rows. -/
structure SameUser (id : String) (before after : Tables) : Prop where
  user : ∀ user : UserRow, user.id = id → (user ∈ after.users ↔ user ∈ before.users)
  hostRows : ∀ row : UserHostAccess, row.userId = id →
    (row ∈ after.hostAccess ↔ row ∈ before.hostAccess)
  guestRows : ∀ row : UserGuestAccess, row.userId = id →
    (row ∈ after.guestAccess ↔ row ∈ before.guestAccess)

/-- The patch writes what the row has. -/
def RowKept (db : Database) (id : String) (patch : UserRow → UserRow) : Prop :=
  ∀ user ∈ db.users, user.id = id → patch user = user

/-- The rows are the user's host rows. -/
def HostRowsKept (db : Database) (id : String) (rows : List HostAccessGrant) : Prop :=
  ∀ row : UserHostAccess, row.userId = id →
    (row.toHostAccessGrant ∈ rows ↔ row ∈ db.hostAccess)

/-- The rows are the user's guest rows. -/
def GuestRowsKept (db : Database) (id : String) (rows : List GuestAccessGrant) : Prop :=
  ∀ row : UserGuestAccess, row.userId = id →
    (row.toGuestAccessGrant ∈ rows ↔ row ∈ db.guestAccess)

theorem mem_replaceRows_own {ρ : Type} {userOf : ρ → String} {old fresh : List ρ} {row : ρ}
    (own : userOf row = id) : row ∈ replaceRows userOf id old fresh ↔ row ∈ fresh := by
  simp [replaceRows, own]

/-- The rows of a user after they are replaced by rows made of grants. -/
theorem replaceRows_same_iff {ρ γ : Type} {userOf : ρ → String} {made : γ → ρ} {grantOf : ρ → γ}
    (back : ∀ grant, grantOf (made grant) = grant)
    (again : ∀ row, userOf row = id → made (grantOf row) = row) (old : List ρ) (rows : List γ) :
    (∀ row, userOf row = id →
      (row ∈ replaceRows userOf id old (rows.map made) ↔ row ∈ old)) ↔
      ∀ row, userOf row = id → (grantOf row ∈ rows ↔ row ∈ old) := by
  refine forall_congr' fun row => forall_congr' fun own => ?_
  have member : row ∈ rows.map made ↔ grantOf row ∈ rows := by
    rw [List.mem_map]
    constructor
    · intro ⟨grant, inside, same⟩
      rw [← same, back]
      exact inside
    · exact fun inside => ⟨_, inside, again row own⟩
  rw [mem_replaceRows_own own, member]

theorem patched_same_iff (keeps : KeepsIdentity patch) :
    (∀ user : UserRow, user.id = id →
      (user ∈ (db.users.map fun user => if user.id = id then patch user else user) ↔
        user ∈ db.users)) ↔ RowKept db id patch := by
  constructor
  · intro same user member own
    have patched : patch user ∈ db.users.map fun user => if user.id = id then patch user else user :=
      List.mem_map.mpr ⟨user, member, if_pos own⟩
    have stays := (same (patch user) ((keeps.id user).trans own)).mp patched
    exact List.inj_on_of_nodup_map db.consistent.userIds stays member (keeps.id user)
  · intro kept user own
    have unchanged : (db.users.map fun user => if user.id = id then patch user else user) =
        db.users := by
      conv_rhs => rw [← List.map_id db.users]
      refine List.map_congr_left fun other member => ?_
      split_ifs with otherOwn
      · exact kept other member otherOwn
      · rfl
    rw [unchanged]

/-- **What a part of the update leaves.** -/
theorem Progress.sameUser_iff (keeps : KeepsIdentity patch) (progress : Progress) :
    SameUser id db.toTables (progress.tables db id patch) ↔
      RowKept db id patch ∧ (∀ rows, progress.hosts = some rows → HostRowsKept db id rows) ∧
        (∀ rows, progress.guests = some rows → GuestRowsKept db id rows) := by
  have hostRows : (∀ row : UserHostAccess, row.userId = id →
      (row ∈ (progress.tables db id patch).hostAccess ↔ row ∈ db.hostAccess)) ↔
      ∀ rows, progress.hosts = some rows → HostRowsKept db id rows := by
    unfold Progress.tables
    cases progress.hosts with
    | none => simp
    | some rows =>
        simp only [Option.some.injEq, forall_eq']
        refine replaceRows_same_iff (fun _ => rfl) (fun row own => ?_) _ rows
        subst own
        rfl
  have guestRows : (∀ row : UserGuestAccess, row.userId = id →
      (row ∈ (progress.tables db id patch).guestAccess ↔ row ∈ db.guestAccess)) ↔
      ∀ rows, progress.guests = some rows → GuestRowsKept db id rows := by
    unfold Progress.tables
    cases progress.guests with
    | none => simp
    | some rows =>
        simp only [Option.some.injEq, forall_eq']
        refine replaceRows_same_iff (fun _ => rfl) (fun row own => ?_) _ rows
        subst own
        rfl
  rw [← patched_same_iff keeps, ← hostRows, ← guestRows]
  exact ⟨fun same => ⟨same.user, same.hostRows, same.guestRows⟩,
    fun same => ⟨same.1, same.2.1, same.2.2⟩⟩

end progress

/-! ## The statement that fails -/

/-- The statements of `updateUser`, in order. -/
inductive UpdateStep : Type
  | findUser | updateUser | destroySessions | deleteHosts | createHosts | deleteGuests
  | createGuests | findFresh
deriving DecidableEq, Repr

section failing

variable (hashPassword : String → String) (faults : UpdateFaults) (db : Database) (id : String)
  (input : UpdateUserInput)

/-- The first statement that fails once the hosts are written. -/
def failingFromGuests : Option UpdateStep :=
  if input.guests.isSome ∧ faults.deleteGuests then some .deleteGuests
  else if input.guests.isSome ∧ input.guestRows ≠ [] ∧
      (faults.createGuests ∨ ¬GuestRowsAllowed db input.guestRows) then some .createGuests
  else if faults.findFresh then some .findFresh
  else none

/-- The first statement that fails once the user row is written. -/
def failingFromHosts : Option UpdateStep :=
  if input.givesHosts ∧ faults.deleteHosts then some .deleteHosts
  else if input.givesHosts ∧ input.hostRows ≠ [] ∧
      (faults.createHosts ∨ ¬HostRowsAllowed db input.hostRows) then some .createHosts
  else failingFromGuests faults db input

/-- The first statement of the update that fails: the database refuses it, or it
breaks a constraint. -/
def failingStep : Option UpdateStep :=
  if faults.findUser ∨ id ∉ db.users.map (·.id) then some .findUser
  else if faults.updateUser ∨ ¬PatchAllowed db id (userPatch hashPassword input) then
    some .updateUser
  else if input.endsSessions ∧ faults.destroySessions then some .destroySessions
  else failingFromHosts faults db input

/-- The statements before the given one change nothing of the user. -/
def LeavesUser : UpdateStep → Prop
  | .findUser | .updateUser => True
  | .destroySessions | .deleteHosts => RowKept db id (userPatch hashPassword input)
  | .createHosts => RowKept db id (userPatch hashPassword input) ∧ HostRowsKept db id []
  | .deleteGuests =>
      RowKept db id (userPatch hashPassword input) ∧
        (input.givesHosts → HostRowsKept db id input.hostRows)
  | .createGuests =>
      RowKept db id (userPatch hashPassword input) ∧
        (input.givesHosts → HostRowsKept db id input.hostRows) ∧ GuestRowsKept db id []
  | .findFresh =>
      RowKept db id (userPatch hashPassword input) ∧
        (input.givesHosts → HostRowsKept db id input.hostRows) ∧
        (input.guests.isSome → GuestRowsKept db id input.guestRows)

end failing

/-! ## Following the statements -/

section run

variable {hashPassword : String → String} {faults : UpdateFaults} {db : Database} {id : String}
  {input : UpdateUserInput}

/-- The user is left as in the starting state. -/
def LeftAs (db : Database) (id : String) (after : Database) : Prop :=
  SameUser id db.toTables after.toTables

theorem findFresh_onError {Q : Database → Prop} {current : Database}
    (stored : id ∈ current.users.map (·.id)) :
    OnError Q (findFresh faults id) current ↔ (faults.findFresh = true → Q current) := by
  obtain ⟨user, member, own⟩ := List.mem_map.mp stored
  have found : (current.users.find? (·.id = id)).isSome :=
    List.find?_isSome.mpr ⟨user, member, by simpa using own⟩
  obtain ⟨fresh, foundEq⟩ := Option.isSome_iff_exists.mp found
  cases fault : faults.findFresh with
  | true => simp [OnError, findFresh, query, call, fault]
  | false => simp [OnError, findFresh, query, call, fault, foundEq]

theorem Progress.stored {patch : UserRow → UserRow} (keeps : KeepsIdentity patch)
    (stored : id ∈ db.users.map (·.id)) (progress : Progress) :
    id ∈ (progress.tables db id patch).users.map (·.id) := by
  have ids : (progress.tables db id patch).users.map (·.id) = db.users.map (·.id) :=
    map_patched keeps.id db.users
  rwa [ids]

theorem Progress.deleteGuestAccess (progress : Progress) (patch : UserRow → UserRow)
    (untouched : progress.guests = none) :
    (progress.tables db id patch).deleteGuestAccess id =
      ({ progress with guests := some [] } : Progress).tables db id patch := by
  simp [Progress.tables, Tables.deleteGuestAccess, untouched, replaceRows]

theorem Progress.createGuestAccess (progress : Progress) (patch : UserRow → UserRow)
    (rows : List GuestAccessGrant) (emptied : progress.guests = some []) :
    (progress.tables db id patch).createGuestAccess id rows =
      ({ progress with guests := some rows } : Progress).tables db id patch := by
  simp [Progress.tables, Tables.createGuestAccess, emptied, replaceRows]

theorem Progress.deleteHostAccess (progress : Progress) (patch : UserRow → UserRow)
    (untouched : progress.hosts = none) :
    (progress.tables db id patch).deleteHostAccess id =
      ({ progress with hosts := some [] } : Progress).tables db id patch := by
  simp [Progress.tables, Tables.deleteHostAccess, untouched, replaceRows]

theorem Progress.createHostAccess (progress : Progress) (patch : UserRow → UserRow)
    (rows : List HostAccessGrant) (emptied : progress.hosts = some []) :
    (progress.tables db id patch).createHostAccess id rows =
      ({ progress with hosts := some rows } : Progress).tables db id patch := by
  simp [Progress.tables, Tables.createHostAccess, emptied, replaceRows]

theorem guestRowsAllowed_nil (db : Database) : GuestRowsAllowed db [] := by
  simp [GuestRowsAllowed]

theorem hostRowsAllowed_nil (db : Database) : HostRowsAllowed db [] := by
  simp [HostRowsAllowed]

/-- The progress meets the constraints. -/
def Progress.Allowed (progress : Progress) (db : Database) : Prop :=
  (∀ rows, progress.hosts = some rows → HostRowsAllowed db rows) ∧
    ∀ rows, progress.guests = some rows → GuestRowsAllowed db rows

theorem Progress.consistent_iff_allowed (stored : id ∈ db.users.map (·.id))
    (patchAllowed : PatchAllowed db id (userPatch hashPassword input)) (progress : Progress) :
    (progress.tables db id (userPatch hashPassword input)).Consistent ↔ progress.Allowed db := by
  rw [Progress.consistent_iff (userPatch_keepsIdentity hashPassword input) stored,
    Progress.Allowed]
  exact and_iff_right patchAllowed

/-- A statement that fails ends the run where it stands. -/
theorem onError_statement_fails {β : Type} {Q : Database → Prop} {fault : Bool}
    {change : Tables → Tables} {rest : Unit → Program Database ServiceError β}
    {current : Database} (fails : fault = true ∨ ¬(change current.toTables).Consistent) :
    OnError Q ((statement fault change).andThen rest) current ↔ Q current := by
  rw [statement, onError_call_andThen]
  rcases fails with refused | broken
  · simp [refused]
  · cases fault <;> simp [Database.commit, broken]

/-- A statement that succeeds hands its result on. -/
theorem onError_statement_succeeds {β : Type} (Q : Database → Prop) {fault : Bool}
    {change : Tables → Tables} (rest : Unit → Program Database ServiceError β)
    {current : Database} (accepted : fault = false) (ok : (change current.toTables).Consistent) :
    OnError Q ((statement fault change).andThen rest) current ↔
      OnError Q (rest ()) ⟨change current.toTables, ok⟩ := by
  rw [statement, onError_call_andThen]
  simp [accepted, Database.commit, ok]

/-- Whether the user is left as he was, at a state of the update. -/
theorem leftAs_iff {progress : Progress} {current : Database}
    (reached : current.toTables = progress.tables db id (userPatch hashPassword input)) :
    LeftAs db id current ↔ RowKept db id (userPatch hashPassword input) ∧
      (∀ rows, progress.hosts = some rows → HostRowsKept db id rows) ∧
      (∀ rows, progress.guests = some rows → GuestRowsKept db id rows) := by
  rw [LeftAs, reached, Progress.sameUser_iff (userPatch_keepsIdentity hashPassword input)]

/-- The final read. -/
theorem fresh_onError (stored : id ∈ db.users.map (·.id)) {progress : Progress}
    (hosts : progress.hosts = if input.givesHosts then some input.hostRows else none)
    (guests : progress.guests = if input.guests.isSome then some input.guestRows else none)
    {current : Database}
    (reached : current.toTables = progress.tables db id (userPatch hashPassword input)) :
    OnError (LeftAs db id) (findFresh faults id) current ↔
      (faults.findFresh = true → LeavesUser hashPassword db id input .findFresh) := by
  have keeps := userPatch_keepsIdentity hashPassword input
  have known : id ∈ current.users.map (·.id) := by
    rw [reached]
    exact progress.stored keeps stored
  rw [findFresh_onError known, leftAs_iff reached, hosts, guests, LeavesUser]
  cases input.givesHosts <;> cases input.guests.isSome <;> simp

/-- The replacement of the guest rows and the final read. -/
theorem guests_onError (stored : id ∈ db.users.map (·.id))
    (patchAllowed : PatchAllowed db id (userPatch hashPassword input)) {progress : Progress}
    (hosts : progress.hosts = if input.givesHosts then some input.hostRows else none)
    (allowed : progress.Allowed db) (untouched : progress.guests = none) {current : Database}
    (reached : current.toTables = progress.tables db id (userPatch hashPassword input)) :
    OnError (LeftAs db id)
        ((onlyIf input.guests.isSome (replaceGuestAccess faults id input.guestRows)).andThen
          fun _ => findFresh faults id) current ↔
      ∀ step, failingFromGuests faults db input = some step →
        LeavesUser hashPassword db id input step := by
  have hostsLeft : (∀ rows, progress.hosts = some rows → HostRowsKept db id rows) ↔
      (input.givesHosts → HostRowsKept db id input.hostRows) := by
    rw [hosts]
    cases input.givesHosts <;> simp
  rw [onlyIf_andThen]
  cases given : input.guests.isSome with
  | false =>
      have guests : progress.guests = if input.guests.isSome then some input.guestRows else none := by
        rw [given, untouched]
        rfl
      rw [if_neg Bool.false_ne_true, fresh_onError stored hosts guests reached, failingFromGuests]
      cases faults.findFresh <;> simp [given]
  | true =>
      rw [if_pos rfl, replaceGuestAccess]
      change OnError _ (((statement _ _).andThen _).andThen _) _ ↔ _
      have moves : current.toTables.deleteGuestAccess id =
          ({ progress with guests := some [] } : Progress).tables db id
            (userPatch hashPassword input) := by
        rw [reached, Progress.deleteGuestAccess progress _ untouched]
      have emptied : (current.toTables.deleteGuestAccess id).Consistent := by
        rw [moves, Progress.consistent_iff_allowed stored patchAllowed]
        exact ⟨allowed.1, by simp [guestRowsAllowed_nil]⟩
      rw [andThen_assoc, failingFromGuests]
      cases delete : faults.deleteGuests with
      | true =>
          rw [onError_statement_fails (Or.inl rfl), leftAs_iff reached, hostsLeft]
          simp [given, LeavesUser, untouched]
      | false =>
      rw [onError_statement_succeeds _ _ rfl emptied, onlyIf_andThen]
      by_cases rows : input.guestRows = []
      · have hosts' : ({ progress with guests := some [] } : Progress).hosts =
            if input.givesHosts then some input.hostRows else none := hosts
        have guests' : ({ progress with guests := some [] } : Progress).guests =
            if input.guests.isSome then some input.guestRows else none := by
          rw [given, rows]
          rfl
        rw [if_neg (by simpa using rows), fresh_onError stored hosts' guests' moves]
        cases faults.findFresh <;> simp [given, rows]
      · rw [if_pos (by simpa using rows)]
        have moves' : (current.toTables.deleteGuestAccess id).createGuestAccess id input.guestRows =
            ({ progress with guests := some input.guestRows } : Progress).tables db id
              (userPatch hashPassword input) := by
          rw [moves, Progress.createGuestAccess _ _ _ rfl]
        have consistent' : ((current.toTables.deleteGuestAccess id).createGuestAccess id
            input.guestRows).Consistent ↔ GuestRowsAllowed db input.guestRows := by
          rw [moves', Progress.consistent_iff_allowed stored patchAllowed, Progress.Allowed]
          simpa using fun _ => allowed.1
        by_cases fails : faults.createGuests = true ∨ ¬GuestRowsAllowed db input.guestRows
        · rw [onError_statement_fails (fails.imp_right fun bad => mt consistent'.mp bad),
            leftAs_iff moves, hostsLeft]
          simp [given, rows, fails, LeavesUser]
        · rw [not_or, Bool.not_eq_true, not_not] at fails
          have guests' : ({ progress with guests := some input.guestRows } : Progress).guests =
              if input.guests.isSome then some input.guestRows else none := by
            rw [given]
            rfl
          have hosts' : ({ progress with guests := some input.guestRows } : Progress).hosts =
              if input.givesHosts then some input.hostRows else none := hosts
          rw [onError_statement_succeeds _ _ fails.1 (consistent'.mpr fails.2),
            fresh_onError stored hosts' guests' moves']
          cases faults.findFresh <;> simp [given, fails]

/-- The replacement of the host rows and everything after it. -/
theorem hosts_onError (stored : id ∈ db.users.map (·.id))
    (patchAllowed : PatchAllowed db id (userPatch hashPassword input)) {progress : Progress}
    (untouched : progress.hosts = none ∧ progress.guests = none) {current : Database}
    (reached : current.toTables = progress.tables db id (userPatch hashPassword input)) :
    OnError (LeftAs db id)
        ((onlyIf input.givesHosts (replaceHostAccess faults id input.hostRows)).andThen fun _ =>
          (onlyIf input.guests.isSome (replaceGuestAccess faults id input.guestRows)).andThen
            fun _ => findFresh faults id) current ↔
      ∀ step, failingFromHosts faults db input = some step →
        LeavesUser hashPassword db id input step := by
  have allowed : progress.Allowed db := by simp [Progress.Allowed, untouched]
  have rowLeft : LeftAs db id current ↔ RowKept db id (userPatch hashPassword input) := by
    rw [leftAs_iff reached]
    simp [untouched]
  rw [onlyIf_andThen]
  cases given : input.givesHosts with
  | false =>
      have hosts : progress.hosts = if input.givesHosts then some input.hostRows else none := by
        rw [given, untouched.1]
        rfl
      rw [if_neg Bool.false_ne_true,
        guests_onError stored patchAllowed hosts allowed untouched.2 reached, failingFromHosts]
      simp [given]
  | true =>
      rw [if_pos rfl, replaceHostAccess]
      change OnError _ (((statement _ _).andThen _).andThen _) _ ↔ _
      have moves : current.toTables.deleteHostAccess id =
          ({ progress with hosts := some [] } : Progress).tables db id
            (userPatch hashPassword input) := by
        rw [reached, Progress.deleteHostAccess progress _ untouched.1]
      have emptiedAllowed : ({ progress with hosts := some [] } : Progress).Allowed db :=
        ⟨by simp [hostRowsAllowed_nil], allowed.2⟩
      have emptied : (current.toTables.deleteHostAccess id).Consistent := by
        rw [moves, Progress.consistent_iff_allowed stored patchAllowed]
        exact emptiedAllowed
      rw [andThen_assoc, failingFromHosts]
      cases delete : faults.deleteHosts with
      | true =>
          rw [onError_statement_fails (Or.inl rfl), rowLeft]
          simp [given, LeavesUser]
      | false =>
      rw [onError_statement_succeeds _ _ rfl emptied, onlyIf_andThen]
      by_cases rows : input.hostRows = []
      · have hosts : ({ progress with hosts := some [] } : Progress).hosts =
            if input.givesHosts then some input.hostRows else none := by
          rw [given, rows]
          rfl
        rw [if_neg (by simpa using rows),
          guests_onError stored patchAllowed hosts emptiedAllowed untouched.2 moves]
        simp [rows]
      · rw [if_pos (by simpa using rows)]
        have moves' : (current.toTables.deleteHostAccess id).createHostAccess id input.hostRows =
            ({ progress with hosts := some input.hostRows } : Progress).tables db id
              (userPatch hashPassword input) := by
          rw [moves, Progress.createHostAccess _ _ _ rfl]
        have createdAllowed : ({ progress with hosts := some input.hostRows } : Progress).Allowed
            db ↔ HostRowsAllowed db input.hostRows := by
          simpa [Progress.Allowed] using fun _ => allowed.2
        have consistent' : ((current.toTables.deleteHostAccess id).createHostAccess id
            input.hostRows).Consistent ↔ HostRowsAllowed db input.hostRows := by
          rw [moves', Progress.consistent_iff_allowed stored patchAllowed, createdAllowed]
        by_cases fails : faults.createHosts = true ∨ ¬HostRowsAllowed db input.hostRows
        · rw [onError_statement_fails (fails.imp_right fun bad => mt consistent'.mp bad),
            leftAs_iff moves]
          simp [given, rows, fails, LeavesUser, untouched]
        · rw [not_or, Bool.not_eq_true, not_not] at fails
          have hosts : ({ progress with hosts := some input.hostRows } : Progress).hosts =
              if input.givesHosts then some input.hostRows else none := by
            rw [given]
            rfl
          rw [onError_statement_succeeds _ _ fails.1 (consistent'.mpr fails.2),
            guests_onError stored patchAllowed hosts (createdAllowed.mpr fails.2) untouched.2
              moves']
          simp [fails]

end run

/-- Everything after the update of the user row. -/
theorem sessions_onError {hashPassword : String → String} {faults : UpdateFaults} {db : Database}
    {id : String} {input : UpdateUserInput} (stored : id ∈ db.users.map (·.id))
    (patchAllowed : PatchAllowed db id (userPatch hashPassword input)) {current : Database}
    (reached : current.toTables =
      (⟨false, none, none⟩ : Progress).tables db id (userPatch hashPassword input)) :
    OnError (LeftAs db id)
        ((onlyIf input.endsSessions
            (statement faults.destroySessions (Tables.destroySessions id))).andThen fun _ =>
          (onlyIf input.givesHosts (replaceHostAccess faults id input.hostRows)).andThen fun _ =>
            (onlyIf input.guests.isSome (replaceGuestAccess faults id input.guestRows)).andThen
              fun _ => findFresh faults id) current ↔
      ∀ step, (if input.endsSessions ∧ faults.destroySessions then some .destroySessions
        else failingFromHosts faults db input) = some step →
          LeavesUser hashPassword db id input step := by
  rw [onlyIf_andThen]
  cases ends : input.endsSessions with
  | false =>
      rw [if_neg Bool.false_ne_true, hosts_onError stored patchAllowed ⟨rfl, rfl⟩ reached]
      simp
  | true =>
      rw [if_pos rfl]
      have moves : current.toTables.destroySessions id =
          (⟨true, none, none⟩ : Progress).tables db id (userPatch hashPassword input) := by
        rw [reached]
        rfl
      have consistent : (current.toTables.destroySessions id).Consistent := by
        rw [moves, Progress.consistent_iff_allowed stored patchAllowed]
        simp [Progress.Allowed]
      cases destroy : faults.destroySessions with
      | true =>
          rw [onError_statement_fails (Or.inl rfl), leftAs_iff reached]
          simp [LeavesUser]
      | false =>
          rw [onError_statement_succeeds _ _ rfl consistent,
            hosts_onError stored patchAllowed ⟨rfl, rfl⟩ moves]
          simp

/-- A user bound to the only host. -/
def oneHost : Database where
  roles := [⟨"viewer", ["hosts.view", "vm.view"]⟩]
  users := [⟨"u1", "first", "first@example.org", "h1", .active, "viewer"⟩]
  sessions := []
  hosts := [⟨"a", .localHost, none, none⟩]
  hostAccess := [⟨⟨"a", [], false⟩, "u1"⟩]
  guestAccess := []
  consistent := by decide

/-- No statement is refused without a reason in the data. -/
def noFaults : UpdateFaults := ⟨false, false, false, false, false, false, false, false⟩

/-- An update that names a host deleted in the meantime. -/
def unknownHost : UpdateUserInput where
  email := none
  password := none
  roleId := none
  status := none
  hostIds := some ["gone"]
  hosts := none
  guests := none

end Proxora
