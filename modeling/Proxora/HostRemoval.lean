import Proxora.Database

/-!
# Removing hosts

`deleteHost` of `server/services/host-service.ts` and the loop of
`syncPeerHosts` (`server/services/federation-service.ts`) that drops the hosts
a peer no longer shares.  Both delete rows of the host table and leave the
access rows to the cascade of the schema.

An emptied allow-list allows everything, so a removal can widen a scope.
`within_iff` says when: a list of the user loses its last row, and there is
something left to reach.
-/

namespace Proxora

/-! ## The two ways to remove a host -/

def getHostOrThrow (db : Database) (id : String) (user : SessionUser) : Except AppError HostRow :=
  match db.hosts.find? (·.id = id) with
  | none => .error (notFoundError "Host not found")
  | some host =>
      if !canAccessHost user.toAccessScope host.id then .error (notFoundError "Host not found")
      else .ok host

def assertLocalHost (host : HostRow) : Except AppError Unit :=
  if host.origin = .peer then
    .error (forbiddenError "This host is shared by a peer and cannot be administered here")
  else .ok ()

def deleteHost (db : Database) (id : String) (user : SessionUser) : Except AppError Database := do
  let host ← getHostOrThrow db id user
  assertLocalHost host
  return db.deleteHost host.id

/-- The rows of a peer that `syncPeerHosts` drops, given the ids the peer shares. -/
def unsharedHosts (db : Database) (peerId : String) (remoteIds : List String) : List HostRow :=
  (db.hosts.filter fun row => row.peerId = some peerId && row.origin = .peer).filter fun row =>
    match row.remoteHostId with
    | some remote => remote ≠ "" && !remoteIds.contains remote
    | none => false

def dropUnsharedHosts (db : Database) (peerId : String) (remoteIds : List String) : Database :=
  (unsharedHosts db peerId remoteIds).foldl (fun db row => db.deleteHost row.id) db

/-- A removal, with what its caller passes in. -/
inductive HostRemoval : Type
  | deleteHost (id : String) (user : SessionUser)
  | dropUnshared (peerId : String) (remoteIds : List String)

/-- The database after the removal; a refused one changes nothing. -/
def HostRemoval.run (db : Database) : HostRemoval → Database
  | .deleteHost id user =>
      match Proxora.deleteHost db id user with
      | .ok after => after
      | .error _ => db
  | .dropUnshared peerId remoteIds => dropUnsharedHosts db peerId remoteIds

/-- The hosts the removal takes out. -/
def HostRemoval.removed (db : Database) : HostRemoval → List String
  | .deleteHost id user =>
      match getHostOrThrow db id user with
      | .ok host => if host.origin = .peer then [] else [host.id]
      | .error _ => []
  | .dropUnshared peerId remoteIds => (unsharedHosts db peerId remoteIds).map (·.id)

theorem HostRemoval.run_eq (db : Database) (removal : HostRemoval) :
    removal.run db = db.deleteHosts (removal.removed db) := by
  cases removal with
  | deleteHost id user =>
      simp only [HostRemoval.run, HostRemoval.removed, Proxora.deleteHost, bind, Except.bind, pure,
        Except.pure]
      cases getHostOrThrow db id user with
      | error => rfl
      | ok host =>
          by_cases peer : host.origin = .peer
          · simp only [peer, if_true, assertLocalHost]
            rfl
          · simp only [peer, if_false, assertLocalHost]
            rfl
  | dropUnshared peerId remoteIds =>
      simp only [HostRemoval.run, HostRemoval.removed, dropUnsharedHosts, Database.deleteHosts,
        List.foldl_map]

/-! ## What a removal does to a user -/

/-- A user source without the rows of some hosts. -/
def SessionUserSource.without (source : SessionUserSource) (removed : List String) :
    SessionUserSource :=
  { source with
    hostAccess := source.hostAccess.filter (·.hostId ∉ removed)
    guestAccess := source.guestAccess.filter (·.hostId ∉ removed) }

theorem Database.sourceOf_deleteHosts (db : Database) (removed : List String) (user : UserRow) :
    (db.deleteHosts removed).sourceOf user = (db.sourceOf user).without removed := by
  unfold Database.sourceOf SessionUserSource.without
  rw [Database.deleteHosts_tables]
  simp only [List.filter_map, List.filter_filter, Function.comp_def, Bool.and_comm]

theorem SessionUserSource.mem_hosts_without {source : SessionUserSource} {removed : List String}
    {id : String} :
    id ∈ (source.without removed).hosts ↔ id ∈ source.hosts ∧ id ∉ removed := by
  simp only [SessionUserSource.hosts, SessionUserSource.without, List.mem_map, List.mem_filter,
    decide_eq_true_eq]
  constructor
  · rintro ⟨row, ⟨member, kept⟩, rfl⟩
    exact ⟨⟨row, member, rfl⟩, kept⟩
  · rintro ⟨⟨row, member, rfl⟩, kept⟩
    exact ⟨row, ⟨member, kept⟩, rfl⟩

theorem SessionUserSource.mem_guests_without {source : SessionUserSource} {removed : List String}
    {guest : GuestScope} :
    guest ∈ (source.without removed).guests ↔ guest ∈ source.guests ∧ guest.hostId ∉ removed := by
  simp only [SessionUserSource.guests, SessionUserSource.without, List.mem_filterMap,
    List.mem_filter, decide_eq_true_eq]
  constructor
  · rintro ⟨row, ⟨member, kept⟩, named⟩
    exact ⟨⟨row, member, named⟩, by rwa [GuestAccessGrant.hostId_of_scope? named]⟩
  · rintro ⟨⟨row, member, named⟩, kept⟩
    exact ⟨row, ⟨member, by rwa [← GuestAccessGrant.hostId_of_scope? named]⟩, named⟩

/-- One of the two lists of the user had rows and all of them go. -/
def SessionUserSource.LosesList (source : SessionUserSource) (removed : List String) : Prop :=
  (source.hosts ≠ [] ∧ ∀ id ∈ source.hosts, id ∈ removed) ∨
    (source.guests ≠ [] ∧ ∀ guest ∈ source.guests, guest.hostId ∈ removed)

/-- The user has a row that stays, or a role that sees hosts while a host stays. -/
def SessionUserSource.KeepsReach (source : SessionUserSource) (removed hostIds : List String) :
    Prop :=
  (∃ id ∈ source.hosts, id ∉ removed) ∨ (∃ guest ∈ source.guests, guest.hostId ∉ removed) ∨
    (source.seesHosts = true ∧ ∃ id ∈ hostIds, id ∉ removed)

/-- Among the given hosts and their guests, `after` allows no more than `before`. -/
structure AccessScope.Within (hostIds : List String) (after before : AccessScope) : Prop where
  hosts : ∀ id ∈ hostIds, canAccessHost after id = true → canAccessHost before id = true
  guests : ∀ guest : GuestScope, guest.hostId ∈ hostIds →
    canAccessGuest after guest.hostId guest.kind guest.vmid = true →
      canAccessGuest before guest.hostId guest.kind guest.vmid = true

section scope

variable {source : SessionUserSource} {removed hostIds : List String}

/-- A host that stays and is allowed afterwards shows that the user keeps reach. -/
theorem SessionUserSource.keepsReach_of_access {id : String} (stays : id ∈ hostIds ∧ id ∉ removed)
    (access : canAccessHost (toSessionUser (source.without removed)).toAccessScope id = true) :
    source.KeepsReach removed hostIds := by
  rw [canAccessHost_iff] at access
  split_ifs at access with hosts guests
  · obtain ⟨inHosts, kept⟩ := SessionUserSource.mem_hosts_without.mp access
    exact Or.inl ⟨id, inHosts, kept⟩
  · obtain ⟨guest, member, rfl⟩ := access
    obtain ⟨inGuests, kept⟩ := SessionUserSource.mem_guests_without.mp member
    exact Or.inr (Or.inl ⟨guest, inGuests, kept⟩)
  · exact Or.inr (Or.inr ⟨access, id, stays⟩)

/-- And conversely. -/
theorem SessionUserSource.access_of_keepsReach (reach : source.KeepsReach removed hostIds)
    (known : ∀ id ∈ source.hosts, id ∈ hostIds)
    (knownGuests : ∀ guest ∈ source.guests, guest.hostId ∈ hostIds) :
    ∃ id ∈ hostIds, id ∉ removed ∧
      canAccessHost (toSessionUser (source.without removed)).toAccessScope id = true := by
  simp only [canAccessHost_iff]
  by_cases hosts : (source.without removed).hosts = []
  · by_cases guests : (source.without removed).guests = []
    · rcases reach with ⟨id, member, kept⟩ | ⟨guest, member, kept⟩ | ⟨sees, id, member, kept⟩
      · have stays := SessionUserSource.mem_hosts_without.mpr ⟨member, kept⟩
        rw [hosts] at stays
        cases stays
      · have stays := SessionUserSource.mem_guests_without.mpr ⟨member, kept⟩
        rw [guests] at stays
        cases stays
      · refine ⟨id, member, kept, ?_⟩
        simp only [hosts, guests, ne_eq, not_true_eq_false, if_false]
        exact sees
    · obtain ⟨guest, member⟩ := List.exists_mem_of_ne_nil _ guests
      obtain ⟨inGuests, kept⟩ := SessionUserSource.mem_guests_without.mp member
      refine ⟨guest.hostId, knownGuests guest inGuests, kept, ?_⟩
      simp only [hosts, guests, ne_eq, not_true_eq_false, not_false_eq_true, if_false, if_true]
      exact ⟨guest, member, rfl⟩
  · obtain ⟨id, member⟩ := List.exists_mem_of_ne_nil _ hosts
    obtain ⟨inHosts, kept⟩ := SessionUserSource.mem_hosts_without.mp member
    refine ⟨id, known id inHosts, kept, ?_⟩
    simp only [hosts, ne_eq, not_false_eq_true, if_true]
    exact member

theorem SessionUserSource.hosts_eq_nil_of_without (keeps : ¬source.LosesList removed)
    (empty : (source.without removed).hosts = []) : source.hosts = [] := by
  by_contra some
  refine keeps (Or.inl ⟨some, fun id member => ?_⟩)
  by_contra kept
  have left := SessionUserSource.mem_hosts_without.mpr ⟨member, kept⟩
  rw [empty] at left
  cases left

theorem SessionUserSource.guests_eq_nil_of_without (keeps : ¬source.LosesList removed)
    (empty : (source.without removed).guests = []) : source.guests = [] := by
  by_contra some
  refine keeps (Or.inr ⟨some, fun guest member => ?_⟩)
  by_contra kept
  have left := SessionUserSource.mem_guests_without.mpr ⟨member, kept⟩
  rw [empty] at left
  cases left

/-- Without a lost list the rows that stay decide as before. -/
theorem SessionUserSource.access_of_without (keeps : ¬source.LosesList removed) {id : String}
    (access : canAccessHost (toSessionUser (source.without removed)).toAccessScope id = true) :
    canAccessHost (toSessionUser source).toAccessScope id = true := by
  rw [canAccessHost_iff] at access ⊢
  by_cases hosts : (source.without removed).hosts = []
  · have noHosts := SessionUserSource.hosts_eq_nil_of_without keeps hosts
    rw [if_neg (by simpa using hosts)] at access
    rw [if_neg (by simpa using noHosts)]
    by_cases guests : (source.without removed).guests = []
    · have noGuests := SessionUserSource.guests_eq_nil_of_without keeps guests
      rw [if_neg (by simpa using guests)] at access
      rw [if_neg (by simpa using noGuests)]
      exact access
    · rw [if_pos guests] at access
      obtain ⟨guest, member, same⟩ := access
      have inGuests := (SessionUserSource.mem_guests_without.mp member).1
      rw [if_pos (List.ne_nil_of_mem inGuests)]
      exact ⟨guest, inGuests, same⟩
  · rw [if_pos hosts] at access
    have inHosts := (SessionUserSource.mem_hosts_without.mp access).1
    rw [if_pos (List.ne_nil_of_mem inHosts)]
    exact inHosts

/-- **When a removal keeps a scope from growing.** -/
theorem SessionUserSource.within_without_iff (known : ∀ id ∈ source.hosts, id ∈ hostIds)
    (knownGuests : ∀ guest ∈ source.guests, guest.hostId ∈ hostIds) :
    AccessScope.Within (hostIds.filter (· ∉ removed))
        (toSessionUser (source.without removed)).toAccessScope (toSessionUser source).toAccessScope ↔
      ¬(source.LosesList removed ∧ source.KeepsReach removed hostIds) := by
  constructor
  · rintro ⟨hosts, guests⟩ ⟨lost, reach⟩
    obtain ⟨id, member, kept, access⟩ :=
      SessionUserSource.access_of_keepsReach reach known knownGuests
    have stays : id ∈ hostIds.filter (· ∉ removed) := by simp [member, kept]
    rcases lost with ⟨some, gone⟩ | ⟨some, gone⟩
    · have before := hosts id stays access
      rw [canAccessHost_iff, if_pos some] at before
      exact kept (gone id before)
    · have noGuests : (source.without removed).guests = [] := by
        rw [List.eq_nil_iff_forall_not_mem]
        intro guest inside
        obtain ⟨inGuests, keptGuest⟩ := SessionUserSource.mem_guests_without.mp inside
        exact keptGuest (gone guest inGuests)
      -- every guest of the host is allowed now, and none was on a row before
      have after := (canAccessGuest_iff (source.without removed) ⟨id, .vm, 0⟩).mpr
        ⟨access, Or.inl noGuests⟩
      have before := (canAccessGuest_iff source ⟨id, .vm, 0⟩).mp (guests ⟨id, .vm, 0⟩ stays after)
      rcases before.2 with none | inGuests
      · exact some none
      · exact kept (gone _ inGuests)
  · intro keeps
    by_cases lost : source.LosesList removed
    · have closed : ∀ id ∈ hostIds.filter (· ∉ removed),
          canAccessHost (toSessionUser (source.without removed)).toAccessScope id ≠ true := by
        intro id stays access
        have stays' : id ∈ hostIds ∧ id ∉ removed := by simpa using stays
        exact keeps ⟨lost, SessionUserSource.keepsReach_of_access stays' access⟩
      refine ⟨fun id stays access => (closed id stays access).elim, fun guest stays access => ?_⟩
      exact (closed _ stays ((canAccessGuest_iff _ guest).mp access).1).elim
    · refine ⟨fun id _ access => SessionUserSource.access_of_without lost access,
        fun guest _ access => ?_⟩
      obtain ⟨host, rows⟩ := (canAccessGuest_iff _ guest).mp access
      refine (canAccessGuest_iff source guest).mpr
        ⟨SessionUserSource.access_of_without lost host, ?_⟩
      rcases rows with none | inGuests
      · exact Or.inl (SessionUserSource.guests_eq_nil_of_without lost none)
      · exact Or.inr (SessionUserSource.mem_guests_without.mp inGuests).1

end scope

/-! ## Over the database -/

theorem Database.hostIds_deleteHosts (db : Database) (removed : List String) :
    (db.deleteHosts removed).hostIds = db.hostIds.filter (· ∉ removed) := by
  rw [Database.hostIds, Database.deleteHosts_tables, Database.hostIds, List.filter_map]
  rfl

/-- A removal leaves a user's scope within what it was exactly when no list of
the user is emptied while something stays within reach. -/
theorem removal_within_iff (db : Database) (removal : HostRemoval) (user : UserRow) :
    AccessScope.Within (removal.run db).hostIds ((removal.run db).session user).toAccessScope
        (db.session user).toAccessScope ↔
      ¬((db.sourceOf user).LosesList (removal.removed db) ∧
        (db.sourceOf user).KeepsReach (removal.removed db) db.hostIds) := by
  rw [HostRemoval.run_eq, Database.hostIds_deleteHosts, Database.session, Database.session,
    Database.sourceOf_deleteHosts]
  exact SessionUserSource.within_without_iff (fun _ => Database.mem_hosts_sourceOf)
    (fun _ => Database.mem_guests_sourceOf)

/-! ### A user bound to one host -/

/-- Two hosts; the first user administers both, the second is bound to `a`. -/
def twoHosts : Database where
  roles := [⟨"viewer", ["hosts.view", "vm.view"]⟩, ⟨"admin", ["hosts.view", "hosts.delete"]⟩]
  users := [⟨"u1", "first", "first@example.org", "h1", .active, "admin"⟩,
    ⟨"u2", "second", "second@example.org", "h2", .active, "viewer"⟩]
  sessions := []
  hosts := [⟨"a", .localHost, none, none⟩, ⟨"b", .localHost, none, none⟩]
  hostAccess := [⟨⟨"a", [], false⟩, "u2"⟩]
  guestAccess := []
  consistent := by decide

/-- The account bound to host `a`. -/
def boundUser : UserRow := ⟨"u2", "second", "second@example.org", "h2", .active, "viewer"⟩

/-- The administrator, whose session removes the host. -/
def administrator : UserRow := ⟨"u1", "first", "first@example.org", "h1", .active, "admin"⟩

/-- Deleting host `a` opens host `b` to the user who was bound to `a`. -/
theorem deleteHost_widens_scope :
    ¬ ∀ (db : Database) (removal : HostRemoval), ∀ user ∈ db.users,
      AccessScope.Within (removal.run db).hostIds ((removal.run db).session user).toAccessScope
        (db.session user).toAccessScope := by
  intro claim
  have within := claim twoHosts (.deleteHost "a" (twoHosts.session administrator)) boundUser
    (by decide)
  have before := within.hosts "b" (by decide) (by decide)
  exact absurd before (by decide)

end Proxora
