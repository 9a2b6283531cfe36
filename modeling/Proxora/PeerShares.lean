import Proxora.UserUpdate

/-!
# Host shares on both machines

The owner of a host stores what a peer may do with it (`setPeerShares` of
`server/services/wireguard-service.ts`) and sends it on request
(`listSharedHostsForPeer` of `server/services/federation-service.ts`).  The
colleague stores what it got (`syncPeerHosts`) and asks its copy before it shows
an action (`peerHostAllowsPermission` of `lib/federation-access.ts`).

An empty permission list stands for the defaults of the level on both machines.
The owner sends the effective list, which is empty as well when the stored
list holds nothing that can be shared: `sharesAgree_iff`.
-/

namespace Proxora

open Ecma Steps Steps.Program

/-! ## Levels -/

/-- The text of a level; also `prismaLevel` of the stored one. -/
def ShareLevel.name : ShareLevel → Text
  | .view => "view"
  | .control => "control"
  | .create => "create"

def parseShareLevel (value : Option Text) : Option ShareLevel :=
  let v := toLowerCase (value.getD [])
  if v = "view" then some .view
  else if v = "control" then some .control
  else if v = "create" then some .create
  else none

@[simp] theorem parseShareLevel_name (level : ShareLevel) :
    parseShareLevel (some level.name) = some level := by
  cases level <;> decide

def shareLevelFromPermissions (permissions : List String) : ShareLevel :=
  let perms := sanitizePermissions permissions
  if shareCreateOnly.any fun p => hasPermission (some (perms.map Permission.id)) p then .create
  else if perms.any fun p => !(permissionsForShareLevel .view).contains p then .control
  else .view

/-- What `levels[levelName]` gives: an own value, one that every object has, or
`undefined`. -/
inductive LevelEntry : Type
  | own (level : ShareLevel)
  | inherited
  | missing
deriving DecidableEq, Repr

/-- `levels` of `setPeerShares`, read at a name in lower case. -/
def levels (levelName : Text) : LevelEntry :=
  if levelName = "view" then .own .view
  else if levelName = "control" then .own .control
  else if levelName = "create" then .own .create
  else if levelName = "constructor" || levelName = "__proto__" then .inherited
  else .missing

/-! ## The owner's tables -/

/-- `WireguardPeerKind`. -/
inductive WireguardPeerKind : Type
  | proxora | gateway
deriving DecidableEq, Repr

/-- A `WireguardPeer` row. -/
structure WireguardPeerRow where
  id : String
  kind : WireguardPeerKind
deriving DecidableEq, Repr

/-- A `HostShare` row. -/
structure HostShareRow where
  peerId : String
  hostId : String
  level : ShareLevel
  permissions : List String
deriving DecidableEq, Repr

/-- `@@unique([peerId, hostId])`. -/
def HostShareRow.key (row : HostShareRow) : String × String := (row.peerId, row.hostId)

structure ShareTables where
  hosts : List HostRow
  peers : List WireguardPeerRow
  shares : List HostShareRow
deriving DecidableEq, Repr

/-- The unique keys and foreign keys of the schema. -/
structure ShareTables.Consistent (t : ShareTables) : Prop where
  hostIds : (t.hosts.map (·.id)).Nodup
  peerIds : (t.peers.map (·.id)).Nodup
  shareKeys : (t.shares.map (·.key)).Nodup
  shareHost : ∀ row ∈ t.shares, row.hostId ∈ t.hosts.map (·.id)
  sharePeer : ∀ row ∈ t.shares, row.peerId ∈ t.peers.map (·.id)

theorem ShareTables.consistent_iff (t : ShareTables) :
    t.Consistent ↔
      (t.hosts.map (·.id)).Nodup ∧ (t.peers.map (·.id)).Nodup ∧ (t.shares.map (·.key)).Nodup ∧
      (∀ row ∈ t.shares, row.hostId ∈ t.hosts.map (·.id)) ∧
      (∀ row ∈ t.shares, row.peerId ∈ t.peers.map (·.id)) := by
  constructor
  · intro ok
    exact ⟨ok.hostIds, ok.peerIds, ok.shareKeys, ok.shareHost, ok.sharePeer⟩
  · intro ⟨hostIds, peerIds, shareKeys, shareHost, sharePeer⟩
    exact ⟨hostIds, peerIds, shareKeys, shareHost, sharePeer⟩

instance (t : ShareTables) : Decidable t.Consistent := decidable_of_iff' _ t.consistent_iff

/-- The stored state of the owner. -/
structure ShareStore extends ShareTables where
  consistent : toShareTables.Consistent

/-! ## Storing shares -/

/-- An entry of `shares`. -/
structure ShareInput where
  hostId : String
  level : Text
  permissions : Option (List String)

/-- The permissions of an entry as `setPeerShares` first reads them. -/
def ShareInput.perms (s : ShareInput) : List Permission :=
  match s.permissions with
  | some granted => sanitizePermissions granted
  | none => []

def ShareInput.levelName (s : ShareInput) : Text :=
  let lower := toLowerCase s.level
  if lower ≠ [] then lower
  else if s.perms ≠ [] then (shareLevelFromPermissions (s.perms.map Permission.id)).name
  else []

/-- `perms`, emptied when it is a list of the defaults. -/
def dropDefaults (defaults perms : List Permission) : List Permission :=
  if perms.length = defaults.length && defaults.all perms.contains then [] else perms

/-- An entry of `next`. -/
structure NextShare where
  hostId : String
  level : LevelEntry
  permissions : List Permission

/-- The body of `shares.map` in `setPeerShares`.  `permissionsForShareLevel`
treats a name that is no level as `create`. -/
def ShareInput.next (s : ShareInput) : NextShare where
  hostId := s.hostId
  level := levels s.levelName
  permissions :=
    if s.perms = [] then []
    else
      match levels s.levelName with
      | .own level => dropDefaults (permissionsForShareLevel level) s.perms
      | .inherited => dropDefaults (permissionsForShareLevel .create) s.perms
      | .missing => s.perms

/-- The ids of the owner's own hosts. -/
def ShareTables.localIds (t : ShareTables) : List String :=
  (t.hosts.filter (·.origin = .localHost)).map (·.id)

/-- The rows to create; an inherited level is no value of the enum. -/
def NextShare.row (peerId : String) (s : NextShare) : Option HostShareRow :=
  match s.level with
  | .own level => some ⟨peerId, s.hostId, level, s.permissions.map Permission.id⟩
  | _ => none

/-- The transaction: the rows of the peer replaced by the new ones. -/
def ShareTables.replaceShares (t : ShareTables) (peerId : String) (rows : List HostShareRow) :
    ShareTables :=
  { t with shares := t.shares.filter (·.peerId ≠ peerId) ++ rows }

def setPeerShares (db : ShareStore) (peerId : String) (shares : List ShareInput) :
    Except ServiceError ShareStore :=
  match db.peers.find? (·.id = peerId) with
  | none => .error (.app (notFoundError "Peer not found"))
  | some peer =>
      if peer.kind ≠ .proxora then
        .error (.app (validationError "Only Proxora peers can receive host shares"))
      else
        let next := (shares.map ShareInput.next).filter fun s =>
          s.level ≠ .missing && db.localIds.contains s.hostId
        let after := db.toShareTables.replaceShares peerId (next.filterMap (·.row peerId))
        if next.any fun s => s.level = .inherited then .error .database
        else if ok : after.Consistent then .ok ⟨after, ok⟩
        else .error .database

/-! ## Sending and absorbing -/

/-- An entry of `hosts` in the answer of `/api/federation/hosts`. -/
structure SharedHost where
  id : String
  shareLevel : Option Text
  permissions : Option (List String)
deriving DecidableEq, Repr

/-- The entry for a share row whose host is the owner's own. -/
def HostShareRow.sent (row : HostShareRow) : SharedHost where
  id := row.hostId
  shareLevel := some row.level.name
  permissions := some ((effectiveSharePermissions row.level row.permissions).map Permission.id)

/-- The share rows of a peer whose host is the owner's own. -/
def ShareTables.sharesOf (t : ShareTables) (peerId : String) : List HostShareRow :=
  (t.shares.filter (·.peerId = peerId)).filter fun row =>
    match t.hosts.find? (·.id = row.hostId) with
    | some host => host.origin = .localHost
    | none => false

def listSharedHostsForPeer (db : ShareStore) (peerId : String) : List SharedHost :=
  (db.sharesOf peerId).map HostShareRow.sent

/-- A `Host` row with the columns of a shared host. -/
structure PeerHostRow extends HostRow where
  peerShareLevel : Option ShareLevel
  peerSharePermissions : List String
deriving DecidableEq, Repr

/-- The row is the copy of a peer's host. -/
def PeerHostRow.IsCopyOf (row : PeerHostRow) (peerId remoteHostId : String) : Prop :=
  row.peerId = some peerId ∧ row.remoteHostId = some remoteHostId

instance (row : PeerHostRow) (peerId remoteHostId : String) :
    Decidable (row.IsCopyOf peerId remoteHostId) :=
  inferInstanceAs (Decidable (row.peerId = some peerId ∧ row.remoteHostId = some remoteHostId))

/-- The colleague's host table.  A row with a remote id comes from
`syncPeerHosts` and has the origin `PEER`. -/
structure PeerHosts where
  hosts : List PeerHostRow
  ids : (hosts.map (·.id)).Nodup
  copies : ∀ row ∈ hosts, row.remoteHostId.isSome = true → row.origin = .peer

/-- `perms` and `shareLevel` of an entry as the colleague reads them. -/
def SharedHost.perms (item : SharedHost) : List Permission :=
  match item.permissions with
  | some granted => sanitizePermissions granted
  | none => []

def SharedHost.level (item : SharedHost) : Option ShareLevel :=
  parseShareLevel item.shareLevel <|>
    if item.perms ≠ [] then some (shareLevelFromPermissions (item.perms.map Permission.id)) else none

/-- A row with the columns that an upsert writes. -/
def PeerHostRow.absorb (row : PeerHostRow) (level : ShareLevel) (perms : List Permission) :
    PeerHostRow :=
  { row with peerShareLevel := some level, peerSharePermissions := perms.map Permission.id }

def PeerHosts.update (t : PeerHosts) (peerId remoteHostId : String) (level : ShareLevel)
    (perms : List Permission) : PeerHosts where
  hosts := t.hosts.map fun row =>
    if row.IsCopyOf peerId remoteHostId then row.absorb level perms else row
  ids := by
    have same : (t.hosts.map fun row =>
        if row.IsCopyOf peerId remoteHostId then row.absorb level perms else row).map (·.id) =
          t.hosts.map (·.id) := by
      rw [List.map_map]
      refine List.map_congr_left fun row _ => ?_
      show (if row.IsCopyOf peerId remoteHostId then row.absorb level perms else row).id = row.id
      split <;> rfl
    rw [same]
    exact t.ids
  copies := by
    intro row member
    obtain ⟨old, inside, rfl⟩ := List.mem_map.mp member
    split
    · exact t.copies old inside
    · exact t.copies old inside

/-- The row that an upsert creates. -/
def newCopy (id peerId remoteHostId : String) (level : ShareLevel) (perms : List Permission) :
    PeerHostRow where
  id := id
  origin := .peer
  peerId := some peerId
  remoteHostId := some remoteHostId
  peerShareLevel := some level
  peerSharePermissions := perms.map Permission.id

def PeerHosts.create (t : PeerHosts) (id peerId remoteHostId : String) (level : ShareLevel)
    (perms : List Permission) (fresh : id ∉ t.hosts.map (·.id)) : PeerHosts where
  hosts := t.hosts ++ [newCopy id peerId remoteHostId level perms]
  ids := by
    rw [List.map_append, List.map_singleton]
    refine List.Nodup.append t.ids (List.nodup_singleton _) ?_
    intro other inside new
    rw [List.mem_singleton.mp new] at inside
    exact fresh inside
  copies := by
    intro other member remote
    rcases List.mem_append.mp member with inside | new
    · exact t.copies other inside remote
    · rw [List.mem_singleton.mp new]
      rfl

/-- `prisma.host.upsert`; `cuid` is the id a new row gets. -/
def PeerHosts.upsert (t : PeerHosts) (cuid peerId remoteHostId : String) (level : ShareLevel)
    (perms : List Permission) : Except ServiceError (Unit × PeerHosts) :=
  if ∃ row ∈ t.hosts, row.IsCopyOf peerId remoteHostId then
    .ok ((), t.update peerId remoteHostId level perms)
  else if fresh : cuid ∉ t.hosts.map (·.id) then
    .ok ((), t.create cuid peerId remoteHostId level perms fresh)
  else .error .database

/-- The copies that are no longer shared are deleted. -/
def PeerHosts.dropUnshared (t : PeerHosts) (peerId : String) (remoteIds : List String) :
    PeerHosts where
  hosts := t.hosts.filter fun row =>
    !(row.peerId = some peerId && row.origin = .peer &&
      match row.remoteHostId with
      | some remote => remote ≠ "" && !remoteIds.contains remote
      | none => false)
  ids := t.ids.sublist (List.filter_sublist.map _)
  copies := fun row member => t.copies row (List.mem_of_mem_filter member)

/-- An entry absorbed; one without a level is skipped. -/
def absorbHost (cuid : String → String) (peerId : String) (item : SharedHost) :
    Program PeerHosts ServiceError Unit :=
  match item.level with
  | none => result ()
  | some level => call fun t => t.upsert (cuid item.id) peerId item.id level item.perms

/-- The part of `syncPeerHosts` that works on the host table, for one peer and its answer. -/
def syncPeer (cuid : String → String) (peerId : String) (remote : List SharedHost) :
    Program PeerHosts ServiceError Unit :=
  (call fun t => .ok ((), t.dropUnshared peerId (remote.map (·.id)))).andThen fun _ =>
    each remote (absorbHost cuid peerId)

/-! ## The colleague's test -/

/-- The fields of `toPublicHost` that the test reads. -/
structure PublicHost where
  origin : HostOrigin
  shareLevel : Option Text
  sharePermissions : Option (List String)

def toPublicHost (row : PeerHostRow) : PublicHost where
  origin := row.origin
  shareLevel := row.peerShareLevel.map ShareLevel.name
  sharePermissions :=
    if row.origin = .peer && row.peerSharePermissions ≠ [] then some row.peerSharePermissions
    else none

def peerHostAllowsPermission (host : PublicHost) (needed : List Permission) : Bool :=
  if host.origin ≠ .peer then true
  else
    shareHasPermission ((parseShareLevel host.shareLevel).getD .view)
      (host.sharePermissions.getD []) needed

/-! ## What a list grants -/

theorem mem_allPermissions (p : Permission) : p ∈ allPermissions := by
  cases p <;> decide

theorem mem_sanitizePermissions_ids {granted : List Permission} {p : Permission} :
    p ∈ sanitizePermissions (granted.map Permission.id) ↔ p ∈ granted := by
  rw [sanitizePermissions, List.mem_filter, expandPermissions_ids, List.contains_iff_mem,
    List.mem_map_of_injective Permission.id_injective]
  exact and_iff_right (mem_allPermissions p)

/-- The permission is in the catalog of host permissions. -/
def Permission.Shareable (p : Permission) : Prop := ∃ entry ∈ hostGrantCatalog, entry.id = p

theorem shareable_iff {p : Permission} :
    p.Shareable ↔ (hostGrantCatalog.any fun entry => entry.id = p) = true := by
  simp [Permission.Shareable]

theorem hostsView_mem (level : ShareLevel) : .hostsView ∈ permissionsForShareLevel level := by
  cases level <;> decide

theorem shareable_hostsView : Permission.Shareable .hostsView :=
  ⟨⟨.hostsView, .hosts⟩, by decide, rfl⟩

/-- The defaults of a level can be shared. -/
theorem shareable_of_mem_level {level : ShareLevel} {p : Permission}
    (member : p ∈ permissionsForShareLevel level) : p.Shareable := by
  have inCatalog : p ∈ hostGrantCatalog.map (·.id) := by
    cases level with
    | view => exact List.contains_iff_mem.mp (List.mem_filter.mp member).2
    | control => exact (List.mem_filter.mp member).1
    | create => exact (List.mem_filter.mp member).1
  exact List.mem_map.mp inCatalog

theorem mem_effective {level : ShareLevel} {stored : List String} (given : stored ≠ [])
    {p : Permission} :
    p ∈ effectiveSharePermissions level stored ↔ p ∈ sanitizePermissions stored ∧ p.Shareable := by
  rw [effectiveSharePermissions, if_pos given, List.mem_filter, shareable_iff]

theorem shareable_of_mem_effective {level : ShareLevel} {stored : List String} {p : Permission}
    (member : p ∈ effectiveSharePermissions level stored) : p.Shareable := by
  by_cases given : stored = []
  · rw [given] at member
    exact shareable_of_mem_level member
  · exact ((mem_effective given).mp member).2

theorem shareHasPermission_iff {level : ShareLevel} {stored : List String}
    {needed : List Permission} :
    shareHasPermission level stored needed = true ↔
      ∃ p ∈ needed, p ∈ effectiveSharePermissions level stored :=
  hasAnyPermission_ids _ _

/-- A non-empty effective list survives the way to the other machine. -/
theorem mem_effective_again {level : ShareLevel} {granted : List Permission}
    (shareable : ∀ p ∈ granted, p.Shareable) (some : granted ≠ []) {p : Permission} :
    p ∈ effectiveSharePermissions level
        ((sanitizePermissions (granted.map Permission.id)).map Permission.id) ↔ p ∈ granted := by
  obtain ⟨q, member⟩ := List.exists_mem_of_ne_nil granted some
  have kept : q ∈ sanitizePermissions (granted.map Permission.id) :=
    mem_sanitizePermissions_ids.mpr member
  have given : (sanitizePermissions (granted.map Permission.id)).map Permission.id ≠ [] :=
    List.ne_nil_of_mem (List.mem_map_of_mem kept)
  rw [mem_effective given, mem_sanitizePermissions_ids, mem_sanitizePermissions_ids]
  constructor
  · exact And.left
  · exact fun member => ⟨member, shareable p member⟩

/-! ## One share, copied -/

/-- The copy of a row as the colleague's columns have it. -/
structure PeerHostRow.Holds (row : PeerHostRow) (level : ShareLevel) (perms : List Permission) :
    Prop where
  origin : row.origin = .peer
  level : row.peerShareLevel = some level
  perms : row.peerSharePermissions = perms.map Permission.id

theorem PeerHostRow.Holds.allows {row : PeerHostRow} {level : ShareLevel}
    {perms : List Permission} (holds : row.Holds level perms) (needed : List Permission) :
    peerHostAllowsPermission (toPublicHost row) needed =
      shareHasPermission level (perms.map Permission.id) needed := by
  have granted : (toPublicHost row).sharePermissions.getD [] = perms.map Permission.id := by
    rw [← holds.perms]
    by_cases empty : row.peerSharePermissions = []
    · simp [toPublicHost, empty]
    · simp [toPublicHost, empty, holds.origin]
  have same : parseShareLevel (toPublicHost row).shareLevel = some level := by
    rw [toPublicHost, holds.level]
    exact parseShareLevel_name level
  have peer : (toPublicHost row).origin = .peer := holds.origin
  rw [peerHostAllowsPermission, if_neg (not_not_intro peer), same, granted]
  rfl

/-- The two machines agree on a share unless its effective list is empty. -/
theorem HostShareRow.agrees_row_iff {share : HostShareRow} {row : PeerHostRow}
    (holds : row.Holds share.level share.sent.perms) :
    (∀ needed, peerHostAllowsPermission (toPublicHost row) needed =
        shareHasPermission share.level share.permissions needed) ↔
      effectiveSharePermissions share.level share.permissions ≠ [] := by
  constructor
  · intro agree empty
    have none : share.sent.perms = [] := by
      show sanitizePermissions ((effectiveSharePermissions _ _).map Permission.id) = []
      rw [empty]
      decide
    have allowed : peerHostAllowsPermission (toPublicHost row) [.hostsView] = true := by
      rw [holds.allows, none, shareHasPermission_iff]
      exact ⟨_, List.mem_singleton_self _, hostsView_mem share.level⟩
    rw [agree, shareHasPermission_iff, empty] at allowed
    obtain ⟨p, _, member⟩ := allowed
    cases member
  · intro some needed
    rw [holds.allows, Bool.eq_iff_iff, shareHasPermission_iff, shareHasPermission_iff]
    have again : ∀ p, p ∈ effectiveSharePermissions share.level
        (share.sent.perms.map Permission.id) ↔
          p ∈ effectiveSharePermissions share.level share.permissions :=
      fun p => mem_effective_again (fun _ => shareable_of_mem_effective) some
    simp only [again]

/-! ## The owner's rows -/

/-- The entry gives permissions, and none of them can be shared. -/
def ShareInput.SharesNothing (s : ShareInput) : Prop :=
  levels s.levelName ≠ .missing ∧ s.perms ≠ [] ∧ ∀ p ∈ s.perms, ¬ p.Shareable

/-- In a table with unique keys a row is found by its key. -/
theorem find?_key {Row Key : Type} [DecidableEq Key] {key : Row → Key} {rows : List Row}
    (unique : (rows.map key).Nodup) {row : Row} (member : row ∈ rows) :
    rows.find? (fun other => key other = key row) = some row := by
  induction rows with
  | nil => cases member
  | cons first rest ih =>
      rw [List.map_cons, List.nodup_cons] at unique
      rcases List.mem_cons.mp member with rfl | inside
      · exact List.find?_cons_of_pos (by simp)
      · have other : key first ≠ key row := by
          intro same
          exact unique.1 (same ▸ List.mem_map_of_mem inside)
        rw [List.find?_cons_of_neg (by simpa using other)]
        exact ih unique.2 inside

theorem ShareTables.mem_localIds {t : ShareTables} (ok : t.Consistent) {id : String} :
    id ∈ t.localIds ↔ ∃ host, t.hosts.find? (·.id = id) = some host ∧ host.origin = .localHost := by
  constructor
  · intro member
    obtain ⟨host, inside, rfl⟩ := List.mem_map.mp member
    obtain ⟨inHosts, own⟩ := List.mem_filter.mp inside
    exact ⟨host, find?_key ok.hostIds inHosts, of_decide_eq_true own⟩
  · intro ⟨host, found, own⟩
    have same : host.id = id := by simpa using List.find?_some found
    refine List.mem_map.mpr ⟨host, List.mem_filter.mpr ⟨List.mem_of_find?_eq_some found, ?_⟩, same⟩
    exact decide_eq_true own

theorem ShareTables.mem_sharesOf {t : ShareTables} (ok : t.Consistent) {peerId : String}
    {row : HostShareRow} :
    row ∈ t.sharesOf peerId ↔ row ∈ t.shares ∧ row.peerId = peerId ∧ row.hostId ∈ t.localIds := by
  rw [ShareTables.sharesOf, List.mem_filter, List.mem_filter, ShareTables.mem_localIds ok,
    decide_eq_true_eq, and_assoc]
  cases found : t.hosts.find? (·.id = row.hostId) with
  | none => simp
  | some host => simp

/-- What a successful call stored. -/
theorem setPeerShares_ok {db db' : ShareStore} {peerId : String} {shares : List ShareInput}
    (stored : setPeerShares db peerId shares = .ok db') :
    db'.toShareTables = db.toShareTables.replaceShares peerId
        (((shares.map ShareInput.next).filter fun s =>
          s.level ≠ .missing && db.localIds.contains s.hostId).filterMap (·.row peerId)) ∧
      ∀ s ∈ shares, s.hostId ∈ db.localIds → s.next.level ≠ .inherited := by
  unfold setPeerShares at stored
  split at stored
  · cases stored
  · split at stored
    · cases stored
    · simp only at stored
      split at stored
      · cases stored
      · next valid =>
          split at stored
          · next ok =>
              rw [Except.ok.injEq] at stored
              refine ⟨by rw [← stored], fun s member own inherited => valid ?_⟩
              refine List.any_eq_true.mpr ⟨s.next, List.mem_filter.mpr ⟨?_, ?_⟩, ?_⟩
              · exact List.mem_map_of_mem member
              · rw [Bool.and_eq_true]
                exact ⟨by rw [inherited]; rfl, List.contains_iff_mem.mpr own⟩
              · exact decide_eq_true inherited
          · cases stored

theorem NextShare.row_eq_some {s : NextShare} {peerId : String} {row : HostShareRow} :
    s.row peerId = some row ↔
      ∃ level, s.level = .own level ∧
        row = ⟨peerId, s.hostId, level, s.permissions.map Permission.id⟩ := by
  unfold NextShare.row
  cases s.level <;> simp [eq_comm]

/-- The stored rows of the peer, one for each entry that is kept. -/
theorem mem_sharesOf_stored {db db' : ShareStore} {peerId : String} {shares : List ShareInput}
    (stored : setPeerShares db peerId shares = .ok db') {row : HostShareRow} :
    row ∈ db'.sharesOf peerId ↔
      ∃ s ∈ shares, s.hostId ∈ db.localIds ∧ s.next.row peerId = some row := by
  obtain ⟨tables, _⟩ := setPeerShares_ok stored
  have hosts : db'.localIds = db.localIds := by
    rw [tables]
    rfl
  have rows : row ∈ db'.shares ∧ row.peerId = peerId ↔
      ∃ s ∈ shares, s.hostId ∈ db.localIds ∧ s.next.row peerId = some row := by
    rw [tables]
    simp only [ShareTables.replaceShares, List.mem_append, List.mem_filter, List.mem_filterMap,
      List.mem_map, Bool.and_eq_true, decide_eq_true_eq, List.contains_iff_mem]
    constructor
    · rintro ⟨⟨_, other⟩ | ⟨next, ⟨⟨s, member, rfl⟩, _, own⟩, made⟩, same⟩
      · exact absurd same other
      · exact ⟨s, member, own, made⟩
    · intro ⟨s, member, own, made⟩
      obtain ⟨level, known, rfl⟩ := NextShare.row_eq_some.mp made
      have kept : s.next.level ≠ .missing := by
        rw [known]
        exact LevelEntry.noConfusion
      exact ⟨.inr ⟨s.next, ⟨⟨s, member, rfl⟩, kept, own⟩, made⟩, rfl⟩
  rw [ShareTables.mem_sharesOf db'.consistent, hosts, ← rows, ← and_assoc]
  refine and_iff_left_of_imp fun inRows => ?_
  obtain ⟨s, _, own, made⟩ := rows.mp inRows
  obtain ⟨level, _, rfl⟩ := NextShare.row_eq_some.mp made
  exact own

/-- A list of the defaults is one that shares something. -/
theorem hostsView_mem_of_defaults {level : ShareLevel} {perms : List Permission}
    (defaults : (permissionsForShareLevel level).all perms.contains = true) :
    .hostsView ∈ perms :=
  List.contains_iff_mem.mp (List.all_eq_true.mp defaults _ (hostsView_mem level))

/-- The effective list of a stored row is empty when its entry shares nothing. -/
theorem effective_eq_nil_iff {s : ShareInput} {peerId : String} {row : HostShareRow}
    (made : s.next.row peerId = some row) :
    effectiveSharePermissions row.level row.permissions = [] ↔ s.SharesNothing := by
  obtain ⟨level, known, rfl⟩ := NextShare.row_eq_some.mp made
  have named : levels s.levelName = .own level := known
  have defaults : effectiveSharePermissions level ([].map Permission.id) ≠ [] :=
    List.ne_nil_of_mem (hostsView_mem level)
  have perms : s.next.permissions =
      if s.perms = [] then [] else dropDefaults (permissionsForShareLevel level) s.perms := by
    simp only [ShareInput.next, named]
  show effectiveSharePermissions level (s.next.permissions.map Permission.id) = [] ↔ _
  rw [perms]
  by_cases empty : s.perms = []
  · rw [if_pos empty]
    exact ⟨fun none => absurd none defaults, fun nothing => absurd empty nothing.2.1⟩
  rw [if_neg empty, dropDefaults]
  split
  · next same =>
      rw [Bool.and_eq_true] at same
      have viewed := hostsView_mem_of_defaults same.2
      exact ⟨fun none => absurd none defaults,
        fun nothing => absurd shareable_hostsView (nothing.2.2 _ viewed)⟩
  · have given : s.perms.map Permission.id ≠ [] := by simpa using empty
    rw [List.eq_nil_iff_forall_not_mem]
    simp only [mem_effective given, mem_sanitizePermissions_ids, not_and]
    constructor
    · exact fun none => ⟨by rw [named]; exact LevelEntry.noConfusion, empty, none⟩
    · exact fun nothing => nothing.2.2

/-! ## Absorbing a list -/

/-- The table has a copy of the remote host, and every copy has these columns. -/
def PeerHosts.HasCopy (t : PeerHosts) (peerId remoteHostId : String) (level : ShareLevel)
    (perms : List Permission) : Prop :=
  (∃ row ∈ t.hosts, row.IsCopyOf peerId remoteHostId) ∧
    ∀ row ∈ t.hosts, row.IsCopyOf peerId remoteHostId → row.Holds level perms

theorem PeerHosts.origin_of_copy {t : PeerHosts} {row : PeerHostRow} (member : row ∈ t.hosts)
    {peerId remoteHostId : String} (copy : row.IsCopyOf peerId remoteHostId) :
    row.origin = .peer := by
  refine t.copies row member ?_
  rw [copy.2]
  rfl

section Upsert

variable {t t' : PeerHosts} {cuid peerId remoteHostId : String} {level : ShareLevel}
  {perms : List Permission}

/-- An upsert that succeeds updates the copy or adds it. -/
theorem PeerHosts.upsert_cases
    (done : t.upsert cuid peerId remoteHostId level perms = .ok ((), t')) :
    ((∃ row ∈ t.hosts, row.IsCopyOf peerId remoteHostId) ∧
        t'.hosts = t.hosts.map fun row =>
          if row.IsCopyOf peerId remoteHostId then row.absorb level perms else row) ∨
      ((∀ row ∈ t.hosts, ¬ row.IsCopyOf peerId remoteHostId) ∧
        t'.hosts = t.hosts ++ [newCopy cuid peerId remoteHostId level perms]) := by
  unfold PeerHosts.upsert at done
  split at done
  · next exist =>
      cases done
      exact .inl ⟨exist, rfl⟩
  · next none =>
      split at done
      · cases done
        exact .inr ⟨fun row member copy => none ⟨row, member, copy⟩, rfl⟩
      · cases done

/-- The upsert writes the copy. -/
theorem PeerHosts.upsert_hasCopy
    (done : t.upsert cuid peerId remoteHostId level perms = .ok ((), t')) :
    t'.HasCopy peerId remoteHostId level perms := by
  rcases PeerHosts.upsert_cases done with ⟨⟨row, member, copy⟩, hosts⟩ | ⟨none, hosts⟩
  · constructor
    · refine ⟨row.absorb level perms, ?_, copy⟩
      rw [hosts]
      exact List.mem_map.mpr ⟨row, member, if_pos copy⟩
    · intro changed inside copied
      have origin := t'.origin_of_copy inside copied
      rw [hosts] at inside
      obtain ⟨old, _, rfl⟩ := List.mem_map.mp inside
      by_cases was : old.IsCopyOf peerId remoteHostId
      · rw [if_pos was] at origin ⊢
        exact ⟨origin, rfl, rfl⟩
      · rw [if_neg was] at copied
        exact absurd copied was
  · constructor
    · refine ⟨newCopy cuid peerId remoteHostId level perms, ?_, rfl, rfl⟩
      rw [hosts]
      exact List.mem_append_right _ (List.mem_singleton_self _)
    · intro row inside copied
      rw [hosts] at inside
      rcases List.mem_append.mp inside with old | new
      · exact absurd copied (none row old)
      · rw [List.mem_singleton.mp new]
        exact ⟨rfl, rfl, rfl⟩

/-- The upsert leaves the other copies. -/
theorem PeerHosts.upsert_frame
    (done : t.upsert cuid peerId remoteHostId level perms = .ok ((), t')) {other : String}
    (different : other ≠ remoteHostId) {level' : ShareLevel} {perms' : List Permission}
    (had : t.HasCopy peerId other level' perms') : t'.HasCopy peerId other level' perms' := by
  have apart : ∀ row : PeerHostRow, row.IsCopyOf peerId other → ¬ row.IsCopyOf peerId remoteHostId := by
    intro row copy also
    exact different (Option.some.inj (copy.2.symm.trans also.2))
  obtain ⟨⟨row, member, copy⟩, all⟩ := had
  rcases PeerHosts.upsert_cases done with ⟨_, hosts⟩ | ⟨_, hosts⟩
  · constructor
    · refine ⟨row, ?_, copy⟩
      rw [hosts]
      exact List.mem_map.mpr ⟨row, member, if_neg (apart row copy)⟩
    · intro changed inside copied
      rw [hosts] at inside
      obtain ⟨old, inOld, rfl⟩ := List.mem_map.mp inside
      by_cases was : old.IsCopyOf peerId remoteHostId
      · rw [if_pos was] at copied
        exact absurd was (apart old copied)
      · rw [if_neg was] at copied ⊢
        exact all old inOld copied
  · constructor
    · refine ⟨row, ?_, copy⟩
      rw [hosts]
      exact List.mem_append_left _ member
    · intro changed inside copied
      rw [hosts] at inside
      rcases List.mem_append.mp inside with old | new
      · exact all changed old copied
      · rw [List.mem_singleton.mp new] at copied
        exact absurd ⟨rfl, rfl⟩ (apart _ copied)

end Upsert

/-- Absorbing an entry leaves the copies of other hosts. -/
theorem absorbHost_frame {cuid : String → String} {peerId : String} {item : SharedHost}
    {t t' : PeerHosts} (done : absorbHost cuid peerId item t = (.ok (), t')) {other : String}
    (different : other ≠ item.id) {level : ShareLevel} {perms : List Permission}
    (had : t.HasCopy peerId other level perms) : t'.HasCopy peerId other level perms := by
  cases known : item.level with
  | none =>
      rw [absorbHost, known] at done
      cases done
      exact had
  | some level =>
      rw [absorbHost, known] at done
      exact PeerHosts.upsert_frame (call_eq_ok.mp done) different had

/-- A completed loop has copied every entry that has a level. -/
theorem each_absorbHost {cuid : String → String} {peerId : String} {remote : List SharedHost}
    {t t' : PeerHosts} (done : each remote (absorbHost cuid peerId) t = (.ok (), t')) :
    (∀ other ∉ remote.map (·.id), ∀ level perms,
        t.HasCopy peerId other level perms → t'.HasCopy peerId other level perms) ∧
      ((remote.map (·.id)).Nodup → ∀ item ∈ remote, ∀ level, item.level = some level →
        t'.HasCopy peerId item.id level item.perms) := by
  induction remote generalizing t with
  | nil =>
      cases done
      exact ⟨fun _ _ _ _ had => had, fun _ item member => absurd member List.not_mem_nil⟩
  | cons first rest ih =>
      rw [each, andThen_eq_ok] at done
      obtain ⟨_, middle, one, others⟩ := done
      obtain ⟨keeps, copies⟩ := ih others
      constructor
      · intro other absent level perms had
        rw [List.map_cons, List.mem_cons, not_or] at absent
        exact keeps other absent.2 level perms (absorbHost_frame one absent.1 had)
      · intro unique item member level known
        rw [List.map_cons, List.nodup_cons] at unique
        rcases List.mem_cons.mp member with rfl | inside
        · rw [absorbHost, known] at one
          exact keeps _ unique.1 level _ (PeerHosts.upsert_hasCopy (call_eq_ok.mp one))
        · exact copies unique.2 item inside level known

theorem sync_hasCopy {cuid : String → String} {peerId : String} {remote : List SharedHost}
    {t t' : PeerHosts} (synced : syncPeer cuid peerId remote t = (.ok (), t'))
    (unique : (remote.map (·.id)).Nodup) {item : SharedHost} (member : item ∈ remote)
    {level : ShareLevel} (known : item.level = some level) :
    t'.HasCopy peerId item.id level item.perms := by
  rw [syncPeer, andThen_eq_ok] at synced
  obtain ⟨_, _, _, looped⟩ := synced
  exact (each_absorbHost looped).2 unique item member level known

/-! ## The two machines -/

/-- The ids the owner sends are distinct. -/
theorem nodup_listSharedHostsForPeer (db : ShareStore) (peerId : String) :
    ((listSharedHostsForPeer db peerId).map (·.id)).Nodup := by
  have keys : ((db.sharesOf peerId).map (·.key)).Nodup :=
    db.consistent.shareKeys.sublist ((List.filter_sublist.trans List.filter_sublist).map _)
  have paired : (db.sharesOf peerId).map (·.key) =
      ((listSharedHostsForPeer db peerId).map (·.id)).map (Prod.mk peerId) := by
    rw [listSharedHostsForPeer, List.map_map, List.map_map]
    refine List.map_congr_left fun row member => ?_
    rw [HostShareRow.key, ((ShareTables.mem_sharesOf db.consistent).mp member).2.1]
    rfl
  rw [paired] at keys
  exact keys.of_map

/-- Every share of the peer has its copy, and owner and colleague give the same answer for every
permission asked. -/
def SharesAgree (db : ShareStore) (peerId : String) (colleague : PeerHosts) (owner : String) :
    Prop :=
  ∀ share ∈ db.sharesOf peerId,
    (∃ row ∈ colleague.hosts, row.IsCopyOf owner share.hostId) ∧
      ∀ row ∈ colleague.hosts, row.IsCopyOf owner share.hostId → ∀ needed,
        peerHostAllowsPermission (toPublicHost row) needed =
          shareHasPermission share.level share.permissions needed

/-- After an answer is absorbed the machines agree on the shares with an effective permission. -/
theorem sharesAgree_iff_effective {db : ShareStore} {peerId owner : String}
    {cuid : String → String} {colleague colleague' : PeerHosts}
    (synced : syncPeer cuid owner (listSharedHostsForPeer db peerId) colleague =
      (.ok (), colleague')) :
    SharesAgree db peerId colleague' owner ↔
      ∀ share ∈ db.sharesOf peerId,
        effectiveSharePermissions share.level share.permissions ≠ [] := by
  have copied : ∀ share ∈ db.sharesOf peerId,
      colleague'.HasCopy owner share.hostId share.level share.sent.perms := by
    intro share member
    have known : share.sent.level = some share.level := by
      rw [SharedHost.level]
      show (parseShareLevel (some share.level.name) <|> _) = _
      rw [parseShareLevel_name]
      rfl
    exact sync_hasCopy synced (nodup_listSharedHostsForPeer db peerId) (List.mem_map_of_mem member)
      known
  constructor
  · intro agree share member
    obtain ⟨row, inside, copy⟩ := (copied share member).1
    exact (HostShareRow.agrees_row_iff ((copied share member).2 row inside copy)).mp
      ((agree share member).2 row inside copy)
  · intro some share member
    refine ⟨(copied share member).1, fun row inside copy => ?_⟩
    exact (HostShareRow.agrees_row_iff ((copied share member).2 row inside copy)).mpr
      (some share member)

/-- **Agreement.** Owner and colleague agree on every share unless an entry for
a host of the owner gives permissions of which none can be shared. -/
theorem sharesAgree_iff {db db' : ShareStore} {peerId owner : String} {shares : List ShareInput}
    {cuid : String → String} {colleague colleague' : PeerHosts}
    (stored : setPeerShares db peerId shares = .ok db')
    (synced : syncPeer cuid owner (listSharedHostsForPeer db' peerId) colleague =
      (.ok (), colleague')) :
    SharesAgree db' peerId colleague' owner ↔
      ∀ s ∈ shares, s.hostId ∈ db.localIds → ¬ s.SharesNothing := by
  rw [sharesAgree_iff_effective synced]
  constructor
  · intro some s member own nothing
    have valid := (setPeerShares_ok stored).2 s member own
    cases known : s.next.level with
    | missing => exact nothing.1 known
    | inherited => exact valid known
    | own level =>
        have made : s.next.row peerId =
            .some ⟨peerId, s.next.hostId, level, s.next.permissions.map Permission.id⟩ :=
          NextShare.row_eq_some.mpr ⟨level, known, rfl⟩
        exact some _ ((mem_sharesOf_stored stored).mpr ⟨s, member, own, made⟩)
          ((effective_eq_nil_iff made).mpr nothing)
  · intro shareable share member empty
    obtain ⟨s, inside, own, made⟩ := (mem_sharesOf_stored stored).mp member
    exact shareable s inside own ((effective_eq_nil_iff made).mp empty)

/-- An owner with one host and one peer. -/
def oneHostOwner : ShareStore where
  hosts := [⟨"h1", .localHost, none, none⟩]
  peers := [⟨"studio", .proxora⟩]
  shares := []
  consistent := by decide

/-- A colleague without hosts. -/
def noCopies : PeerHosts := ⟨[], List.nodup_nil, fun _ member => absurd member List.not_mem_nil⟩

theorem sharesAgree_vmStart :
    ∃ db' colleague',
      setPeerShares oneHostOwner "studio" [⟨"h1", "control", some ["vm.start"]⟩] = .ok db' ∧
      syncPeer (fun _ => "copy") "owner" (listSharedHostsForPeer db' "studio") noCopies =
        (.ok (), colleague') ∧
      SharesAgree db' "studio" colleague' "owner" := by
  obtain ⟨db', stored⟩ : ∃ db',
      setPeerShares oneHostOwner "studio" [⟨"h1", "control", some ["vm.start"]⟩] = .ok db' :=
    ⟨_, rfl⟩
  obtain ⟨colleague', synced⟩ : ∃ colleague',
      syncPeer (fun _ => "copy") "owner" (listSharedHostsForPeer db' "studio") noCopies =
        (.ok (), colleague') := by
    cases stored
    exact ⟨_, rfl⟩
  refine ⟨db', colleague', stored, synced, (sharesAgree_iff stored synced).mpr ?_⟩
  intro s member _ nothing
  rw [List.mem_singleton.mp member] at nothing
  exact nothing.2.2 .vmStart (by decide) ⟨⟨.vmStart, .vm⟩, by decide, rfl⟩

/-- A share of `users.view` alone grants nothing; the colleague reads it as a view share. -/
theorem share_of_nothing_shows_view :
    ∃ db' colleague',
      setPeerShares oneHostOwner "studio" [⟨"h1", "view", some ["users.view"]⟩] = .ok db' ∧
      syncPeer (fun _ => "copy") "owner" (listSharedHostsForPeer db' "studio") noCopies =
        (.ok (), colleague') ∧
      ¬ SharesAgree db' "studio" colleague' "owner" := by
  refine ⟨_, _, rfl, rfl, fun agree => ?_⟩
  have disagrees := (agree ⟨"studio", "h1", .view, ["users.view"]⟩ (by decide)).2
    (newCopy "copy" "owner" "h1" .view []) (List.mem_singleton_self _) ⟨rfl, rfl⟩ [.hostsView]
  revert disagrees
  decide

end Proxora
