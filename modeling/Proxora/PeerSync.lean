import Proxora.PeerShares

/-!
# The colleague's host table

`syncPeerHosts` of `server/services/federation-service.ts` as a step on the whole table: which
copies it leaves, with which columns and ids, and what it does not touch.

`syncPeer_table` gives every copy after a completed sync, whatever the table held before and
whatever the peer has sent; `syncPeer_mirrors` says that an owner's answer makes the copies his
shares of that moment.
-/

namespace Proxora

open Ecma Steps Steps.Program

/-- The copy of a remote host. -/
def PeerHosts.copy (t : PeerHosts) (peerId remoteHostId : String) : Option PeerHostRow :=
  t.hosts.find? fun row => row.IsCopyOf peerId remoteHostId

/-- The rows that are no copies of the peer's hosts. -/
def PeerHosts.others (t : PeerHosts) (peerId : String) : List PeerHostRow :=
  t.hosts.filter fun row => !(row.peerId = some peerId && row.remoteHostId.isSome)

/-- Level and permissions of an entry with the id that has a level. -/
def SharedHost.sharedAs (item : SharedHost) (remoteHostId : String) :
    Option (ShareLevel × List Permission) :=
  if item.id = remoteHostId then item.level.map (·, item.perms) else none

/-- The last entry of a host counts. -/
def lastKnown (remote : List SharedHost) (remoteHostId : String) :
    Option (ShareLevel × List Permission) :=
  (remote.filterMap (·.sharedAs remoteHostId)).getLast?

/-- A copy with new columns; one that did not exist gets an id of its own. -/
def PeerHostRow.renewed (before : Option PeerHostRow) (cuid peerId remoteHostId : String)
    (shared : ShareLevel × List Permission) : PeerHostRow :=
  (before.getD (newCopy cuid peerId remoteHostId shared.1 shared.2)).absorb shared.1 shared.2

variable {t t' t'' : PeerHosts} {cuid : String → String} {peerId remoteHostId : String}
  {remote : List SharedHost}

/-! ## One statement -/

theorem isCopyOf_absorb {row : PeerHostRow} {level : ShareLevel} {perms : List Permission} :
    (row.absorb level perms).IsCopyOf peerId remoteHostId ↔ row.IsCopyOf peerId remoteHostId :=
  Iff.rfl

theorem IsCopyOf.remote_eq {row : PeerHostRow} {other : String}
    (copy : row.IsCopyOf peerId remoteHostId) (also : row.IsCopyOf peerId other) :
    other = remoteHostId :=
  Option.some.inj (also.2.symm.trans copy.2)

theorem mem_of_copy {row : PeerHostRow} (found : t.copy peerId remoteHostId = some row) :
    row ∈ t.hosts ∧ row.IsCopyOf peerId remoteHostId :=
  ⟨List.mem_of_find?_eq_some found, by simpa using List.find?_some found⟩

section upsert

variable {id : String} {level : ShareLevel} {perms : List Permission}

/-- A test that does not look at the columns sees no difference. -/
theorem comp_absorb {test : PeerHostRow → Bool}
    (blind : ∀ row : PeerHostRow, test (row.absorb level perms) = test row) :
    (test ∘ fun old : PeerHostRow =>
      if old.IsCopyOf peerId remoteHostId then old.absorb level perms else old) = test := by
  funext old
  rw [Function.comp_apply]
  split
  · exact blind old
  · rfl

theorem copy_upsert (done : t.upsert id peerId remoteHostId level perms = .ok ((), t')) :
    t'.copy peerId remoteHostId =
      some (PeerHostRow.renewed (t.copy peerId remoteHostId) id peerId remoteHostId
        (level, perms)) := by
  rcases PeerHosts.upsert_cases done with ⟨⟨row, member, copy⟩, hosts⟩ | ⟨absent, hosts⟩
  · cases found : t.copy peerId remoteHostId with
    | none => exact absurd (decide_eq_true copy) (List.find?_eq_none.mp found row member)
    | some first =>
        have isCopy := (mem_of_copy found).2
        rw [PeerHosts.copy, hosts, List.find?_map, comp_absorb fun _ => rfl, ← PeerHosts.copy, found,
          Option.map_some, if_pos isCopy]
        rfl
  · have nothing : t.copy peerId remoteHostId = none := by
      rw [PeerHosts.copy, List.find?_eq_none]
      intro row member
      rw [decide_eq_true_eq]
      exact absent row member
    have isCopy : (newCopy id peerId remoteHostId level perms).IsCopyOf peerId remoteHostId :=
      ⟨rfl, rfl⟩
    rw [PeerHosts.copy, hosts, List.find?_append, ← PeerHosts.copy, nothing, Option.none_or,
      List.find?_singleton, if_pos (decide_eq_true isCopy)]
    rfl

theorem copy_upsert_other (done : t.upsert id peerId remoteHostId level perms = .ok ((), t'))
    {other : String} (different : other ≠ remoteHostId) :
    t'.copy peerId other = t.copy peerId other := by
  rcases PeerHosts.upsert_cases done with ⟨-, hosts⟩ | ⟨-, hosts⟩
  · rw [PeerHosts.copy, hosts, List.find?_map, comp_absorb fun _ => rfl, ← PeerHosts.copy]
    cases found : t.copy peerId other with
    | none => rfl
    | some first =>
        rw [Option.map_some, if_neg]
        exact fun also => different (IsCopyOf.remote_eq also (mem_of_copy found).2)
  · have apart : ¬ (newCopy id peerId remoteHostId level perms).IsCopyOf peerId other :=
      fun also => different (IsCopyOf.remote_eq ⟨rfl, rfl⟩ also)
    rw [PeerHosts.copy, hosts, List.find?_append, List.find?_singleton,
      if_neg (by simpa using apart), Option.or_none, ← PeerHosts.copy]

theorem others_upsert (done : t.upsert id peerId remoteHostId level perms = .ok ((), t')) :
    t'.others peerId = t.others peerId := by
  rcases PeerHosts.upsert_cases done with ⟨-, hosts⟩ | ⟨-, hosts⟩
  · rw [PeerHosts.others, hosts, List.filter_map, comp_absorb fun _ => rfl, ← PeerHosts.others]
    refine (List.map_congr_left fun row member => ?_).trans (List.map_id _)
    rw [if_neg]
    · rfl
    · intro copy
      have kept := (List.mem_filter.mp member).2
      rw [copy.1, copy.2] at kept
      simp at kept
  · rw [PeerHosts.others, hosts, List.filter_append, ← PeerHosts.others]
    simp [newCopy]

end upsert

/-- `dropUnshared` tests a copy by the id of its remote host. -/
theorem isUnshared_of_copy {row : PeerHostRow} (member : row ∈ t.hosts)
    (copy : row.IsCopyOf peerId remoteHostId) :
    row ∈ (t.dropUnshared peerId (remote.map (·.id))).hosts ↔
      remoteHostId ∈ remote.map (·.id) ∨ remoteHostId = "" := by
  rw [PeerHosts.dropUnshared, List.mem_filter, and_iff_right member, copy.1, copy.2,
    t.origin_of_copy member copy]
  by_cases empty : remoteHostId = ""
  · simp [empty]
  · simp [empty]

theorem copy_dropUnshared :
    (t.dropUnshared peerId (remote.map (·.id))).copy peerId remoteHostId =
      if remoteHostId ∈ remote.map (·.id) ∨ remoteHostId = "" then t.copy peerId remoteHostId
      else none := by
  split
  · next listed =>
      rw [PeerHosts.copy, PeerHosts.dropUnshared, List.find?_filter, PeerHosts.copy]
      apply List.find?_congr
      intro row member
      rw [decide_eq_decide, decide_eq_true_eq, and_iff_right_iff_imp]
      intro copy
      exact (List.mem_filter.mp ((isUnshared_of_copy member copy).mpr listed)).2
  · next unlisted =>
      rw [PeerHosts.copy, List.find?_eq_none]
      intro row kept copy
      have member := List.mem_of_mem_filter kept
      exact unlisted ((isUnshared_of_copy member (of_decide_eq_true copy)).mp kept)

theorem others_dropUnshared {remoteIds : List String} :
    (t.dropUnshared peerId remoteIds).others peerId = t.others peerId := by
  rw [PeerHosts.others, PeerHosts.dropUnshared, List.filter_filter, PeerHosts.others]
  congr 1
  funext row
  rw [Bool.and_eq_left_iff_imp]
  intro other
  cases sent : row.remoteHostId with
  | none => simp
  | some id =>
      rw [sent] at other
      simp only [Option.isSome_some, Bool.and_true, Bool.not_eq_true', decide_eq_false_iff_not]
        at other
      simp [other]

/-! ## The loop -/

/-- Of two renewals the later one counts. -/
theorem renewed_renewed {before : Option PeerHostRow} {id : String}
    {earlier later : ShareLevel × List Permission} :
    PeerHostRow.renewed (some (PeerHostRow.renewed before id peerId remoteHostId earlier)) id peerId
        remoteHostId later =
      PeerHostRow.renewed before id peerId remoteHostId later := by
  cases before <;> rfl

theorem lastKnown_cons {item : SharedHost} :
    lastKnown (item :: remote) remoteHostId =
      (lastKnown remote remoteHostId).or (item.sharedAs remoteHostId) := by
  rw [lastKnown, lastKnown]
  cases first : item.sharedAs remoteHostId with
  | none => rw [List.filterMap_cons, first, Option.or_none]
  | some shared =>
      rw [List.filterMap_cons, first]
      dsimp only
      rw [List.getLast?_cons]
      cases (remote.filterMap (·.sharedAs remoteHostId)).getLast? with
      | none => rfl
      | some _ => rfl

/-- The copy that the loop makes of one. -/
theorem copy_each (looped : each remote (absorbHost cuid peerId) t = (.ok (), t')) :
    t'.copy peerId remoteHostId =
      (lastKnown remote remoteHostId).elim (t.copy peerId remoteHostId) fun shared =>
        some (PeerHostRow.renewed (t.copy peerId remoteHostId) (cuid remoteHostId) peerId
          remoteHostId shared) := by
  induction remote generalizing t with
  | nil =>
      cases looped
      rfl
  | cons item rest ih =>
      rw [each, andThen_eq_ok] at looped
      obtain ⟨_, middle, one, others⟩ := looped
      rw [ih others, lastKnown_cons]
      cases known : item.level with
      | none =>
          rw [absorbHost, known] at one
          cases one
          simp [SharedHost.sharedAs, known]
      | some level =>
          rw [absorbHost, known] at one
          have done := call_eq_ok.mp one
          by_cases same : item.id = remoteHostId
          · subst same
            rw [copy_upsert done, SharedHost.sharedAs, if_pos rfl, known]
            cases lastKnown rest item.id with
            | none => rfl
            | some shared => exact congrArg some renewed_renewed
          · rw [copy_upsert_other done (Ne.symm same), SharedHost.sharedAs, if_neg same,
              Option.or_none]

theorem others_each (looped : each remote (absorbHost cuid peerId) t = (.ok (), t')) :
    t'.others peerId = t.others peerId := by
  induction remote generalizing t with
  | nil =>
      cases looped
      rfl
  | cons item rest ih =>
      rw [each, andThen_eq_ok] at looped
      obtain ⟨_, middle, one, others⟩ := looped
      rw [ih others]
      cases known : item.level with
      | none =>
          rw [absorbHost, known] at one
          cases one
          rfl
      | some level =>
          rw [absorbHost, known] at one
          exact others_upsert (call_eq_ok.mp one)

/-! ## A completed sync -/

theorem lastKnown_of_notMem (absent : remoteHostId ∉ remote.map (·.id)) :
    lastKnown remote remoteHostId = none := by
  rw [lastKnown, List.getLast?_eq_none_iff, List.filterMap_eq_nil_iff]
  intro item member
  apply if_neg
  intro same
  exact absent (same ▸ List.mem_map_of_mem member)

theorem others_syncPeer (synced : syncPeer cuid peerId remote t = (.ok (), t')) :
    t'.others peerId = t.others peerId := by
  rw [syncPeer, andThen_eq_ok] at synced
  obtain ⟨_, middle, dropped, looped⟩ := synced
  cases dropped
  exact (others_each looped).trans others_dropUnshared

theorem copy_syncPeer (synced : syncPeer cuid peerId remote t = (.ok (), t'))
    (remoteHostId : String) :
    t'.copy peerId remoteHostId =
      (lastKnown remote remoteHostId).elim
        (if remoteHostId ∈ remote.map (·.id) ∨ remoteHostId = "" then t.copy peerId remoteHostId
          else none)
        fun shared => some (PeerHostRow.renewed (t.copy peerId remoteHostId) (cuid remoteHostId)
          peerId remoteHostId shared) := by
  rw [syncPeer, andThen_eq_ok] at synced
  obtain ⟨_, middle, dropped, looped⟩ := synced
  cases dropped
  rw [copy_each looped, copy_dropUnshared]
  by_cases listed : remoteHostId ∈ remote.map (·.id)
  · rw [if_pos (.inl listed)]
  · rw [lastKnown_of_notMem listed]
    rfl

/-- A host listed twice, and one whose level is none. -/
def sharedTwo : List SharedHost :=
  [⟨"h1", some "view", none⟩, ⟨"h2", some "all", none⟩, ⟨"h1", some "create", none⟩]

section owner

variable {db : ShareStore} {peer : String}

theorem sharedAs_sent {share : HostShareRow} :
    share.sent.sharedAs remoteHostId =
      if share.hostId = remoteHostId then some (share.level, share.sent.perms) else none := by
  have known : share.sent.level = some share.level := by
    rw [SharedHost.level, HostShareRow.sent, parseShareLevel_name]
    rfl
  rw [SharedHost.sharedAs, known]
  rfl

/-- What the owner sends about a host is his one share of it. -/
theorem lastKnown_sent {share : HostShareRow} (member : share ∈ db.sharesOf peer) :
    lastKnown (listSharedHostsForPeer db peer) share.hostId =
      some (share.level, share.sent.perms) := by
  have distinct : ((db.sharesOf peer).map (·.hostId)).Nodup := by
    have sent := nodup_listSharedHostsForPeer db peer
    rwa [listSharedHostsForPeer, List.map_map] at sent
  have only : ∀ other ∈ db.sharesOf peer,
      other.sent.sharedAs share.hostId = some (share.level, share.sent.perms) ∨
        other.sent.sharedAs share.hostId = none := by
    intro other inside
    rw [sharedAs_sent]
    split
    · next same =>
        rw [List.inj_on_of_nodup_map distinct inside member same]
        exact .inl rfl
    · exact .inr rfl
  rw [lastKnown, listSharedHostsForPeer, List.filterMap_map]
  have some' : (db.sharesOf peer).filterMap
      ((·.sharedAs share.hostId) ∘ HostShareRow.sent) ≠ [] := by
    intro empty
    rw [List.filterMap_eq_nil_iff] at empty
    have absent := empty share member
    rw [Function.comp_apply, sharedAs_sent, if_pos rfl] at absent
    cases absent
  cases last : ((db.sharesOf peer).filterMap
      ((·.sharedAs share.hostId) ∘ HostShareRow.sent)).getLast? with
  | none => exact absurd (List.getLast?_eq_none_iff.mp last) some'
  | some shared =>
      obtain ⟨other, inside, found⟩ := List.mem_filterMap.mp (List.mem_of_getLast? last)
      rw [Function.comp_apply] at found
      rcases only other inside with same | none
      · exact found.symm.trans same
      · cases none.symm.trans found

/-- **The copies mirror the shares.** Whatever the colleague's table held, after a completed sync it
has a copy of a host exactly when the owner shares it now, with the level of the share and the
permissions that are effective in it. -/
theorem syncPeer_mirrors (db : ShareStore) (peer owner : String) (cuid : String → String)
    (t t' : PeerHosts)
    (synced : syncPeer cuid owner (listSharedHostsForPeer db peer) t = (.ok (), t')) :
    (∀ share ∈ db.sharesOf peer, ∃ row, t'.copy owner share.hostId = some row ∧
      row.peerShareLevel = some share.level ∧
      ∀ p : Permission, p.id ∈ row.peerSharePermissions ↔
        p ∈ effectiveSharePermissions share.level share.permissions) ∧
      ∀ hostId, hostId ≠ "" → (∀ share ∈ db.sharesOf peer, share.hostId ≠ hostId) →
        t'.copy owner hostId = none := by
  have copies := copy_syncPeer synced
  constructor
  · intro share member
    rw [copies, lastKnown_sent member]
    refine ⟨_, rfl, rfl, fun p => ?_⟩
    have columns : (share.sent.perms.map Permission.id).Mem p.id ↔ p ∈ share.sent.perms :=
      List.mem_map_of_injective Permission.id_injective
    exact columns.trans mem_sanitizePermissions_ids
  · intro hostId named unshared
    have absent : hostId ∉ (listSharedHostsForPeer db peer).map (·.id) := by
      rw [listSharedHostsForPeer, List.map_map]
      intro listed
      obtain ⟨share, member, same⟩ := List.mem_map.mp listed
      exact unshared share member same
    rw [copies, lastKnown_of_notMem absent, Option.elim_none, if_neg (not_or.mpr ⟨absent, named⟩)]

/-- An owner who shares his host. -/
def sharingOwner : ShareStore where
  hosts := [⟨"h1", .localHost, none, none⟩]
  peers := [⟨"studio", .proxora⟩]
  shares := [⟨"studio", "h1", .control, ["vm.start"]⟩]
  consistent := by decide

theorem syncPeer_mirrors_share :
    ∃ t', syncPeer (fun _ => "copy") "owner" (listSharedHostsForPeer sharingOwner "studio")
        noCopies = (.ok (), t') ∧
      ∃ row, t'.copy "owner" "h1" = some row ∧ row.peerShareLevel = some .control := by
  refine ⟨_, rfl, ?_⟩
  obtain ⟨row, found, level, -⟩ :=
    (syncPeer_mirrors sharingOwner "studio" "owner" (fun _ => "copy") noCopies _ rfl).1
      ⟨"studio", "h1", .control, ["vm.start"]⟩ (by decide)
  exact ⟨row, found, level⟩

end owner

end Proxora
