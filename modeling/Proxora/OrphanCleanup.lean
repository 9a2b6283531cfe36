import Proxora.BackupFiles

/-!
# Cleaning up orphaned archives

`cleanupOrphanBackupFiles` of `server/services/backup-service.ts`: the archives
the user is shown are compared with the guests the user is shown, and what has
no guest there is deleted, 200 archives at most.

`cleanup_spares_iff` says when no archive of a guest that is still on the host
goes with them: a guest hidden from the user must not share its VMID with a
guest of the allow-list.
-/

namespace Proxora

open Ecma

/-- `ORPHAN_DELETE_LIMIT`. -/
def orphanDeleteLimit : Nat := 200

/-- What Proxmox answers when an archive is deleted. -/
abbrev DeleteAnswer := BackupFile → ClientCall → Except Text Unit

/-- The call that deletes an archive; none for a volume id without storage or volume. -/
def deleteArchive (file : BackupFile) : Option ClientCall :=
  let parsed := parseBackupVolid file.volid
  if parsed.storage = [] ∨ parsed.volume = [] then none
  else some (.storage (.deleteContent file.node parsed.storage parsed.volume))

/-- The result for one orphan. -/
structure DeleteResult where
  volid : Text
  outcome : Except Text Unit

def DeleteResult.ok (r : DeleteResult) : Bool :=
  match r.outcome with
  | .ok _ => true
  | .error _ => false

def deleteOrphan (answer : DeleteAnswer) (file : BackupFile) : DeleteResult :=
  match deleteArchive file with
  | none => ⟨file.volid, .error "invalid"⟩
  | some call => ⟨file.volid, answer file call⟩

structure CleanupResult where
  found : Nat
  deleted : Nat
  failed : Nat
  volids : List Text
  errors : List (Text × Text)
deriving DecidableEq

def cleanupResult (results : List DeleteResult) : CleanupResult :=
  let deleted := (results.filter (·.ok)).map (·.volid)
  { found := results.length
    deleted := deleted.length
    failed := (results.filter fun r => !r.ok).length
    volids := deleted
    errors := results.filterMap fun r =>
      match r.outcome with
      | .ok _ => none
      | .error message => some (r.volid, message) }

/-- The orphans of one pass. -/
def cleanupOrphans (user : AccessScope) (hostId : String) (inventory : Inventory)
    (rows : List StorageRow) : List BackupFile :=
  (orphanBackupFiles (listHostBackupFiles user hostId rows)
    ((listHostBackupGuests user hostId inventory).map (·.toBackupGuestRef))).take orphanDeleteLimit

/-- `cleanupOrphanBackupFiles`; without orphans every list of the result is empty. -/
def cleanupOrphanBackupFiles (answer : DeleteAnswer) (user : AccessScope) (hostId : String)
    (inventory : Inventory) (rows : List StorageRow) : Except AppError CleanupResult :=
  if !canAccessHost user hostId then .error (notFoundError "Host not found")
  else .ok (cleanupResult ((cleanupOrphans user hostId inventory rows).map (deleteOrphan answer)))

/-! ## What is deleted -/

variable {user : AccessScope} {hostId : String} {inventory : Inventory} {rows : List StorageRow}

/-- Among the first `n` elements that pass a test: fewer than `n` before it pass. -/
theorem mem_take_filter_iff {α : Type} {p : α → Bool} {l : List α} {n : Nat} {x : α} :
    x ∈ (l.filter p).take n ↔
      ∃ before after, l = before ++ x :: after ∧ p x = true ∧ (before.filter p).length < n := by
  induction l generalizing n with
  | nil => simp
  | cons a l ih =>
      by_cases passes : p a = true
      · rw [List.filter_cons_of_pos passes]
        cases n with
        | zero => simp
        | succ n =>
            rw [List.take_succ_cons, List.mem_cons, ih]
            constructor
            · rintro (rfl | ⟨before, after, rfl, here, few⟩)
              · exact ⟨[], l, rfl, passes, Nat.zero_lt_succ n⟩
              · refine ⟨a :: before, after, rfl, here, ?_⟩
                rw [List.filter_cons_of_pos passes, List.length_cons]
                omega
            · rintro ⟨before, after, cut, here, few⟩
              rcases List.cons_eq_append_iff.mp cut with ⟨rfl, same⟩ | ⟨front, rfl, rfl⟩
              · cases same
                exact .inl rfl
              · rw [List.filter_cons_of_pos passes, List.length_cons] at few
                exact .inr ⟨front, after, rfl, here, by omega⟩
      · rw [List.filter_cons_of_neg passes, ih]
        constructor
        · rintro ⟨before, after, rfl, here, few⟩
          refine ⟨a :: before, after, rfl, here, ?_⟩
          rwa [List.filter_cons_of_neg passes]
        · rintro ⟨before, after, cut, here, few⟩
          rcases List.cons_eq_append_iff.mp cut with ⟨rfl, same⟩ | ⟨front, rfl, rfl⟩
          · cases same
            exact (passes here).elim
          · rw [List.filter_cons_of_neg passes] at few
            exact ⟨front, after, rfl, here, few⟩

/-- An archive that the user is shown, without a guest that the user may touch. -/
def shownAsOrphan (user : AccessScope) (hostId : String) (inventory : Inventory)
    (file : BackupFile) : Bool :=
  user.namesVmid hostId file.vmid &&
    isOrphanBackupFile file.toBackupRef
      (inventory.guests.filter fun g => canAccessGuest user hostId g.kind g.vmid)

theorem shownAsOrphan_iff {file : BackupFile} :
    shownAsOrphan user hostId inventory file = true ↔
      user.namesVmid hostId file.vmid = true ∧ (∃ vmid, file.vmid = some vmid ∧ 0 < vmid) ∧
        ∀ g ∈ inventory.guests, canAccessGuest user hostId g.kind g.vmid = true →
          file.ofGuest g.vmid g.kind = false := by
  simp only [shownAsOrphan, Bool.and_eq_true, isOrphanBackupFile_iff, List.mem_filter, and_imp]

theorem cleanupOrphans_eq :
    cleanupOrphans user hostId inventory rows =
      ((hostBackupFiles rows).filter (shownAsOrphan user hostId inventory)).take
        orphanDeleteLimit := by
  rw [cleanupOrphans, orphanBackupFiles, listHostBackupFiles_eq, List.filter_filter]
  congr 1
  refine List.filter_congr fun file _ => ?_
  rw [Bool.eq_iff_iff, Bool.and_eq_true, and_comm, shownAsOrphan_iff, isOrphanBackupFile_iff]
  refine and_congr_right fun _ => and_congr_right fun _ => ?_
  -- both lists hold the guests of the inventory that the user may touch
  have shown (g : BackupGuestRef) :
      g ∈ (listHostBackupGuests user hostId inventory).map (·.toBackupGuestRef) ↔
        g ∈ inventory.guests ∧ canAccessGuest user hostId g.kind g.vmid = true := by
    rw [List.mem_map]
    exact mem_listHostBackupGuests
  simp only [shown, and_imp]

/-- A volume that is gone was that of an orphan. -/
theorem exists_orphan_of_deleted {answer : DeleteAnswer} {result : CleanupResult} {volid : Text}
    (done : cleanupOrphanBackupFiles answer user hostId inventory rows = .ok result)
    (deleted : volid ∈ result.volids) :
    canAccessHost user hostId = true ∧
      ∃ file ∈ cleanupOrphans user hostId inventory rows,
        (deleteArchive file).isSome = true ∧ file.volid = volid := by
  rw [cleanupOrphanBackupFiles] at done
  split at done
  · cases done
  · rename_i allowed
    cases done
    simp only [cleanupResult, List.mem_map, List.mem_filter] at deleted
    obtain ⟨_, ⟨⟨file, member, rfl⟩, ok⟩, rfl⟩ := deleted
    refine ⟨by simpa using allowed, file, member, ?_⟩
    rw [deleteOrphan] at ok ⊢
    split at ok
    · cases ok
    · rename_i call issued
      rw [issued]
      exact ⟨rfl, rfl⟩

/-- Proxmox carries out every deletion. -/
def allDeleted : DeleteAnswer := fun _ _ => .ok ()

/-- An orphan with a usable volume id goes when Proxmox lets it. -/
theorem exists_deleted_of_orphan (access : canAccessHost user hostId = true) :
    ∃ result, cleanupOrphanBackupFiles allDeleted user hostId inventory rows = .ok result ∧
      ∀ file ∈ cleanupOrphans user hostId inventory rows, (deleteArchive file).isSome = true →
        file.volid ∈ result.volids := by
  refine ⟨_, by rw [cleanupOrphanBackupFiles, access]; rfl, fun file member issued => ?_⟩
  obtain ⟨call, issued⟩ := Option.isSome_iff_exists.mp issued
  have same : deleteOrphan allDeleted file = ⟨file.volid, .ok ()⟩ := by
    rw [deleteOrphan, issued]
    rfl
  refine List.mem_map.mpr ⟨⟨file.volid, .ok ()⟩, List.mem_filter.mpr ⟨?_, rfl⟩, rfl⟩
  exact List.mem_map.mpr ⟨file, member, same⟩

/-! ## Guests that are still there -/

/-- None of the volumes is an archive of a guest of the host. -/
def SparesLiveGuests (volids : List Text) (inventory : Inventory) (rows : List StorageRow) : Prop :=
  ∀ volid ∈ volids, ∀ g ∈ inventory.guests,
    ∀ file ∈ backupsForGuest (hostBackupFiles rows) g.vmid g.kind, file.volid ≠ volid

/-- **Cleaning up spares the guests that are still there.**  It takes an archive
of a guest `g` of the host in one case: the user may not touch `g`, the
allow-list names its VMID on this host all the same, no guest the user may touch
owns the archive, and fewer than 200 newer orphans go first. -/
theorem cleanup_spares_iff (user : AccessScope) (hostId : String) (inventory : Inventory)
    (rows : List StorageRow) :
    (∀ answer result, cleanupOrphanBackupFiles answer user hostId inventory rows = .ok result →
        SparesLiveGuests result.volids inventory rows) ↔
      (canAccessHost user hostId = true →
        ∀ before file after, hostBackupFiles rows = before ++ file :: after →
          (deleteArchive file).isSome = true →
          ∀ g ∈ inventory.guests, file.ofGuest g.vmid g.kind = true → 0 < g.vmid →
            canAccessGuest user hostId g.kind g.vmid = false →
            user.namesVmid hostId (some g.vmid) = true →
            (∀ other ∈ inventory.guests, canAccessGuest user hostId other.kind other.vmid = true →
              file.ofGuest other.vmid other.kind = false) →
            orphanDeleteLimit ≤
              (before.filter (shownAsOrphan user hostId inventory)).length) := by
  constructor
  · intro spares access before file after cut issued g live owns positive _ named hidden
    by_contra few
    have vmid := (BackupRef.ofGuest_iff.mp owns).1
    have orphan : file ∈ cleanupOrphans user hostId inventory rows := by
      rw [cleanupOrphans_eq, mem_take_filter_iff]
      refine ⟨before, after, cut, shownAsOrphan_iff.mpr ?_, Nat.lt_of_not_le few⟩
      exact ⟨vmid ▸ named, ⟨g.vmid, vmid, positive⟩, hidden⟩
    obtain ⟨result, done, goes⟩ : ∃ result,
        cleanupOrphanBackupFiles allDeleted user hostId inventory rows = .ok result ∧ _ :=
      exists_deleted_of_orphan access
    have listed : file ∈ backupsForGuest (hostBackupFiles rows) g.vmid g.kind := by
      refine List.mem_filter.mpr ⟨?_, owns⟩
      rw [cut]
      exact List.mem_append_right before List.mem_cons_self
    exact spares allDeleted result done file.volid (goes file orphan issued) g live file listed rfl
  · intro condition answer result done volid deleted g live other listed same
    obtain ⟨access, file, orphan, issued, rfl⟩ := exists_orphan_of_deleted done deleted
    rw [cleanupOrphans_eq, mem_take_filter_iff] at orphan
    obtain ⟨before, after, cut, shown, few⟩ := orphan
    obtain ⟨named, ⟨vmid, is, positive⟩, hidden⟩ := shownAsOrphan_iff.mp shown
    obtain ⟨inside, owns⟩ := List.mem_filter.mp listed
    have here : file ∈ hostBackupFiles rows := by
      rw [cut]
      exact List.mem_append_right before List.mem_cons_self
    obtain rfl := volid_injOn_hostBackupFiles inside here same
    have owned := (BackupRef.ofGuest_iff.mp owns).1
    rw [is, Option.some.injEq] at owned
    subst owned
    have untouchable : canAccessGuest user hostId g.kind g.vmid = false := by
      rw [Bool.eq_false_iff]
      intro touchable
      rw [hidden g live touchable] at owns
      cases owns
    have many := condition access before other after cut issued g live owns positive untouchable
      (is ▸ named) hidden
    omega

/-! ## A container behind the VMID of a VM -/

/-- A scope of the VM 100, and a host where 100 is a container. -/
def vmScope : AccessScope := ⟨some ["h"], some [⟨"h", .vm, 100⟩]⟩

def containerInventory : Inventory := ⟨[], [⟨100, "db", "pve", "running"⟩]⟩

def containerArchive : StorageRow :=
  ⟨"pve", "local", ⟨some "local:backup/vzdump-lxc-100.tar", none, some 100, none, none, none, none⟩⟩

/-- The archive of the running container is taken for an orphan. -/
theorem cleanup_deletes_live_archive :
    ¬ ∀ (user : AccessScope) (hostId : String) (inventory : Inventory) (rows : List StorageRow)
        (answer : DeleteAnswer) (result : CleanupResult),
      cleanupOrphanBackupFiles answer user hostId inventory rows = .ok result →
        SparesLiveGuests result.volids inventory rows := by
  intro claim
  have done : cleanupOrphanBackupFiles allDeleted vmScope "h" containerInventory
      [containerArchive] = .ok ⟨1, 1, 0, ["local:backup/vzdump-lxc-100.tar"], []⟩ := by
    decide
  refine claim _ _ _ _ _ _ done "local:backup/vzdump-lxc-100.tar" List.mem_cons_self ⟨100, .lxc⟩
    List.mem_cons_self (containerArchive.file "local:backup/vzdump-lxc-100.tar") ?_ rfl
  decide

end Proxora
