import Proxora.BackupActions
import Proxora.BackupVolumes

/-!
# The right to delete a volume

Two routes delete a volume of a storage: the action delete of
`app/api/hosts/[id]/storage/content/route.ts`, which asks for `backup.delete` or for
`storage.delete` as `storageContentKind` of `lib/storage-content.ts` sorts the volume, and
the action delete-file of `app/api/hosts/[id]/backups/route.ts`, which asks for
`backup.delete` only.

`storage_delete_needed_iff` says when a volume that is no backup is only deleted by a user
with `storage.delete`.
-/

namespace Proxora

open Ecma Ecma.Regex

/-! ## Kinds of content -/

inductive StorageContentKind : Type
  | iso | vztmpl | images | rootdir | backup | snippets | other
deriving DecidableEq, Repr

/-- `KNOWN_CONTENT`. -/
def knownContent : List (Text × StorageContentKind) :=
  [("iso", .iso), ("vztmpl", .vztmpl), ("images", .images), ("rootdir", .rootdir),
   ("backup", .backup), ("snippets", .snippets)]

/-- The entries of a row of storage content that tell its kind; an absent one is empty. -/
structure ContentEntries where
  volid : Text
  content : Text

/-- The kind that the volume id of a row suggests. -/
def suggestedKind (volid : Text) : StorageContentKind :=
  if includes volid "/iso/" || includes volid ":iso/" then .iso
  else if includes volid "vztmpl" then .vztmpl
  else if includes volid "backup" || test (litI "vzdump-") volid then .backup
  else if includes volid "snippets" then .snippets
  else if includes volid "rootdir" || includes volid "subvol-" then .rootdir
  else if includes volid "vm-" || includes volid "base-" then .images
  else .other

def storageContentKind (row : ContentEntries) : StorageContentKind :=
  let raw := trim ((split ',' (toLowerCase row.content)).headD [])
  match knownContent.lookup raw with
  | some kind => kind
  | none => suggestedKind (toLowerCase (trim row.volid))

def storageContentDeletePermission : StorageContentKind → Permission
  | .backup => .backupDelete
  | _ => .storageDelete

/-! ## The route of the storage view -/

/-- The kind that the route takes a volume for. -/
def routeContentKind (volid : Text) : StorageContentKind :=
  storageContentKind ⟨volid, if includes (parseBackupVolid volid).volume "backup" then "backup" else []⟩

/-- `POST /api/hosts/[id]/storage/content`, followed to the call to Proxmox. -/
def storageContentPost (user : SessionUser) (hostId : String) (body : DeleteFileBody) :
    Except AppError (List ClientCall) :=
  let parsed := parseBackupVolid body.volid
  let needed := storageContentDeletePermission (routeContentKind body.volid)
  if !userHasAnyPermission user.holder [.storageDelete, .backupDelete] (some hostId) none then
    .error defaultForbidden
  else if body.node = [] ∨ body.volid = [] then .error (validationError "Validation failed")
  else if parsed.storage = [] ∨ parsed.volume = [] then
    .error (validationError "Ungültiges Volume")
  else if !userHasPermission user.holder needed (some hostId) none then .error defaultForbidden
  else if !canAccessHost user.toAccessScope hostId then .error (notFoundError "Host not found")
  else .ok [.storage (.deleteContent body.node parsed.storage parsed.volume)]

/-- The two routes that delete a volume. -/
inductive DeleteRoute : Type
  | storageContent
  | backupFile

/-- The calls to Proxmox that a request for a volume leads to. -/
def DeleteRoute.post (route : DeleteRoute) (world : Nat → RestoreAnswers) (inventory : Inventory)
    (rows : List StorageRow) (user : SessionUser) (hostId : String) (body : DeleteFileBody) :
    Except AppError (List ClientCall) :=
  match route with
  | .storageContent => storageContentPost user hostId body
  | .backupFile => backupPost world user hostId inventory rows (.deleteFile body)

/-! ## What should be needed -/

/-- The volume is in the directory for backups, or has the name of a backup. -/
def IsBackupVolume (volume : Text) : Prop :=
  ("backup/" : Text) <+: volume ∨ ∃ kind vmid, IsBackupOf kind vmid volume

def SessionUser.may (user : SessionUser) (hostId : String) (permission : Permission) : Prop :=
  userHasPermission user.holder permission (some hostId) none = true

/-- Whoever gets a volume deleted that is no backup holds `storage.delete` on the host. -/
def DeleteRoute.NeedsStorageDelete (route : DeleteRoute) (user : SessionUser) (hostId : String)
    (body : DeleteFileBody) : Prop :=
  ∀ world inventory rows calls, route.post world inventory rows user hostId body = .ok calls →
    ∀ node storage volume, .storage (.deleteContent node storage volume) ∈ calls →
      ¬IsBackupVolume volume → user.may hostId .storageDelete

/-- The request names a node and a volume of a storage. -/
def DeleteFileBody.Complete (body : DeleteFileBody) : Prop :=
  body.node ≠ [] ∧ body.volid ≠ [] ∧ (parseBackupVolid body.volid).storage ≠ [] ∧
    (parseBackupVolid body.volid).volume ≠ []

/-- The storage view takes the volume for a backup: the word backup is in its path, or it
is anywhere in the volume id, or the mark of `vzdump` is, and no mark of an ISO image or a
template. -/
def ReadsAsBackup (volid : Text) : Prop :=
  let lower := toLowerCase (trim volid)
  ("backup" : Text) <:+: (parseBackupVolid volid).volume ∨
    ¬("/iso/" : Text) <:+: lower ∧ ¬(":iso/" : Text) <:+: lower ∧ ¬("vztmpl" : Text) <:+: lower ∧
      (("backup" : Text) <:+: lower ∨ ("vzdump-" : Text) <:+: lower)

/-- The route asks for no more than `backup.delete`. -/
def DeleteRoute.AsksForBackupDelete (route : DeleteRoute) (volid : Text) : Prop :=
  match route with
  | .storageContent => ReadsAsBackup volid
  | .backupFile => True

/-! ## How the storage view sorts a volume -/

/-- A literal under the flag `i`, searched for in a text without capitals. -/
theorem test_litI_of_lower {w s : Text} (lower : Lower s) :
    test (litI w) s = true ↔ w.map Char.toLower <:+: s := by
  have same {a u b : Text} (cut : s = a ++ u ++ b) : u.map Char.toLower = u :=
    (List.map_congr_left fun c member =>
      lower c (by rw [cut]; exact List.mem_append_left b (List.mem_append_right a member))).trans
        (List.map_id u)
  rw [(Consumes.litI w).test_iff]
  constructor
  · rintro ⟨a, u, b, cut, matched⟩
    exact ⟨a, b, by rw [← matched, same cut, cut]⟩
  · rintro ⟨a, b, cut⟩
    exact ⟨a, w.map Char.toLower, b, cut.symm, same cut.symm⟩

/-- The tests of `suggestedKind`, whatever they find. -/
theorem kind_eq_backup_iff (iso colonIso template backup vzdump snippets rootdir subvol vm base :
    Bool) :
    (if iso || colonIso then StorageContentKind.iso
      else if template then .vztmpl
      else if backup || vzdump then .backup
      else if snippets then .snippets
      else if rootdir || subvol then .rootdir
      else if vm || base then .images
      else .other) = .backup ↔
      ¬iso = true ∧ ¬colonIso = true ∧ ¬template = true ∧ (backup = true ∨ vzdump = true) := by
  revert iso colonIso template backup vzdump snippets rootdir subvol vm base
  decide

theorem suggestedKind_eq_backup_iff {volid : Text} (lower : Lower volid) :
    suggestedKind volid = .backup ↔
      ¬("/iso/" : Text) <:+: volid ∧ ¬(":iso/" : Text) <:+: volid ∧ ¬("vztmpl" : Text) <:+: volid ∧
        (("backup" : Text) <:+: volid ∨ ("vzdump-" : Text) <:+: volid) := by
  have mark : (("vzdump-" : Text)).map Char.toLower = ("vzdump-" : Text) := by decide
  have vzdump : test (litI "vzdump-") volid = true ↔ ("vzdump-" : Text) <:+: volid :=
    (test_litI_of_lower lower).trans (by rw [mark])
  simp only [← includes_iff, ← vzdump]
  exact kind_eq_backup_iff _ _ _ _ _ _ _ _ _ _

theorem routeContentKind_eq_backup_iff {volid : Text} :
    routeContentKind volid = .backup ↔ ReadsAsBackup volid := by
  have known : knownContent.lookup (trim ((split ',' (toLowerCase "backup")).headD [])) =
      some .backup := by
    decide
  have unknown : knownContent.lookup (trim ((split ',' (toLowerCase [])).headD [])) = none := by
    decide
  unfold routeContentKind ReadsAsBackup storageContentKind
  rw [← includes_iff]
  cases inside : includes (parseBackupVolid volid).volume "backup" with
  | true =>
      simp only [if_true, known, true_or]
  | false =>
      simp only [Bool.false_eq_true, if_false, unknown, false_or]
      exact suggestedKind_eq_backup_iff (lower_toLowerCase _)

/-! ## What the routes ask for -/

/-- The permission that decides. -/
def DeleteRoute.needed (route : DeleteRoute) (volid : Text) : Permission :=
  match route with
  | .storageContent => storageContentDeletePermission (routeContentKind volid)
  | .backupFile => .backupDelete

theorem DeleteRoute.needed_cases (route : DeleteRoute) (volid : Text) :
    route.AsksForBackupDelete volid ∧ route.needed volid = .backupDelete ∨
      ¬route.AsksForBackupDelete volid ∧ route.needed volid = .storageDelete := by
  cases route with
  | backupFile => exact .inl ⟨trivial, rfl⟩
  | storageContent =>
      simp only [AsksForBackupDelete, needed, ← routeContentKind_eq_backup_iff]
      cases routeContentKind volid with
      | backup => exact .inl ⟨rfl, rfl⟩
      | iso | vztmpl | images | rootdir | snippets | other => exact .inr ⟨by decide, rfl⟩

/-- The call that deletes the volume. -/
def DeleteFileBody.deleteCall (body : DeleteFileBody) : ClientCall :=
  .storage (.deleteContent body.node (parseBackupVolid body.volid).storage
    (parseBackupVolid body.volid).volume)

/-- A chain of gates, the first of which is implied by the one that decides. -/
theorem gates_eq_ok_iff {first decides access : Bool} {missing incomplete : Prop}
    [Decidable missing] [Decidable incomplete] {e₁ e₂ e₃ e₄ e₅ : AppError}
    {answer calls : List ClientCall} (implied : decides = true → first = true) :
    (if !first then Except.error e₁
      else if missing then .error e₂
      else if incomplete then .error e₃
      else if !decides then .error e₄
      else if !access then .error e₅
      else .ok answer) = .ok calls ↔
      ((¬missing ∧ ¬incomplete) ∧ access = true ∧ decides = true) ∧ calls = answer := by
  cases decides with
  | false => cases first <;> by_cases missing <;> by_cases incomplete <;> simp [*]
  | true =>
      rw [implied rfl]
      by_cases gone : missing
      · simp [gone]
      by_cases part : incomplete
      · simp [gone, part]
      cases access with
      | false => simp [gone, part]
      | true => simp [gone, part, eq_comm]

theorem DeleteFileBody.complete_iff {body : DeleteFileBody} :
    body.Complete ↔ ¬(body.node = [] ∨ body.volid = []) ∧
      ¬((parseBackupVolid body.volid).storage = [] ∨ (parseBackupVolid body.volid).volume = []) := by
  rw [Complete, not_or, not_or, and_assoc]

theorem storageContentPost_eq_ok_iff {user : SessionUser} {hostId : String}
    {body : DeleteFileBody} {calls : List ClientCall} :
    storageContentPost user hostId body = .ok calls ↔
      (body.Complete ∧ canAccessHost user.toAccessScope hostId = true ∧
        user.may hostId (DeleteRoute.storageContent.needed body.volid)) ∧
          calls = [body.deleteCall] := by
  rw [body.complete_iff]
  refine gates_eq_ok_iff fun decides => List.any_eq_true.mpr ⟨_, ?_, decides⟩
  rcases DeleteRoute.storageContent.needed_cases body.volid with ⟨-, needed⟩ | ⟨-, needed⟩
  · exact List.mem_of_elem_eq_true (by rw [DeleteRoute.needed] at needed; rw [needed]; rfl)
  · exact List.mem_of_elem_eq_true (by rw [DeleteRoute.needed] at needed; rw [needed]; rfl)

theorem backupGate_eq_ok_iff {user : SessionUser} {hostId : String} {body : DeleteFileBody} :
    backupGate user hostId (.deleteFile body) = .ok () ↔
      ¬(body.node = [] ∨ body.volid = []) ∧ canAccessHost user.toAccessScope hostId = true ∧
        user.may hostId .backupDelete := by
  have needed : backupPermissionForAction (BackupAction.deleteFile body).name = .backupDelete := rfl
  unfold backupGate SessionUser.may
  rw [needed]
  cases holds : userHasPermission user.holder .backupDelete (some hostId) none with
  | false =>
      refine iff_of_false (fun passed => ?_) fun both => Bool.false_ne_true both.2.2
      simp only [Bool.not_false, if_true] at passed
      split at passed
      · cases passed
      · split at passed
        · cases passed
        · cases passed
  | true =>
      have any : userHasAnyPermission user.holder backupRoutePermissions (some hostId) none = true :=
        List.any_eq_true.mpr ⟨.backupDelete, by decide, holds⟩
      rw [any]
      by_cases missing : body.node = [] ∨ body.volid = []
      · have fails : (BackupAction.deleteFile body).parses = false := by
          rcases missing with node | volid
          · simp [BackupAction.parses, node]
          · simp [BackupAction.parses, volid]
        simp [fails, missing]
      · have parses : (BackupAction.deleteFile body).parses = true := by
          rw [not_or] at missing
          simp [BackupAction.parses, missing]
        cases access : canAccessHost user.toAccessScope hostId with
        | false => simp [parses]
        | true => simp [parses, missing]

theorem deleteFilePost_eq_ok_iff {world : Nat → RestoreAnswers} {inventory : Inventory}
    {rows : List StorageRow} {user : SessionUser} {hostId : String} {body : DeleteFileBody}
    {calls : List ClientCall} :
    backupPost world user hostId inventory rows (.deleteFile body) = .ok calls ↔
      (body.Complete ∧ canAccessHost user.toAccessScope hostId = true ∧
        user.may hostId .backupDelete) ∧ calls = [body.deleteCall] := by
  rw [body.complete_iff]
  unfold backupPost
  cases gate : backupGate user hostId (.deleteFile body) with
  | error e =>
      refine iff_of_false (fun passed => by cases passed) fun both => ?_
      have opened := backupGate_eq_ok_iff.mpr ⟨both.1.1.1, both.1.2⟩
      rw [gate] at opened
      cases opened
  | ok passed =>
      obtain ⟨named, access, may⟩ := backupGate_eq_ok_iff.mp gate
      simp only [Except.bind, backupCalls]
      split
      · rename_i incomplete
        exact iff_of_false (fun passed => by cases passed) fun both => both.1.1.2 incomplete
      · rename_i complete
        exact ⟨fun passed => ⟨⟨⟨named, complete⟩, access, may⟩, (Except.ok.inj passed).symm⟩,
          fun both => congrArg Except.ok both.2.symm⟩

/-- Both routes let the same requests pass, up to the permission that they ask for. -/
theorem DeleteRoute.post_eq_ok_iff {route : DeleteRoute} {world : Nat → RestoreAnswers}
    {inventory : Inventory} {rows : List StorageRow} {user : SessionUser} {hostId : String}
    {body : DeleteFileBody} {calls : List ClientCall} :
    route.post world inventory rows user hostId body = .ok calls ↔
      (body.Complete ∧ canAccessHost user.toAccessScope hostId = true ∧
        user.may hostId (route.needed body.volid)) ∧ calls = [body.deleteCall] := by
  cases route with
  | storageContent => exact storageContentPost_eq_ok_iff
  | backupFile => exact deleteFilePost_eq_ok_iff

/-- **When a volume that is no backup needs `storage.delete`.** The route for backup files
never asks for it, and the storage view does not when it takes the volume for a backup; so
the user has to hold it anyway, or the request has to be turned away. -/
theorem storage_delete_needed_iff (route : DeleteRoute) (user : SessionUser) (hostId : String)
    (body : DeleteFileBody) :
    route.NeedsStorageDelete user hostId body ↔
      user.may hostId .storageDelete ∨ IsBackupVolume (parseBackupVolid body.volid).volume ∨
        ¬route.AsksForBackupDelete body.volid ∨ ¬user.may hostId .backupDelete ∨
          canAccessHost user.toAccessScope hostId = false ∨ ¬body.Complete := by
  constructor
  · intro needs
    by_contra none_holds
    simp only [not_or, not_not, Bool.not_eq_false] at none_holds
    obtain ⟨lacks, other, asks, may, access, complete⟩ := none_holds
    have decides : route.needed body.volid = .backupDelete :=
      (route.needed_cases body.volid).elim And.right fun apart => absurd asks apart.1
    rw [← decides] at may
    have passes : route.post (fun _ => nothingRuns) ⟨[], []⟩ [] user hostId body =
        .ok [body.deleteCall] :=
      DeleteRoute.post_eq_ok_iff.mpr ⟨⟨complete, access, may⟩, rfl⟩
    exact lacks (needs _ _ _ _ passes _ _ _ (List.mem_singleton_self _) other)
  · rintro condition world inventory rows calls passed node storage volume issued other
    obtain ⟨⟨complete, access, may⟩, rfl⟩ := DeleteRoute.post_eq_ok_iff.mp passed
    cases List.mem_singleton.mp issued
    rcases route.needed_cases body.volid with ⟨asks, needed⟩ | ⟨-, needed⟩
    · rw [needed] at may
      rcases condition with holds | backup | apart | lacks | closed | incomplete
      · exact holds
      · exact absurd backup other
      · exact absurd asks apart
      · exact absurd may lacks
      · exact absurd access (by rw [closed]; exact Bool.false_ne_true)
      · exact absurd complete incomplete
    · rwa [needed] at may

/-! ## A disk on a storage for backups -/

/-- A user whose only permission is to delete backups. -/
def backupKeeper : SessionUser where
  allowedHostIds := none
  allowedGuests := none
  id := "u"
  rolePermissions := ["backup.delete"]
  hostPermissions := none
  guestPermissions := none

/-- A disk on a storage that is called after backups. -/
def diskOnBackupStorage : DeleteFileBody := ⟨"pve", "backup-nfs:vm-100-disk-0"⟩

/-- The storage view takes the disk for a backup. -/
theorem disk_deleted_as_backup :
    ¬∀ (route : DeleteRoute) (user : SessionUser) (hostId : String) (body : DeleteFileBody),
      route.NeedsStorageDelete user hostId body := by
  intro claim
  have passes : storageContentPost backupKeeper "h" diskOnBackupStorage =
      .ok [diskOnBackupStorage.deleteCall] := by
    refine storageContentPost_eq_ok_iff.mpr ⟨⟨?_, ?_, ?_⟩, rfl⟩
    · exact diskOnBackupStorage.complete_iff.mpr (by decide)
    · rfl
    · unfold SessionUser.may
      decide
  have noBackup : ¬IsBackupVolume (parseBackupVolid diskOnBackupStorage.volid).volume := by
    rintro (directory | ⟨kind, vmid, name, -, -, named⟩)
    · exact absurd directory (by decide)
    · have found := name.readGuest_of_names named
      have none_found : readGuest (parseBackupVolid diskOnBackupStorage.volid).volume = none := by
        decide
      rw [none_found] at found
      cases found
  have holds := claim .storageContent backupKeeper "h" diskOnBackupStorage (fun _ => nothingRuns)
    ⟨[], []⟩ [] _ passes _ _ _ (List.mem_singleton_self _) noBackup
  unfold SessionUser.may at holds
  exact absurd holds (by decide)

end Proxora
