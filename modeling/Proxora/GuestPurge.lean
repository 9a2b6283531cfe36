import Proxora.BackupVolumes
import Proxora.GuestDelete

/-!
# The backups that go with a guest

`assertGuestBackupVolids` refuses a volume id in which the parser finds another guest, and
lets pass every other one. `accepted_backups_iff` says for which selections it accepts
backups of the guest only, so that no run of `startGuestDelete` and
`shutdownThenDeleteGuest` deletes another volume.
-/

namespace Proxora

open Ecma Dialogues Runs HostDialogue

namespace GuestDeleteInput

variable (input : GuestDeleteInput)

/-- The volume ids that the request selects. -/
def selected : List Text := (input.backupVolids.map trim).filter (· ≠ [])

/-- The check refuses the volume id: it names no storage or no volume, or the parser finds
another guest in it. -/
def Refuses (volid : Text) : Prop :=
  (parseBackupVolid volid).storage = [] ∨ (parseBackupVolid volid).volume = [] ∨
    (∃ vmid, (parseBackupVolid volid).vmid = some vmid ∧ vmid ≠ input.vmid) ∨
      ∃ kind, (parseBackupVolid volid).kind = .guest kind ∧ kind ≠ input.kind

/-- A question that deletes no volume but a backup of the guest. -/
def DeletesBackup : HostQuestion → Prop
  | .command (.storage (.deleteContent _ storage volume)) =>
      storage ≠ [] ∧ IsBackupOf input.kind input.vmid volume
  | _ => True

/-- Only backups of the guest are accepted, and no run deletes another volume. -/
def PurgesOwnBackups : Prop :=
  (∀ accepted, assertGuestBackupVolids input.backupVolids input.vmid input.kind = .ok accepted →
    ∀ volid ∈ accepted, IsBackupVolidOf input.kind input.vmid volid) ∧
  ∀ t, Reaches Talk.step (Talk.Fairly fun _ _ => True) ⟨input.deleteGuest, []⟩ t →
    t.Open fun _ => input.DeletesBackup

/-! ## What the check accepts -/

variable {input}

theorem backupVolidError_eq_none_iff {volid : Text} :
    backupVolidError input.vmid input.kind volid = none ↔ ¬input.Refuses volid := by
  unfold backupVolidError Refuses
  generalize parseBackupVolid volid = parsed
  obtain ⟨storage, volume, filename, kind, vmid⟩ := parsed
  by_cases complete : storage = [] ∨ volume = []
  · rw [if_pos complete]
    refine iff_of_false (fun none => by cases none) (not_not_intro ?_)
    rcases complete with storage | volume
    · exact .inl storage
    · exact .inr (.inl volume)
  · rw [if_neg complete]
    rw [not_or] at complete
    cases vmid with
    | none =>
        cases kind with
        | unknown => simp [complete]
        | guest found => by_cases same : found = input.kind <;> simp [complete, same]
    | some n =>
        by_cases same : n = input.vmid
        · cases kind with
          | unknown => simp [complete, same]
          | guest found => by_cases same : found = input.kind <;> simp [*]
        · simp [complete, same]

/-- What is accepted is what is selected, without repetitions, when nothing is refused. -/
theorem assertGuestBackupVolids_eq_ok_iff {accepted : List Text} :
    assertGuestBackupVolids input.backupVolids input.vmid input.kind = .ok accepted ↔
      (∀ volid ∈ input.selected, ¬input.Refuses volid) ∧ accepted = input.selected.eraseDups := by
  have every : input.selected.eraseDups.findSome? (backupVolidError input.vmid input.kind) = none ↔
      ∀ volid ∈ input.selected, ¬input.Refuses volid := by
    simp only [List.findSome?_eq_none_iff, List.mem_eraseDups, backupVolidError_eq_none_iff]
  unfold assertGuestBackupVolids
  rw [← every, selected]
  dsimp only
  cases List.findSome? (backupVolidError input.vmid input.kind)
      ((input.backupVolids.map trim).filter (· ≠ [])).eraseDups with
  | some message => exact iff_of_false (fun same => by cases same) fun both => by cases both.1
  | none => simp [eq_comm]

theorem trim_of_selected {volid : Text} (member : volid ∈ input.selected) :
    trim volid = volid := by
  obtain ⟨raw, -, rfl⟩ := List.mem_map.mp (List.mem_of_mem_filter member)
  exact trim_trim raw

/-- The parser on the volume id of a backup. -/
theorem parse_of_backup {kind : GuestKind} {vmid : Nat} {volid : Text}
    (trimmed : trim volid = volid) (backup : IsBackupVolidOf kind vmid volid) :
    ((parseBackupVolid volid).storage ≠ [] ∧ IsBackupOf kind vmid (parseBackupVolid volid).volume) ∧
      (parseBackupVolid volid).kind = .guest kind ∧ (parseBackupVolid volid).vmid = some vmid := by
  obtain ⟨storage, volume, made, named⟩ := backup
  obtain ⟨sameStorage, sameVolume, reads⟩ := parseBackupVolid_reads trimmed made
  rw [sameStorage, sameVolume]
  refine ⟨⟨made.2.1, named⟩, ?_⟩
  obtain ⟨name, rfl, rfl, member⟩ := named
  rw [name.readGuest_of_names member] at reads
  exact reads

/-- A backup that is not refused is one of the guest. -/
theorem backup_of_not_refuses {volid : Text} (trimmed : trim volid = volid)
    (backup : IsBackupVolid volid) (accepted : ¬input.Refuses volid) :
    IsBackupVolidOf input.kind input.vmid volid := by
  obtain ⟨kind, vmid, backup⟩ := backup
  obtain ⟨-, readsKind, readsVmid⟩ := parse_of_backup trimmed backup
  have sameKind : kind = input.kind := by
    by_contra other
    exact accepted (.inr (.inr (.inr ⟨kind, readsKind, other⟩)))
  have sameVmid : (vmid : Int) = input.vmid := by
    by_contra other
    exact accepted (.inr (.inr (.inl ⟨vmid, readsVmid, other⟩)))
  obtain rfl := Int.ofNat.inj sameVmid
  exact sameKind ▸ backup

/-! ## What the runs delete -/

section Runs

variable {backups : List Text}
  (own : ∀ volid ∈ backups, trim volid = volid ∧ IsBackupVolidOf input.kind input.vmid volid)

theorem onlyAsks_status : input.readStatus.OnlyAsks input.DeletesBackup :=
  .ask trivial fun _ => Dialogue.onlyAsks_result

theorem onlyAsks_orThrow {α : Type} {answer : Except AppError α} :
    (orThrow answer).OnlyAsks input.DeletesBackup := by
  cases answer with
  | ok a => exact Dialogue.onlyAsks_result
  | error e => exact Dialogue.onlyAsks_fail

/-- A call that deletes no volume but a backup of the guest. -/
theorem onlyAsks_command {call : ClientCall} (may : input.DeletesBackup (.command call)) :
    (command call).OnlyAsks input.DeletesBackup :=
  .ask may fun _ => onlyAsks_orThrow

theorem onlyAsks_waitUntilGuestStopped {timeoutMs : Nat} :
    (HostDialogue.waitUntilGuestStopped input.readStatus timeoutMs).OnlyAsks
      input.DeletesBackup :=
  fun _ => (abides_waitUntilGuestStopped (fun _ => trivial) fun _ => trivial).mono
    fun _ _ _ => trivial

theorem onlyAsks_waitUpid {upid : Option Text} {timeoutMs : Nat} :
    (waitUpid input.node upid timeoutMs).OnlyAsks input.DeletesBackup :=
  fun _ => (abides_waitUpid (fun _ _ => trivial) fun _ => trivial).mono fun _ _ _ => trivial

include own

theorem onlyAsks_deleteBackups {upid : Option Text} :
    (input.deleteBackups upid backups).OnlyAsks input.DeletesBackup := by
  refine .bind onlyAsks_waitUpid fun _ => .each fun volid member => ?_
  obtain ⟨trimmed, backup⟩ := own volid member
  exact .bind (onlyAsks_command (parse_of_backup trimmed backup).1)
    fun _ => Dialogue.onlyAsks_result

theorem onlyAsks_deleteAndPurge : (input.deleteAndPurge backups).OnlyAsks input.DeletesBackup := by
  refine .bind (onlyAsks_command trivial) fun upid => .bind ?_ fun _ => Dialogue.onlyAsks_result
  unfold purgeBackupsAfterDelete
  split
  · exact Dialogue.onlyAsks_result
  · exact (onlyAsks_deleteBackups own).rescue fun _ => Dialogue.onlyAsks_result

theorem onlyAsks_actOn {current : Option Text} :
    (input.actOn backups current).OnlyAsks input.DeletesBackup := by
  unfold actOn
  split
  · split
    · exact .bind (onlyAsks_command trivial) fun _ => Dialogue.onlyAsks_result
    · refine .bind onlyAsks_waitUntilGuestStopped fun stopped => ?_
      cases stopped with
      | true => exact onlyAsks_deleteAndPurge own
      | false => exact Dialogue.onlyAsks_fail
  · exact onlyAsks_deleteAndPurge own

omit own in
theorem onlyAsks_tryToStop {method : GuestApi} :
    (input.tryToStop method).OnlyAsks input.DeletesBackup := by
  unfold tryToStop
  exact .rescue (.bind (onlyAsks_command trivial) fun _ => onlyAsks_waitUpid)
    fun _ => Dialogue.onlyAsks_result

omit own in
theorem onlyAsks_bringDown {status : Option Text} :
    (input.bringDown status).OnlyAsks input.DeletesBackup := by
  unfold bringDown
  split
  · exact Dialogue.onlyAsks_result
  · refine .bind onlyAsks_tryToStop fun _ => .bind onlyAsks_waitUntilGuestStopped fun stopped => ?_
    split
    · exact Dialogue.onlyAsks_result
    · refine .bind onlyAsks_tryToStop fun _ =>
        .bind onlyAsks_waitUntilGuestStopped fun stopped => ?_
      cases stopped with
      | true => exact Dialogue.onlyAsks_result
      | false => exact Dialogue.onlyAsks_fail

omit own in
/-- A first step that may fail with the selection of backups. -/
theorem onlyAsks_parsed {α : Type} {rest : List Text → HostDialogue α}
    (goesOn : ∀ backups, parsedBackups input = .ok backups →
      (rest backups).OnlyAsks input.DeletesBackup) :
    (orThrow (parsedBackups input) >>= rest).OnlyAsks input.DeletesBackup := by
  cases parsed : parsedBackups input with
  | ok backups => exact goesOn backups parsed
  | error e => exact Dialogue.onlyAsks_fail

end Runs

/-- The backups behind the permission are the accepted ones. -/
theorem accepted_of_parsed {backups : List Text} (parsed : parsedBackups input = .ok backups) :
    assertGuestBackupVolids input.backupVolids input.vmid input.kind = .ok backups := by
  unfold parsedBackups at parsed
  cases accepted : assertGuestBackupVolids input.backupVolids input.vmid input.kind with
  | error message =>
      rw [accepted] at parsed
      cases parsed
  | ok volids =>
      rw [accepted] at parsed
      dsimp only at parsed
      split at parsed
      · cases parsed
      · exact congrArg Except.ok (Except.ok.inj parsed)

theorem onlyAsks_deleteGuest
    (own : ∀ backups, parsedBackups input = .ok backups → ∀ volid ∈ backups,
      trim volid = volid ∧ IsBackupVolidOf input.kind input.vmid volid) :
    input.deleteGuest.OnlyAsks input.DeletesBackup := by
  unfold deleteGuest
  split
  · refine .bind (onlyAsks_parsed fun backups parsed => ?_) fun _ => Dialogue.onlyAsks_result
    refine .bind onlyAsks_status fun status => .bind onlyAsks_bringDown fun _ => ?_
    refine .bind (onlyAsks_command trivial) fun upid => ?_
    exact .bind (onlyAsks_deleteBackups (own backups parsed)) fun _ => Dialogue.onlyAsks_result
  · refine .bind (onlyAsks_parsed fun backups parsed => ?_) fun _ => Dialogue.onlyAsks_result
    refine .bind onlyAsks_status fun status => ?_
    split
    · exact .bind (onlyAsks_command trivial) fun _ => Dialogue.onlyAsks_result
    · refine .bind ?_ fun current => onlyAsks_actOn (own backups parsed)
      unfold currentStatus
      split
      · exact onlyAsks_status
      · exact Dialogue.onlyAsks_result

/-- **When only backups of the guest are purged.** The check tells a backup of the guest
from one of another guest, and refuses nothing else: each volume id of the selection has
to be the one of a backup, of whatever guest, unless one of them is refused. -/
theorem accepted_backups_iff (input : GuestDeleteInput) :
    input.PurgesOwnBackups ↔
      (∃ volid ∈ input.selected, input.Refuses volid) ∨
        ∀ volid ∈ input.selected, IsBackupVolid volid := by
  constructor
  · rintro ⟨accepts, -⟩
    by_cases refused : ∃ volid ∈ input.selected, input.Refuses volid
    · exact .inl refused
    · refine .inr fun volid member => ?_
      have accepted := assertGuestBackupVolids_eq_ok_iff.mpr
        ⟨fun volid member refuses => refused ⟨volid, member, refuses⟩, rfl⟩
      exact ⟨_, _, accepts _ accepted volid (List.mem_eraseDups.mpr member)⟩
  · intro condition
    have own : ∀ accepted,
        assertGuestBackupVolids input.backupVolids input.vmid input.kind = .ok accepted →
          ∀ volid ∈ accepted,
            trim volid = volid ∧ IsBackupVolidOf input.kind input.vmid volid := by
      intro accepted returned volid member
      obtain ⟨none_refused, rfl⟩ := assertGuestBackupVolids_eq_ok_iff.mp returned
      rw [List.mem_eraseDups] at member
      have trimmed := trim_of_selected member
      rcases condition with ⟨other, selected, refuses⟩ | backups
      · exact absurd refuses (none_refused other selected)
      · exact ⟨trimmed, backup_of_not_refuses trimmed (backups volid member)
          (none_refused volid member)⟩
    refine ⟨fun accepted returned volid member => (own accepted returned volid member).2, ?_⟩
    intro t run
    refine (onlyAsks_deleteGuest fun backups parsed => ?_).open_of_reaches run
    exact own backups (accepted_of_parsed parsed)

/-! ## A disk image under the name of a backup -/

/-- A disk of another virtual machine is selected. -/
def diskSelected : GuestDeleteInput where
  kind := .vm
  node := "pve"
  vmid := 100
  backupVolids := ["local-lvm:vm-101-disk-0"]
  canDeleteBackups := true
  phase := none
  wait := true

/-- The disk is accepted. -/
theorem accepts_disk : ¬∀ input : GuestDeleteInput, input.PurgesOwnBackups := by
  intro claim
  have accepted : assertGuestBackupVolids diskSelected.backupVolids diskSelected.vmid
      diskSelected.kind = .ok [("local-lvm:vm-101-disk-0" : Text)] := by
    decide
  obtain ⟨-, backup⟩ := parse_of_backup (by decide)
    ((claim diskSelected).1 _ accepted _ (List.mem_singleton_self _))
  exact absurd backup.2 (by decide)

end GuestDeleteInput

end Proxora
