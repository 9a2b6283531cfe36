import Proxora.OrphanCleanup

/-!
# The backup actions of a host

The actions run, restore, delete-file and cleanup-orphans of
`POST /api/hosts/[id]/backups`, with `restoreBackup` of
`server/services/backup-service.ts` and the attempts of the restore worker.  An
action is followed to the calls it issues; reads of guest states are left out,
they change nothing.

`backupPost_within_iff` says when the calls of an accepted action stay with the
guests and the archives of the user's allow-list: only on the guests and
archives the request names, since the route never compares the two.
-/

namespace Proxora

open Ecma

/-! ## Requests -/

inductive BackupMode : Type
  | snapshot
  | suspend
  | stop
deriving DecidableEq, Repr

def BackupMode.name : BackupMode → Text
  | .snapshot => "snapshot"
  | .suspend => "suspend"
  | .stop => "stop"

structure RunBody where
  node : Text
  vmid : Text
  storage : Text
  mode : Option BackupMode
  compress : Option Text

/-- An absent `force` or `startAfter` is `false` to the code. -/
structure RestoreBody where
  node : Text
  volid : Text
  vmid : Nat
  storage : Text
  force : Bool
  startAfter : Bool

structure DeleteFileBody where
  node : Text
  volid : Text

/-- The bodies of the schema that touch guests or archives. -/
inductive BackupAction : Type
  | run (body : RunBody)
  | restore (body : RestoreBody)
  | deleteFile (body : DeleteFileBody)
  | cleanupOrphans

/-- The literal of `action`. -/
def BackupAction.name : BackupAction → String
  | .run _ => "run"
  | .restore _ => "restore"
  | .deleteFile _ => "delete-file"
  | .cleanupOrphans => "cleanup-orphans"

/-- What `schema.parse` asks of the fields. -/
def BackupAction.parses : BackupAction → Bool
  | .run body => body.node ≠ [] && body.vmid ≠ [] && body.storage ≠ []
  | .restore body => body.node ≠ [] && body.volid ≠ [] && 0 < body.vmid && body.storage ≠ []
  | .deleteFile body => body.node ≠ [] && body.volid ≠ []
  | .cleanupOrphans => true

/-! ## Restoring -/

/-- What one attempt of a restore learns: the inventory, where it loads, the
status of the guest where the inventory does not list it, and the states read
until the time limit. -/
structure RestoreAnswers where
  inventory : Option Inventory
  status : Option Text
  polls : List (Option Text)

def guestNeedsStopForRestore (status : Option Text) : Bool :=
  let s := toLowerCase (trim (status.getD []))
  s ≠ [] && s ≠ ("stopped" : Text)

/-- `waitUntilGuestStopped`, with the states it reads. -/
def waitUntilGuestStopped (polls : List (Option Text)) : Bool :=
  polls.any fun status => !guestNeedsStopForRestore status

/-- The guest to stop: one of the archive's kind first. -/
def guestToStop (listed : Inventory) (kind : GuestKind) (vmid : Nat) :
    Option (GuestKind × InventoryGuest) :=
  let ct := (listed.containers.find? fun g => g.vmid = (vmid : Int)).map fun g => (GuestKind.lxc, g)
  let vm := (listed.vms.find? fun g => g.vmid = (vmid : Int)).map fun g => (GuestKind.vm, g)
  match kind with
  | .lxc => ct.or vm
  | .vm => vm.or ct

/-- `prepareGuestForRestore`: the call issued and whether the guest is stopped. -/
def prepareGuestForRestore (answers : RestoreAnswers) (node : Text) (vmid : Nat)
    (kind : GuestKind) (forceStop : Bool) : List ClientCall × Bool :=
  let listed := answers.inventory.getD ⟨[], []⟩
  let found := guestToStop listed kind vmid
  let target := (found.map Prod.fst).getD kind
  let targetNode := (presentText (found.map (·.2.node))).getD node
  let status := (found.map (·.2.status)).or answers.status
  if !guestNeedsStopForRestore status then ([], true)
  else
    let method : GuestApi := if forceStop then .stop targetNode vmid else .shutdown targetNode vmid
    ([.guest target method], waitUntilGuestStopped answers.polls)

/-- The parameters that both restore calls share. -/
def restorePayload (body : RestoreBody) : Record Value :=
  compactProxmoxBody (Record.ofList
    [("vmid", .nat body.vmid), ("storage", .str body.storage),
     ("force", if body.force then .nat 1 else .undefined),
     ("start", if body.startAfter then .nat 1 else .undefined)])

/-- The kind an archive is restored as. -/
def restoreKind (volid : Text) : GuestKind :=
  match (parseBackupVolid volid).kind with
  | .unknown => .vm
  | .guest kind => kind

/-- The call that reads the archive. -/
def restoreCall (body : RestoreBody) : ClientCall :=
  match restoreKind body.volid with
  | .lxc => .backup (.restoreLxc body.node
      ((restorePayload body).assign [("ostemplate", .str body.volid), ("restore", .nat 1)]))
  | .vm => .backup (.restoreVm body.node
      ((restorePayload body).assign [("archive", .str body.volid)]))

/-- `restoreBackup`: the calls issued and whether the guest is still stopping. -/
def restoreBackup (answers : RestoreAnswers) (body : RestoreBody) (forceStop : Bool) :
    List ClientCall × Bool :=
  if body.force then
    let prepared :=
      prepareGuestForRestore answers body.node body.vmid (restoreKind body.volid) forceStop
    if !prepared.2 then (prepared.1, true) else (prepared.1 ++ [restoreCall body], false)
  else ([restoreCall body], false)

/-- The attempts left to the restore worker, the next one being `attempt`. -/
def restoreAttempts (world : Nat → RestoreAnswers) (body : RestoreBody) :
    Nat → Nat → List ClientCall
  | 0, _ => []
  | left + 1, attempt =>
      let tried := restoreBackup (world attempt) body (18 ≤ attempt)
      if tried.2 then tried.1 ++ restoreAttempts world body left (attempt + 1) else tried.1

/-- The calls of a restore job. -/
def restoreJobCalls (world : Nat → RestoreAnswers) (body : RestoreBody) : List ClientCall :=
  restoreAttempts world body 50 1

/-! ## The route -/

/-- The call of the action run. -/
def runCall (body : RunBody) : ClientCall :=
  .backup (.start body.node (compactProxmoxBody (Record.ofList
    [("vmid", .str (removeSpaces body.vmid)), ("storage", .str body.storage),
     ("mode", .str (body.mode.getD .snapshot).name),
     ("compress", .str (body.compress.getD "zstd"))])))

/-- The permissions one of which `apiRoute` asks for. -/
def backupRoutePermissions : List Permission :=
  [.backupRun, .backupRestore, .backupDelete, .backupJobCreate, .backupJobUpdate, .backupJobDelete]

/-- `new ForbiddenError()`. -/
def defaultForbidden : AppError :=
  forbiddenError "You do not have permission to perform this action"

/-- The gates of the route: a permission of the route, the schema, the
permission of the action, the host. -/
def backupGate (user : SessionUser) (hostId : String) (action : BackupAction) :
    Except AppError Unit :=
  if !userHasAnyPermission user.holder backupRoutePermissions (some hostId) none then
    .error defaultForbidden
  else if !action.parses then .error (validationError "Validation failed")
  else if !userHasPermission user.holder (backupPermissionForAction action.name) (some hostId) none
  then .error defaultForbidden
  else if !canAccessHost user.toAccessScope hostId then .error (notFoundError "Host not found")
  else .ok ()

/-- The calls behind the gates; `world` answers the attempts of a restore. -/
def backupCalls (world : Nat → RestoreAnswers) (user : AccessScope) (hostId : String)
    (inventory : Inventory) (rows : List StorageRow) : BackupAction → Except AppError (List ClientCall)
  | .run body => .ok [runCall body]
  | .restore body => .ok (restoreJobCalls world body)
  | .deleteFile body =>
      let parsed := parseBackupVolid body.volid
      if parsed.storage = [] ∨ parsed.volume = [] then
        .error (validationError "Ungültiges Backup-Volume")
      else .ok [.storage (.deleteContent body.node parsed.storage parsed.volume)]
  | .cleanupOrphans =>
      .ok ((cleanupOrphans user hostId inventory rows).filterMap deleteArchive)

/-- `POST /api/hosts/[id]/backups`, followed to the calls that change something. -/
def backupPost (world : Nat → RestoreAnswers) (user : SessionUser) (hostId : String)
    (inventory : Inventory) (rows : List StorageRow) (action : BackupAction) :
    Except AppError (List ClientCall) :=
  (backupGate user hostId action).bind fun _ =>
    backupCalls world user.toAccessScope hostId inventory rows action

/-! ## What a call does to guests and archives -/

/-- The restore overwrites the guest of this VMID. -/
def Overwrites (params : Record Value) (vmid : Int) : Prop :=
  paramText params "force" = "1" ∧
    ∃ n : Nat, vmid = n ∧ paramText params "vmid" = (toString n : String)

/-- The call backs the guest up, stops it or overwrites it.  `vmids` is how
Proxmox reads a list of VMIDs. -/
def ClientCall.Touches (vmids : Text → List Int) (g : BackupGuestRef) : ClientCall → Prop
  | .backup (.start _ params) =>
      paramText params "all" = "1" ∨ g.vmid ∈ vmids (paramText params "vmid")
  | .backup (.restoreVm _ params) => g.kind = .vm ∧ Overwrites params g.vmid
  | .backup (.restoreLxc _ params) => g.kind = .lxc ∧ Overwrites params g.vmid
  | .guest kind (.stop _ vmid) => g.kind = kind ∧ g.vmid = vmid
  | .guest kind (.shutdown _ vmid) => g.kind = kind ∧ g.vmid = vmid
  | _ => False

/-- The call reads the archive or deletes it. -/
def ClientCall.UsesArchive (file : BackupFile) : ClientCall → Prop
  | .backup (.restoreVm _ params) => paramText params "archive" = file.volid
  | .backup (.restoreLxc _ params) => paramText params "ostemplate" = file.volid
  | .storage (.deleteContent _ store volume) =>
      (parseBackupVolid file.volid).storage = store ∧
        (parseBackupVolid file.volid).volume = volume
  | _ => False

/-- The archive is one of a guest that the user may touch. -/
def OwnedWithin (user : AccessScope) (hostId : String) (file : BackupFile) : Prop :=
  ∃ g : BackupGuestRef, file.ofGuest g.vmid g.kind = true ∧
    canAccessGuest user hostId g.kind g.vmid = true

/-- The calls stay with the guests and the archives of the user. -/
def CallsWithin (vmids : Text → List Int) (user : AccessScope) (hostId : String)
    (inventory : Inventory) (rows : List StorageRow) (calls : List ClientCall) : Prop :=
  ∀ call ∈ calls,
    (∀ g ∈ inventory.guests, call.Touches vmids g →
      canAccessGuest user hostId g.kind g.vmid = true) ∧
    ∀ file ∈ hostBackupFiles rows, call.UsesArchive file → OwnedWithin user hostId file

/-- Both volume ids name a volume, and the same one. -/
def SameVolume (volid other : Text) : Prop :=
  let parsed := parseBackupVolid volid
  (parsed.storage ≠ [] ∧ parsed.volume ≠ []) ∧
    (parseBackupVolid other).storage = parsed.storage ∧
      (parseBackupVolid other).volume = parsed.volume

/-- What the request names is the user's. -/
def BackupAction.StaysWithin (vmids : Text → List Int) (user : AccessScope) (hostId : String)
    (inventory : Inventory) (rows : List StorageRow) : BackupAction → Prop
  | .run body => ∀ g ∈ inventory.guests, g.vmid ∈ vmids (removeSpaces body.vmid) →
      canAccessGuest user hostId g.kind g.vmid = true
  | .restore body =>
      (∀ file ∈ hostBackupFiles rows, body.volid = file.volid → OwnedWithin user hostId file) ∧
        (body.force = true → ∀ g ∈ inventory.guests, g.vmid = body.vmid →
          canAccessGuest user hostId g.kind g.vmid = true)
  | .deleteFile body => ∀ file ∈ hostBackupFiles rows, SameVolume body.volid file.volid →
      OwnedWithin user hostId file
  | .cleanupOrphans => ∀ before file after, hostBackupFiles rows = before ++ file :: after →
      shownAsOrphan user hostId inventory file = true →
      (before.filter (shownAsOrphan user hostId inventory)).length < orphanDeleteLimit →
      ∀ other ∈ hostBackupFiles rows, SameVolume file.volid other.volid →
        OwnedWithin user hostId other

/-! ## The calls of each action -/

variable {vmids : Text → List Int} {g : BackupGuestRef} {file : BackupFile}

theorem touches_runCall {body : RunBody} :
    (runCall body).Touches vmids g ↔ g.vmid ∈ vmids (removeSpaces body.vmid) := by
  rw [runCall, ClientCall.Touches, paramText_compact, paramText_compact]
  refine or_iff_right fun all => ?_
  exact absurd (show ([] : Text) = "1" from all) (by decide)

/-- The parameters of a restore call besides its archive. -/
theorem restorePayload_params (body : RestoreBody) :
    paramText (restorePayload body) "vmid" = (toString body.vmid : String) ∧
      paramText (restorePayload body) "force" =
        if body.force then ("1" : Text) else [] := by
  rw [restorePayload, paramText_compact, paramText_compact]
  refine ⟨rfl, ?_⟩
  cases body.force <;> rfl

theorem overwrites_restorePayload {body : RestoreBody} {vmid : Int} :
    Overwrites (restorePayload body) vmid ↔ body.force = true ∧ vmid = body.vmid := by
  obtain ⟨number, force⟩ := restorePayload_params body
  rw [Overwrites, number, force]
  constructor
  · rintro ⟨forced, n, rfl, same⟩
    refine ⟨?_, congrArg Nat.cast (toString_nat_inj same.symm)⟩
    cases set : body.force with
    | true => rfl
    | false =>
        rw [set] at forced
        exact absurd forced (by decide)
  · rintro ⟨forced, rfl⟩
    rw [forced]
    exact ⟨rfl, body.vmid, rfl, rfl⟩

/-- The archive is written last and hides no other parameter. -/
theorem overwrites_assign {params : Record Value} {more : List (Text × Value)} {vmid : Int}
    (force : ("force" : Text) ∉ more.map Prod.fst) (number : ("vmid" : Text) ∉ more.map Prod.fst) :
    Overwrites (params.assign more) vmid ↔ Overwrites params vmid := by
  simp only [Overwrites, paramText, Record.get_assign_of_notMem force,
    Record.get_assign_of_notMem number]

/-- A restore writes over the guest of its VMID when it is forced. -/
theorem touches_restoreCall {body : RestoreBody} :
    (restoreCall body).Touches vmids g ↔
      g.kind = restoreKind body.volid ∧ body.force = true ∧ g.vmid = body.vmid := by
  rw [restoreCall, ← overwrites_restorePayload]
  cases restoreKind body.volid with
  | vm => rw [ClientCall.Touches, overwrites_assign (by simp) (by simp)]
  | lxc => rw [ClientCall.Touches, overwrites_assign (by simp) (by simp)]

theorem usesArchive_restoreCall {body : RestoreBody} :
    (restoreCall body).UsesArchive file ↔ body.volid = file.volid := by
  rw [restoreCall]
  cases restoreKind body.volid with
  | vm =>
      rw [ClientCall.UsesArchive, paramText, Record.get_assign_cons (by simp)]
      rfl
  | lxc =>
      rw [ClientCall.UsesArchive, paramText, Record.get_assign_cons (by simp)]
      rfl

/-- The calls of a restore: the restore itself, and the guest told to stop. -/
theorem mem_restoreBackup {answers : RestoreAnswers} {body : RestoreBody} {forceStop : Bool}
    {call : ClientCall} (member : call ∈ (restoreBackup answers body forceStop).1) :
    call = restoreCall body ∨
      body.force = true ∧ ∃ kind node,
        call = .guest kind (.stop node body.vmid) ∨ call = .guest kind (.shutdown node body.vmid) := by
  have stops {kind : GuestKind} (member : call ∈
      (prepareGuestForRestore answers body.node body.vmid kind forceStop).1) :
      ∃ kind node, call = .guest kind (.stop node body.vmid) ∨
        call = .guest kind (.shutdown node body.vmid) := by
    rw [prepareGuestForRestore] at member
    split at member
    · cases member
    · rw [List.mem_singleton] at member
      cases forceStop with
      | true => exact ⟨_, _, .inl member⟩
      | false => exact ⟨_, _, .inr member⟩
  rw [restoreBackup] at member
  cases forced : body.force with
  | false =>
      rw [forced] at member
      exact .inl (List.mem_singleton.mp member)
  | true =>
      rw [forced, if_pos rfl] at member
      simp only at member
      split at member
      · exact .inr ⟨rfl, stops member⟩
      · rcases List.mem_append.mp member with first | last
        · exact .inr ⟨rfl, stops first⟩
        · exact .inl (List.mem_singleton.mp last)

/-- However many attempts are left, each one issues such calls. -/
theorem mem_restoreAttempts {world : Nat → RestoreAnswers} {body : RestoreBody} {left attempt : Nat}
    {call : ClientCall} (member : call ∈ restoreAttempts world body left attempt) :
    call = restoreCall body ∨
      body.force = true ∧ ∃ kind node,
        call = .guest kind (.stop node body.vmid) ∨ call = .guest kind (.shutdown node body.vmid) := by
  induction left generalizing attempt with
  | zero => cases member
  | succ left ih =>
      rw [restoreAttempts] at member
      split at member
      · rcases List.mem_append.mp member with now | later
        · exact mem_restoreBackup now
        · exact ih later
      · exact mem_restoreBackup member

/-! ## When the calls stay within the allow-list -/

variable {user : AccessScope} {hostId : String} {inventory : Inventory} {rows : List StorageRow}

theorem callsWithin_singleton {call : ClientCall} :
    CallsWithin vmids user hostId inventory rows [call] ↔
      (∀ g ∈ inventory.guests, call.Touches vmids g →
        canAccessGuest user hostId g.kind g.vmid = true) ∧
      ∀ file ∈ hostBackupFiles rows, call.UsesArchive file → OwnedWithin user hostId file := by
  rw [CallsWithin, List.forall_mem_singleton]

theorem run_within_iff {body : RunBody} :
    CallsWithin vmids user hostId inventory rows [runCall body] ↔
      (BackupAction.run body).StaysWithin vmids user hostId inventory rows := by
  rw [callsWithin_singleton]
  simp only [touches_runCall]
  exact and_iff_left fun _ _ uses => nomatch uses

/-- The attempt finds no guest to stop. -/
def nothingRuns : RestoreAnswers := ⟨none, none, []⟩

/-- The attempt finds the guest running. -/
def guestRuns (g : BackupGuestRef) : RestoreAnswers :=
  let item : InventoryGuest := ⟨g.vmid, [], [], "running"⟩
  ⟨some (match g.kind with | .vm => ⟨[item], []⟩ | .lxc => ⟨[], [item]⟩), none, []⟩

theorem restoreCall_mem_nothingRuns (body : RestoreBody) :
    restoreCall body ∈ restoreJobCalls (fun _ => nothingRuns) body := by
  have ready (kind : GuestKind) :
      prepareGuestForRestore nothingRuns body.node body.vmid kind false = ([], true) := by
    cases kind <;> rfl
  have tried : restoreBackup nothingRuns body false = ([restoreCall body], false) := by
    rw [restoreBackup, ready]
    cases body.force <;> rfl
  have first : decide (18 ≤ 1) = false := by decide
  rw [restoreJobCalls, restoreAttempts, first, tried]
  exact List.mem_singleton_self _

theorem shutdown_mem_guestRuns {body : RestoreBody} (forced : body.force = true)
    (same : g.vmid = body.vmid) :
    .guest g.kind (.shutdown body.node body.vmid) ∈
      restoreJobCalls (fun _ => guestRuns g) body := by
  obtain ⟨vmid, kind⟩ := g
  subst same
  have found (preferred : GuestKind) :
      guestToStop ((guestRuns ⟨body.vmid, kind⟩).inventory.getD ⟨[], []⟩) preferred body.vmid =
        some (kind, ⟨body.vmid, [], [], "running"⟩) := by
    cases kind <;> cases preferred <;> simp [guestRuns, guestToStop]
  have running : guestNeedsStopForRestore (some "running") = true := by decide
  have told : prepareGuestForRestore (guestRuns ⟨body.vmid, kind⟩) body.node body.vmid
      (restoreKind body.volid) false = ([.guest kind (.shutdown body.node body.vmid)], false) := by
    rw [prepareGuestForRestore, found]
    simp only [Option.map_some, Option.some_or, running]
    rfl
  have first : decide (18 ≤ 1) = false := by decide
  rw [restoreJobCalls, restoreAttempts, first, restoreBackup, if_pos forced, told]
  exact List.mem_append_left _ (List.mem_singleton_self _)

theorem restore_within_iff {body : RestoreBody} :
    (∀ world, CallsWithin vmids user hostId inventory rows (restoreJobCalls world body)) ↔
      (BackupAction.restore body).StaysWithin vmids user hostId inventory rows := by
  constructor
  · intro within
    refine ⟨fun file listed same => ?_, fun forced g live same => ?_⟩
    · have uses := (within _ _ (restoreCall_mem_nothingRuns body)).2 file listed
      exact uses (usesArchive_restoreCall.mpr same)
    · exact (within _ _ (shutdown_mem_guestRuns forced same)).1 g live ⟨rfl, same⟩
  · rintro ⟨archives, guests⟩ world call member
    rcases mem_restoreAttempts member with rfl | ⟨forced, kind, node, rfl | rfl⟩
    · refine ⟨fun g live touches => ?_, fun file listed uses => ?_⟩
      · obtain ⟨_, forced, same⟩ := touches_restoreCall.mp touches
        exact guests forced g live same
      · exact archives file listed (usesArchive_restoreCall.mp uses)
    · exact ⟨fun g live touches => guests forced g live touches.2, fun _ _ uses => nomatch uses⟩
    · exact ⟨fun g live touches => guests forced g live touches.2, fun _ _ uses => nomatch uses⟩

/-- Deleting a volume takes the archives of that volume. -/
theorem deleteContent_within_iff {node volid : Text}
    (named : (parseBackupVolid volid).storage ≠ [] ∧ (parseBackupVolid volid).volume ≠ []) :
    CallsWithin vmids user hostId inventory rows
        [.storage (.deleteContent node (parseBackupVolid volid).storage
          (parseBackupVolid volid).volume)] ↔
      ∀ file ∈ hostBackupFiles rows, SameVolume volid file.volid → OwnedWithin user hostId file := by
  rw [callsWithin_singleton]
  constructor
  · intro within file listed same
    exact within.2 file listed same.2
  · intro owned
    exact ⟨fun _ _ touches => (nomatch touches),
      fun file listed uses => owned file listed ⟨named, uses⟩⟩

theorem deleteFile_within_iff {body : DeleteFileBody} (world : Nat → RestoreAnswers) :
    (∀ calls, backupCalls world user hostId inventory rows (.deleteFile body) = .ok calls →
        CallsWithin vmids user hostId inventory rows calls) ↔
      (BackupAction.deleteFile body).StaysWithin vmids user hostId inventory rows := by
  rw [backupCalls, BackupAction.StaysWithin]
  split
  · rename_i nameless
    refine iff_of_true (fun _ done => nomatch done) fun _ _ same => ?_
    rcases nameless with storage | volume
    · exact (same.1.1 storage).elim
    · exact (same.1.2 volume).elim
  · rename_i named
    rw [not_or] at named
    have within : CallsWithin vmids user hostId inventory rows
        [.storage (.deleteContent body.node (parseBackupVolid body.volid).storage
          (parseBackupVolid body.volid).volume)] ↔ _ := deleteContent_within_iff named
    rw [← within]
    exact ⟨fun within => within _ rfl, fun within _ done => Except.ok.inj done ▸ within⟩

theorem cleanup_within_iff :
    CallsWithin vmids user hostId inventory rows
        ((cleanupOrphans user hostId inventory rows).filterMap deleteArchive) ↔
      BackupAction.cleanupOrphans.StaysWithin vmids user hostId inventory rows := by
  rw [cleanupOrphans_eq]
  constructor
  · intro within before file after cut shown few other listed same
    have orphan := mem_take_filter_iff.mpr ⟨before, after, cut, shown, few⟩
    have issued : deleteArchive file = some (.storage (.deleteContent file.node
        (parseBackupVolid file.volid).storage (parseBackupVolid file.volid).volume)) := by
      rw [deleteArchive, if_neg (not_or.mpr same.1)]
    exact (within _ (List.mem_filterMap.mpr ⟨file, orphan, issued⟩)).2 other listed same.2
  · intro owned call member
    obtain ⟨file, orphan, issued⟩ := List.mem_filterMap.mp member
    obtain ⟨before, after, cut, shown, few⟩ := mem_take_filter_iff.mp orphan
    rw [deleteArchive] at issued
    split at issued
    · cases issued
    · rename_i named
      cases issued
      exact ⟨fun _ _ touches => (nomatch touches), fun other listed uses =>
        owned before file after cut shown few other listed ⟨not_or.mp named, uses⟩⟩

/-- **When an accepted action stays within the allow-list.**  The gates look at
the permission and the host only, so the guests and archives that the request
names have to be the user's. -/
theorem backupPost_within_iff (vmids : Text → List Int) (user : SessionUser) (hostId : String)
    (inventory : Inventory) (rows : List StorageRow) (action : BackupAction) :
    (∀ world calls, backupPost world user hostId inventory rows action = .ok calls →
        CallsWithin vmids user.toAccessScope hostId inventory rows calls) ↔
      (backupGate user hostId action = .ok () →
        action.StaysWithin vmids user.toAccessScope hostId inventory rows) := by
  unfold backupPost
  cases gate : backupGate user hostId action with
  | error e => exact iff_of_true (fun _ _ done => nomatch done) (fun passed => nomatch passed)
  | ok _ =>
      simp only [Except.bind, forall_const]
      cases action with
      | run body =>
          rw [← run_within_iff]
          exact ⟨fun within => within (fun _ => nothingRuns) _ rfl,
            fun within _ _ done => Except.ok.inj done ▸ within⟩
      | restore body =>
          rw [← restore_within_iff]
          exact ⟨fun within world => within world _ rfl,
            fun within world _ done => Except.ok.inj done ▸ within world⟩
      | deleteFile body =>
          rw [← deleteFile_within_iff fun _ => nothingRuns]
          exact ⟨fun within => within _, fun within _ => within⟩
      | cleanupOrphans =>
          rw [← cleanup_within_iff]
          exact ⟨fun within => within (fun _ => nothingRuns) _ rfl,
            fun within _ _ done => Except.ok.inj done ▸ within⟩

/-! ## A user of one VM -/

/-- An operator of backups whose only guest is the VM 100. -/
def vmOperator : SessionUser where
  allowedHostIds := some ["h"]
  allowedGuests := some [⟨"h", .vm, 100⟩]
  id := "u"
  rolePermissions := ["backup.delete"]
  hostPermissions := none
  guestPermissions := none

def foreignArchive : StorageRow :=
  ⟨"pve", "local", ⟨some "local:backup/vzdump-qemu-200.vma", none, some 200, none, none, none, none⟩⟩

/-- The operator deletes an archive of the VM 200. -/
theorem backupPost_deletes_foreign_archive :
    ¬ ∀ (vmids : Text → List Int) (world : Nat → RestoreAnswers) (user : SessionUser)
        (hostId : String) (inventory : Inventory) (rows : List StorageRow) (action : BackupAction)
        (calls : List ClientCall), user.allowedGuests ≠ none →
      backupPost world user hostId inventory rows action = .ok calls →
        CallsWithin vmids user.toAccessScope hostId inventory rows calls := by
  intro claim
  have within := claim (fun _ => []) (fun _ => nothingRuns) vmOperator "h" ⟨[], []⟩ [foreignArchive]
    (.deleteFile ⟨"pve", "local:backup/vzdump-qemu-200.vma"⟩) _ nofun rfl _ (List.mem_singleton_self _)
  obtain ⟨g, owns, access⟩ := within.2
    (foreignArchive.file "local:backup/vzdump-qemu-200.vma") List.mem_cons_self ⟨rfl, rfl⟩
  have number : (foreignArchive.file "local:backup/vzdump-qemu-200.vma").vmid = some 200 := by
    decide +kernel
  have vmid := (BackupRef.ofGuest_iff.mp owns).1
  rw [number, Option.some.injEq] at vmid
  simp [canAccessGuest, canAccessHost, vmOperator, ← vmid] at access

end Proxora
