import Proxora.HostDialogue

/-!
# Deleting a guest

`server/services/guest-delete.ts`: `startGuestDelete`, one phase for each request
of the user interface, with the removal of backups behind it, and
`shutdownThenDeleteGuest`, which does everything in one request.

`deletes_only_when_stopped` says when the guest is only deleted after the host has
last reported it as stopped, and its backups only after the task that deleted it
has ended with success: in every run in which the answers that decide say what
they are about.
-/

namespace Proxora

open Ecma Dialogues Runs HostDialogue

/-! ## Requests -/

inductive GuestDeletePhase : Type
  | shutdown | stop | delete
deriving DecidableEq, Repr

/-- The input of both functions, with what the route chooses between them by. -/
structure GuestDeleteInput where
  kind : GuestKind
  node : Text
  vmid : Nat
  backupVolids : List Text
  canDeleteBackups : Bool
  phase : Option GuestDeletePhase
  wait : Bool
deriving DecidableEq

/-- The error of `assertGuestBackupVolids` for one archive. -/
def backupVolidError (vmid : Nat) (kind : GuestKind) (volid : Text) : Option String :=
  let parsed := parseBackupVolid volid
  let foreign := "Backup " ++ String.ofList volid ++ " gehört nicht zu " ++ kind.name ++ " " ++
    toString vmid
  if parsed.storage = [] ∨ parsed.volume = [] then
    some ("Ungültiges Backup: " ++ String.ofList volid)
  else if parsed.vmid.any (· ≠ (vmid : Int)) then some foreign
  else if parsed.kind ≠ .unknown ∧ parsed.kind ≠ .guest kind then some foreign
  else none

def assertGuestBackupVolids (volids : List Text) (vmid : Nat) (kind : GuestKind) :
    Except String (List Text) :=
  let unique := ((volids.map trim).filter (· ≠ [])).eraseDups
  match unique.findSome? (backupVolidError vmid kind) with
  | some message => .error message
  | none => .ok unique

def parsedBackups (input : GuestDeleteInput) : Except AppError (List Text) :=
  match assertGuestBackupVolids input.backupVolids input.vmid input.kind with
  | .error message => .error (validationError message)
  | .ok backups =>
      if backups ≠ [] && !input.canDeleteBackups then .error defaultForbidden else .ok backups

/-! ## The functions -/

namespace GuestDeleteInput

variable (input : GuestDeleteInput)

def readStatus : HostDialogue (Option Text) := guestStatus input.kind input.node input.vmid

/-- `api.delete(input.node, input.vmid, true)`. -/
def deleteCall : ClientCall := .guest input.kind (.delete input.node input.vmid true)

/-- `new ProxmoxApiError("Gast ließ sich nicht herunterfahren", 504)`. -/
def stillRunning : AppError := proxmoxApiError "Gast ließ sich nicht herunterfahren" 504

/-- One archive deleted. -/
def deleteBackup (volid : Text) : HostDialogue Unit := do
  let parsed := parseBackupVolid volid
  let _ ← command (.storage (.deleteContent input.node parsed.storage parsed.volume))
  pure ()

/-- The wait for the delete task, then the archives. -/
def deleteBackups (deleteUpid : Option Text) (backups : List Text) : HostDialogue Unit := do
  waitUpid input.node deleteUpid 300000
  Dialogue.each backups input.deleteBackup

/-- The part in the background, which swallows its errors. -/
def purgeBackupsAfterDelete (deleteUpid : Option Text) (backups : List Text) :
    HostDialogue Unit :=
  if backups = [] then pure ()
  else (input.deleteBackups deleteUpid backups).rescue fun _ => pure ()

/-- The end of `startGuestDelete`; the answer to the user does not wait for the purge. -/
def deleteAndPurge (backups : List Text) : HostDialogue (Option Text × GuestDeletePhase) := do
  let deleteUpid ← command input.deleteCall
  input.purgeBackupsAfterDelete deleteUpid backups
  pure (deleteUpid, .delete)

/-- The phases that read the status a second time. -/
def readsTwice : Bool := input.phase = some .delete || input.phase = some .stop

/-- `current`, given the first status. -/
def currentStatus (status : Option Text) : HostDialogue (Option Text) :=
  if input.readsTwice then input.readStatus else pure status

/-- `startGuestDelete` behind its second reading. -/
def actOn (backups : List Text) (current : Option Text) :
    HostDialogue (Option Text × GuestDeletePhase) :=
  if guestNeedsStopForRestore current then
    if input.phase ≠ some .stop then do
      let upid ← command (.guest input.kind (.stop input.node input.vmid))
      pure (upid, .stop)
    else do
      let stopped ← HostDialogue.waitUntilGuestStopped input.readStatus 45000
      if !stopped then .fail stillRunning else input.deleteAndPurge backups
  else input.deleteAndPurge backups

def startGuestDelete : HostDialogue (Option Text × GuestDeletePhase) := do
  let backups ← orThrow (parsedBackups input)
  let status ← input.readStatus
  if !input.readsTwice && guestNeedsStopForRestore status then
    let upid ← command (.guest input.kind (.shutdown input.node input.vmid))
    pure (upid, .shutdown)
  else
    let current ← input.currentStatus status
    input.actOn backups current

/-- A request to stop the guest, with a wait for its task; errors are swallowed. -/
def tryToStop (method : GuestApi) : HostDialogue Unit :=
  Dialogue.rescue (do
    let upid ← command (.guest input.kind method)
    waitUpid input.node upid 120000) fun _ => pure ()

/-- The block of `shutdownThenDeleteGuest` for a guest that runs. -/
def bringDown (status : Option Text) : HostDialogue Unit :=
  if !guestNeedsStopForRestore status then pure ()
  else do
    input.tryToStop (.shutdown input.node input.vmid)
    let stopped ← HostDialogue.waitUntilGuestStopped input.readStatus 60000
    if stopped then pure ()
    else
      input.tryToStop (.stop input.node input.vmid)
      let stopped ← HostDialogue.waitUntilGuestStopped input.readStatus 45000
      if !stopped then .fail stillRunning else pure ()

/-- The end of `shutdownThenDeleteGuest`. -/
def deleteAndWait (backups : List Text) : HostDialogue (Option Text) := do
  let deleteUpid ← command input.deleteCall
  input.deleteBackups deleteUpid backups
  pure deleteUpid

def shutdownThenDeleteGuest : HostDialogue (Option Text) := do
  let backups ← orThrow (parsedBackups input)
  let status ← input.readStatus
  input.bringDown status
  input.deleteAndWait backups

/-- The action delete of the guest routes. -/
def deleteGuest : HostDialogue (Option Text × Option GuestDeletePhase) :=
  if input.wait then do
    let upid ← input.shutdownThenDeleteGuest
    pure (upid, none)
  else do
    let (upid, phase) ← input.startGuestDelete
    pure (upid, some phase)

/-! ## The protocol -/

/-- The latest status that was heard, with the guest it is of. -/
def lastStatus : HostHistory → Option ((GuestKind × Text × Nat) × StatusAnswer)
  | [] => none
  | ⟨.status kind node vmid, answer⟩ :: _ => some ((kind, node, vmid), answer)
  | _ :: earlier => lastStatus earlier

/-- The host last reported the guest as stopped. -/
def LastReportsStopped (past : HostHistory) : Prop :=
  ∃ answer, lastStatus past = some ((input.kind, input.node, input.vmid), answer) ∧
    answer.ReportsStopped

/-- The task that deletes the guest has ended with success. -/
def DeleteSucceeded (past : HostHistory) : Prop :=
  ∃ (upid : Text) (st : TaskStatus),
    ⟨.command input.deleteCall, Except.ok (some upid)⟩ ∈ past ∧
      ⟨.taskStatus input.node upid, Except.ok st⟩ ∈ past ∧ st.Succeeded

/-- The guest may be deleted, or an archive. -/
def MayDelete (past : HostHistory) : HostQuestion → Prop
  | .command (.guest _ (.delete ..)) => input.LastReportsStopped past
  | .command (.storage (.deleteContent ..)) => input.DeleteSucceeded past
  | _ => True

/-- The archives to delete. -/
def backups : List Text :=
  match parsedBackups input with
  | .ok backups => backups
  | .error _ => []

/-- A call that deletes a guest. -/
def isDelete : ClientCall → Bool
  | .guest _ (.delete ..) => true
  | _ => false

/-- The delete call has been made. -/
def deleteIssued (past : HostHistory) : Bool :=
  past.any fun e =>
    match e.question with
    | .command call => isDelete call
    | _ => false

/-- A task id, or an error. -/
def IsTaskId : Except AppError (Option Text) → Prop
  | .ok upid => upid.any isUpid = true
  | .error _ => True

/-- An end of a task that says how it ended, no end, or an error. -/
def EndTells : Except AppError TaskStatus → Prop
  | .ok st => st.ended = true → st.Tells
  | .error _ => True

/-- The answers that decide say what they are about: the status of the guest, unless it
is read a second time; where archives are to be deleted, the task that deletes the
guest and how it ended. -/
def Tells (past : HostHistory) : HostExchange → Prop
  | ⟨.status .., answer⟩ =>
      answer.Stated ∨ past.isEmpty = true ∧ input.wait = false ∧ input.readsTwice = true
  | ⟨.command call, answer⟩ =>
      isDelete call = true → input.backups = [] ∨ IsTaskId answer
  | ⟨.taskStatus .., answer⟩ =>
      input.backups = [] ∨ deleteIssued past = false ∨ EndTells answer
  | _ => True

instance : ∀ answer, Decidable (IsTaskId answer)
  | .ok upid => inferInstanceAs (Decidable (upid.any isUpid = true))
  | .error _ => .isTrue trivial

instance : ∀ answer, Decidable (EndTells answer)
  | .ok st => inferInstanceAs (Decidable (st.ended = true → st.Tells))
  | .error _ => .isTrue trivial

instance (past : HostHistory) : ∀ e, Decidable (input.Tells past e)
  | ⟨.status .., answer⟩ =>
      inferInstanceAs (Decidable (StatusAnswer.Stated answer ∨
        past.isEmpty = true ∧ input.wait = false ∧ input.readsTwice = true))
  | ⟨.command call, answer⟩ =>
      inferInstanceAs (Decidable (isDelete call = true → input.backups = [] ∨ IsTaskId answer))
  | ⟨.taskStatus .., answer⟩ =>
      inferInstanceAs (Decidable (input.backups = [] ∨ deleteIssued past = false ∨
        EndTells answer))
  | ⟨.loadHostInventory, _⟩ => .isTrue trivial
  | ⟨.withHostClient, _⟩ => .isTrue trivial
  | ⟨.persistJobs, _⟩ => .isTrue trivial
  | ⟨.timeLimit _, _⟩ => .isTrue trivial

/-! ## The runs -/

variable {input} {past : HostHistory} {e : HostExchange}

theorem DeleteSucceeded.cons (succeeded : input.DeleteSucceeded past) :
    input.DeleteSucceeded (e :: past) := by
  obtain ⟨upid, st, issued, ended, success⟩ := succeeded
  exact ⟨upid, st, List.mem_cons_of_mem e issued, List.mem_cons_of_mem e ended, success⟩

/-- A status that needs no stop, where it is not read a second time. -/
theorem lastReportsStopped {answer : StatusAnswer} (stated : answer.Stated)
    (rests : guestNeedsStopForRestore answer.read = false) :
    input.LastReportsStopped (⟨.status input.kind input.node input.vmid, answer⟩ :: past) :=
  ⟨answer, rfl, stated.reportsStopped rests⟩

/-- A wait for the guest to stop. -/
theorem lastReportsStopped_of_heard
    (heard : HeardStopped input.Tells input.kind input.node input.vmid past) :
    input.LastReportsStopped past := by
  obtain ⟨answer, earlier, rfl, later, tells, rests⟩ := heard
  rcases tells with stated | ⟨first, -, -⟩
  · exact lastReportsStopped stated rests
  · exact absurd (List.isEmpty_iff.mp first) later

/-- The end of the task that deletes the guest. -/
theorem deleteSucceeded_of_heard {upid : Text} {earlier : HostHistory}
    (issued : ⟨.command input.deleteCall, Except.ok (some upid)⟩ ∈ earlier)
    (grew : earlier <:+ past) (some_backup : input.backups ≠ [])
    (heard : HeardEnd input.Tells input.node upid past) : input.DeleteSucceeded past := by
  obtain ⟨st, before, rfl, tells, ended, exit⟩ := heard
  have member := grew.mem issued
  have inBefore : ⟨.command input.deleteCall, Except.ok (some upid)⟩ ∈ before := by
    rcases List.mem_cons.mp member with same | earlier
    · cases same
    · exact earlier
  refine ⟨upid, st, member, List.mem_cons_self, ended, ?_, exit⟩
  rcases tells with none_selected | notIssued | tells
  · exact absurd none_selected some_backup
  · have found : deleteIssued before = true := List.any_eq_true.mpr ⟨_, inBefore, rfl⟩
    rw [notIssued] at found
    cases found
  · exact tells ended

/-- The archives are deleted when the delete task has ended with success. -/
theorem abides_deleteBackups {upid : Option Text} {backups : List Text}
    (known : input.backups = backups)
    (issued : ⟨.command input.deleteCall, Except.ok upid⟩ ∈ past)
    (tells : backups = [] ∨ upid.any isUpid = true) :
    (input.deleteBackups upid backups).Abides input.Tells input.MayDelete (fun _ _ => True)
      past := by
  have waited : (waitUpid input.node upid 300000).Abides input.Tells input.MayDelete _ past :=
    abides_waitUpid (fun _ _ => trivial) (fun _ => trivial)
  refine Dialogue.Abides.bind (waited.grows.mono ?_) fun _ _ => trivial
  rintro now outcome ⟨heard, grew⟩ done rfl
  by_cases empty : backups = []
  · rw [empty]
    trivial
  · have start : input.DeleteSucceeded now := by
      rcases heard rfl with ⟨noTask, -⟩ | ⟨task, isTask, ended⟩
      · have holds := tells.resolve_left empty
        cases upid with
        | none => cases holds
        | some task => exact absurd holds (Option.filter_eq_none_iff.mp noTask task rfl)
      · rw [(Option.filter_eq_some_iff.mp isTask).1] at issued
        exact deleteSucceeded_of_heard issued grew (known.trans_ne empty) ended
    have loop : (Dialogue.each backups input.deleteBackup).Abides input.Tells input.MayDelete
        (fun past _ => input.DeleteSucceeded past) now := by
      refine Dialogue.Abides.each (fun volid _ past succeeded => ?_) start
      rw [deleteBackup, Dialogue.abides_bind, abides_command]
      refine ⟨succeeded, fun answer _ => ?_⟩
      cases answer with
      | error e => exact succeeded.cons
      | ok data => exact succeeded.cons
    exact loop.mono fun _ _ _ => trivial

/-- The guest is deleted once the host last reported it as stopped. -/
theorem abides_deleteCall {α : Type} {f : Option Text → HostDialogue α}
    (stopped : input.LastReportsStopped past)
    (goesOn : ∀ upid, (input.backups = [] ∨ upid.any isUpid = true) →
      (f upid).Abides input.Tells input.MayDelete (fun _ _ => True)
        (⟨.command input.deleteCall, .ok upid⟩ :: past)) :
    (command input.deleteCall >>= f).Abides input.Tells input.MayDelete (fun _ _ => True)
      past := by
  refine Dialogue.Abides.bind ?_ fun _ _ => trivial
  rw [abides_command]
  refine ⟨stopped, fun answer tells => ?_⟩
  rintro upid rfl
  exact goesOn upid (tells rfl)

theorem abides_deleteAndPurge {backups : List Text} (known : input.backups = backups)
    (stopped : input.LastReportsStopped past) :
    (input.deleteAndPurge backups).Abides input.Tells input.MayDelete (fun _ _ => True) past := by
  refine abides_deleteCall stopped fun upid tells => ?_
  rw [known] at tells
  refine Dialogue.Abides.bind ?_ fun _ _ => trivial
  unfold purgeBackupsAfterDelete
  split
  · exact fun _ _ => trivial
  · rw [Dialogue.abides_rescue]
    refine (abides_deleteBackups known List.mem_cons_self tells).mono fun _ outcome _ => ?_
    cases outcome <;> exact fun _ _ => trivial

theorem abides_deleteAndWait {backups : List Text} (known : input.backups = backups)
    (stopped : input.LastReportsStopped past) :
    (input.deleteAndWait backups).Abides input.Tells input.MayDelete (fun _ _ => True) past := by
  refine abides_deleteCall stopped fun upid tells => ?_
  rw [known] at tells
  refine Dialogue.Abides.bind ?_ fun _ _ => trivial
  exact (abides_deleteBackups known List.mem_cons_self tells).mono fun _ _ _ _ _ => trivial

/-- A wait for the guest to stop ends with success when the host reported it as stopped. -/
theorem abides_wait {timeoutMs : Nat} :
    (HostDialogue.waitUntilGuestStopped input.readStatus timeoutMs).Abides input.Tells
      input.MayDelete (fun now outcome => outcome = .ok true → input.LastReportsStopped now)
      past := by
  have waited : (HostDialogue.waitUntilGuestStopped input.readStatus timeoutMs).Abides input.Tells
      input.MayDelete _ past :=
    abides_waitUntilGuestStopped (fun _ => trivial) (fun _ => trivial)
  exact waited.mono fun _ _ heard stopped => lastReportsStopped_of_heard (heard stopped)

theorem abides_actOn {backups : List Text} {current : Option Text}
    (known : input.backups = backups)
    (stopped : guestNeedsStopForRestore current = false → input.LastReportsStopped past) :
    (input.actOn backups current).Abides input.Tells input.MayDelete (fun _ _ => True) past := by
  unfold actOn
  cases needs : guestNeedsStopForRestore current with
  | false => exact abides_deleteAndPurge known (stopped needs)
  | true =>
      rw [if_pos rfl]
      split
      · exact Dialogue.Abides.bind (abides_command.mpr ⟨trivial, fun _ _ _ _ => trivial⟩)
          fun _ _ => trivial
      · refine Dialogue.Abides.bind (abides_wait.mono fun now outcome heard => ?_) fun _ _ => trivial
        intro done ended
        cases done with
        | false => trivial
        | true => exact abides_deleteAndPurge known (heard ended)

theorem backups_of_parsed {backups : List Text} (parsed : parsedBackups input = .ok backups) :
    input.backups = backups := by
  unfold GuestDeleteInput.backups
  rw [parsed]

theorem abides_startGuestDelete :
    input.startGuestDelete.Abides input.Tells input.MayDelete (fun _ _ => True) [] := by
  refine Dialogue.Abides.bind (abides_orThrow.mpr ?_) fun _ _ => trivial
  intro backups parsed
  have known := backups_of_parsed parsed
  refine Dialogue.Abides.bind (abides_guestStatus.mpr ⟨trivial, fun answer tells => ?_⟩)
    fun _ _ => trivial
  intro status read
  cases read
  cases twice : input.readsTwice with
  | false =>
      have stated : answer.Stated := by
        rcases tells with stated | ⟨-, -, again⟩
        · exact stated
        · rw [twice] at again
          cases again
      have once : input.currentStatus answer.read = pure answer.read := by
        unfold currentStatus
        rw [twice]
        rfl
      rw [once]
      split
      · exact Dialogue.Abides.bind (abides_command.mpr ⟨trivial, fun _ _ _ _ => trivial⟩)
          fun _ _ => trivial
      · exact abides_actOn known fun rests => lastReportsStopped stated rests
  | true =>
      have again : input.currentStatus answer.read = input.readStatus := by
        unfold currentStatus
        rw [twice]
        rfl
      rw [again]
      refine Dialogue.Abides.bind (abides_guestStatus.mpr ⟨trivial, fun second tells => ?_⟩)
        fun _ _ => trivial
      intro current read
      cases read
      refine abides_actOn known fun rests => ?_
      rcases tells with stated | ⟨first, -, -⟩
      · exact lastReportsStopped stated rests
      · cases first

theorem mayDelete_harmless {method : GuestApi}
    (harmless : isDelete (.guest input.kind method) = false) :
    input.MayDelete past (.command (.guest input.kind method)) := by
  cases method with
  | delete node vmid purge => cases harmless
  | _ => trivial

theorem abides_tryToStop {method : GuestApi}
    (harmless : isDelete (.guest input.kind method) = false) :
    (input.tryToStop method).Abides input.Tells input.MayDelete (fun _ _ => True) past := by
  rw [tryToStop, Dialogue.abides_rescue, Dialogue.abides_bind, abides_command]
  refine ⟨mayDelete_harmless harmless, fun answer _ => ?_⟩
  cases answer with
  | error e => trivial
  | ok upid =>
      have waited : (waitUpid input.node upid 120000).Abides input.Tells input.MayDelete _
          (⟨.command (.guest input.kind method), .ok upid⟩ :: past) :=
        abides_waitUpid (fun _ _ => trivial) (fun _ => trivial)
      refine waited.mono fun _ outcome _ => ?_
      cases outcome <;> trivial

theorem abides_bringDown {status : Option Text}
    (stopped : guestNeedsStopForRestore status = false → input.LastReportsStopped past) :
    (input.bringDown status).Abides input.Tells input.MayDelete
      (fun now outcome => outcome = .ok () → input.LastReportsStopped now) past := by
  have failed : ∀ (now : HostHistory) (e : AppError),
      Except.error e = Except.ok () → input.LastReportsStopped now := by
    intro now e ended
    cases ended
  unfold bringDown
  cases needs : guestNeedsStopForRestore status with
  | false => exact fun _ => stopped needs
  | true =>
      refine Dialogue.Abides.bind ((abides_tryToStop rfl).mono fun _ _ _ _ _ => ?_) failed
      refine Dialogue.Abides.bind (abides_wait.mono fun _ _ heard done ended => ?_) failed
      cases done with
      | true => exact fun _ => heard ended
      | false =>
          refine Dialogue.Abides.bind ((abides_tryToStop rfl).mono fun _ _ _ _ _ => ?_) failed
          refine Dialogue.Abides.bind (abides_wait.mono fun now _ heard done ended => ?_) failed
          cases done with
          | true => exact fun _ => heard ended
          | false => exact failed now _

theorem abides_shutdownThenDeleteGuest (waits : input.wait = true) :
    input.shutdownThenDeleteGuest.Abides input.Tells input.MayDelete (fun _ _ => True) [] := by
  refine Dialogue.Abides.bind (abides_orThrow.mpr ?_) fun _ _ => trivial
  intro backups parsed
  have known := backups_of_parsed parsed
  refine Dialogue.Abides.bind (abides_guestStatus.mpr ⟨trivial, fun answer tells => ?_⟩)
    fun _ _ => trivial
  intro status read
  cases read
  have stated : answer.Stated := by
    rcases tells with stated | ⟨-, background, -⟩
    · exact stated
    · rw [waits] at background
      cases background
  refine Dialogue.Abides.bind ((abides_bringDown fun rests => ?_).mono fun _ _ heard _ ended => ?_)
    fun _ _ => trivial
  · exact lastReportsStopped stated rests
  · exact abides_deleteAndWait known (heard ended)

theorem abides_deleteGuest :
    input.deleteGuest.Abides input.Tells input.MayDelete (fun _ _ => True) [] := by
  unfold deleteGuest
  cases waits : input.wait with
  | true =>
      refine Dialogue.Abides.bind ?_ fun _ _ => trivial
      exact (abides_shutdownThenDeleteGuest waits).mono fun _ _ _ _ _ => trivial
  | false =>
      refine Dialogue.Abides.bind ?_ fun _ _ => trivial
      exact abides_startGuestDelete.mono fun _ _ _ _ _ => trivial

/-- **When the guest and its backups may go.** While the answers that decide say what
they are about, the guest is only deleted when the host last reported it as stopped,
and an archive only when the task that deletes the guest has ended with success. -/
theorem deletes_only_when_stopped
    {t : Talk HostQuestion HostQuestion.Answer AppError (Option Text × Option GuestDeletePhase)}
    (run : Reaches Talk.step (Talk.Fairly input.Tells) ⟨input.deleteGuest, []⟩ t) :
    t.Open input.MayDelete :=
  abides_deleteGuest.open_of_reaches run

/-! ## An error that counts as stopped -/

/-- A container with an archive, deleted phase by phase. -/
def container (phase : Option GuestDeletePhase) (wait : Bool) : GuestDeleteInput where
  kind := .lxc
  node := "pve"
  vmid := 101
  backupVolids := ["backup:vzdump-lxc-101.tar.zst"]
  canDeleteBackups := true
  phase := phase
  wait := wait

/-- The answers of a host: the status, the outcome of commands and the end of tasks. -/
def replies (status : StatusAnswer) (upid : Option Text) (st : TaskStatus) :
    ∀ q : HostQuestion, q.Answer
  | .status .. => status
  | .taskStatus .. => .ok st
  | .command _ => .ok upid
  | .loadHostInventory => .failed
  | .withHostClient | .persistJobs => .ok ()
  | .timeLimit _ => 1

/-- The status request fails, and the next request deletes the guest. -/
theorem failed_status_deletes :
    ∃ answers t, exec Talk.step ⟨(container none false).deleteGuest, []⟩ answers = some t ∧
      ¬t.Open (container none false).MayDelete := by
  refine ⟨[replies .failed none ⟨none, none⟩], _, rfl, ?_⟩
  rintro ⟨answer, last, stopped⟩
  cases last
  exact stopped

/-- A container that runs is shut down, deleted and its archive after it. -/
def broughtDown : List (∀ q : HostQuestion, q.Answer) :=
  let running := replies (.status (some "running")) (some "UPID:pve:1") ⟨some "running", none⟩
  let ended := replies (.status (some "stopped")) (some "UPID:pve:2") ⟨some "stopped", some "OK"⟩
  [running, running, running, ended, running, running, ended, ended, ended, ended]

theorem broughtDown_happens :
    (exec (guarded Talk.step (Talk.Fairly (container none true).Tells))
      ⟨(container none true).deleteGuest, []⟩ broughtDown).isSome = true := by
  decide +kernel

theorem deletes_only_when_stopped_broughtDown :
    (Option.get _ broughtDown_happens).Open (container none true).MayDelete :=
  deletes_only_when_stopped (reaches_of_guarded (Option.some_get broughtDown_happens).symm)

end GuestDeleteInput

end Proxora
