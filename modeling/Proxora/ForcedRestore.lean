import Proxora.HostDialogue
import Proxora.RestoreJobs

/-!
# Restoring over a guest

`restoreBackup` of `server/services/backup-service.ts` and the attempts of
`runRestoreJob`, as dialogues with the host.  The listing of the guests may come
from the inventory cache, the status of a guest is asked for only where the
listing does not have it.

`plays_restoreBackup` connects an attempt to the function that follows its calls.
`restores_only_when_seen_stopped` says when a forced restore only starts after the
host has answered, in the same attempt, that the guest is stopped or does not
exist.
-/

namespace Proxora

open Ecma Dialogues Runs

namespace ForcedRestore

open HostDialogue

/-! ## One attempt -/

/-- The guests of `loadHostInventory`, none where it fails. -/
def listedGuests : ListingAnswer → Inventory
  | .listed inventory _ => inventory
  | .failed => ⟨[], []⟩

/-- The status that the listing has, or the host's. -/
def firstStatus (found : Option (GuestKind × InventoryGuest)) (kind : GuestKind) (node : Text)
    (vmid : Nat) : HostDialogue (Option Text) :=
  match found with
  | some guest => pure (some guest.2.status)
  | none => guestStatus kind node vmid

def prepareGuestForRestore (node : Text) (vmid : Nat) (kind : GuestKind) (forceStop : Bool) :
    HostDialogue Bool := do
  let answer ← Dialogue.question .loadHostInventory
  let found := guestToStop (listedGuests answer) kind vmid
  let target := (found.map Prod.fst).getD kind
  let targetNode := (presentText (found.map (·.2.node))).getD node
  let status ← firstStatus found target targetNode vmid
  if !guestNeedsStopForRestore status then pure true
  else
    let method : GuestApi := if forceStop then .stop targetNode vmid else .shutdown targetNode vmid
    tryCommand (.guest target method)
    HostDialogue.waitUntilGuestStopped (guestStatus target targetNode vmid) 2500

/-- `{ phase: "stopping" }`, or the result of the restore call. -/
inductive RestoreResult : Type
  | stopping
  | started (upid : Option Text)
deriving DecidableEq

/-- The restore call. -/
def startRestore (body : RestoreBody) : HostDialogue RestoreResult := do
  let upid ← command (restoreCall body)
  pure (.started upid)

def restoreBackup (body : RestoreBody) (forceStop : Bool) : HostDialogue RestoreResult :=
  if body.force then do
    let ready ← prepareGuestForRestore body.node body.vmid (restoreKind body.volid) forceStop
    if !ready then pure .stopping else startRestore body
  else startRestore body

/-! ## The attempts of a job -/

/-- An `Error`, which has its message only. -/
def plainError (message : String) : AppError := ⟨"", message, 500⟩

/-- What follows once the task id is known. -/
def awaitRestore (job : RestoreJob) (upid : Text) : HostDialogue Unit := do
  persistJobs
  if isUpid upid then do
    withHostClient
    waitUpid job.node (some upid) 14400000
  else pure ()

/-- The attempts left, the next one being `attempt`. -/
def attempts (job : RestoreJob) : Nat → Nat → HostDialogue Text
  | 0, _ => .fail (plainError "Gast läuft noch und konnte nicht heruntergefahren werden")
  | left + 1, attempt => do
      persistJobs
      withHostClient
      match ← restoreBackup job.toRestoreBody (18 ≤ attempt) with
      | .stopping => attempts job left (attempt + 1)
      | .started upid =>
          if upid.getD [] = [] then
            .fail (plainError "Wiederherstellung konnte nicht gestartet werden")
          else
            persistJobs
            pure (upid.getD [])

/-- The task id of the job, or of the first attempt that starts a task. -/
def restoreUpid (job : RestoreJob) : HostDialogue Text :=
  if job.upid = [] then attempts job (51 - job.attempt) job.attempt else pure job.upid

/-- `runRestoreJob`, up to the end of the task. -/
def runRestoreJob (job : RestoreJob) : HostDialogue Unit := do
  let upid ← restoreUpid job
  awaitRestore job upid

/-! ## What was heard -/

/-- The exchanges since the attempt began. -/
def sinceBegin (past : HostHistory) : HostHistory :=
  past.takeWhile fun e =>
    match e.question with
    | .withHostClient => false
    | _ => true

/-- The listing has the guest, and as stopped wherever it has it. -/
def ListsStopped (inventory : Inventory) (vmid : Nat) : Prop :=
  let listed := (inventory.vms ++ inventory.containers).filter fun g => g.vmid = (vmid : Int)
  listed ≠ [] ∧ ∀ g ∈ listed, toLowerCase (trim g.status) = ("stopped" : Text)

/-- The host itself answered that the guest is stopped or does not exist. -/
def SaysStopped (vmid : Nat) : HostExchange → Prop
  | ⟨.status _ _ asked, answer⟩ =>
      asked = vmid ∧ (answer = StatusAnswer.missing ∨ StatusAnswer.ReportsStopped answer)
  | ⟨.loadHostInventory, .listed inventory fresh⟩ => fresh = true ∧ ListsStopped inventory vmid
  | _ => False

/-- The guest was seen stopped in this attempt. -/
def SeenStopped (vmid : Nat) (past : HostHistory) : Prop :=
  ∃ e ∈ sinceBegin past, SaysStopped vmid e

/-- A restore call that overwrites a guest needs to have seen it stopped. -/
def MayRestore (body : RestoreBody) (past : HostHistory) : HostQuestion → Prop
  | .command (.backup (.restoreVm ..)) => body.force = true → SeenStopped body.vmid past
  | .command (.backup (.restoreLxc ..)) => body.force = true → SeenStopped body.vmid past
  | _ => True

/-- The answers that decide come from the host and say what they are about: a guest that
needs no stop is in a fresh listing, as stopped; a status is one, or the news that
the guest does not exist. -/
def Tells (body : RestoreBody) : HostExchange → Prop
  | ⟨.loadHostInventory, .listed inventory fresh⟩ =>
      ∀ guest ∈ guestToStop inventory (restoreKind body.volid) body.vmid,
        guestNeedsStopForRestore (some guest.2.status) = false →
          fresh = true ∧ ListsStopped inventory body.vmid
  | ⟨.status .., answer⟩ => answer = StatusAnswer.missing ∨ StatusAnswer.Stated answer
  | _ => True

instance (inventory : Inventory) (vmid : Nat) : Decidable (ListsStopped inventory vmid) :=
  inferInstanceAs (Decidable (_ ∧ ∀ g ∈ _, _ = _))

instance (body : RestoreBody) : ∀ e, Decidable (Tells body e)
  | ⟨.loadHostInventory, .listed inventory fresh⟩ =>
      inferInstanceAs (Decidable (∀ guest ∈
        guestToStop inventory (restoreKind body.volid) body.vmid,
          guestNeedsStopForRestore (some guest.2.status) = false →
            fresh = true ∧ ListsStopped inventory body.vmid))
  | ⟨.loadHostInventory, .failed⟩ => .isTrue trivial
  | ⟨.status .., answer⟩ =>
      inferInstanceAs (Decidable (answer = StatusAnswer.missing ∨ StatusAnswer.Stated answer))
  | ⟨.taskStatus .., _⟩ => .isTrue trivial
  | ⟨.command _, _⟩ => .isTrue trivial
  | ⟨.withHostClient, _⟩ => .isTrue trivial
  | ⟨.persistJobs, _⟩ => .isTrue trivial
  | ⟨.timeLimit _, _⟩ => .isTrue trivial

/-! ## What is seen in an attempt -/

variable {body : RestoreBody} {past : HostHistory}

/-- The latest exchange of an attempt says it. -/
theorem seenStopped_head {vmid : Nat} {e : HostExchange} (inside : e.question ≠ .withHostClient)
    (stopped : SaysStopped vmid e) : SeenStopped vmid (e :: past) := by
  obtain ⟨q, answer⟩ := e
  refine ⟨⟨q, answer⟩, ?_, stopped⟩
  unfold sinceBegin
  cases q with
  | withHostClient => exact absurd rfl inside
  | _ =>
      rw [List.takeWhile_cons_of_pos rfl]
      exact List.mem_cons_self

theorem seenStopped_of_status {kind : GuestKind} {node : Text} {vmid : Nat} {answer : StatusAnswer}
    (tells : answer = .missing ∨ answer.Stated)
    (rests : guestNeedsStopForRestore answer.read = false) :
    SeenStopped vmid (⟨.status kind node vmid, answer⟩ :: past) := by
  refine seenStopped_head (fun same => ?_) ⟨rfl, ?_⟩
  · cases same
  · rcases tells with missing | stated
    · exact .inl missing
    · exact .inr (stated.reportsStopped rests)

/-- A guest of a listing that needs no stop. -/
theorem seenStopped_of_listing {answer : ListingAnswer} {guest : GuestKind × InventoryGuest}
    (tells : Tells body ⟨.loadHostInventory, answer⟩)
    (found : guestToStop (listedGuests answer) (restoreKind body.volid) body.vmid = some guest)
    (rests : guestNeedsStopForRestore (some guest.2.status) = false) :
    SeenStopped body.vmid (⟨.loadHostInventory, answer⟩ :: past) := by
  refine seenStopped_head (fun same => ?_) ?_
  · cases same
  · cases answer with
    | listed inventory fresh => exact tells guest found rests
    | failed =>
        have none_listed : guestToStop ⟨[], []⟩ (restoreKind body.volid) body.vmid = none := by
          cases restoreKind body.volid <;> rfl
        rw [listedGuests, none_listed] at found
        cases found

theorem abides_stopAndWait {call : ClientCall} {kind : GuestKind} {node : Text}
    (harmless : ∀ past, MayRestore body past (.command call)) :
    (tryCommand call >>= fun _ => HostDialogue.waitUntilGuestStopped
      (guestStatus kind node body.vmid) 2500).Abides (fun _ e => Tells body e) (MayRestore body)
        (fun now outcome => outcome = .ok true → SeenStopped body.vmid now) past := by
  refine Dialogue.Abides.bind ?_ fun _ _ failed => ?_
  · refine abides_tryCommand.mpr ⟨harmless past, fun answer _ _ _ => ?_⟩
    have waited : (HostDialogue.waitUntilGuestStopped (guestStatus kind node body.vmid) 2500).Abides
        (fun _ e => Tells body e) (MayRestore body) _ (⟨.command call, answer⟩ :: past) :=
      abides_waitUntilGuestStopped (fun _ => trivial) (fun _ => trivial)
    refine waited.mono fun now outcome heard stopped => ?_
    obtain ⟨answer, earlier, rfl, -, tells, rests⟩ := heard stopped
    exact seenStopped_of_status tells rests
  · cases failed

/-- The guest is found ready when it was seen stopped. -/
theorem abides_prepareGuestForRestore {forceStop : Bool} :
    (prepareGuestForRestore body.node body.vmid (restoreKind body.volid) forceStop).Abides
      (fun _ e => Tells body e) (MayRestore body)
        (fun now outcome => outcome = .ok true → SeenStopped body.vmid now) past := by
  have failed : ∀ (now : HostHistory) (e : AppError),
      Except.error e = Except.ok true → SeenStopped body.vmid now := by
    intro now e ended
    cases ended
  refine Dialogue.Abides.bind ⟨trivial, fun answer tells => ?_⟩ failed
  intro _ same
  cases same
  dsimp only
  cases found : guestToStop (listedGuests answer) (restoreKind body.volid) body.vmid with
  | some guest =>
      refine Dialogue.Abides.bind (fun status read => ?_) failed
      cases read
      cases needs : guestNeedsStopForRestore (some guest.2.status) with
      | false => exact fun _ => seenStopped_of_listing tells found needs
      | true => exact abides_stopAndWait fun _ => by cases forceStop <;> trivial
  | none =>
      refine Dialogue.Abides.bind (abides_guestStatus.mpr ⟨trivial, fun answer tells => ?_⟩) failed
      intro status read
      cases read
      cases needs : guestNeedsStopForRestore answer.read with
      | false => exact fun _ => seenStopped_of_status tells needs
      | true => exact abides_stopAndWait fun _ => by cases forceStop <;> trivial

theorem abides_startRestore (seen : body.force = true → SeenStopped body.vmid past) :
    (startRestore body).Abides (fun _ e => Tells body e) (MayRestore body) (fun _ _ => True)
      past := by
  refine Dialogue.Abides.bind (abides_command.mpr ⟨?_, fun _ _ _ _ => trivial⟩) fun _ _ => trivial
  unfold restoreCall
  cases restoreKind body.volid with
  | lxc => exact seen
  | vm => exact seen

theorem abides_restoreBackup {forceStop : Bool} :
    (restoreBackup body forceStop).Abides (fun _ e => Tells body e) (MayRestore body)
      (fun _ _ => True) past := by
  unfold restoreBackup
  split
  · refine Dialogue.Abides.bind (abides_prepareGuestForRestore.mono fun now outcome heard => ?_)
      fun _ _ => trivial
    intro ready ended
    cases ready with
    | false => trivial
    | true => exact abides_startRestore fun _ => heard ended
  · next unforced => exact abides_startRestore fun forced => absurd forced unforced

/-- **Loop.** The attempts of a job, one after the other. -/
theorem abides_attempts {job : RestoreJob} {left attempt : Nat} :
    (attempts job left attempt).Abides (fun _ e => Tells job.toRestoreBody e)
      (MayRestore job.toRestoreBody) (fun _ _ => True) past := by
  induction left generalizing attempt past with
  | zero => trivial
  | succ left ih =>
      refine Dialogue.Abides.bind (abides_persistJobs.mpr ⟨trivial, fun _ _ _ _ => ?_⟩)
        fun _ _ => trivial
      refine Dialogue.Abides.bind (abides_withHostClient.mpr ⟨trivial, fun _ _ _ _ => ?_⟩)
        fun _ _ => trivial
      refine Dialogue.Abides.bind (abides_restoreBackup.mono fun _ _ _ result _ => ?_)
        fun _ _ => trivial
      cases result with
      | stopping => exact ih
      | started upid =>
          dsimp only
          split
          · trivial
          · exact Dialogue.Abides.bind (abides_persistJobs.mpr ⟨trivial, fun _ _ _ _ => trivial⟩)
              fun _ _ => trivial

theorem abides_awaitRestore {job : RestoreJob} {upid : Text} :
    (awaitRestore job upid).Abides (fun _ e => Tells job.toRestoreBody e)
      (MayRestore job.toRestoreBody) (fun _ _ => True) past := by
  refine Dialogue.Abides.bind (abides_persistJobs.mpr ⟨trivial, fun saved _ _ _ => ?_⟩)
    fun _ _ => trivial
  split
  · refine Dialogue.Abides.bind (abides_withHostClient.mpr ⟨trivial, fun answer _ _ _ => ?_⟩)
      fun _ _ => trivial
    have waited : (waitUpid job.node (some upid) 14400000).Abides
        (fun _ e => Tells job.toRestoreBody e) (MayRestore job.toRestoreBody) _
        (⟨.withHostClient, answer⟩ :: ⟨.persistJobs, saved⟩ :: past) :=
      abides_waitUpid (fun _ _ => trivial) (fun _ => trivial)
    exact waited.mono fun _ _ _ => trivial
  · trivial

theorem abides_runRestoreJob {job : RestoreJob} :
    (runRestoreJob job).Abides (fun _ e => Tells job.toRestoreBody e)
      (MayRestore job.toRestoreBody) (fun _ _ => True) past := by
  refine Dialogue.Abides.bind ?_ fun _ _ => trivial
  unfold restoreUpid
  split
  · exact abides_attempts.mono fun _ _ _ _ _ => abides_awaitRestore
  · exact fun _ _ => abides_awaitRestore

/-- The commands so far, the latest one first. -/
def commands (past : HostHistory) : List ClientCall :=
  past.filterMap fun e =>
    match e.question with
    | .command call => some call
    | _ => none

/-- A reading of the state issues no command. -/
theorem plays_readUntilStopped {kind : GuestKind} {node : Text} {vmid left : Nat} :
    (readUntilStopped (guestStatus kind node vmid) left).Abides (fun _ _ => True) (fun _ _ => True)
      (fun now outcome => commands now = commands past ∧ ∃ done, outcome = .ok done) past := by
  induction left generalizing past with
  | zero => exact ⟨trivial, fun answer _ => ⟨rfl, _, rfl⟩⟩
  | succ left ih =>
      refine ⟨trivial, fun answer _ => ?_⟩
      change Dialogue.Abides _ _ _ (if !guestNeedsStopForRestore answer.read then pure true
        else readUntilStopped (guestStatus kind node vmid) left) _
      split
      · exact ⟨rfl, true, rfl⟩
      · exact ih.mono fun _ _ ended => ended

/-- The request to stop the guest and the wait are those of `prepareGuestForRestore`,
with a state read last that tells how the wait ended. -/
theorem plays_stopAndWait {call : ClientCall} {kind : GuestKind} {node : Text} {vmid : Nat} :
    (tryCommand call >>= fun _ => HostDialogue.waitUntilGuestStopped
      (guestStatus kind node vmid) 2500).Abides (fun _ _ => True) (fun _ _ => True)
        (fun now outcome => commands now = call :: commands past ∧
          ∃ polls, outcome = .ok (Proxora.waitUntilGuestStopped polls)) past := by
  rw [Dialogue.abides_bind, abides_tryCommand]
  refine ⟨trivial, fun answer _ => ⟨trivial, fun left _ => ?_⟩⟩
  refine plays_readUntilStopped.mono fun now outcome ended => ?_
  obtain ⟨quiet, done, rfl⟩ := ended
  refine ⟨quiet, ?_⟩
  cases done with
  | true => exact ⟨[none], rfl⟩
  | false => exact ⟨[], rfl⟩

theorem plays_firstStatus {found : Option (GuestKind × InventoryGuest)} {kind : GuestKind}
    {node : Text} {vmid : Nat} :
    (firstStatus found kind node vmid).Abides (fun _ _ => True) (fun _ _ => True)
      (fun now outcome => commands now = commands past ∧
        ∃ status, outcome = .ok ((found.map (·.2.status)).or status)) past := by
  cases found with
  | some guest => exact ⟨rfl, none, rfl⟩
  | none => exact ⟨trivial, fun answer _ => ⟨rfl, answer.read, rfl⟩⟩

/-- **Refinement.** The calls of an attempt are those that the followed function issues
for some answers, and it is ready for the restore when that function is. -/
theorem plays_prepareGuestForRestore {node : Text} {vmid : Nat} {kind : GuestKind}
    {forceStop : Bool} :
    (prepareGuestForRestore node vmid kind forceStop).Abides (fun _ _ => True) (fun _ _ => True)
      (fun now outcome => ∃ answers : RestoreAnswers,
        let followed := Proxora.prepareGuestForRestore answers node vmid kind forceStop
        commands now = followed.1.reverse ++ commands past ∧ outcome = .ok followed.2) past := by
  refine ⟨trivial, fun answer _ => ?_⟩
  obtain ⟨inventory, same⟩ : ∃ inventory : Option Inventory,
      listedGuests answer = inventory.getD ⟨[], []⟩ := ⟨some (listedGuests answer), rfl⟩
  change Dialogue.Abides _ _ _ (firstStatus _ _ _ vmid >>= _) _
  rw [Dialogue.abides_bind, same]
  refine plays_firstStatus.mono fun now outcome heard => ?_
  obtain ⟨quiet, status, rfl⟩ := heard
  unfold Proxora.prepareGuestForRestore
  dsimp only
  cases needs : guestNeedsStopForRestore
      (((guestToStop (inventory.getD ⟨[], []⟩) kind vmid).map (·.2.status)).or status) with
  | false =>
      refine ⟨⟨inventory, status, []⟩, ?_⟩
      dsimp only
      rw [needs]
      exact ⟨quiet, rfl⟩
  | true =>
      refine plays_stopAndWait.mono fun final outcome ended => ?_
      obtain ⟨issued, polls, rfl⟩ := ended
      refine ⟨⟨inventory, status, polls⟩, ?_⟩
      dsimp only
      rw [needs]
      exact ⟨issued.trans (congrArg (_ :: ·) quiet), rfl⟩

theorem plays_startRestore {body : RestoreBody} :
    (startRestore body).Abides (fun _ _ => True) (fun _ _ => True)
      (fun now outcome => commands now = restoreCall body :: commands past ∧
        outcome ≠ .ok .stopping) past := by
  rw [startRestore, Dialogue.abides_bind, abides_command]
  refine ⟨trivial, fun answer _ => ?_⟩
  cases answer with
  | error e => exact ⟨rfl, fun same => by cases same⟩
  | ok upid => exact ⟨rfl, fun same => by cases same⟩

/-- **Refinement.** The calls of `restoreBackup`, and when the guest is still stopping. -/
theorem plays_restoreBackup {body : RestoreBody} {forceStop : Bool} :
    (restoreBackup body forceStop).Abides (fun _ _ => True) (fun _ _ => True)
      (fun now outcome => ∃ answers : RestoreAnswers,
        let followed := Proxora.restoreBackup answers body forceStop
        commands now = followed.1.reverse ++ commands past ∧
          (outcome = .ok .stopping ↔ followed.2 = true)) past := by
  unfold restoreBackup Proxora.restoreBackup
  split
  · rw [Dialogue.abides_bind]
    refine plays_prepareGuestForRestore.mono fun now outcome prepared => ?_
    obtain ⟨answers, issued, rfl⟩ := prepared
    dsimp only
    cases ready : (Proxora.prepareGuestForRestore answers body.node body.vmid
        (restoreKind body.volid) forceStop).2 with
    | false =>
        refine ⟨answers, ?_⟩
        rw [ready]
        exact ⟨issued, Iff.intro (fun _ => rfl) fun _ => rfl⟩
    | true =>
        refine plays_startRestore.mono fun final outcome started => ?_
        refine ⟨answers, ?_⟩
        rw [ready]
        refine ⟨?_, ?_⟩
        · rw [started.1, issued]
          simp
        · exact iff_of_false started.2 Bool.false_ne_true
  · refine plays_startRestore.mono fun now outcome started => ?_
    exact ⟨⟨none, none, []⟩, started.1, iff_of_false started.2 Bool.false_ne_true⟩

/-! ## A cached state -/

/-- A virtual machine restored over itself. -/
def overwrite : RestoreJob where
  toRestoreBody := ⟨"pve", "local:backup/vzdump-qemu-100.vma.zst", 100, "local-lvm", true, false⟩
  userId := "user"
  hostId := "host"
  hostName := "pve"
  name := none
  id := "restore-1"
  phase := .stopping
  upid := []
  error := none
  attempt := 1
  startedAt := 0
  errorAt := none

/-- The answers of a host, with a listing and a status. -/
def replies (listing : ListingAnswer) (status : StatusAnswer) : ∀ q : HostQuestion, q.Answer
  | .status .. => status
  | .taskStatus .. => .ok ⟨some "stopped", some "OK"⟩
  | .command _ => .ok (some "UPID:pve:1")
  | .loadHostInventory => listing
  | .withHostClient | .persistJobs => .ok ()
  | .timeLimit _ => 1

/-- A listing with the machine. -/
def machineListed (status : Text) (fresh : Bool) : ListingAnswer :=
  .listed ⟨[⟨100, "web", "pve", status⟩], []⟩ fresh

/-- A machine that runs is shut down, and is gone at the second attempt. -/
def shutDown : List (∀ q : HostQuestion, q.Answer) :=
  let running := replies (machineListed "running" false) (.status (some "running"))
  let gone := replies (.listed ⟨[], []⟩ true) .missing
  [running, running, running, running, running, running, running, gone, gone, gone, gone]

theorem shutDown_happens :
    (exec (guarded Talk.step (Talk.Fairly fun _ e => Tells overwrite.toRestoreBody e))
      ⟨runRestoreJob overwrite, []⟩ shutDown).isSome = true := by
  decide

end ForcedRestore

end Proxora
