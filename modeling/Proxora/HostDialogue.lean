import Proxora.BackupActions
import Proxora.Dialogues
import Proxora.ProxmoxTasks

/-!
# Talking to a host

What deleting a guest and restoring over one ask of a host, and what can come
back: the states of guests and tasks, the outcome of commands, listings.  The
waits are those of `lib/backup.ts` and `server/proxmox/tasks.ts`; a time limit is
the number of readings that the clock leaves for.

`abides_waitUntilGuestStopped` and `abides_waitUpid` say what was heard when a
wait is over.
-/

namespace Proxora

open Ecma Dialogues

/-! ## Questions and answers -/

/-- What comes back from `status/current`: the `status` of the record, the news
that there is no such guest, or another error. -/
inductive StatusAnswer : Type
  | status (text : Option Text)
  | missing
  | failed
deriving DecidableEq

/-- The status of a task. -/
structure TaskStatus where
  status : Option Text
  exitstatus : Option Text
deriving DecidableEq

/-- What comes back from `loadHostInventory`; a fresh listing is one that Proxmox
gave after the question. -/
inductive ListingAnswer : Type
  | listed (inventory : Inventory) (fresh : Bool)
  | failed

inductive HostQuestion : Type
  | status (kind : GuestKind) (node : Text) (vmid : Nat)
  | taskStatus (node upid : Text)
  | command (call : ClientCall)
  | loadHostInventory
  | withHostClient
  | persistJobs
  | timeLimit (timeoutMs : Nat)

/-- The answer to a command is its `data`, where that is a text. -/
@[reducible] def HostQuestion.Answer : HostQuestion → Type
  | .status .. => StatusAnswer
  | .taskStatus .. => Except AppError TaskStatus
  | .command _ => Except AppError (Option Text)
  | .loadHostInventory => ListingAnswer
  | .withHostClient | .persistJobs => Except AppError Unit
  | .timeLimit _ => Nat

abbrev HostDialogue (α : Type) : Type := Dialogue HostQuestion HostQuestion.Answer AppError α

abbrev HostExchange : Type := Exchange HostQuestion.Answer

abbrev HostHistory : Type := History HostQuestion.Answer

def proxmoxApiError (message : String) (status : Nat) : AppError :=
  ⟨"PROXMOX_API_ERROR", message, status⟩

/-- The `status` that `guestStatus` and `currentGuestStatus` return. -/
def StatusAnswer.read : StatusAnswer → Option Text
  | .status text => some (text.getD [])
  | .missing | .failed => none

/-- The answer names a state. -/
def StatusAnswer.Stated : StatusAnswer → Prop
  | .status (some text) => trim text ≠ []
  | _ => False

/-- The answer says that the guest is stopped. -/
def StatusAnswer.ReportsStopped : StatusAnswer → Prop
  | .status (some text) => toLowerCase (trim text) = "stopped"
  | _ => False

instance : ∀ answer : StatusAnswer, Decidable answer.Stated
  | .status (some text) => inferInstanceAs (Decidable (trim text ≠ []))
  | .status none => .isFalse id
  | .missing => .isFalse id
  | .failed => .isFalse id

instance : ∀ answer : StatusAnswer, Decidable answer.ReportsStopped
  | .status (some text) => inferInstanceAs (Decidable (toLowerCase (trim text) = "stopped"))
  | .status none => .isFalse id
  | .missing => .isFalse id
  | .failed => .isFalse id

theorem guestNeedsStopForRestore_eq_false {status : Option Text} :
    guestNeedsStopForRestore status = false ↔
      toLowerCase (trim (status.getD [])) = [] ∨
        toLowerCase (trim (status.getD [])) = ("stopped" : Text) := by
  unfold guestNeedsStopForRestore
  rw [Bool.and_eq_false_iff, decide_eq_false_iff_not, decide_eq_false_iff_not, not_not, not_not]

/-- A state that needs no stop, where the answer names one. -/
theorem StatusAnswer.Stated.reportsStopped {answer : StatusAnswer} (stated : answer.Stated)
    (rests : guestNeedsStopForRestore answer.read = false) : answer.ReportsStopped := by
  cases answer with
  | missing => cases stated
  | failed => cases stated
  | status text =>
      cases text with
      | none => cases stated
      | some text =>
          rcases guestNeedsStopForRestore_eq_false.mp rests with empty | stopped
          · exact absurd empty (toLowerCase_ne_nil stated)
          · exact stopped

/-- `st.status && st.status !== "running"`. -/
def TaskStatus.ended (st : TaskStatus) : Bool :=
  st.status.getD [] ≠ [] && st.status.getD [] ≠ "running"

/-- The task ended and says how. -/
def TaskStatus.Tells (st : TaskStatus) : Prop := trim (st.exitstatus.getD []) ≠ []

/-- The task ended and says that it was successful. -/
def TaskStatus.Succeeded (st : TaskStatus) : Prop :=
  st.ended = true ∧ st.Tells ∧ isSuccessfulTaskExit st.exitstatus = true

instance (st : TaskStatus) : Decidable st.Tells :=
  inferInstanceAs (Decidable (trim (st.exitstatus.getD []) ≠ []))

instance (st : TaskStatus) : Decidable st.Succeeded :=
  inferInstanceAs (Decidable (st.ended = true ∧ st.Tells ∧
    isSuccessfulTaskExit st.exitstatus = true))

/-! ## Requests and waits -/

namespace HostDialogue

/-- An answer that is an error is thrown. -/
def orThrow {α : Type} : Except AppError α → HostDialogue α
  | .ok a => .result a
  | .error e => .fail e

/-- `guestStatus` of the guest deletion, and `currentGuestStatus` of the restore. -/
def guestStatus (kind : GuestKind) (node : Text) (vmid : Nat) : HostDialogue (Option Text) :=
  .ask (.status kind node vmid) fun answer => .result answer.read

def taskStatus (node upid : Text) : HostDialogue TaskStatus := .ask (.taskStatus node upid) orThrow

def persistJobs : HostDialogue Unit := .ask .persistJobs orThrow

def withHostClient : HostDialogue Unit := .ask .withHostClient orThrow

/-- A request that changes something. -/
def command (call : ClientCall) : HostDialogue (Option Text) := .ask (.command call) orThrow

/-- A request whose error is swallowed. -/
def tryCommand (call : ClientCall) : HostDialogue Unit :=
  Dialogue.rescue (do
    let _ ← command call
    pure ()) fun _ => pure ()

/-- The readings of `waitUntilGuestStopped`, `left` of them before the limit. -/
def readUntilStopped (readStatus : HostDialogue (Option Text)) : Nat → HostDialogue Bool
  | 0 => do
      let status ← readStatus
      pure !guestNeedsStopForRestore status
  | left + 1 => do
      let status ← readStatus
      if !guestNeedsStopForRestore status then pure true else readUntilStopped readStatus left

def waitUntilGuestStopped (readStatus : HostDialogue (Option Text)) (timeoutMs : Nat) :
    HostDialogue Bool :=
  .ask (.timeLimit timeoutMs) (readUntilStopped readStatus)

/-- The readings of `TaskApi.wait` that the limit leaves for. -/
def readUntilEnded (node upid : Text) : Nat → HostDialogue Unit
  | 0 => .fail (proxmoxApiError "Zeitüberschreitung beim Warten auf den Proxmox-Task" 504)
  | left + 1 => do
      let st ← taskStatus node upid
      if st.ended then
        if isSuccessfulTaskExit st.exitstatus then pure ()
        else .fail (proxmoxApiError
          ("Proxmox-Task fehlgeschlagen: " ++ String.ofList (st.exitstatus.getD "OK")) 502)
      else readUntilEnded node upid left

def waitTask (node upid : Text) (timeoutMs : Nat) : HostDialogue Unit :=
  .ask (.timeLimit timeoutMs) (readUntilEnded node upid)

/-- A result that is no task id is not waited for. -/
def waitUpid (node : Text) (upid : Option Text) (timeoutMs : Nat) : HostDialogue Unit :=
  match upid.filter isUpid with
  | some upid => waitTask node upid timeoutMs
  | none => pure ()

/-! ## What was heard when a wait is over -/

variable {Fair : HostHistory → HostExchange → Prop} {May : HostHistory → HostQuestion → Prop}
  {past : HostHistory} {kind : GuestKind} {node : Text} {vmid : Nat}

theorem abides_guestStatus {Post : HostHistory → Except AppError (Option Text) → Prop} :
    (guestStatus kind node vmid).Abides Fair May Post past ↔
      May past (.status kind node vmid) ∧ ∀ answer : StatusAnswer,
        Fair past ⟨.status kind node vmid, answer⟩ →
          Post (⟨.status kind node vmid, answer⟩ :: past) (.ok answer.read) :=
  Iff.rfl

theorem abides_orThrow {α : Type} {answer : Except AppError α}
    {Post : HostHistory → Except AppError α → Prop} :
    (orThrow answer).Abides Fair May Post past ↔ Post past answer := by
  cases answer with
  | ok a => exact Iff.rfl
  | error e => exact Iff.rfl

theorem abides_command {call : ClientCall}
    {Post : HostHistory → Except AppError (Option Text) → Prop} :
    (command call).Abides Fair May Post past ↔
      May past (.command call) ∧ ∀ answer : Except AppError (Option Text),
        Fair past ⟨.command call, answer⟩ → Post (⟨.command call, answer⟩ :: past) answer :=
  and_congr_right fun _ => forall_congr' fun _ => imp_congr_right fun _ => abides_orThrow

theorem abides_persistJobs {Post : HostHistory → Except AppError Unit → Prop} :
    persistJobs.Abides Fair May Post past ↔
      May past .persistJobs ∧ ∀ answer : Except AppError Unit,
        Fair past ⟨.persistJobs, answer⟩ → Post (⟨.persistJobs, answer⟩ :: past) answer :=
  and_congr_right fun _ => forall_congr' fun _ => imp_congr_right fun _ => abides_orThrow

theorem abides_withHostClient {Post : HostHistory → Except AppError Unit → Prop} :
    withHostClient.Abides Fair May Post past ↔
      May past .withHostClient ∧ ∀ answer : Except AppError Unit,
        Fair past ⟨.withHostClient, answer⟩ → Post (⟨.withHostClient, answer⟩ :: past) answer :=
  and_congr_right fun _ => forall_congr' fun _ => imp_congr_right fun _ => abides_orThrow

/-- Whatever comes back, the dialogue goes on. -/
theorem abides_tryCommand {call : ClientCall} {Post : HostHistory → Except AppError Unit → Prop} :
    (tryCommand call).Abides Fair May Post past ↔
      May past (.command call) ∧ ∀ answer : Except AppError (Option Text),
        Fair past ⟨.command call, answer⟩ → Post (⟨.command call, answer⟩ :: past) (.ok ()) := by
  rw [tryCommand, Dialogue.abides_rescue, Dialogue.abides_bind, abides_command]
  refine and_congr_right fun _ => forall_congr' fun answer => imp_congr_right fun _ => ?_
  cases answer with
  | ok upid => exact Iff.rfl
  | error e => exact Iff.rfl

theorem abides_taskStatus {upid : Text} {Post : HostHistory → Except AppError TaskStatus → Prop} :
    (taskStatus node upid).Abides Fair May Post past ↔
      May past (.taskStatus node upid) ∧ ∀ answer : Except AppError TaskStatus,
        Fair past ⟨.taskStatus node upid, answer⟩ →
          Post (⟨.taskStatus node upid, answer⟩ :: past) answer :=
  and_congr_right fun _ => forall_congr' fun _ => imp_congr_right fun _ => abides_orThrow

/-- The latest answer is a state of the guest that needs no stop. -/
def HeardStopped (Fair : HostHistory → HostExchange → Prop) (kind : GuestKind) (node : Text)
    (vmid : Nat) (past : HostHistory) : Prop :=
  ∃ (answer : StatusAnswer) (earlier : HostHistory),
    past = ⟨.status kind node vmid, answer⟩ :: earlier ∧ earlier ≠ [] ∧
      Fair earlier ⟨.status kind node vmid, answer⟩ ∧
        guestNeedsStopForRestore answer.read = false

section Waits

variable (mayRead : ∀ past, May past (.status kind node vmid))

include mayRead

theorem abides_readUntilStopped {left : Nat} (later : past ≠ []) :
    (readUntilStopped (guestStatus kind node vmid) left).Abides Fair May
      (fun now outcome => outcome = .ok true → HeardStopped Fair kind node vmid now) past := by
  induction left generalizing past with
  | zero =>
      rw [readUntilStopped, Dialogue.abides_bind, abides_guestStatus]
      refine ⟨mayRead past, fun answer fair done => ?_⟩
      refine ⟨answer, past, rfl, later, fair, ?_⟩
      rw [← Bool.not_eq_true']
      exact Except.ok.inj done
  | succ left ih =>
      rw [readUntilStopped, Dialogue.abides_bind, abides_guestStatus]
      refine ⟨mayRead past, fun answer fair => ?_⟩
      dsimp only
      cases needs : guestNeedsStopForRestore answer.read with
      | false => exact fun _ => ⟨answer, past, rfl, later, fair, needs⟩
      | true => exact ih (List.cons_ne_nil _ _)

/-- A wait for the guest to stop is over, with success, when a state was heard that
needs no stop. -/
theorem abides_waitUntilGuestStopped {timeoutMs : Nat}
    (mayLimit : ∀ past, May past (.timeLimit timeoutMs)) :
    (waitUntilGuestStopped (guestStatus kind node vmid) timeoutMs).Abides Fair May
      (fun now outcome => outcome = .ok true → HeardStopped Fair kind node vmid now) past :=
  ⟨mayLimit past, fun _ _ => abides_readUntilStopped mayRead (List.cons_ne_nil _ _)⟩

end Waits

/-- The end of the task was heard, and its exit counts as a success. -/
def HeardEnd (Fair : HostHistory → HostExchange → Prop) (node upid : Text)
    (past : HostHistory) : Prop :=
  ∃ (st : TaskStatus) (earlier : HostHistory), past = ⟨.taskStatus node upid, .ok st⟩ :: earlier ∧
    Fair earlier ⟨.taskStatus node upid, .ok st⟩ ∧ st.ended = true ∧
      isSuccessfulTaskExit st.exitstatus = true

theorem abides_readUntilEnded {upid : Text} {left : Nat}
    (mayRead : ∀ past, May past (.taskStatus node upid)) :
    (readUntilEnded node upid left).Abides Fair May
      (fun now outcome => outcome = .ok () → HeardEnd Fair node upid now) past := by
  induction left generalizing past with
  | zero =>
      intro failed
      cases failed
  | succ left ih =>
      rw [readUntilEnded, Dialogue.abides_bind, abides_taskStatus]
      refine ⟨mayRead past, fun answer fair => ?_⟩
      cases answer with
      | error e =>
          intro failed
          cases failed
      | ok st =>
          dsimp only
          cases ended : st.ended with
          | false => exact ih
          | true =>
              cases exit : isSuccessfulTaskExit st.exitstatus with
              | false =>
                  intro failed
                  cases failed
              | true => exact fun _ => ⟨st, past, rfl, fair, ended, exit⟩

/-- A wait for a task is over, with success, when its end was heard, or when there was
no task id to wait for. -/
theorem abides_waitUpid {upid : Option Text} {timeoutMs : Nat}
    (mayRead : ∀ past upid, May past (.taskStatus node upid))
    (mayLimit : ∀ past, May past (.timeLimit timeoutMs)) :
    (waitUpid node upid timeoutMs).Abides Fair May
      (fun now outcome => outcome = .ok () →
        upid.filter isUpid = none ∧ now = past ∨
          ∃ task, upid.filter isUpid = some task ∧ HeardEnd Fair node task now) past := by
  unfold waitUpid
  cases found : upid.filter isUpid with
  | none => exact fun _ => .inl ⟨rfl, rfl⟩
  | some task =>
      refine ⟨mayLimit past, fun left _ => ?_⟩
      refine (abides_readUntilEnded fun past => mayRead past task).mono fun now outcome heard => ?_
      exact fun done => .inr ⟨task, rfl, heard done⟩

end HostDialogue

end Proxora
