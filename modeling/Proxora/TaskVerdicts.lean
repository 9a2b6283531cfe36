import Proxora.BackupWatch
import Proxora.HostDialogue

/-!
# The verdicts on a finished task

Proxmox tells of a finished task in two shapes: a list puts the exit text into
`status`, the status of a single task says `stopped` and has it in `exitstatus`.
Four places judge the record: `taskRunState` of `lib/proxmox-tasks.ts`, `TaskApi.wait`
of `server/proxmox/tasks.ts`, and `failedTaskKind` of `lib/backup-tasks.ts` with the
watch of `server/services/backup-watch.ts` behind it.

`verdictsAgree_iff` says for which records all of them say what the exit text says.
-/

namespace Proxora

open Ecma Dialogues

/-! ## The state of a run -/

/-- `TaskRunState`. -/
inductive TaskRunState : Type
  | running | ok | failed
deriving DecidableEq, Repr

def taskRunState (task : ProxmoxTask) : TaskRunState :=
  let status := trim (task.status.getD [])
  let exit := trim (task.exitstatus.getD [])
  if status = [] || status = "running" then .running
  else if status = "OK" then .ok
  else if status = "stopped" then
    if isSuccessfulTaskExit (some exit) then .ok else .failed
  else .failed

/-! ## The two shapes -/

/-- Where a record has the exit text. -/
inductive TaskShape : Type
  | listed | status
deriving DecidableEq, Repr

/-- The record of a finished task. -/
def finishedTask (shape : TaskShape) (upid type : Option Text) (exit : Text) : ProxmoxTask :=
  match shape with
  | .listed => ⟨upid, type, some exit, none⟩
  | .status => ⟨upid, type, some "stopped", some exit⟩

/-- What `TaskApi.wait` reads of a record. -/
def ProxmoxTask.toStatus (task : ProxmoxTask) : TaskStatus := ⟨task.status, task.exitstatus⟩

/-- A backup, or one of the guest types whose failures are told of. -/
def isMonitoredType (type : Option Text) : Bool :=
  type.getD [] = "vzdump" || guestFailTaskTypes.contains (type.getD [])

/-- The host tells of the task, and there is time to read it. -/
structure TellsOf (reply : ∀ q, HostQuestion.Answer q) (node upid : Text) (timeoutMs : Nat)
    (st : TaskStatus) : Prop where
  told : reply (.taskStatus node upid) = .ok st
  inTime : 0 < reply (.timeLimit timeoutMs)

/-- All verdicts on the record are those of its exit text. -/
structure VerdictsAgree (task : ProxmoxTask) (exit : Text) : Prop where
  runState : taskRunState task = .ok ↔ isSuccessfulTaskExit (some exit) = true
  wait : ∀ reply node upid timeoutMs, TellsOf reply node upid timeoutMs task.toStatus →
    ((HostDialogue.waitTask node upid timeoutMs).outcome reply = .ok () ↔
      isSuccessfulTaskExit (some exit) = true)
  failedKind : (failedTaskKind task).isSome = true ↔
    isSuccessfulTaskExit (some exit) = false ∧ isMonitoredType task.type = true
  reported : isSuccessfulTaskExit (some exit) = false → task.type = some "vzdump" →
    ∀ (watch : BackupWatch) (lists : List (List ProxmoxTask)) (upid : Text),
      watch.primed = true → task ∈ lists.flatten → task.upid = some upid → upid ≠ [] →
        upid ∉ watch.seen → upid ∈ (watch.scanFailedBackupTasks lists).notified
  warned : startsWithWarning (trim exit) = true →
    taskRunState task ≠ .failed ∧ failedTaskKind task = none

/-! ## What each of them says -/

variable {upid type : Option Text} {exit : Text}

theorem isSuccessfulTaskExit_trim (exit : Text) :
    isSuccessfulTaskExit (some (trim exit)) = isSuccessfulTaskExit (some exit) := by
  unfold isSuccessfulTaskExit
  rw [Option.getD_some, Option.getD_some, trim_trim]

theorem taskRunState_status :
    taskRunState (finishedTask .status upid type exit) = .ok ↔
      isSuccessfulTaskExit (some exit) = true := by
  have stopped : trim "stopped" = "stopped" := by decide
  unfold taskRunState finishedTask
  simp only [Option.getD_some, stopped, isSuccessfulTaskExit_trim]
  cases isSuccessfulTaskExit (some exit) <;> decide

theorem taskRunState_listed :
    taskRunState (finishedTask .listed upid type exit) = .ok ↔
      trim exit = "OK" ∨ trim exit = "stopped" := by
  have success : isSuccessfulTaskExit (some (trim [])) = true := by decide
  unfold taskRunState finishedTask
  dsimp only [Option.getD_some, Option.getD_none]
  rw [success]
  generalize trim exit = status
  by_cases ok : status = "OK"
  · subst ok
    decide
  by_cases stopped : status = "stopped"
  · subst stopped
    decide
  simp only [ok, stopped, if_false, or_self, iff_false]
  split_ifs <;> decide

section Wait

variable {reply : ∀ q, HostQuestion.Answer q} {node id : Text} {timeoutMs : Nat} {st : TaskStatus}

/-- A task that has ended is read once. -/
theorem readUntilEnded_outcome (told : reply (.taskStatus node id) = .ok st) (left : Nat) :
    (HostDialogue.readUntilEnded node id left).outcome reply = .ok () ↔
      0 < left ∧ st.ended = true ∧ isSuccessfulTaskExit st.exitstatus = true := by
  have read : (HostDialogue.taskStatus node id).outcome reply = .ok st := by
    change (HostDialogue.orThrow (reply (.taskStatus node id))).outcome reply = .ok st
    rw [told]
    rfl
  induction left with
  | zero =>
      constructor
      · intro out
        cases out
      · intro reads
        exact absurd reads.1 (Nat.lt_irrefl 0)
  | succ left ih =>
      rw [HostDialogue.readUntilEnded, Dialogue.outcome_bind, read]
      dsimp only
      cases ended : st.ended with
      | false =>
          have never (n : Nat) : ¬(0 < n ∧ st.ended = true ∧
              isSuccessfulTaskExit st.exitstatus = true) := by
            rw [ended]
            exact fun reads => Bool.false_ne_true reads.2.1
          rw [if_neg Bool.false_ne_true]
          rw [iff_false_intro (never left)] at ih
          rw [ended] at never
          exact ih.trans (iff_false_intro (never (left + 1))).symm
      | true =>
          rw [if_pos rfl]
          cases isSuccessfulTaskExit st.exitstatus with
          | true => exact ⟨fun _ => ⟨Nat.succ_pos left, rfl, rfl⟩, fun _ => rfl⟩
          | false =>
              constructor
              · intro out
                cases out
              · intro reads
                exact absurd reads.2.2 Bool.false_ne_true

theorem waitTask_outcome (tells : TellsOf reply node id timeoutMs st) :
    (HostDialogue.waitTask node id timeoutMs).outcome reply = .ok () ↔
      st.ended = true ∧ isSuccessfulTaskExit st.exitstatus = true := by
  have reads := readUntilEnded_outcome tells.told (reply (.timeLimit timeoutMs))
  exact reads.trans (and_iff_right tells.inTime)

end Wait

theorem failedTaskKind_isSome {task : ProxmoxTask} :
    (failedTaskKind task).isSome = true ↔
      isFailedTaskExit task = true ∧ isMonitoredType task.type = true := by
  unfold failedTaskKind isMonitoredType
  cases isFailedTaskExit task with
  | false => exact iff_of_false Bool.false_ne_true fun failed => Bool.false_ne_true failed.1
  | true =>
      rw [Bool.not_true, if_neg Bool.false_ne_true, and_iff_right rfl]
      by_cases dump : task.type.getD [] = "vzdump"
      · rw [if_pos dump, decide_eq_true dump]
        exact iff_of_true rfl rfl
      · rw [if_neg dump, decide_eq_false dump, Bool.false_or]
        cases guestFailTaskTypes.contains (task.type.getD []) with
        | true => exact iff_of_true rfl rfl
        | false => exact iff_of_false Bool.false_ne_true Bool.false_ne_true

theorem isFailedTaskExit_status :
    isFailedTaskExit (finishedTask .status upid type exit) =
      !isSuccessfulTaskExit (some exit) := by
  have stopped : ("stopped" : Text) ≠ [] ∧ ("stopped" : Text) = "stopped" := by decide
  unfold isFailedTaskExit finishedTask
  dsimp only
  rw [Option.getD_some, decide_eq_true stopped.1, decide_eq_false (not_not.mpr stopped.2),
    Bool.and_false, if_neg Bool.false_ne_true]

/-- A list record tells of no failure. -/
theorem isFailedTaskExit_listed :
    isFailedTaskExit (finishedTask .listed upid type exit) = false := by
  have success : isSuccessfulTaskExit none = true := by decide
  unfold isFailedTaskExit finishedTask
  dsimp only
  rw [success]
  split_ifs <;> rfl

/-! ## The watch -/

namespace BackupWatch

variable {s : BackupWatch} {upid other : Text}

theorem seen_remember (new : upid ∉ s.seen) (apart : other ≠ upid) :
    upid ∉ (s.remember other).seen := by
  have added : upid ∉ add s.seen other := by
    rw [mem_add]
    rintro (held | same)
    · exact new held
    · exact apart same.symm
  rcases Nat.lt_or_ge 800 (add s.seen other).length with past | within
  · rw [remember_of_lt past]
    dsimp only
    intro member
    exact added (List.mem_of_mem_drop member)
  · rw [remember_of_le within]
    exact added

theorem notified_handle (member : upid ∈ s.notified) : upid ∈ (s.handle other).notified := by
  unfold handle
  split
  · exact member
  · refine List.mem_cons_of_mem other ?_
    rw [notified_remember]
    exact member

theorem notified_handleAll {upids : List Text} (member : upid ∈ s.notified) :
    upid ∈ (upids.foldl handle s).notified := by
  induction upids generalizing s with
  | nil => exact member
  | cons first rest ih => exact ih (notified_handle member)

/-- A UPID that the memory does not have is notified of when a poll finds it. -/
theorem notified_of_new {upids : List Text} (found : upid ∈ upids) (new : upid ∉ s.seen) :
    upid ∈ (upids.foldl handle s).notified := by
  induction upids generalizing s with
  | nil => cases found
  | cons first rest ih =>
      rw [List.foldl_cons]
      by_cases same : first = upid
      · subst same
        refine notified_handleAll ?_
        unfold handle
        rw [if_neg new]
        exact List.mem_cons_self
      · refine ih ((List.mem_cons.mp found).resolve_left (Ne.symm same)) ?_
        unfold handle
        split
        · exact new
        · exact seen_remember new same

end BackupWatch

/-- A failed task that the watch lists is reported. -/
theorem reported_of_failedTaskKind {task : ProxmoxTask} {watch : BackupWatch}
    {lists : List (List ProxmoxTask)} {id : Text} (failed : (failedTaskKind task).isSome = true)
    (primed : watch.primed = true) (listed : task ∈ lists.flatten) (known : task.upid = some id)
    (some : id ≠ []) (new : id ∉ watch.seen) :
    id ∈ (watch.scanFailedBackupTasks lists).notified := by
  have reported : failedUpid task = .some id := by
    unfold failedUpid
    rw [if_pos failed, known]
    exact Option.filter_some_pos (by simpa using some)
  rw [BackupWatch.scanFailedBackupTasks_primed primed]
  exact BackupWatch.notified_of_new (List.mem_filterMap.mpr ⟨task, listed, reported⟩) new

/-! ## Where they agree -/

theorem isSuccessfulTaskExit_of_warning (warning : startsWithWarning (trim exit) = true) :
    isSuccessfulTaskExit (some exit) = true := by
  unfold isSuccessfulTaskExit
  dsimp only
  rw [Option.getD_some, warning, ite_self]

/-- The failed backups and the warnings follow from the three verdicts. -/
theorem VerdictsAgree.of_verdicts {task : ProxmoxTask}
    (runState : taskRunState task = .ok ↔ isSuccessfulTaskExit (some exit) = true)
    (wait : ∀ reply node upid timeoutMs, TellsOf reply node upid timeoutMs task.toStatus →
      ((HostDialogue.waitTask node upid timeoutMs).outcome reply = .ok () ↔
        isSuccessfulTaskExit (some exit) = true))
    (failedKind : (failedTaskKind task).isSome = true ↔
      isSuccessfulTaskExit (some exit) = false ∧ isMonitoredType task.type = true) :
    VerdictsAgree task exit where
  runState := runState
  wait := wait
  failedKind := failedKind
  reported := by
    intro fails dump watch lists upid primed listed known some new
    have monitored : isMonitoredType task.type = true := by
      unfold isMonitoredType
      rw [dump]
      rfl
    have failed := failedKind.mpr ⟨fails, monitored⟩
    exact reported_of_failedTaskKind failed primed listed known some new
  warned := by
    intro warning
    have success := isSuccessfulTaskExit_of_warning warning
    constructor
    · rw [runState.mpr success]
      decide
    · rw [← Option.not_isSome_iff_eq_none, failedKind, success]
      exact fun failed => Bool.false_ne_true failed.1.symm

/-- A record in the shape of a status gets one verdict. -/
theorem verdictsAgree_status : VerdictsAgree (finishedTask .status upid type exit) exit := by
  refine .of_verdicts taskRunState_status ?_ ?_
  · intro reply node id timeoutMs tells
    have ended : (finishedTask .status upid type exit).toStatus.ended = true := by
      change (TaskStatus.mk (some "stopped") none).ended = true
      decide
    rw [waitTask_outcome tells]
    exact and_iff_right ended
  · rw [failedTaskKind_isSome, isFailedTaskExit_status, Bool.not_eq_true']

/-- A host that tells of the task on every question. -/
def tellsAlways (st : TaskStatus) : ∀ q, HostQuestion.Answer q
  | .status .. => .missing
  | .taskStatus .. => .ok st
  | .command _ => .ok none
  | .loadHostInventory => .failed
  | .withHostClient | .persistJobs => .ok ()
  | .timeLimit _ => 1

theorem tellsOf_tellsAlways (st : TaskStatus) : TellsOf (tellsAlways st) [] [] 0 st :=
  ⟨rfl, Nat.one_pos⟩

/-- The exit texts that a list record conveys. -/
def ToldByList (type : Option Text) (exit : Text) : Prop :=
  trim exit = "OK" ∨ exit = "running" ∧ isMonitoredType type = false

theorem failedTaskKind_listed :
    (failedTaskKind (finishedTask .listed upid type exit)).isSome = false := by
  rw [Bool.eq_false_iff, ne_eq, failedTaskKind_isSome, isFailedTaskExit_listed]
  exact fun failed => Bool.false_ne_true failed.1

theorem waitTask_listed {reply : ∀ q, HostQuestion.Answer q} {node id : Text} {timeoutMs : Nat}
    (tells : TellsOf reply node id timeoutMs (finishedTask .listed upid type exit).toStatus) :
    (HostDialogue.waitTask node id timeoutMs).outcome reply = .ok () ↔
      exit ≠ [] ∧ exit ≠ "running" := by
  have success : isSuccessfulTaskExit none = true := by decide
  rw [waitTask_outcome tells]
  change ((TaskStatus.mk (some exit) none).ended = true ∧ isSuccessfulTaskExit none = true) ↔ _
  rw [success, and_iff_left rfl, TaskStatus.ended, Option.getD_some, Bool.and_eq_true,
    decide_eq_true_eq, decide_eq_true_eq]

/-- What the exit text of a list record has to be. -/
theorem verdictsAgree_listed :
    VerdictsAgree (finishedTask .listed upid type exit) exit ↔ ToldByList type exit := by
  constructor
  · intro agree
    have read := (waitTask_listed (tellsOf_tellsAlways _)).symm.trans
      (agree.wait _ [] [] 0 (tellsOf_tellsAlways _))
    cases success : isSuccessfulTaskExit (some exit) with
    | true =>
        rcases taskRunState_listed.mp (agree.runState.mpr success) with ok | stopped
        · exact .inl ok
        · rw [← isSuccessfulTaskExit_trim, stopped] at success
          exact absurd success (by decide)
    | false =>
        have unread : ¬(exit ≠ [] ∧ exit ≠ "running") := by
          rw [read, success]
          exact Bool.false_ne_true
        have running : exit = "running" := by
          by_contra other
          refine unread ⟨?_, other⟩
          rintro rfl
          exact absurd success (by decide)
        refine .inr ⟨running, Bool.eq_false_iff.mpr fun monitored => ?_⟩
        have failed := agree.failedKind.mpr ⟨success, monitored⟩
        rw [failedTaskKind_listed] at failed
        exact Bool.false_ne_true failed
  · rintro (ok | ⟨rfl, unmonitored⟩)
    · have success : isSuccessfulTaskExit (some exit) = true := by
        rw [← isSuccessfulTaskExit_trim, ok]
        decide
      refine .of_verdicts (iff_of_true (taskRunState_listed.mpr (.inl ok)) success) ?_ ?_
      · intro reply node id timeoutMs tells
        rw [waitTask_listed tells]
        refine iff_of_true ⟨?_, ?_⟩ success
        · rintro rfl
          exact absurd ok (by decide)
        · rintro rfl
          exact absurd ok (by decide)
      · rw [failedTaskKind_listed, success]
        exact iff_of_false Bool.false_ne_true fun failed => Bool.false_ne_true failed.1.symm
    · have fails : isSuccessfulTaskExit (some "running") = false := by decide
      refine .of_verdicts ?_ ?_ ?_
      · rw [taskRunState_listed, fails]
        decide
      · intro reply node id timeoutMs tells
        rw [waitTask_listed tells, fails]
        exact iff_of_false (fun read => read.2 rfl) Bool.false_ne_true
      · rw [failedTaskKind_listed]
        refine iff_of_false Bool.false_ne_true fun failed => ?_
        exact Bool.false_ne_true (unmonitored.symm.trans failed.2)

/-- **When all verdicts agree.** -/
theorem verdictsAgree_iff (shape : TaskShape) (upid type : Option Text) (exit : Text) :
    VerdictsAgree (finishedTask shape upid type exit) exit ↔
      shape = .status ∨ ToldByList type exit := by
  cases shape with
  | status => exact iff_of_true verdictsAgree_status (.inl rfl)
  | listed => rw [verdictsAgree_listed, or_iff_right TaskShape.noConfusion]

/-- A failed backup in a list: the task page shows it as failed, nobody is told of it, and a
wait takes it for a success. -/
theorem failed_backup_unreported :
    ¬VerdictsAgree (finishedTask .listed (some "UPID:pve:1") (some "vzdump") "job errors")
      "job errors" := by
  rw [verdictsAgree_listed]
  unfold ToldByList
  decide

end Proxora
