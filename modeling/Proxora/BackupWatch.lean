import Mathlib
import Proxora.ProxmoxTasks
import Proxora.Runs

/-!
# The watch for failed tasks

`scanFailedBackupTasks` of `server/services/backup-watch.ts` with its memory of
UPIDs, the tests of `lib/backup-tasks.ts`, and `notifyGuestTaskFailed` of
`server/notifications/guest-task-fail.ts`, which writes to the same memory.  A log
notes the UPIDs that were notified of, and the state the UPIDs that the memory has
dropped.

`notifies_once` says when no UPID is notified of twice: as long as none comes up
again that was dropped after it was notified of.
-/

namespace Proxora

open Ecma Runs

/-! ## Failed tasks -/

/-- A `ProxmoxTask`, as far as it decides. -/
structure ProxmoxTask where
  upid : Option Text
  type : Option Text
  status : Option Text
  exitstatus : Option Text
deriving DecidableEq, Repr

def isFailedTaskExit (task : ProxmoxTask) : Bool :=
  if (task.status.getD []) ≠ [] && task.status.getD [] ≠ "stopped" then false
  else !isSuccessfulTaskExit task.exitstatus

def guestFailTaskTypes : List Text :=
  ["qmstart", "qmstop", "qmshutdown", "qmreboot", "qmreset", "qmpause", "qmresume", "qmsuspend",
    "qmsnapshot", "qmdelsnapshot", "qmrollback", "vzstart", "vzstop", "vzshutdown", "vzreboot",
    "vzsuspend", "vzsnapshot", "vzdelsnapshot", "vzrollback"]

inductive FailedTaskKind : Type
  | backup | guest
deriving DecidableEq, Repr

def failedTaskKind (task : ProxmoxTask) : Option FailedTaskKind :=
  if !isFailedTaskExit task then none
  else if task.type.getD [] = "vzdump" then some .backup
  else if guestFailTaskTypes.contains (task.type.getD []) then some .guest
  else none

/-- The UPID of a failed task that has one. -/
def failedUpid (task : ProxmoxTask) : Option Text :=
  if (failedTaskKind task).isSome then task.upid.filter (· ≠ []) else none

def guestTaskNotifyActions : List Text :=
  ["start", "stop", "shutdown", "reboot", "reset", "pause", "resume", "snapshot",
    "snapshot-delete", "snapshot-rollback"]

/-! ## The memory -/

/-- `seenFailedUpids`, `primed`, the UPIDs that were notified of, the latest one
first, and those that the memory has dropped. -/
structure BackupWatch where
  seen : List Text
  primed : Bool
  notified : List Text
  dropped : List Text
deriving DecidableEq, Repr

namespace BackupWatch

def empty : BackupWatch := ⟨[], false, [], []⟩

/-- `seenFailedUpids.add(upid)`. -/
def add (seen : List Text) (upid : Text) : List Text :=
  if upid ∈ seen then seen else seen ++ [upid]

def remember (s : BackupWatch) (upid : Text) : BackupWatch :=
  let seen := add s.seen upid
  if seen.length ≤ 800 then { s with seen }
  else
    { s with
      seen := seen.drop (seen.length - 400)
      dropped := s.dropped ++ seen.take (seen.length - 400) }

/-- The memory after the first poll. -/
def prime (s : BackupWatch) (failed : List Text) : BackupWatch :=
  { failed.foldl remember s with primed := true }

def notify (s : BackupWatch) (upid : Text) : BackupWatch :=
  { s with notified := upid :: s.notified }

/-- One failed task of a poll. -/
def handle (s : BackupWatch) (upid : Text) : BackupWatch :=
  if upid ∈ s.seen then s else (s.remember upid).notify upid

/-- `scanFailedBackupTasks`, with the tasks that the nodes of the hosts list. -/
def scanFailedBackupTasks (s : BackupWatch) (lists : List (List ProxmoxTask)) : BackupWatch :=
  let failed := lists.flatten.filterMap failedUpid
  if !s.primed then s.prime failed else failed.foldl handle s

def notifyGuestTaskFailed (s : BackupWatch) (action : Text) (upid : Option Text) : BackupWatch :=
  if !guestTaskNotifyActions.contains action then s
  else
    match upid.filter (· ≠ []) with
    | some upid => (s.remember upid).notify upid
    | none => s

/-! ## Runs -/

end BackupWatch

inductive BackupWatchEvent : Type
  | scanFailedBackupTasks (lists : List (List ProxmoxTask))
  | notifyGuestTaskFailed (action : Text) (upid : Option Text)
deriving DecidableEq, Repr

namespace BackupWatch

def step (s : BackupWatch) : BackupWatchEvent → Option BackupWatch
  | .scanFailedBackupTasks lists => some (s.scanFailedBackupTasks lists)
  | .notifyGuestTaskFailed action upid => some (s.notifyGuestTaskFailed action upid)

/-- The UPID was notified of, and the memory has dropped it since. -/
def Forgotten (s : BackupWatch) (upid : Text) : Prop :=
  upid ∉ s.seen ∧ upid ∈ s.dropped ∧ upid ∈ s.notified

instance (s : BackupWatch) (upid : Text) : Decidable (s.Forgotten upid) :=
  inferInstanceAs (Decidable (upid ∉ s.seen ∧ upid ∈ s.dropped ∧ upid ∈ s.notified))

/-- No UPID of a poll is forgotten when its turn comes. -/
def NoneForgotten (s : BackupWatch) : List Text → Prop
  | [] => True
  | upid :: rest => ¬s.Forgotten upid ∧ NoneForgotten (s.handle upid) rest

/-- No forgotten UPID comes up in a poll, and a failed action is reported before a
poll has notified of its task. -/
def Remembered (s : BackupWatch) : BackupWatchEvent → Prop
  | .scanFailedBackupTasks lists =>
      s.primed = true → s.NoneForgotten (lists.flatten.filterMap failedUpid)
  | .notifyGuestTaskFailed action upid =>
      guestTaskNotifyActions.contains action = true → ∀ text ∈ upid, text ∉ s.notified

instance decidableNoneForgotten (s : BackupWatch) :
    ∀ upids, Decidable (s.NoneForgotten upids)
  | [] => .isTrue trivial
  | upid :: rest =>
      have := decidableNoneForgotten (s.handle upid) rest
      inferInstanceAs (Decidable (¬s.Forgotten upid ∧ (s.handle upid).NoneForgotten rest))

instance (s : BackupWatch) : ∀ e, Decidable (Remembered s e)
  | .scanFailedBackupTasks lists =>
      inferInstanceAs (Decidable (s.primed = true →
        s.NoneForgotten (lists.flatten.filterMap failedUpid)))
  | .notifyGuestTaskFailed action upid =>
      inferInstanceAs (Decidable (guestTaskNotifyActions.contains action = true →
        ∀ text ∈ upid, text ∉ s.notified))

/-! ## What is kept -/

/-- No UPID was notified of twice, and the memory has every one or has dropped it. -/
structure NotifiedOnce (s : BackupWatch) : Prop where
  once : s.notified.Nodup
  known : ∀ upid ∈ s.notified, upid ∈ s.seen ∨ upid ∈ s.dropped

variable {s t : BackupWatch} {upid other : Text}

theorem mem_add : other ∈ add s.seen upid ↔ other ∈ s.seen ∨ other = upid := by
  unfold add
  split
  · next member =>
    constructor
    · intro held
      exact .inl held
    · intro held
      rcases held with held | same
      · exact held
      · rw [same]
        exact member
  · rw [List.mem_append, List.mem_singleton]

/-- The memory that stays within its limit. -/
theorem remember_of_le (within : (add s.seen upid).length ≤ 800) :
    s.remember upid = { s with seen := add s.seen upid } := by
  unfold remember
  exact if_pos within

/-- The memory that passes its limit keeps the UPIDs that came last. -/
theorem remember_of_lt (past : 800 < (add s.seen upid).length) :
    s.remember upid =
      { s with
        seen := (add s.seen upid).drop ((add s.seen upid).length - 400)
        dropped := s.dropped ++ (add s.seen upid).take ((add s.seen upid).length - 400) } := by
  unfold remember
  exact if_neg (Nat.not_le.mpr past)

theorem notified_remember : (s.remember upid).notified = s.notified := by
  rcases Nat.lt_or_ge 800 (add s.seen upid).length with past | within
  · rw [remember_of_lt past]
  · rw [remember_of_le within]

theorem primed_remember : (s.remember upid).primed = s.primed := by
  rcases Nat.lt_or_ge 800 (add s.seen upid).length with past | within
  · rw [remember_of_lt past]
  · rw [remember_of_le within]

theorem primed_handle : (s.handle upid).primed = s.primed := by
  unfold handle
  split
  · rfl
  · exact primed_remember

theorem scanFailedBackupTasks_primed {lists : List (List ProxmoxTask)} (primed : s.primed = true) :
    s.scanFailedBackupTasks lists = (lists.flatten.filterMap failedUpid).foldl handle s := by
  unfold scanFailedBackupTasks
  rw [primed]
  rfl

/-- A UPID that is remembered is in the memory or dropped from it, and so is
every other one that was. -/
theorem known_remember (known : other ∈ s.seen ∨ other ∈ s.dropped ∨ other = upid) :
    other ∈ (s.remember upid).seen ∨ other ∈ (s.remember upid).dropped := by
  have held : other ∈ add s.seen upid ∨ other ∈ s.dropped := by
    rw [mem_add]
    rcases known with inSeen | inDropped | same
    · exact .inl (.inl inSeen)
    · exact .inr inDropped
    · exact .inl (.inr same)
  rcases Nat.lt_or_ge 800 (add s.seen upid).length with past | within
  · rw [remember_of_lt past]
    dsimp only
    rcases held with inSeen | inDropped
    · rw [← List.take_append_drop ((add s.seen upid).length - 400) (add s.seen upid),
        List.mem_append] at inSeen
      rcases inSeen with taken | kept
      · exact .inr (List.mem_append.mpr (.inr taken))
      · exact .inl kept
    · exact .inr (List.mem_append.mpr (.inl inDropped))
  · rw [remember_of_le within]
    exact held

theorem NotifiedOnce.remember (sound : NotifiedOnce s) : NotifiedOnce (s.remember upid) where
  once := by
    rw [notified_remember]
    exact sound.once
  known := by
    intro other member
    rw [notified_remember] at member
    rcases sound.known other member with inSeen | inDropped
    · exact known_remember (.inl inSeen)
    · exact known_remember (.inr (.inl inDropped))

/-- A UPID that was not notified of may be. -/
theorem NotifiedOnce.notify (sound : NotifiedOnce s) (new : upid ∉ s.notified) :
    NotifiedOnce ((s.remember upid).notify upid) where
  once := by
    have remembered : NotifiedOnce (s.remember upid) := sound.remember
    refine List.nodup_cons.mpr ⟨?_, remembered.once⟩
    rw [notified_remember]
    exact new
  known := by
    intro other member
    rcases List.mem_cons.mp member with same | earlier
    · exact known_remember (.inr (.inr same))
    · exact sound.remember.known other earlier

theorem NotifiedOnce.handle (sound : NotifiedOnce s) (kept : ¬s.Forgotten upid) :
    NotifiedOnce (s.handle upid) := by
  unfold BackupWatch.handle
  split
  · exact sound
  · next unseen =>
    refine sound.notify fun member => ?_
    rcases sound.known upid member with inSeen | inDropped
    · exact unseen inSeen
    · exact kept ⟨unseen, inDropped, member⟩

/-- **Loop.** The failed tasks of a poll, one after the other. -/
theorem NotifiedOnce.handleAll {upids : List Text} (sound : NotifiedOnce s)
    (kept : s.NoneForgotten upids) : NotifiedOnce (upids.foldl BackupWatch.handle s) := by
  induction upids generalizing s with
  | nil => exact sound
  | cons upid rest ih => exact ih (sound.handle kept.1) kept.2

theorem NotifiedOnce.prime {upids : List Text} (sound : NotifiedOnce s) :
    NotifiedOnce (s.prime upids) := by
  have folded : NotifiedOnce (upids.foldl BackupWatch.remember s) := by
    induction upids generalizing s with
    | nil => exact sound
    | cons upid rest ih => exact ih sound.remember
  exact ⟨folded.once, folded.known⟩

/-- **Step lemma.** -/
theorem NotifiedOnce.step {e : BackupWatchEvent} (sound : NotifiedOnce s)
    (remembered : Remembered s e) (happens : step s e = some t) : NotifiedOnce t := by
  cases e with
  | scanFailedBackupTasks lists =>
      cases happens
      unfold BackupWatch.scanFailedBackupTasks
      dsimp only
      cases primed : s.primed with
      | false => exact sound.prime
      | true => exact sound.handleAll (remembered primed)
  | notifyGuestTaskFailed action upid =>
      cases happens
      unfold BackupWatch.notifyGuestTaskFailed
      cases listed : guestTaskNotifyActions.contains action with
      | false => exact sound
      | true =>
          split
          · exact sound
          · split
            · next text found =>
              have held := (Option.filter_eq_some_iff.mp found).1
              exact sound.notify (remembered listed text held)
            · exact sound

/-- **When nothing is notified of twice.** While no UPID comes up again that the
memory has dropped since its notification, each is notified of at most once. -/
theorem notifies_once (run : Reaches step Remembered empty s) : s.notified.Nodup := by
  have start : NotifiedOnce empty :=
    ⟨List.nodup_nil, fun upid member => absurd member List.not_mem_nil⟩
  have sound : NotifiedOnce s :=
    run.keeps start fun _ _ _ before remembered happens => before.step remembered happens
  exact sound.once

/-! ## More failed tasks than the memory holds -/

/-- UPIDs that are new to the memory and fit into it are all notified of. -/
theorem handleAll_fresh {upids : List Text} (fresh : (s.seen ++ upids).Nodup)
    (fit : s.seen.length + upids.length ≤ 800) :
    upids.foldl handle s =
      { s with seen := s.seen ++ upids, notified := upids.reverse ++ s.notified } := by
  induction upids generalizing s with
  | nil =>
      rw [List.append_nil]
      rfl
  | cons upid rest ih =>
      have new : upid ∉ s.seen := fun member =>
        (List.nodup_append.mp fresh).2.2 upid member upid List.mem_cons_self rfl
      have added : add s.seen upid = s.seen ++ [upid] := if_neg new
      have within : (add s.seen upid).length ≤ 800 := by
        rw [added, List.length_append, List.length_singleton]
        rw [List.length_cons] at fit
        omega
      have handled : s.handle upid =
          { s with seen := s.seen ++ [upid], notified := upid :: s.notified } := by
        unfold handle
        rw [if_neg new, remember_of_le within, added]
        rfl
      rw [List.foldl_cons, handled, ih]
      · dsimp only
        rw [List.append_assoc, List.reverse_cons, List.append_assoc]
        rfl
      · dsimp only
        rw [List.append_assoc]
        exact fresh
      · dsimp only
        rw [List.length_append, List.length_singleton]
        rw [List.length_cons] at fit
        omega

/-- A full memory drops the oldest UPIDs for a new one. -/
theorem handle_full (full : s.seen.length = 800) (new : upid ∉ s.seen) :
    s.handle upid =
      { s with
        seen := (s.seen ++ [upid]).drop 401
        notified := upid :: s.notified
        dropped := s.dropped ++ (s.seen ++ [upid]).take 401 } := by
  have added : add s.seen upid = s.seen ++ [upid] := if_neg new
  have length : (s.seen ++ [upid]).length = 801 := by
    rw [List.length_append, full, List.length_singleton]
  have past : 800 < (add s.seen upid).length := by
    rw [added, length]
    decide
  unfold handle
  rw [if_neg new, remember_of_lt past, added, length]
  rfl

/-- A UPID that is forgotten is notified of again. -/
theorem handle_forgotten (unseen : upid ∉ s.seen) (earlier : upid ∈ s.notified) :
    ¬(s.handle upid).notified.Nodup := by
  intro once
  unfold handle at once
  rw [if_neg unseen] at once
  unfold notify at once
  dsimp only at once
  rw [notified_remember] at once
  exact (List.nodup_cons.mp once).1 earlier

/-- The UPID of the backup task `n`. -/
def backupUpid (n : Nat) : Text := 'U' :: (toString n : String).toList

theorem backupUpid_injective : Function.Injective backupUpid := by
  intro m n same
  exact toString_nat_inj (List.cons.inj same).2

def failedBackup (n : Nat) : ProxmoxTask :=
  ⟨some (backupUpid n), some "vzdump", some "stopped", some "job errors"⟩

theorem failedUpid_failedBackup (n : Nat) : failedUpid (failedBackup n) = some (backupUpid n) := by
  have failed : (failedTaskKind (failedBackup n)).isSome = true := by rfl
  unfold failedUpid
  rw [if_pos failed]
  exact Option.filter_some_pos (by simp [backupUpid])

/-- A poll in which every node lists one failed backup. -/
def listsOf (tasks : List Nat) : List (List ProxmoxTask) := tasks.map fun n => [failedBackup n]

theorem failed_listsOf (tasks : List Nat) :
    (listsOf tasks).flatten.filterMap failedUpid = tasks.map backupUpid := by
  induction tasks with
  | nil => rfl
  | cons n rest ih =>
      have first : (listsOf (n :: rest)).flatten = failedBackup n :: (listsOf rest).flatten := rfl
      rw [first, List.filterMap_cons_some (failedUpid_failedBackup n), ih, List.map_cons]

/-- The memory after the backups `0` to `n - 1` failed. -/
def filled (n : Nat) : BackupWatch :=
  ⟨(List.range n).map backupUpid, true, ((List.range n).map backupUpid).reverse, []⟩

theorem handleAll_filled {n : Nat} (fit : n ≤ 800) :
    ((List.range n).map backupUpid).foldl handle ⟨[], true, [], []⟩ = filled n := by
  rw [handleAll_fresh]
  · dsimp only
    rw [List.nil_append, List.append_nil]
    rfl
  · exact List.nodup_range.map backupUpid_injective
  · rw [List.length_map, List.length_range, List.length_nil, Nat.zero_add]
    exact fit

theorem backupUpid_not_mem_filled (n : Nat) : backupUpid n ∉ (filled n).seen := by
  intro member
  obtain ⟨earlier, inRange, same⟩ := List.mem_map.mp member
  rw [backupUpid_injective same, List.mem_range] at inRange
  exact Nat.lt_irrefl n inRange

theorem handle_filled {n : Nat} (full : n + 1 = 800) :
    backupUpid 0 ∉ ((filled (n + 1)).handle (backupUpid (n + 1))).seen ∧
      backupUpid 0 ∈ ((filled (n + 1)).handle (backupUpid (n + 1))).notified := by
  have length : (filled (n + 1)).seen.length = 800 := by
    unfold filled
    rw [List.length_map, List.length_range]
    exact full
  rw [handle_full length (backupUpid_not_mem_filled (n + 1))]
  dsimp only
  constructor
  · intro member
    have head :
        (filled (n + 1)).seen = backupUpid 0 :: ((List.range n).map Nat.succ).map backupUpid := by
      unfold filled
      rw [List.range_succ_eq_map, List.map_cons]
    rw [head, List.cons_append, List.drop_succ_cons] at member
    rcases List.mem_append.mp (List.mem_of_mem_drop member) with earlier | last
    · obtain ⟨k, inRange, same⟩ := List.mem_map.mp earlier
      obtain ⟨m, -, next⟩ := List.mem_map.mp inRange
      rw [backupUpid_injective same] at next
      cases next
    · cases backupUpid_injective (List.mem_singleton.mp last)
  · exact List.mem_cons_of_mem _ (List.mem_reverse.mpr
      (List.mem_map_of_mem (List.mem_range.mpr (Nat.succ_pos n))))

/-- The first poll lists nothing, the second 801 failed backups, the third the first
of them again. -/
theorem fails_past_the_limit :
    ∃ events s, exec step empty events = some s ∧ ¬s.notified.Nodup := by
  -- a numeral of that size would be unfolded
  obtain ⟨n, full⟩ : ∃ n, n + 1 = 800 := ⟨799, rfl⟩
  refine ⟨[.scanFailedBackupTasks [], .scanFailedBackupTasks (listsOf (List.range (n + 2))),
    .scanFailedBackupTasks (listsOf [0])], _, rfl, ?_⟩
  have first : empty.scanFailedBackupTasks [] = ⟨[], true, [], []⟩ := rfl
  have second : scanFailedBackupTasks ⟨[], true, [], []⟩ (listsOf (List.range (n + 2))) =
      (filled (n + 1)).handle (backupUpid (n + 1)) := by
    rw [scanFailedBackupTasks_primed rfl, failed_listsOf, List.range_succ, List.map_append,
      List.foldl_append, handleAll_filled full.le]
    rfl
  have primed : ((filled (n + 1)).handle (backupUpid (n + 1))).primed = true :=
    primed_handle.trans rfl
  rw [first, second, scanFailedBackupTasks_primed primed, failed_listsOf]
  exact handle_forgotten (handle_filled full).1 (handle_filled full).2

/-- A poll that notifies of a failed start, an action that fails and the same polls
again. -/
def watched : List BackupWatchEvent :=
  let start : ProxmoxTask :=
    ⟨some "UPID:pve:1:qmstart", some "qmstart", some "stopped", some "timeout"⟩
  let backup : ProxmoxTask := ⟨some "UPID:pve:2:vzdump", some "vzdump", none, some "job errors"⟩
  [.scanFailedBackupTasks [[backup]], .scanFailedBackupTasks [[backup, start], []],
    .notifyGuestTaskFailed "stop" (some "UPID:pve:3:qmstop"),
    .scanFailedBackupTasks [[start], [start, backup]]]

theorem watched_happens : (exec (guarded step Remembered) empty watched).isSome = true := by
  decide

theorem notifies_once_watched : (Option.get _ watched_happens).notified.Nodup :=
  notifies_once (reaches_of_guarded (Option.some_get watched_happens).symm)

end BackupWatch

end Proxora
