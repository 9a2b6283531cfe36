import Proxora.HostStates

/-!
# Updates of peers

The operations of `server/services/peer-update.ts`, one database call at a time,
so that they interleave.  An operation is a task that says which call comes next
and what the earlier ones have read.  `finishPeerUpdate_alone` and
`announce_alone` say that an operation that nothing interrupts does what
`HostStates` has for it.

`not_stuck` says when a host that is left in maintenance has a peer that is still
updating: the exceptions are a check and a write with the end of the update in
between.
-/

namespace Proxora

open Runs

namespace HostTables

/-- The second write of `finishPeerUpdate`. -/
def releaseHosts (t : HostTables) (peerId : String) (expired : Bool) : HostTables :=
  t.updateHosts
    (fun _ row => row.peerId = some peerId && row.origin = .peer &&
      row.status.connectionState = .maintenance)
    fun status =>
      if expired then
        { status with
          connectionState := .error
          lastError := some "Peer did not return after Proxora update" }
      else { status with connectionState := .connecting, lastError := none }

/-- The second write of `applyIncomingPeerUpdate`. -/
def holdHosts (t : HostTables) (peerId : String) : HostTables :=
  t.updateHosts (fun _ row => row.peerId = some peerId && row.origin = .peer)
    fun status =>
      { status with connectionState := .maintenance, lastError := some peerUpdateLastError }

/-- The write of `absorbPeerUpdateOutage`. -/
def holdHost (t : HostTables) (hostId : String) : HostTables :=
  t.updateHost hostId fun status =>
    { status with connectionState := .maintenance, lastError := some peerUpdateLastError }

end HostTables

/-- The call that an operation makes next.  `rest` are the stale peers that
`expireStalePeerUpdates` has still to finish. -/
inductive PeerTask : Type
  | announce (peerId : String)
  | holdHosts (peerId : String)
  | clear (peerId : String) (expired : Bool) (rest : List String)
  | releaseHosts (peerId : String) (expired : Bool) (rest : List String)
  | findStale (peers : List String)
  | readHost (hostId : String)
  | readPeer (hostId peerId : String) (connectionState : HostConnectionState)
  | holdHost (hostId : String)
  | readUpdating (peerId : String)
deriving DecidableEq, Repr

/-- The operations that can begin.  `peers` are all peers, in the order in which
`expireStalePeerUpdates` is given those that are stale. -/
inductive PeerOperation : Type
  | applyIncomingPeerUpdate (peerId : String) (updating : Bool)
  | finishPeerUpdate (peerId : String)
  | expireStalePeerUpdates (peers : List String)
  | absorbPeerUpdateOutage (hostId : String)
  | notePeerHostReachable (peerId : String)
deriving DecidableEq, Repr

def PeerOperation.task : PeerOperation → PeerTask
  | .applyIncomingPeerUpdate peerId true => .announce peerId
  | .applyIncomingPeerUpdate peerId false => .clear peerId false []
  | .finishPeerUpdate peerId => .clear peerId false []
  | .expireStalePeerUpdates peers => .findStale peers
  | .absorbPeerUpdateOutage hostId => .readHost hostId
  | .notePeerHostReachable peerId => .readUpdating peerId

/-- The next peer of the loop in `expireStalePeerUpdates`. -/
def PeerTask.loop : List String → Option PeerTask
  | [] => none
  | peerId :: rest => some (.clear peerId true rest)

/-- The call, and what the operation does next. -/
def PeerTask.call (t : HostTables) (now : Int) : PeerTask → HostTables × Option PeerTask
  | .announce peerId =>
      (t.setUpdatingUntil peerId (some (now + HostTables.peerUpdateTtlMs)), some (.holdHosts peerId))
  | .holdHosts peerId => (t.holdHosts peerId, none)
  | .clear peerId expired rest =>
      match t.updatingUntil peerId with
      | none => (t, PeerTask.loop rest)
      | some _ => (t.setUpdatingUntil peerId none, some (.releaseHosts peerId expired rest))
  | .releaseHosts peerId expired rest => (t.releaseHosts peerId expired, PeerTask.loop rest)
  | .findStale peers =>
      (t, PeerTask.loop (peers.filter fun peerId =>
        match t.updatingUntil peerId with
        | some deadline => deadline ≤ now
        | none => false))
  | .readHost hostId =>
      match t.hosts hostId with
      | some ⟨.peer, some peerId, status⟩ =>
          (t, some (.readPeer hostId peerId status.connectionState))
      | _ => (t, none)
  | .readPeer hostId peerId connectionState =>
      if !HostTables.isPeerUpdating (t.updatingUntil peerId) now then (t, none)
      else if connectionState ≠ .maintenance then (t, some (.holdHost hostId))
      else (t, none)
  | .holdHost hostId => (t.holdHost hostId, none)
  | .readUpdating peerId =>
      match t.updatingUntil peerId with
      | none => (t, none)
      | some _ => (t, some (.clear peerId false []))

/-- The peers that the operation has found to be stale and not finished yet. -/
def PeerTask.stale : PeerTask → List String
  | .clear peerId true rest => peerId :: rest
  | .clear _ false rest | .releaseHosts _ _ rest => rest
  | _ => []

/-- The deadline that a call clears because it has expired. -/
def PeerTask.expires (t : HostTables) : PeerTask → Option Int
  | .clear peerId true _ => t.updatingUntil peerId
  | _ => none

/-- The tables, the operations under way, and the deadlines that have been
cleared as expired, each with the time of it. -/
structure PeerUpdateSystem where
  tables : HostTables
  tasks : Nat → Option PeerTask
  begun : Nat
  clock : Int
  expired : List (Int × Int)

inductive PeerUpdateEvent : Type
  | begin (operation : PeerOperation)
  | call (task : Nat) (now : Int)
deriving DecidableEq, Repr

namespace PeerUpdateSystem

def idle (tables : HostTables) (clock : Int) : PeerUpdateSystem where
  tables := tables
  tasks := fun _ => none
  begun := 0
  clock := clock
  expired := []

/-- The state after the next call of the task at place `n`. -/
def called (s : PeerUpdateSystem) (n : Nat) (task : PeerTask) (now : Int) : PeerUpdateSystem :=
  { s with
    tables := (task.call s.tables now).1
    tasks := Function.update s.tasks n (task.call s.tables now).2
    clock := now
    expired :=
      match task.expires s.tables with
      | some deadline => (deadline, now) :: s.expired
      | none => s.expired }

def step (s : PeerUpdateSystem) : PeerUpdateEvent → Option PeerUpdateSystem
  | .begin operation =>
      some { s with
        tasks := Function.update s.tasks s.begun (some operation.task)
        begun := s.begun + 1 }
  | .call n now =>
      match s.tasks n with
      | some task => if s.clock ≤ now then some (s.called n task now) else none
      | none => none

end PeerUpdateSystem

/-- A host that is shared by a peer and in maintenance. -/
def HostStateRow.isHeld (row : HostStateRow) : Bool :=
  row.origin = .peer && row.status.connectionState = .maintenance

/-- The deadline of the peer of a host. -/
def HostTables.deadlineOf (t : HostTables) (row : HostStateRow) : Option Int :=
  row.peerId.bind t.updatingUntil

/-- Every host of a peer that is in maintenance belongs to a peer that is updating. -/
def HostTables.NoneStuck (t : HostTables) : Prop :=
  ∀ id row, t.hosts id = some row → row.isHeld = true → t.deadlineOf row ≠ none

namespace PeerUpdateSystem

/-- When nothing is in progress no host is stuck, and no deadline was cleared
before it had passed. -/
structure KeepsWatch (s : PeerUpdateSystem) : Prop where
  notStuck : (∀ n, s.tasks n = none) → s.tables.NoneStuck
  late : ∀ deadline now, (deadline, now) ∈ s.expired → deadline ≤ now

/-- The next call of the operation is in order: it puts a host into maintenance
while its peer is still updating, and it announces no update of a peer that was
found to be stale and is not finished. -/
def Allows (s : PeerUpdateSystem) : PeerTask → Prop
  | .announce peerId => ∀ m, m < s.begun → ∀ other ∈ s.tasks m, peerId ∉ other.stale
  | .holdHosts peerId => s.tables.updatingUntil peerId ≠ none
  | .holdHost hostId => ∀ row ∈ s.tables.hosts hostId, row.origin = .peer →
      s.tables.deadlineOf row ≠ none
  | _ => True

instance (s : PeerUpdateSystem) : ∀ task, Decidable (s.Allows task)
  | .announce peerId =>
      inferInstanceAs (Decidable (∀ m, m < s.begun → ∀ other ∈ s.tasks m, peerId ∉ other.stale))
  | .holdHosts peerId => inferInstanceAs (Decidable (s.tables.updatingUntil peerId ≠ none))
  | .holdHost hostId =>
      inferInstanceAs (Decidable (∀ row ∈ s.tables.hosts hostId, row.origin = .peer →
        s.tables.deadlineOf row ≠ none))
  | .clear _ _ _ | .releaseHosts _ _ _ | .findStale _ | .readHost _ | .readPeer _ _ _
  | .readUpdating _ => inferInstanceAs (Decidable True)

def InOrder (s : PeerUpdateSystem) : PeerUpdateEvent → Prop
  | .begin _ => True
  | .call n _ => ∀ task ∈ s.tasks n, s.Allows task

instance : ∀ (s : PeerUpdateSystem) e, Decidable (s.InOrder e)
  | _, .begin _ => inferInstanceAs (Decidable True)
  | s, .call n _ => inferInstanceAs (Decidable (∀ task ∈ s.tasks n, s.Allows task))

end PeerUpdateSystem

/-! ## One operation -/

namespace HostTables

variable {t : HostTables} {peerId id : String} {expired : Bool} {now : Int} {row : HostStateRow}

theorem deadlineOf_ne_none :
    t.deadlineOf row ≠ none ↔ ∃ peerId, row.peerId = some peerId ∧ t.updatingUntil peerId ≠ none := by
  rw [deadlineOf]
  cases row.peerId with
  | none => simp
  | some peerId => simp

@[simp] theorem setUpdatingUntil_self {deadline : Option Int} :
    (t.setUpdatingUntil peerId deadline).updatingUntil peerId = deadline :=
  Function.update_self ..

theorem setUpdatingUntil_other {deadline : Option Int} {key : String} (other : peerId ≠ key) :
    (t.setUpdatingUntil key deadline).updatingUntil peerId = t.updatingUntil peerId :=
  Function.update_of_ne other ..

theorem finishPeerUpdate_eq (t : HostTables) (peerId : String) (expired : Bool) :
    t.finishPeerUpdate peerId expired =
      match t.updatingUntil peerId with
      | none => t
      | some _ => (t.setUpdatingUntil peerId none).releaseHosts peerId expired := rfl

theorem applyIncomingPeerUpdate_eq (t : HostTables) (peerId : String) (now : Int) :
    t.applyIncomingPeerUpdate peerId true now =
      (t.setUpdatingUntil peerId (some (now + peerUpdateTtlMs))).holdHosts peerId := rfl

/-- Releasing the hosts of a peer leaves none of them in maintenance and puts no
other one there. -/
theorem releaseHosts_held (found : (t.releaseHosts peerId expired).hosts id = some row)
    (held : row.isHeld = true) :
    t.hosts id = some row ∧ row.peerId ≠ some peerId := by
  obtain ⟨before, earlier, same⟩ := Option.map_eq_some_iff.mp found
  simp only [HostStateRow.isHeld, Bool.and_eq_true, decide_eq_true_eq] at held
  split at same
  · rw [← same] at held
    cases expired with
    | true => cases held.2
    | false => cases held.2
  · next spared =>
      rw [← same]
      refine ⟨earlier, ?_⟩
      intro own
      rw [← same] at held
      simp [own, held] at spared

/-- Only hosts of the peer are put into maintenance. -/
theorem holdHosts_held (found : (t.holdHosts peerId).hosts id = some row) :
    row.peerId = some peerId ∨ t.hosts id = some row := by
  obtain ⟨before, earlier, same⟩ := Option.map_eq_some_iff.mp found
  split at same
  · next own =>
      rw [← same]
      simp only [Bool.and_eq_true, decide_eq_true_eq] at own
      exact .inl own.1
  · rw [← same]
    exact .inr earlier

/-- Only the host itself is put into maintenance. -/
theorem holdHost_held {hostId : String} (found : (t.holdHost hostId).hosts id = some row) :
    (∃ before, t.hosts hostId = some before ∧ before.origin = row.origin ∧
      before.peerId = row.peerId) ∨ t.hosts id = some row := by
  obtain ⟨before, earlier, same⟩ := Option.map_eq_some_iff.mp found
  split at same
  · next own =>
      rw [← of_decide_eq_true own, ← same]
      exact .inl ⟨before, earlier, rfl, rfl⟩
  · rw [← same]
    exact .inr earlier

end HostTables

namespace PeerTask

variable {t : HostTables} {task next : PeerTask} {now deadline : Int} {peerId : String}

theorem stale_loop {peers : List String} (looped : loop peers = some next) : next.stale = peers := by
  cases peers with
  | nil => cases looped
  | cons peerId rest =>
      cases looped
      rfl

theorem expires_eq_some (expires : task.expires t = some deadline) :
    ∃ peerId rest, task = .clear peerId true rest ∧ t.updatingUntil peerId = some deadline := by
  unfold PeerTask.expires at expires
  split at expires
  · next peerId rest => exact ⟨peerId, rest, rfl, expires⟩
  · cases expires

/-- Only an announcement sets a deadline. -/
theorem updatingUntil_call (set : (task.call t now).1.updatingUntil peerId = some deadline) :
    t.updatingUntil peerId = some deadline ∨ task = .announce peerId := by
  cases task with
  | announce key =>
      rcases update_eq_some set with ⟨rfl, -⟩ | ⟨-, earlier⟩
      · exact .inr rfl
      · exact .inl earlier
  | clear key expired rest =>
      rw [call] at set
      split at set
      · exact .inl set
      · exact .inl (update_none_eq_some set).2
  | readHost hostId =>
      rw [call] at set
      split at set
      · exact .inl set
      · exact .inl set
  | readPeer hostId key connectionState =>
      rw [call] at set
      split at set
      · exact .inl set
      · split at set
        · exact .inl set
        · exact .inl set
  | readUpdating key =>
      rw [call] at set
      split at set
      · exact .inl set
      · exact .inl set
  | holdHosts key | releaseHosts key expired rest | findStale peers | holdHost hostId =>
      exact .inl set

/-- A peer is found to be stale when its deadline has passed. -/
theorem stale_call (continues : (task.call t now).2 = some next) (member : peerId ∈ next.stale) :
    peerId ∈ task.stale ∨ ∃ deadline, t.updatingUntil peerId = some deadline ∧ deadline ≤ now := by
  cases task with
  | announce key =>
      cases continues
      cases member
  | holdHosts key | holdHost hostId => cases continues
  | clear key expired rest =>
      rw [call] at continues
      split at continues
      · rw [stale_loop continues] at member
        cases expired with
        | true => exact .inl (List.mem_cons_of_mem _ member)
        | false => exact .inl member
      · cases continues
        cases expired with
        | true => exact .inl (List.mem_cons_of_mem _ member)
        | false => exact .inl member
  | releaseHosts key expired rest =>
      rw [stale_loop continues] at member
      exact .inl member
  | findStale peers =>
      rw [stale_loop continues] at member
      have passed := (List.mem_filter.mp member).2
      split at passed
      · next deadline held => exact .inr ⟨deadline, held, of_decide_eq_true passed⟩
      · cases passed
  | readHost hostId =>
      rw [call] at continues
      split at continues
      · cases continues
        cases member
      · cases continues
  | readPeer hostId key connectionState =>
      rw [call] at continues
      split at continues
      · cases continues
      · split at continues
        · cases continues
          cases member
        · cases continues
  | readUpdating key =>
      rw [call] at continues
      split at continues
      · cases continues
      · cases continues
        cases member

/-- What a call can do to a host in maintenance. -/
theorem held_call {id : String} {row : HostStateRow}
    (found : (task.call t now).1.hosts id = some row) (held : row.isHeld = true) :
    t.hosts id = some row ∧ (∀ peerId expired rest, task = .releaseHosts peerId expired rest →
        row.peerId ≠ some peerId) ∨
      (∃ peerId, task = .holdHosts peerId ∧ row.peerId = some peerId) ∨
      ∃ hostId before, task = .holdHost hostId ∧ t.hosts hostId = some before ∧
        before.origin = row.origin ∧ before.peerId = row.peerId := by
  cases task with
  | announce key | findStale peers =>
      exact .inl ⟨found, fun _ _ _ other => by cases other⟩
  | holdHosts key =>
      rcases HostTables.holdHosts_held found with own | earlier
      · exact .inr (.inl ⟨key, rfl, own⟩)
      · exact .inl ⟨earlier, fun _ _ _ other => by cases other⟩
  | clear key expired rest =>
      rw [call] at found
      refine .inl ⟨?_, fun _ _ _ other => by cases other⟩
      split at found <;> exact found
  | releaseHosts key expired rest =>
      obtain ⟨earlier, other⟩ := HostTables.releaseHosts_held found held
      refine .inl ⟨earlier, ?_⟩
      intro peerId _ _ same
      cases same
      exact other
  | readHost hostId =>
      rw [call] at found
      refine .inl ⟨?_, fun _ _ _ other => by cases other⟩
      split at found <;> exact found
  | readPeer hostId key connectionState =>
      rw [call] at found
      refine .inl ⟨?_, fun _ _ _ other => by cases other⟩
      split at found
      · exact found
      · split at found <;> exact found
  | holdHost hostId =>
      rcases HostTables.holdHost_held found with ⟨before, earlier, origin, peer⟩ | earlier
      · exact .inr (.inr ⟨hostId, before, rfl, earlier, origin, peer⟩)
      · exact .inl ⟨earlier, fun _ _ _ other => by cases other⟩
  | readUpdating key =>
      rw [call] at found
      refine .inl ⟨?_, fun _ _ _ other => by cases other⟩
      split at found <;> exact found

/-- What clears a deadline goes on to release the hosts. -/
theorem releases_of_cleared (before : t.updatingUntil peerId ≠ none)
    (after : (task.call t now).1.updatingUntil peerId = none) :
    ∃ expired rest, (task.call t now).2 = some (.releaseHosts peerId expired rest) := by
  cases task with
  | announce key =>
      by_cases same : peerId = key
      · rw [same, call, HostTables.setUpdatingUntil_self] at after
        cases after
      · rw [call, HostTables.setUpdatingUntil_other same] at after
        exact absurd after before
  | clear key expired rest =>
      cases held : t.updatingUntil key with
      | none =>
          simp only [call, held] at after
          exact absurd after before
      | some deadline =>
          simp only [call, held] at after ⊢
          by_cases same : peerId = key
          · rw [same]
            exact ⟨expired, rest, rfl⟩
          · rw [HostTables.setUpdatingUntil_other same] at after
            exact absurd after before
  | readHost hostId =>
      rw [call] at after
      split at after <;> exact absurd after before
  | readPeer hostId key connectionState =>
      rw [call] at after
      split at after
      · exact absurd after before
      · split at after <;> exact absurd after before
  | readUpdating key =>
      rw [call] at after
      split at after <;> exact absurd after before
  | holdHosts key | releaseHosts key expired rest | findStale peers | holdHost hostId =>
      exact absurd after before

end PeerTask

namespace PeerUpdateSystem

variable {t : HostTables} {peerId : String} {clock now later : Int}

/-- An announcement that nothing interrupts. -/
theorem announce_alone (first : clock ≤ now) (second : now ≤ later) :
    (exec step (idle t clock) [.begin (.applyIncomingPeerUpdate peerId true), .call 0 now,
      .call 0 later]).map (·.tables) = some (t.applyIncomingPeerUpdate peerId true now) := by
  rw [HostTables.applyIncomingPeerUpdate_eq]
  simp [exec, step, idle, called, PeerOperation.task, PeerTask.call, first, second]

/-- The end of an update that nothing interrupts. -/
theorem finishPeerUpdate_alone (first : clock ≤ now) (second : now ≤ later)
    (updating : t.updatingUntil peerId ≠ none) :
    (exec step (idle t clock) [.begin (.finishPeerUpdate peerId), .call 0 now,
      .call 0 later]).map (·.tables) = some (t.finishPeerUpdate peerId false) := by
  obtain ⟨deadline, set⟩ := Option.ne_none_iff_exists'.mp updating
  rw [HostTables.finishPeerUpdate_eq]
  simp [exec, step, idle, called, PeerOperation.task, PeerTask.call, set, first, second]

end PeerUpdateSystem

/-! ## Runs -/

namespace PeerUpdateSystem

variable {s t : PeerUpdateSystem}

/-- The invariant.  A host in maintenance belongs to a peer that is updating, or
whose hosts are about to be released. -/
structure Sound (s : PeerUpdateSystem) : Prop where
  held : ∀ id row, s.tables.hosts id = some row → row.isHeld = true →
    ∃ peerId, row.peerId = some peerId ∧ (s.tables.updatingUntil peerId ≠ none ∨
      ∃ n expired rest, s.tasks n = some (.releaseHosts peerId expired rest))
  stale : ∀ n task, s.tasks n = some task → ∀ peerId ∈ task.stale, ∀ deadline,
    s.tables.updatingUntil peerId = some deadline → deadline ≤ s.clock
  bound : ∀ n task, s.tasks n = some task → n < s.begun
  late : ∀ deadline now, (deadline, now) ∈ s.expired → deadline ≤ now

theorem sound_idle {tables : HostTables} (noneStuck : tables.NoneStuck) (clock : Int) :
    (idle tables clock).Sound where
  held := by
    intro id row found held
    obtain ⟨peerId, own, updating⟩ := HostTables.deadlineOf_ne_none.mp (noneStuck id row found held)
    exact ⟨peerId, own, .inl updating⟩
  stale := fun n task held => by cases held
  bound := fun n task held => by cases held
  late := fun deadline now member => by cases member

theorem Sound.begin (sound : s.Sound) (operation : PeerOperation) :
    Sound { s with
      tasks := Function.update s.tasks s.begun (some operation.task)
      begun := s.begun + 1 } where
  held := by
    intro id row found held
    obtain ⟨peerId, own, updating | ⟨n, expired, rest, releasing⟩⟩ := sound.held id row found held
    · exact ⟨peerId, own, .inl updating⟩
    · have other : n ≠ s.begun := Nat.ne_of_lt (sound.bound n _ releasing)
      refine ⟨peerId, own, .inr ⟨n, expired, rest, ?_⟩⟩
      exact (Function.update_of_ne other ..).trans releasing
  stale := by
    intro n task found peerId member
    rcases update_eq_some found with ⟨-, rfl⟩ | ⟨-, earlier⟩
    · cases operation with
      | applyIncomingPeerUpdate key updating => cases updating <;> cases member
      | finishPeerUpdate key => cases member
      | expireStalePeerUpdates peers => cases member
      | absorbPeerUpdateOutage hostId => cases member
      | notePeerHostReachable key => cases member
    · exact sound.stale n task earlier peerId member
  bound := by
    intro n task found
    rcases update_eq_some found with ⟨rfl, -⟩ | ⟨-, earlier⟩
    · exact Nat.lt_succ_self _
    · exact Nat.lt_succ_of_lt (sound.bound n task earlier)
  late := sound.late

/-- The step of an operation. -/
theorem Sound.call (sound : s.Sound) {n : Nat} {task : PeerTask} {now : Int}
    (held : s.tasks n = some task) (ordered : s.InOrder (.call n now)) (later : s.clock ≤ now) :
    (s.called n task now).Sound where
  held := by
    intro id row found inMaintenance
    -- The peer of a host in maintenance was updating, or its hosts are released.
    have covered : ∃ peerId, row.peerId = some peerId ∧ (s.tables.updatingUntil peerId ≠ none ∨
        ∃ m expired rest, m ≠ n ∧ s.tasks m = some (.releaseHosts peerId expired rest)) := by
      have allowed := ordered task held
      rcases PeerTask.held_call found inMaintenance with ⟨earlier, other⟩ | ⟨peerId, rfl, own⟩ |
        ⟨hostId, before, rfl, earlier, origin, peer⟩
      · obtain ⟨peerId, own, updating | ⟨m, expired, rest, releasing⟩⟩ :=
          sound.held id row earlier inMaintenance
        · exact ⟨peerId, own, .inl updating⟩
        · refine ⟨peerId, own, .inr ⟨m, expired, rest, ?_, releasing⟩⟩
          rintro rfl
          rw [held, Option.some.injEq] at releasing
          exact other peerId expired rest releasing own
      · exact ⟨peerId, own, .inl allowed⟩
      · simp only [HostStateRow.isHeld, Bool.and_eq_true, decide_eq_true_eq] at inMaintenance
        obtain ⟨peerId, own, updating⟩ := HostTables.deadlineOf_ne_none.mp
          (allowed before earlier (origin.trans inMaintenance.1))
        exact ⟨peerId, peer.symm.trans own, .inl updating⟩
    obtain ⟨peerId, own, updating | ⟨m, expired, rest, other, releasing⟩⟩ := covered
    · refine ⟨peerId, own, ?_⟩
      by_cases cleared : (task.call s.tables now).1.updatingUntil peerId = none
      · obtain ⟨expired, rest, next⟩ := PeerTask.releases_of_cleared updating cleared
        refine .inr ⟨n, expired, rest, ?_⟩
        exact (Function.update_self ..).trans next
      · exact .inl cleared
    · refine ⟨peerId, own, .inr ⟨m, expired, rest, ?_⟩⟩
      exact (Function.update_of_ne other ..).trans releasing
  stale := by
    intro m other found peerId member deadline set
    have earlier : ∀ k waiting, s.tasks k = some waiting → peerId ∈ waiting.stale →
        deadline ≤ s.clock := by
      intro k waiting waits listed
      rcases PeerTask.updatingUntil_call set with before | rfl
      · exact sound.stale k waiting waits peerId listed deadline before
      · exact absurd listed (ordered _ held k (sound.bound k waiting waits) waiting waits)
    rcases update_entry_eq_some found with ⟨-, next⟩ | ⟨-, waits⟩
    · rcases PeerTask.stale_call next member with listed | ⟨before, passed, past⟩
      · exact (earlier n task held listed).trans later
      · rcases PeerTask.updatingUntil_call set with same | rfl
        · rw [passed, Option.some.injEq] at same
          exact same ▸ past
        · cases next
          cases member
    · exact (earlier m other waits member).trans later
  bound := by
    intro m other found
    rcases update_entry_eq_some found with ⟨rfl, -⟩ | ⟨-, waits⟩
    · exact sound.bound m task held
    · exact sound.bound m other waits
  late := by
    intro deadline time member
    dsimp only [called] at member
    split at member
    · next passed expires =>
        rcases List.mem_cons.mp member with same | earlier
        · cases same
          obtain ⟨peerId, rest, rfl, set⟩ := PeerTask.expires_eq_some expires
          have listed : peerId ∈ PeerTask.stale (.clear peerId true rest) := List.mem_cons_self
          exact (sound.stale n _ held peerId listed deadline set).trans later
        · exact sound.late deadline time earlier
    · exact sound.late deadline time member

theorem Sound.step (sound : s.Sound) {e : PeerUpdateEvent} (ordered : s.InOrder e)
    (happens : s.step e = some t) : t.Sound := by
  cases e with
  | begin operation =>
      cases happens
      exact sound.begin operation
  | call n now =>
      simp only [PeerUpdateSystem.step] at happens
      split at happens
      · next task held =>
          split at happens
          · next later =>
              cases happens
              exact sound.call held ordered later
          · cases happens
      · cases happens

/-- When nothing is in progress, no hosts are about to be released. -/
theorem Sound.keepsWatch (sound : s.Sound) : s.KeepsWatch where
  notStuck := by
    intro quiet id row found held
    rw [HostTables.deadlineOf_ne_none]
    obtain ⟨peerId, own, updating | ⟨n, expired, rest, releasing⟩⟩ := sound.held id row found held
    · exact ⟨peerId, own, updating⟩
    · rw [quiet n] at releasing
      cases releasing
  late := sound.late

/-- **No host of a peer is stuck in maintenance**, and no deadline is cleared
before its time, while the operations are in order. -/
theorem keeps_watch {tables : HostTables} {clock : Int} (noneStuck : tables.NoneStuck)
    (run : Reaches step InOrder (idle tables clock) s) : s.KeepsWatch :=
  Sound.keepsWatch (run.keeps (sound_idle noneStuck clock) fun _ _ _ sound ordered happens =>
    sound.step ordered happens)

/-! A host that a peer shares. -/

def sharedHost (connectionState : HostConnectionState) : HostStateRow :=
  ⟨.peer, some "peer", ⟨connectionState, none, none, none, none, false⟩⟩

def sharedTables (deadline : Option Int) : HostTables where
  hosts := fun id => if id = "pve" then some (sharedHost .online) else none
  updatingUntil := fun id => if id = "peer" then deadline else none

theorem noneStuck_sharedTables (deadline : Option Int) : (sharedTables deadline).NoneStuck := by
  intro id row found held
  simp only [sharedTables] at found
  split at found
  · cases found
    cases held
  · cases found

/-- The state of the host, the deadline of its peer, and whether the first
operations are through. -/
def report (s : PeerUpdateSystem) : Option HostConnectionState × Option Int × Option PeerTask :=
  ((s.tables.hosts "pve").map (·.status.connectionState), s.tables.updatingUntil "peer",
    s.tasks 0 <|> s.tasks 1)

/-- An update is announced, found to be stale, and announced again. -/
theorem keeps_watch_announced :
    ∃ s, Reaches step InOrder (idle (sharedTables none) 0) s ∧
      s.report = (some .maintenance, some 2600000, none) ∧ s.KeepsWatch := by
  have ends : (exec (guarded step InOrder) (idle (sharedTables none) 0)
      [.begin (.applyIncomingPeerUpdate "peer" true), .call 0 0, .call 0 1,
        .begin (.expireStalePeerUpdates ["peer"]), .call 1 1200000, .call 1 1200001,
        .call 1 1200002, .begin (.applyIncomingPeerUpdate "peer" true), .call 2 1400000,
        .call 2 1400001]).map report = some (some .maintenance, some 2600000, none) := by
    decide
  obtain ⟨s, done, reported⟩ := Option.map_eq_some_iff.mp ends
  have run := reaches_of_guarded done
  exact ⟨s, run, reported, keeps_watch (noneStuck_sharedTables none) run⟩

/-- The end of the update comes between the two writes of its announcement; and
an announcement comes after the list of the stale peers and before the write. -/
theorem late_hold_sticks :
    (∃ s, Reaches step Unrestricted (idle (sharedTables none) 0) s ∧
      ¬((∀ n, s.tasks n = none) → s.tables.NoneStuck)) ∧
    ∃ s, Reaches step Unrestricted (idle (sharedTables (some 5)) 6) s ∧
      ¬∀ deadline now, (deadline, now) ∈ s.expired → deadline ≤ now := by
  constructor
  · have done : exec step (idle (sharedTables none) 0)
        [.begin (.applyIncomingPeerUpdate "peer" true), .call 0 0,
          .begin (.applyIncomingPeerUpdate "peer" false), .call 1 1, .call 1 2, .call 0 3] =
        some _ := rfl
    refine ⟨_, reaches_of_exec done, fun watch => ?_⟩
    have noneStuck := watch fun n => match n with
      | 0 => rfl
      | 1 => rfl
      | _ + 2 => rfl
    exact noneStuck "pve" _ rfl rfl rfl
  · have ends : (exec step (idle (sharedTables (some 5)) 6)
        [.begin (.expireStalePeerUpdates ["peer"]), .call 0 6,
          .begin (.applyIncomingPeerUpdate "peer" true), .call 1 7, .call 0 8]).map (·.expired) =
        some [(1200007, 8)] := by
      decide
    obtain ⟨s, done, expired⟩ := Option.map_eq_some_iff.mp ends
    refine ⟨s, reaches_of_exec done, fun late => ?_⟩
    have passed : (1200007 : Int) ≤ 8 := late _ _ (by rw [expired]; exact List.mem_cons_self)
    omega

end PeerUpdateSystem

end Proxora
