import Proxora.HostRemoval
import Proxora.Runs

/-!
# The state of a host

The writers of `connectionState`: `probeAllHosts`, `testHost`, `withHostClient`
and `setHostState` of `server/services/host-service.ts`, with what they call of
`server/services/peer-update.ts`.  A probe, a test and a request each read the
row of their host when they begin and write a verdict when they end; both are
events, so anything can happen between them.

`maintenance_sticks` says when a local host stays in the maintenance that an
operator has set: the exceptions are the verdict of a test and that of a probe
or request that read the row before.
-/

namespace Proxora

open Runs

inductive HostConnectionState : Type
  | online | offline | connecting | error | maintenance
deriving DecidableEq, Repr

/-- The columns of a `Host` row that a verdict writes. -/
structure HostStatus where
  connectionState : HostConnectionState
  lastSeenAt : Option Int
  lastError : Option String
  proxmoxVersion : Option String
  clusterName : Option String
  isClusterMember : Bool
deriving DecidableEq, Repr

structure HostStateRow where
  origin : HostOrigin
  peerId : Option String
  status : HostStatus
deriving DecidableEq, Repr

/-- The hosts by id, and `updatingUntil` of the peers. -/
structure HostTables where
  hosts : String → Option HostStateRow
  updatingUntil : String → Option Int

structure TestedCluster where
  isCluster : Bool
  name : Option String
deriving DecidableEq, Repr

/-- `ConnectionTestResult`, as far as it is written. -/
structure ConnectionTestResult where
  ok : Bool
  version : Option String
  cluster : Option TestedCluster
  error : Option String
deriving DecidableEq, Repr

namespace HostTables

/-- `prisma.host.update` and `prisma.host.updateMany`. -/
def updateHosts (t : HostTables) (which : String → HostStateRow → Bool)
    (data : HostStatus → HostStatus) : HostTables :=
  { t with
    hosts := fun id =>
      (t.hosts id).map fun row =>
        if which id row then { row with status := data row.status } else row }

/-- `where: { id }`. -/
def updateHost (t : HostTables) (id : String) (data : HostStatus → HostStatus) : HostTables :=
  t.updateHosts (fun key _ => key = id) data

def getHostOrThrow (t : HostTables) (id : String) (user : SessionUser) :
    Except AppError HostStateRow :=
  match t.hosts id with
  | none => .error (notFoundError "Host not found")
  | some row =>
      if !canAccessHost user.toAccessScope id then .error (notFoundError "Host not found")
      else .ok row

/-! ## Updates of a peer -/

def peerUpdateTtlMs : Int := 20 * 60 * 1000

def peerUpdateLastError : String := "Proxora update in progress"

def isPeerUpdating (updatingUntil : Option Int) (now : Int) : Bool :=
  match updatingUntil with
  | some deadline => deadline > now
  | none => false

def setUpdatingUntil (t : HostTables) (peerId : String) (deadline : Option Int) : HostTables :=
  { t with updatingUntil := Function.update t.updatingUntil peerId deadline }

def finishPeerUpdate (t : HostTables) (peerId : String) (expired : Bool) : HostTables :=
  match t.updatingUntil peerId with
  | none => t
  | some _ =>
      (t.setUpdatingUntil peerId none).updateHosts
        (fun _ row => row.peerId = some peerId && row.origin = .peer &&
          row.status.connectionState = .maintenance)
        fun status =>
          if expired then
            { status with
              connectionState := .error
              lastError := some "Peer did not return after Proxora update" }
          else { status with connectionState := .connecting, lastError := none }

def applyIncomingPeerUpdate (t : HostTables) (peerId : String) (updating : Bool) (now : Int) :
    HostTables :=
  if updating then
    (t.setUpdatingUntil peerId (some (now + peerUpdateTtlMs))).updateHosts
      (fun _ row => row.peerId = some peerId && row.origin = .peer)
      fun status =>
        { status with connectionState := .maintenance, lastError := some peerUpdateLastError }
  else t.finishPeerUpdate peerId false

/-- What `expireStalePeerUpdates` does for one peer. -/
def expireStalePeerUpdate (t : HostTables) (peerId : String) (now : Int) : HostTables :=
  match t.updatingUntil peerId with
  | some deadline => if deadline ≤ now then t.finishPeerUpdate peerId true else t
  | none => t

/-- The tables after it, and whether the failure is put down to an update. -/
def absorbPeerUpdateOutage (t : HostTables) (hostId : String) (now : Int) : HostTables × Bool :=
  match t.hosts hostId with
  | some ⟨.peer, some peerId, status⟩ =>
      if !isPeerUpdating (t.updatingUntil peerId) now then (t, false)
      else if status.connectionState = .maintenance then (t, true)
      else
        (t.updateHost hostId fun status =>
          { status with connectionState := .maintenance, lastError := some peerUpdateLastError },
          true)
  | _ => (t, false)

def notePeerHostReachable (t : HostTables) (peerId : Option String) : HostTables :=
  match peerId with
  | some peerId => t.finishPeerUpdate peerId false
  | none => t

/-! ## Verdicts -/

/-- `absorbPeerUpdateOutage`, else the state `ERROR`. -/
def noteFailure (t : HostTables) (hostId message : String) (now : Int) : HostTables :=
  match t.absorbPeerUpdateOutage hostId now with
  | (t, true) => t
  | (t, false) =>
      t.updateHost hostId fun status =>
        { status with connectionState := .error, lastError := some message }

def applyTestResult (t : HostTables) (hostId : String) (result : ConnectionTestResult)
    (now : Int) : HostTables :=
  if result.ok then
    let written := t.updateHost hostId fun status =>
      { connectionState := .online
        lastSeenAt := some now
        lastError := none
        proxmoxVersion := result.version <|> status.proxmoxVersion
        clusterName := result.cluster.bind (·.name)
        isClusterMember := (result.cluster.map (·.isCluster)).getD false }
    match t.hosts hostId with
    | some ⟨.peer, peerId, _⟩ => written.notePeerHostReachable peerId
    | _ => written
  else t.noteFailure hostId (result.error.getD "Connection failed") now

end HostTables

/-- What a probe, a test or a request ends with: the result of
`testConnection`, the answer of the callback, or an error, which may be an
`isHostTransportFailure`. -/
inductive HostOutcome : Type
  | tested (result : ConnectionTestResult)
  | answered
  | failed (message : String) (transport : Bool)
deriving DecidableEq, Repr

inductive HostTaskKind : Type
  | probe | test | request
deriving DecidableEq, Repr

/-- A probe, a test or a request under way: the row it has read, and how often
an operator had set the state of the host by then. -/
structure HostTask where
  kind : HostTaskKind
  hostId : String
  host : HostStateRow
  period : Nat
deriving DecidableEq, Repr

namespace HostTask

/-- `probeAllHosts`, for one host. -/
def probe (task : HostTask) (t : HostTables) (now : Int) : HostOutcome → HostTables
  | .tested result =>
      if task.host.status.connectionState = .maintenance then t
      else t.applyTestResult task.hostId result now
  | .failed message _ =>
      if task.host.status.connectionState = .maintenance then t
      else t.noteFailure task.hostId message now
  | .answered => t

/-- `testHost`. -/
def test (task : HostTask) (t : HostTables) (now : Int) : HostOutcome → HostTables
  | .tested result => t.applyTestResult task.hostId result now
  | .failed _ _ | .answered => t

/-- `withHostClient`. -/
def request (task : HostTask) (t : HostTables) (now : Int) : HostOutcome → HostTables
  | .answered =>
      if task.host.status.connectionState ≠ .online &&
          task.host.status.connectionState ≠ .maintenance then
        t.updateHost task.hostId fun status =>
          { status with connectionState := .online, lastSeenAt := some now, lastError := none }
      else t
  | .failed message transport =>
      if !transport then t
      else if task.host.status.connectionState ≠ .maintenance then
        t.noteFailure task.hostId message now
      else t
  | .tested _ => t

def report (task : HostTask) (t : HostTables) (now : Int) (outcome : HostOutcome) : HostTables :=
  match task.kind with
  | .probe => task.probe t now outcome
  | .test => task.test t now outcome
  | .request => task.request t now outcome

/-- Whether the task writes for this outcome, going by the row it has read. -/
def writes (task : HostTask) (outcome : HostOutcome) : Bool :=
  match task.kind, outcome with
  | .probe, .tested _ | .probe, .failed _ _ => task.host.status.connectionState ≠ .maintenance
  | .test, .tested _ => true
  | .request, .answered =>
      task.host.status.connectionState ≠ .online &&
        task.host.status.connectionState ≠ .maintenance
  | .request, .failed _ transport =>
      transport && task.host.status.connectionState ≠ .maintenance
  | .probe, .answered | .test, .answered | .test, .failed _ _ | .request, .tested _ => false

end HostTask

/-- The tables and the tasks under way, with what the operators have set: for
which hosts it was `MAINTENANCE` last, and how often they have set it. -/
structure HostSystem where
  tables : HostTables
  tasks : Nat → Option HostTask
  begun : Nat
  maintained : String → Bool
  period : String → Nat

inductive HostEvent : Type
  | probe (hostId : String)
  | test (hostId : String) (user : SessionUser)
  | request (hostId : String) (user : SessionUser)
  | report (task : Nat) (outcome : HostOutcome) (now : Int)
  | setHostState (id : String) (maintenance : Bool) (user : SessionUser)
  | peerUpdate (peerId : String) (updating : Bool) (now : Int)
  | expireStalePeerUpdate (peerId : String) (now : Int)

namespace HostSystem

/-- No task under way, and no word of an operator yet. -/
def idle (tables : HostTables) : HostSystem where
  tables := tables
  tasks := fun _ => none
  begun := 0
  maintained := fun _ => false
  period := fun _ => 0

/-- A task begins with the row it reads. -/
def begin (s : HostSystem) (kind : HostTaskKind) (hostId : String) (host : HostStateRow) :
    HostSystem :=
  { s with
    tasks := Function.update s.tasks s.begun (some ⟨kind, hostId, host, s.period hostId⟩)
    begun := s.begun + 1 }

/-- What `setHostState` writes. -/
def settle (s : HostSystem) (id : String) (maintenance : Bool) : HostSystem :=
  { s with
    tables := s.tables.updateHost id fun status =>
      { status with
        connectionState := if maintenance then .maintenance else .connecting
        lastError := none }
    maintained := Function.update s.maintained id maintenance
    period := Function.update s.period id (s.period id + 1) }

/-- `setHostState` up to the test that ends a maintenance, which is an event of
its own. -/
def setHostState (s : HostSystem) (id : String) (maintenance : Bool) (user : SessionUser) :
    Except AppError HostSystem := do
  let host ← s.tables.getHostOrThrow id user
  assertLocalHost ⟨id, host.origin, host.peerId, none⟩
  return s.settle id maintenance

def step (s : HostSystem) : HostEvent → Option HostSystem
  | .probe hostId => (s.tables.hosts hostId).map fun host => s.begin .probe hostId host
  | .test hostId user =>
      match s.tables.getHostOrThrow hostId user with
      | .ok host => some (s.begin .test hostId host)
      | .error _ => none
  | .request hostId user =>
      match s.tables.getHostOrThrow hostId user with
      | .ok host => some (s.begin .request hostId host)
      | .error _ => none
  | .report n outcome now =>
      match s.tasks n with
      | some task =>
          some { s with
            tables := task.report s.tables now outcome
            tasks := Function.update s.tasks n none }
      | none => none
  | .setHostState id maintenance user =>
      match s.setHostState id maintenance user with
      | .ok after => some after
      | .error _ => none
  | .peerUpdate peerId updating now =>
      some { s with tables := s.tables.applyIncomingPeerUpdate peerId updating now }
  | .expireStalePeerUpdate peerId now =>
      some { s with tables := s.tables.expireStalePeerUpdate peerId now }

end HostSystem

/-! ## Local hosts that a writer leaves alone -/

/-- The host, if it is a local one, has the same row in both. -/
def HostTables.Leaves (id : String) (t u : HostTables) : Prop :=
  ∀ after, u.hosts id = some after →
    ∃ before, t.hosts id = some before ∧ (before.origin = .localHost → after = before)

namespace HostTables

variable {t u v : HostTables} {id hostId peerId : String} {now : Int}

theorem Leaves.refl : Leaves id t t := fun after held => ⟨after, held, fun _ => rfl⟩

theorem Leaves.trans (first : Leaves id t u) (second : Leaves id u v) : Leaves id t v := by
  intro after held
  obtain ⟨middle, held, later⟩ := second after held
  obtain ⟨before, held, sooner⟩ := first middle held
  refine ⟨before, held, fun locally => ?_⟩
  have same : middle = before := sooner locally
  exact (later (same ▸ locally)).trans same

theorem leaves_updateHosts {which : String → HostStateRow → Bool}
    {data : HostStatus → HostStatus}
    (spared : ∀ row, t.hosts id = some row → row.origin = .localHost → which id row = false) :
    Leaves id t (t.updateHosts which data) := by
  intro after held
  obtain ⟨before, found, same⟩ := Option.map_eq_some_iff.mp held
  refine ⟨before, found, fun locally => ?_⟩
  rw [spared before found locally] at same
  exact same.symm

theorem leaves_updateHost {data : HostStatus → HostStatus} (other : id ≠ hostId) :
    Leaves id t (t.updateHost hostId data) := by
  apply leaves_updateHosts
  intro row found locally
  exact decide_eq_false other

theorem leaves_finishPeerUpdate {expired : Bool} :
    Leaves id t (t.finishPeerUpdate peerId expired) := by
  unfold finishPeerUpdate
  split
  · exact Leaves.refl
  · refine Leaves.trans (u := t.setUpdatingUntil peerId none) Leaves.refl (leaves_updateHosts ?_)
    intro row found locally
    simp [locally]

theorem leaves_applyIncomingPeerUpdate {updating : Bool} :
    Leaves id t (t.applyIncomingPeerUpdate peerId updating now) := by
  unfold applyIncomingPeerUpdate
  split
  · refine Leaves.trans (u := t.setUpdatingUntil peerId _) Leaves.refl (leaves_updateHosts ?_)
    intro row found locally
    simp [locally]
  · exact leaves_finishPeerUpdate

theorem leaves_expireStalePeerUpdate : Leaves id t (t.expireStalePeerUpdate peerId now) := by
  unfold expireStalePeerUpdate
  split
  · split
    · exact leaves_finishPeerUpdate
    · exact Leaves.refl
  · exact Leaves.refl

/-- Only a row of a peer is absorbed. -/
theorem leaves_absorbPeerUpdateOutage :
    Leaves id t (t.absorbPeerUpdateOutage hostId now).1 := by
  unfold absorbPeerUpdateOutage
  split
  · next peerId status held =>
      split
      · exact Leaves.refl
      · split
        · exact Leaves.refl
        · dsimp only
          apply leaves_updateHosts
          intro row found locally
          apply decide_eq_false
          rintro rfl
          rw [held, Option.some.injEq] at found
          rw [← found] at locally
          cases locally
  · exact Leaves.refl

theorem leaves_noteFailure {message : String} (other : id ≠ hostId) :
    Leaves id t (t.noteFailure hostId message now) := by
  have absorbed : Leaves id t (t.absorbPeerUpdateOutage hostId now).1 :=
    leaves_absorbPeerUpdateOutage
  unfold noteFailure
  split
  · next held =>
      rw [held] at absorbed
      exact absorbed
  · next held =>
      rw [held] at absorbed
      exact absorbed.trans (leaves_updateHost other)

theorem leaves_notePeerHostReachable {peerId : Option String} :
    Leaves id t (t.notePeerHostReachable peerId) := by
  unfold notePeerHostReachable
  split
  · exact leaves_finishPeerUpdate
  · exact Leaves.refl

theorem leaves_applyTestResult {result : ConnectionTestResult} (other : id ≠ hostId) :
    Leaves id t (t.applyTestResult hostId result now) := by
  unfold applyTestResult
  split
  · dsimp only
    split
    · exact (leaves_updateHost other).trans leaves_notePeerHostReachable
    · exact leaves_updateHost other
  · exact leaves_noteFailure other

end HostTables

namespace HostTask

open HostTables

variable {task : HostTask} {t : HostTables} {outcome : HostOutcome} {now : Int} {id : String}

/-- A verdict is about the host of the task. -/
theorem leaves_report_other (other : id ≠ task.hostId) :
    Leaves id t (task.report t now outcome) := by
  unfold report
  split
  · unfold probe
    split
    · split
      · exact Leaves.refl
      · exact leaves_applyTestResult other
    · split
      · exact Leaves.refl
      · exact leaves_noteFailure other
    · exact Leaves.refl
  · unfold test
    split
    · exact leaves_applyTestResult other
    · exact Leaves.refl
    · exact Leaves.refl
  · unfold request
    split
    · split
      · exact leaves_updateHost other
      · exact Leaves.refl
    · split
      · exact Leaves.refl
      · split
        · exact leaves_noteFailure other
        · exact Leaves.refl
    · exact Leaves.refl

theorem report_of_not_writes (quiet : task.writes outcome = false) :
    task.report t now outcome = t := by
  cases kind : task.kind <;> cases outcome <;>
    simp_all [report, writes, probe, test, request]

end HostTask

/-! ## Maintenance -/

namespace HostSystem

variable {s t : HostSystem} {id : String}

/-- A host that an operator has set to `MAINTENANCE` and not taken out of it is
in that state. -/
def MaintenanceSticks (s : HostSystem) : Prop :=
  ∀ id row, s.tables.hosts id = some row → s.maintained id = true →
    row.status.connectionState = .maintenance

/-- While its host is in maintenance, only a probe or a request that began in
that maintenance reports what it would write. -/
def ReportsInTime (s : HostSystem) : HostEvent → Prop
  | .report n outcome _ => ∀ task ∈ s.tasks n, s.maintained task.hostId = true →
      task.writes outcome = true → task.kind ≠ .test ∧ task.period = s.period task.hostId
  | _ => True

instance : ∀ (s : HostSystem) e, Decidable (s.ReportsInTime e)
  | s, .report n outcome _ =>
      inferInstanceAs (Decidable (∀ task ∈ s.tasks n, s.maintained task.hostId = true →
        task.writes outcome = true → task.kind ≠ .test ∧ task.period = s.period task.hostId))
  | _, .probe _ | _, .test _ _ | _, .request _ _ | _, .setHostState _ _ _ | _, .peerUpdate _ _ _
  | _, .expireStalePeerUpdate _ _ => inferInstanceAs (Decidable True)

/-- The invariant.  A task of this maintenance has read that its host is in
maintenance. -/
structure Sound (s : HostSystem) : Prop where
  held : ∀ id row, s.tables.hosts id = some row → s.maintained id = true →
    row.origin = .localHost ∧ row.status.connectionState = .maintenance
  read : ∀ n task, s.tasks n = some task → s.maintained task.hostId = true →
    task.period = s.period task.hostId → task.host.status.connectionState = .maintenance
  past : ∀ n task, s.tasks n = some task → task.period ≤ s.period task.hostId

theorem sound_idle (tables : HostTables) : (idle tables).Sound where
  held := by
    intro id row _ maintained
    cases maintained
  read := by
    intro n task held
    cases held
  past := by
    intro n task held
    cases held

/-- The tables change, but for no host in maintenance. -/
theorem Sound.tables (sound : s.Sound) {tables : HostTables}
    (leaves : ∀ id, s.maintained id = true → HostTables.Leaves id s.tables tables) :
    Sound { s with tables := tables } where
  held := by
    intro id row found maintained
    obtain ⟨before, earlier, same⟩ := leaves id maintained row found
    have kept := sound.held id before earlier maintained
    rw [same kept.1]
    exact kept
  read := sound.read
  past := sound.past

theorem Sound.begin (sound : s.Sound) {kind : HostTaskKind} {hostId : String}
    {host : HostStateRow} (found : s.tables.hosts hostId = some host) :
    (s.begin kind hostId host).Sound where
  held := sound.held
  read := by
    intro n task held maintained current
    rcases update_eq_some held with ⟨-, rfl⟩ | ⟨-, earlier⟩
    · exact (sound.held hostId host found maintained).2
    · exact sound.read n task earlier maintained current
  past := by
    intro n task held
    rcases update_eq_some held with ⟨-, rfl⟩ | ⟨-, earlier⟩
    · exact Nat.le_refl _
    · exact sound.past n task earlier

theorem Sound.ends (sound : s.Sound) (n : Nat) :
    Sound { s with tasks := Function.update s.tasks n none } where
  held := sound.held
  read := fun m task held => sound.read m task (update_none_eq_some held).2
  past := fun m task held => sound.past m task (update_none_eq_some held).2

/-- A probe or a request of this maintenance writes nothing. -/
theorem Sound.not_writes (sound : s.Sound) {n : Nat} {task : HostTask} {outcome : HostOutcome}
    {now : Int} (held : s.tasks n = some task) (inTime : s.ReportsInTime (.report n outcome now))
    (maintained : s.maintained task.hostId = true) : task.writes outcome = false := by
  by_contra writes
  rw [Bool.not_eq_false] at writes
  obtain ⟨other, current⟩ := inTime task held maintained writes
  have read := sound.read n task held maintained current
  cases kind : task.kind <;> cases outcome <;> simp_all [HostTask.writes]

theorem Sound.report (sound : s.Sound) {n : Nat} {task : HostTask} {outcome : HostOutcome}
    {now : Int} (held : s.tasks n = some task)
    (inTime : s.ReportsInTime (.report n outcome now)) :
    Sound { s with tables := task.report s.tables now outcome } := by
  refine sound.tables ?_
  intro id maintained
  by_cases same : id = task.hostId
  · rw [HostTask.report_of_not_writes (sound.not_writes held inTime (same ▸ maintained))]
    exact HostTables.Leaves.refl
  · exact HostTask.leaves_report_other same

theorem getHostOrThrow_eq_ok {t : HostTables} {user : SessionUser} {row : HostStateRow}
    (found : t.getHostOrThrow id user = .ok row) : t.hosts id = some row := by
  unfold HostTables.getHostOrThrow at found
  split at found
  · cases found
  · next held =>
      split at found
      · cases found
      · cases found
        exact held

/-- An operator sets the state of a local host, and of no other. -/
theorem setHostState_eq_ok {maintenance : Bool} {user : SessionUser}
    (done : s.setHostState id maintenance user = .ok t) :
    (∃ host, s.tables.hosts id = some host ∧ host.origin = .localHost) ∧
      t = s.settle id maintenance := by
  unfold HostSystem.setHostState at done
  cases found : s.tables.getHostOrThrow id user with
  | error e =>
      rw [found] at done
      cases done
  | ok host =>
      rw [found] at done
      cases origin : host.origin with
      | peer =>
          simp [bind, Except.bind, assertLocalHost, origin] at done
      | localHost =>
          simp only [bind, Except.bind, assertLocalHost, origin, reduceCtorEq, if_false] at done
          cases done
          exact ⟨⟨host, getHostOrThrow_eq_ok found, origin⟩, rfl⟩

theorem Sound.settle (sound : s.Sound) {maintenance : Bool}
    (own : ∃ host, s.tables.hosts id = some host ∧ host.origin = .localHost) :
    (s.settle id maintenance).Sound where
  held := by
    intro key row found maintained
    by_cases same : key = id
    · obtain ⟨host, held, origin⟩ := own
      have written : maintenance = true := by
        rw [same] at maintained
        exact (Function.update_self ..).symm.trans maintained
      rw [same] at found
      simp only [HostSystem.settle, HostTables.updateHost, HostTables.updateHosts, held, written,
        Option.map_some, decide_true, if_true, Option.some.injEq] at found
      rw [← found]
      exact ⟨origin, rfl⟩
    · have before : s.maintained key = true := (Function.update_of_ne same ..).symm.trans maintained
      have leaves : HostTables.Leaves key s.tables (s.settle id maintenance).tables := by
        dsimp only [HostSystem.settle]
        exact HostTables.leaves_updateHost same
      obtain ⟨earlier, held, alike⟩ := leaves row found
      have kept := sound.held key earlier held before
      rw [alike kept.1]
      exact kept
  read := by
    intro n task held maintained current
    by_cases same : task.hostId = id
    · have renewed : task.period = s.period id + 1 := by
        rw [same] at current
        exact current.trans (Function.update_self ..)
      have past := sound.past n task held
      rw [same] at past
      omega
    · exact sound.read n task held ((Function.update_of_ne same ..).symm.trans maintained)
        (current.trans (Function.update_of_ne same ..))
  past := by
    intro n task held
    have past := sound.past n task held
    by_cases same : task.hostId = id
    · have renewed : (s.settle id maintenance).period id = s.period id + 1 :=
        Function.update_self ..
      rw [same] at past ⊢
      rw [renewed]
      exact Nat.le_succ_of_le past
    · exact past.trans (Function.update_of_ne same ..).ge

theorem Sound.step (sound : s.Sound) {e : HostEvent} (inTime : s.ReportsInTime e)
    (happens : s.step e = some t) : t.Sound := by
  cases e with
  | probe hostId =>
      obtain ⟨host, found, rfl⟩ := Option.map_eq_some_iff.mp happens
      exact sound.begin found
  | test hostId user =>
      simp only [HostSystem.step] at happens
      split at happens
      · next host found =>
          cases happens
          exact sound.begin (getHostOrThrow_eq_ok found)
      · cases happens
  | request hostId user =>
      simp only [HostSystem.step] at happens
      split at happens
      · next host found =>
          cases happens
          exact sound.begin (getHostOrThrow_eq_ok found)
      · cases happens
  | report n outcome now =>
      simp only [HostSystem.step] at happens
      split at happens
      · next task held =>
          cases happens
          exact (sound.report held inTime).ends n
      · cases happens
  | setHostState id maintenance user =>
      simp only [HostSystem.step] at happens
      split at happens
      · next after done =>
          cases happens
          obtain ⟨own, rfl⟩ := setHostState_eq_ok done
          exact sound.settle own
      · cases happens
  | peerUpdate peerId updating now =>
      cases happens
      exact sound.tables fun _ _ => HostTables.leaves_applyIncomingPeerUpdate
  | expireStalePeerUpdate peerId now =>
      cases happens
      exact sound.tables fun _ _ => HostTables.leaves_expireStalePeerUpdate

/-- **Maintenance sticks** when every verdict is in time. -/
theorem maintenance_sticks (tables : HostTables) {s : HostSystem}
    (run : Reaches HostSystem.step ReportsInTime (idle tables) s) : s.MaintenanceSticks := by
  have sound : s.Sound :=
    run.keeps (sound_idle tables) fun _ _ _ sound inTime happens => sound.step inTime happens
  intro id row found maintained
  exact (sound.held id row found maintained).2

/-! An operator sets a host to maintenance while a request is on its way to it. -/

def operator : SessionUser where
  allowedHostIds := none
  allowedGuests := none
  id := "admin"
  rolePermissions := ["*"]
  hostPermissions := none
  guestPermissions := none

def offlineHost : HostStateRow where
  origin := .localHost
  peerId := none
  status := ⟨.offline, none, none, none, none, false⟩

def oneHost : HostTables where
  hosts := fun id => if id = "pve" then some offlineHost else none
  updatingUntil := fun _ => none

/-- The state of the host, and whether it is to stay in maintenance. -/
def shown (s : HostSystem) : Option HostConnectionState × Bool :=
  ((s.tables.hosts "pve").map (·.status.connectionState), s.maintained "pve")

/-- A request and a probe that begin in the maintenance report in it. -/
theorem maintenance_sticks_reported :
    ∃ s, Reaches HostSystem.step ReportsInTime (idle oneHost) s ∧
      s.shown = (some .maintenance, true) ∧ s.MaintenanceSticks := by
  have ends : (exec (guarded HostSystem.step ReportsInTime) (idle oneHost)
      [.setHostState "pve" true operator, .request "pve" operator, .probe "pve",
        .report 0 .answered 5, .report 1 (.failed "timeout" true) 6]).map shown =
          some (some .maintenance, true) := by
    decide
  obtain ⟨s, done, stays⟩ := Option.map_eq_some_iff.mp ends
  have run := reaches_of_guarded done
  exact ⟨s, run, stays, maintenance_sticks oneHost run⟩

/-- The answer of a request that has read the host as offline. -/
theorem late_answer_ends_maintenance :
    ∃ s, Reaches HostSystem.step Unrestricted (idle oneHost) s ∧ ¬s.MaintenanceSticks := by
  have ends : (exec HostSystem.step (idle oneHost)
      [.request "pve" operator, .setHostState "pve" true operator,
        .report 0 .answered 5]).map shown = some (some .online, true) := by
    decide
  obtain ⟨s, done, left⟩ := Option.map_eq_some_iff.mp ends
  obtain ⟨online, maintained⟩ := Prod.mk.inj left
  obtain ⟨row, found, state⟩ := Option.map_eq_some_iff.mp online
  refine ⟨s, reaches_of_exec done, ?_⟩
  intro sticks
  rw [sticks "pve" row found maintained] at state
  cases state

end HostSystem

end Proxora
