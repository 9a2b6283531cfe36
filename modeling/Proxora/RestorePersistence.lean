import Proxora.Ecma.Json
import Proxora.Ecma.Maps
import Proxora.RestoreJobs
import Proxora.WriteChain

/-!
# The stored restore jobs

`server/services/restore-jobs.ts` once more, now with the value that `writeJobs` puts into the
setting and `parseStored` reads back: the optional fields, the order of the map, the objects that
the workers mutate in place, and the stretches of code between two `await`s. What the calls to a
host answer is left open.

Every change of a job queues a write at once, except in `resumeRestoreJobs`: it takes up rows and
marks jobs whose user is gone, waits for the next user, and writes when it is done; when a lookup
fails, it never writes. `restoreJobs_converge` is about the runs in which this does not show.
-/

namespace Proxora.RestorePersistence

open Ecma Runs WriteChain

/-! ## Jobs and their rows -/

structure RestoreInput where
  userId : Text
  hostId : Text
  hostName : Text
  node : Text
  volid : Text
  vmid : Nat
  storage : Text
  force : Option Bool
  startAfter : Option Bool
  name : Option Text
deriving DecidableEq

/-- The action restore has parsed its body; the user and the host are rows of the database, whose
ids are not empty. -/
def RestoreInput.accepted (input : RestoreInput) : Bool :=
  input.userId ≠ [] && input.hostId ≠ [] && input.node ≠ [] && input.volid ≠ [] &&
    0 < input.vmid && input.storage ≠ []

structure RestoreJob extends RestoreInput where
  id : Text
  phase : RestorePhase
  upid : Option Text
  error : Option Text
  attempt : Nat
  startedAt : Nat
  errorAt : Option Nat
deriving DecidableEq

/-- The job that `enqueueRestoreJob` makes. -/
def newRestoreJob (id : Text) (input : RestoreInput) (now : Nat) : RestoreJob where
  toRestoreInput := input
  id := id
  phase := .stopping
  upid := none
  error := none
  attempt := 1
  startedAt := now
  errorAt := none

/-- The error noted in the job. -/
def RestoreJob.failed (job : RestoreJob) (message : Text) (now : Nat) : RestoreJob :=
  { job with phase := .error, error := some message, errorAt := some now }

/-- A failed job that is too old to be shown again. -/
def RestoreJob.isExpired (job : RestoreJob) (now : Nat) : Bool :=
  job.phase = .error && now - job.errorAt.getD job.startedAt > errorTtlMs

def phaseText : RestorePhase → Text
  | .stopping => "stopping"
  | .running => "running"
  | .error => "error"

/-- The literal of `storedJob`. -/
def storedProperties (job : RestoreJob) : List (Text × Option (Json Text Nat)) :=
  [("id", some (.str job.id)),
   ("userId", some (.str job.userId)),
   ("hostId", some (.str job.hostId)),
   ("hostName", some (.str job.hostName)),
   ("node", some (.str job.node)),
   ("volid", some (.str job.volid)),
   ("vmid", some (.num job.vmid)),
   ("storage", some (.str job.storage)),
   ("force", job.force.map .bool),
   ("startAfter", job.startAfter.map .bool),
   ("name", job.name.map .str),
   ("phase", some (.str (phaseText job.phase))),
   ("upid", job.upid.map .str),
   ("error", job.error.map .str),
   ("attempt", some (.num job.attempt)),
   ("startedAt", some (.num job.startedAt)),
   ("errorAt", job.errorAt.map .num)]

/-- A row of the setting, as the database has it. -/
def storedJob (job : RestoreJob) : Json Text Nat := .ofProperties (storedProperties job)

/-- The value of the setting `restore.jobs.v1`, if there is a row. -/
abbrev Setting := Option (Json Text Nat)

/-! A field of a row has the type that `Partial<RestoreJob>` gives it: nothing else writes the
setting. -/

def textField (row : Json Text Nat) (name : Text) : Option Text :=
  match row.member name with
  | some (.str s) => some s
  | _ => none

def flagField (row : Json Text Nat) (name : Text) : Option Bool :=
  match row.member name with
  | some (.bool b) => some b
  | _ => none

def numberField (row : Json Text Nat) (name : Text) : Option Nat :=
  match row.member name with
  | some (.num n) => some n
  | _ => none

/-- A field without which the row is dropped. -/
def requiredField (row : Json Text Nat) (name : Text) : Option Text :=
  presentText (textField row name)

def phaseField (row : Json Text Nat) : Option RestorePhase :=
  (textField row "phase").bind fun phase =>
    [.stopping, .running, .error].find? fun known => phaseText known = phase

/-- What `parseStored` makes of a row. -/
def parseRow (now : Nat) (row : Json Text Nat) : Option RestoreJob :=
  if !row.isObject then none
  else do
    let id ← requiredField row "id"
    let userId ← requiredField row "userId"
    let hostId ← requiredField row "hostId"
    let node ← requiredField row "node"
    let volid ← requiredField row "volid"
    let storage ← requiredField row "storage"
    let phase ← phaseField row
    let vmid ← numberField row "vmid"
    return {
      id := id
      userId := userId
      hostId := hostId
      hostName := (textField row "hostName").getD []
      node := node
      volid := volid
      vmid := vmid
      storage := storage
      force := flagField row "force"
      startAfter := flagField row "startAfter"
      name := textField row "name"
      phase := phase
      upid := textField row "upid"
      error := textField row "error"
      attempt := (numberField row "attempt").getD 1
      startedAt := (numberField row "startedAt").getD now
      errorAt := numberField row "errorAt" }

def parseStored (value : Setting) (now : Nat) : List RestoreJob :=
  match value with
  | some (.arr rows) => rows.filterMap (parseRow now)
  | _ => []

/-- What `parseStored` asks of a job. -/
structure RestoreJob.Storable (job : RestoreJob) : Prop where
  id : job.id ≠ []
  userId : job.userId ≠ []
  hostId : job.hostId ≠ []
  node : job.node ≠ []
  volid : job.volid ≠ []
  storage : job.storage ≠ []

theorem storable_newRestoreJob {id : Text} (named : id ≠ []) {input : RestoreInput}
    (accepted : input.accepted = true) (now : Nat) : (newRestoreJob id input now).Storable := by
  simp only [RestoreInput.accepted, Bool.and_eq_true, decide_eq_true_eq] at accepted
  obtain ⟨⟨⟨⟨⟨userId, hostId⟩, node⟩, volid⟩, -⟩, storage⟩ := accepted
  exact ⟨named, userId, hostId, node, volid, storage⟩

theorem requiredField_ne {row : Json Text Nat} {name s : Text}
    (found : requiredField row name = some s) : s ≠ [] := by
  simpa using (Option.filter_eq_some_iff.mp found).2

/-- What is read can be stored. -/
theorem storable_of_parseRow {row : Json Text Nat} {now : Nat} {job : RestoreJob}
    (read : parseRow now row = some job) : job.Storable := by
  unfold parseRow at read
  split at read
  · cases read
  · obtain ⟨id, hasId, read⟩ := Option.bind_eq_some_iff.mp read
    obtain ⟨userId, hasUser, read⟩ := Option.bind_eq_some_iff.mp read
    obtain ⟨hostId, hasHost, read⟩ := Option.bind_eq_some_iff.mp read
    obtain ⟨node, hasNode, read⟩ := Option.bind_eq_some_iff.mp read
    obtain ⟨volid, hasVolid, read⟩ := Option.bind_eq_some_iff.mp read
    obtain ⟨storage, hasStorage, read⟩ := Option.bind_eq_some_iff.mp read
    obtain ⟨phase, -, read⟩ := Option.bind_eq_some_iff.mp read
    obtain ⟨vmid, -, read⟩ := Option.bind_eq_some_iff.mp read
    cases read
    exact
      { id := requiredField_ne hasId
        userId := requiredField_ne hasUser
        hostId := requiredField_ne hasHost
        node := requiredField_ne hasNode
        volid := requiredField_ne hasVolid
        storage := requiredField_ne hasStorage }

theorem storable_of_mem_parseStored {value : Setting} {now : Nat} {job : RestoreJob}
    (read : job ∈ parseStored value now) : job.Storable := by
  unfold parseStored at read
  split at read
  · obtain ⟨row, -, parsed⟩ := List.mem_filterMap.mp read
    exact storable_of_parseRow parsed
  · cases read

/-! ## The round trip -/

theorem storedProperties_nodup (job : RestoreJob) :
    ((storedProperties job).map Prod.fst).Nodup := by
  have names : (["id", "userId", "hostId", "hostName", "node", "volid", "vmid", "storage", "force",
      "startAfter", "name", "phase", "upid", "error", "attempt", "startedAt", "errorAt"] :
        List Text).Nodup := by
    decide
  exact names

theorem member_storedJob {job : RestoreJob} {name : Text} {value : Option (Json Text Nat)}
    (listed : (name, value) ∈ storedProperties job) : (storedJob job).member name = value :=
  Json.member_ofProperties (storedProperties_nodup job) listed

theorem textField_storedJob {job : RestoreJob} {name : Text} {value : Option Text}
    (listed : (name, value.map Json.str) ∈ storedProperties job) :
    textField (storedJob job) name = value := by
  rw [textField, member_storedJob listed]
  cases value <;> rfl

theorem flagField_storedJob {job : RestoreJob} {name : Text} {value : Option Bool}
    (listed : (name, value.map Json.bool) ∈ storedProperties job) :
    flagField (storedJob job) name = value := by
  rw [flagField, member_storedJob listed]
  cases value <;> rfl

theorem numberField_storedJob {job : RestoreJob} {name : Text} {value : Option Nat}
    (listed : (name, value.map Json.num) ∈ storedProperties job) :
    numberField (storedJob job) name = value := by
  rw [numberField, member_storedJob listed]
  cases value <;> rfl

theorem requiredField_storedJob {job : RestoreJob} {name value : Text}
    (listed : (name, some (Json.str value)) ∈ storedProperties job) (present : value ≠ []) :
    requiredField (storedJob job) name = some value := by
  have read : textField (storedJob job) name = some value := textField_storedJob listed
  rw [requiredField, read]
  simp [presentText, present]

theorem find_phaseText (phase : RestorePhase) :
    [RestorePhase.stopping, .running, .error].find? (phaseText · = phaseText phase) =
      some phase := by
  cases phase <;> decide

theorem phaseField_storedJob (job : RestoreJob) : phaseField (storedJob job) = some job.phase := by
  have read : textField (storedJob job) "phase" = some (phaseText job.phase) :=
    textField_storedJob (by simp [storedProperties])
  rw [phaseField, read]
  exact find_phaseText job.phase

/-- **Round trip.** A job that can be stored is read back, with its optional fields. -/
theorem parseRow_storedJob {job : RestoreJob} (storable : job.Storable) (now : Nat) :
    parseRow now (storedJob job) = some job := by
  have id : requiredField (storedJob job) "id" = some job.id :=
    requiredField_storedJob (by simp [storedProperties]) storable.id
  have userId : requiredField (storedJob job) "userId" = some job.userId :=
    requiredField_storedJob (by simp [storedProperties]) storable.userId
  have hostId : requiredField (storedJob job) "hostId" = some job.hostId :=
    requiredField_storedJob (by simp [storedProperties]) storable.hostId
  have node : requiredField (storedJob job) "node" = some job.node :=
    requiredField_storedJob (by simp [storedProperties]) storable.node
  have volid : requiredField (storedJob job) "volid" = some job.volid :=
    requiredField_storedJob (by simp [storedProperties]) storable.volid
  have storage : requiredField (storedJob job) "storage" = some job.storage :=
    requiredField_storedJob (by simp [storedProperties]) storable.storage
  have phase := phaseField_storedJob job
  have vmid : numberField (storedJob job) "vmid" = some job.vmid :=
    numberField_storedJob (by simp [storedProperties])
  have hostName : textField (storedJob job) "hostName" = some job.hostName :=
    textField_storedJob (by simp [storedProperties])
  have force : flagField (storedJob job) "force" = job.force :=
    flagField_storedJob (by simp [storedProperties])
  have startAfter : flagField (storedJob job) "startAfter" = job.startAfter :=
    flagField_storedJob (by simp [storedProperties])
  have name : textField (storedJob job) "name" = job.name :=
    textField_storedJob (by simp [storedProperties])
  have upid : textField (storedJob job) "upid" = job.upid :=
    textField_storedJob (by simp [storedProperties])
  have error : textField (storedJob job) "error" = job.error :=
    textField_storedJob (by simp [storedProperties])
  have attempt : numberField (storedJob job) "attempt" = some job.attempt :=
    numberField_storedJob (by simp [storedProperties])
  have startedAt : numberField (storedJob job) "startedAt" = some job.startedAt :=
    numberField_storedJob (by simp [storedProperties])
  have errorAt : numberField (storedJob job) "errorAt" = job.errorAt :=
    numberField_storedJob (by simp [storedProperties])
  have isObject : (storedJob job).isObject = true := rfl
  rw [parseRow, isObject, id, userId, hostId, node, volid, storage, phase, vmid, hostName, force,
    startAfter, name, upid, error, attempt, startedAt, errorAt]
  rfl

/-- No job that can be stored is dropped. -/
theorem parseStored_storedJobs {rows : List RestoreJob} (storable : ∀ job ∈ rows, job.Storable)
    (now : Nat) : parseStored (some (.arr (rows.map storedJob))) now = rows := by
  rw [parseStored, List.filterMap_map]
  induction rows with
  | nil => rfl
  | cons job rest ih =>
      have head : (parseRow now ∘ storedJob) job = some job :=
        parseRow_storedJob (storable job List.mem_cons_self) now
      rw [List.filterMap_cons_some head,
        ih fun other member => storable other (List.mem_cons_of_mem _ member)]

/-! ## The process -/

/-- Where a `runRestoreJob` waits. -/
inductive Place : Type
  | saveAttempt (attempt : Nat)
  | restoring (attempt : Nat)
  | sleeping (attempt : Nat)
  | saveUpid (upid : Text)
  | saveRunning (upid : Text)
  | waiting
  | saveDelete
  | saveError

/-- A `runRestoreJob`, at its place until it returns. -/
structure Worker where
  id : Text
  /-- The object that it got from the map. -/
  job : Nat
  place : Option Place

/-- `resumeRestoreJobs`: before its read, with the value that it read, at the lookup of a user
(with the row's id and object, and the rows after it), or over. -/
inductive Resuming : Type
  | due
  | read (value : Setting)
  | lookup (id : Text) (job : Nat) (rest : List RestoreJob)
  | over

structure RestoreState where
  /-- The objects of the jobs made so far. -/
  heap : List RestoreJob
  /-- The map `jobs`: an object for each id. -/
  jobs : Record Nat
  workers : List Worker
  /-- The jobs that `forgetRestoreJob` has a timer for. -/
  timers : List Text
  resuming : Resuming
  /-- `persistChain`, each write with the worker that awaits it. -/
  chain : Chain (Option Nat) Setting

/-- A process that has just started, over what earlier ones left. -/
def freshProcess (setting : Setting) : RestoreState where
  heap := []
  jobs := .empty
  workers := []
  timers := []
  resuming := .due
  chain := .start setting

namespace RestoreState

/-- `[...jobs.values()]`. -/
def values (s : RestoreState) : List RestoreJob := s.jobs.values.filterMap fun n => s.heap[n]?

/-- The value that `writeJobs` writes. -/
def snapshot (s : RestoreState) : Setting := some (.arr (s.values.map storedJob))

/-- `jobs.get(id)`: the object and its job. -/
def find (s : RestoreState) (id : Text) : Option (Nat × RestoreJob) :=
  (s.jobs.get? id).bind fun n => s.heap[n]?.map (n, ·)

/-- `persistJobs()`, awaited by a worker or by nobody. -/
def save (s : RestoreState) (owner : Option Nat) : RestoreState :=
  { s with chain := s.chain.save owner }

/-- A new object, set in the map. -/
def insert (s : RestoreState) (job : RestoreJob) : RestoreState :=
  { s with heap := s.heap ++ [job], jobs := s.jobs.set job.id s.heap.length }

def mutate (s : RestoreState) (n : Nat) (change : RestoreJob → RestoreJob) : RestoreState :=
  { s with heap := s.heap.modify n change }

def move (s : RestoreState) (n : Nat) (place : Option Place) : RestoreState :=
  { s with workers := s.workers.modify n fun w => { w with place := place } }

/-! ## The worker -/

/-- The `catch` of `runRestoreJob`, up to its `persistJobs`. -/
def fail (s : RestoreState) (n : Nat) (w : Worker) (message : Text) (now : Nat) : RestoreState :=
  match s.find w.id with
  | none => s.move n none
  | some (current, _) =>
      ((s.mutate current (·.failed message now)).move n (some .saveError)).save (some n)

/-- The head of the loop over the attempts. -/
def enterLoop (s : RestoreState) (n : Nat) (w : Worker) (attempt now : Nat) : RestoreState :=
  if attempt ≤ 50 then
    ((s.mutate w.job ({ · with attempt := attempt })).move n (some (.saveAttempt attempt))).save
      (some n)
  else s.fail n w "Gast läuft noch und konnte nicht heruntergefahren werden" now

/-- The task id and the phase noted in the job, then a write. -/
def note (s : RestoreState) (n : Nat) (w : Worker) (upid : Text) (place : Place) : RestoreState :=
  ((s.mutate w.job ({ · with upid := some upid, phase := .running })).move n (some place)).save
    (some n)

/-- The job taken out of the map, then a write. -/
def finish (s : RestoreState) (n : Nat) (w : Worker) : RestoreState :=
  ({ s with jobs := s.jobs.delete w.id }.move n (some .saveDelete)).save (some n)

/-- The end of a failed job: `forgetRestoreJob` sets its timer. -/
def endFailed (s : RestoreState) (n : Nat) (w : Worker) : RestoreState :=
  { s with timers := w.id :: s.timers }.move n none

/-- A new `runRestoreJob`, up to its first write. -/
def runRestoreJob (s : RestoreState) (id : Text) (now : Nat) : RestoreState :=
  match s.find id with
  | none => s
  | some (n, job) =>
      let w : Worker := ⟨id, n, none⟩
      let started := { s with workers := s.workers ++ [w] }
      match presentText job.upid with
      | none => started.enterLoop s.workers.length w job.attempt now
      | some upid => started.note s.workers.length w upid (.saveRunning upid)

/-- What a worker does when its write is done. -/
def saved (s : RestoreState) (n : Nat) (w : Worker) : RestoreState :=
  match w.place with
  | some (.saveAttempt attempt) => s.move n (some (.restoring attempt))
  | some (.saveUpid upid) => s.note n w upid (.saveRunning upid)
  | some (.saveRunning upid) => if isUpid upid then s.move n (some .waiting) else s.finish n w
  | some .saveDelete => s.move n none
  | some .saveError => s.endFailed n w
  | _ => s

/-- What a worker does when its write has failed. -/
def notSaved (s : RestoreState) (n : Nat) (w : Worker) (message : Text) (now : Nat) :
    RestoreState :=
  match w.place with
  | some (.saveAttempt _) | some (.saveUpid _) | some (.saveRunning _) => s.fail n w message now
  | some .saveDelete => { s with jobs := s.jobs.set w.id w.job }.move n none
  | some .saveError => s.endFailed n w
  | _ => s

/-- What a worker does with the answer to its call: an error, `none` for a guest that is still
stopping, or the task id. -/
def answered (s : RestoreState) (n : Nat) (w : Worker) (attempt now : Nat) :
    Except Text (Option Text) → RestoreState
  | .error message => s.fail n w message now
  | .ok none => s.move n (some (.sleeping attempt))
  | .ok (some upid) =>
      if upid = [] then s.fail n w "Wiederherstellung konnte nicht gestartet werden" now
      else s.note n w upid (.saveUpid upid)

/-! ## Enqueueing, forgetting, resuming -/

/-- The id of a job ends in what the clock and `Math.random` give. -/
def enqueueRestoreJob (s : RestoreState) (input : RestoreInput) (suffix : Text) (now : Nat) :
    RestoreState :=
  let id : Text := "restore-" ++ suffix
  ((s.insert (newRestoreJob id input now)).save none).runRestoreJob id now

/-- The timer of a failed job. -/
def forget (s : RestoreState) (id : Text) : RestoreState :=
  let rung := { s with timers := s.timers.erase id }
  match s.find id with
  | none => rung
  | some (_, job) =>
      if job.phase = .error then { rung with jobs := s.jobs.delete id }.save none else rung

/-- The loop of `resumeRestoreJobs`, up to its next lookup or its write. -/
def takeUp (s : RestoreState) (now : Nat) : List RestoreJob → RestoreState
  | [] => { s with resuming := .over }.save none
  | row :: rest =>
      if (s.jobs.get? row.id).isSome || row.isExpired now then s.takeUp now rest
      else if row.phase = .error then (s.insert row).takeUp now rest
      else { s.insert row with resuming := .lookup row.id s.heap.length rest }

/-- The loop goes on with what `loadSessionUser` finds. -/
def lookedUp (s : RestoreState) (id : Text) (n : Nat) (rest : List RestoreJob) (user : UserLookup)
    (now : Nat) : RestoreState :=
  match user with
  | .found => (s.runRestoreJob id now).takeUp now rest
  | .missing =>
      (s.mutate n (·.failed "Restore-Benutzer nicht mehr vorhanden" now)).takeUp now rest
  | .failed => { s with resuming := .over }

/-! ## Events -/

end RestoreState

inductive RestoreEvent : Type
  | enqueue (input : RestoreInput) (suffix : Text) (now : Nat)
  | beginWrite
  | endWrite (outcome : WriteOutcome) (now : Nat)
  | answer (worker : Nat) (result : Except Text (Option Text)) (now : Nat)
  | wake (worker now : Nat)
  | taskEnded (worker : Nat) (failure : Option Text) (now : Nat)
  | forget (id : Text)
  | resumeRead (readable : Bool)
  | resumeRows (now : Nat)
  | resumeUser (user : UserLookup) (now : Nat)

namespace RestoreState

/-- The worker `n`, when it waits at a place that `at?` knows. -/
def worker {α : Type} (s : RestoreState) (n : Nat) (at? : Place → Option α) :
    Option (Worker × α) :=
  s.workers[n]?.bind fun w => (w.place.bind at?).map (w, ·)

/-- The write of a value ends, and its worker goes on. -/
def endWrite (s : RestoreState) (owner : Option Nat) (value : Setting) (outcome : WriteOutcome)
    (now : Nat) : RestoreState :=
  let waiting := owner.bind fun n => s.workers[n]?.map (n, ·)
  match outcome with
  | .done =>
      let wrote := { s with chain := s.chain.succeeds value }
      waiting.elim wrote fun (n, w) => wrote.saved n w
  | .failed landed message =>
      let left := { s with chain := s.chain.fails value landed }
      waiting.elim left fun (n, w) => left.notSaved n w message.toList now

def step (s : RestoreState) : RestoreEvent → Option RestoreState
  | .enqueue input suffix now =>
      if input.accepted then some (s.enqueueRestoreJob input suffix now) else none
  | .beginWrite => (s.chain.begins s.snapshot).map ({ s with chain := · })
  | .endWrite outcome now =>
      s.chain.writing.map fun (owner, value) => s.endWrite owner value outcome now
  | .answer n result now =>
      (s.worker n fun place =>
          match place with | .restoring attempt => some attempt | _ => none).map
        fun (w, attempt) => s.answered n w attempt now result
  | .wake n now =>
      (s.worker n fun place =>
          match place with | .sleeping attempt => some attempt | _ => none).map
        fun (w, attempt) => s.enterLoop n w (attempt + 1) now
  | .taskEnded n failure now =>
      (s.worker n fun place => match place with | .waiting => some () | _ => none).map
        fun (w, _) => failure.elim (s.finish n w) fun message => s.fail n w message now
  | .forget id => if id ∈ s.timers then some (s.forget id) else none
  | .resumeRead readable =>
      match s.resuming with
      | .due => some { s with resuming := if readable then .read s.chain.stored else .over }
      | _ => none
  | .resumeRows now =>
      match s.resuming with
      | .read value => some (s.takeUp now (parseStored value now))
      | _ => none
  | .resumeUser user now =>
      match s.resuming with
      | .lookup id n rest => some (s.lookedUp id n rest user now)
      | _ => none

/-! ## When the writes keep up -/

/-- A row is left whose user is looked up. -/
def needsLookup (s : RestoreState) (rows : List RestoreJob) : Bool :=
  rows.any fun row => row.phase ≠ .error && (s.jobs.get? row.id).isNone

end RestoreState

/-- The rows that the loop of `resumeRestoreJobs` has before it. -/
def Resuming.rows (now : Nat) : Resuming → List RestoreJob
  | .read value => parseStored value now
  | .lookup _ _ rest => rest
  | _ => []

/-- The row at its lookup. -/
def Resuming.row : Resuming → Option Text
  | .lookup id _ _ => some id
  | _ => none

namespace RestoreState

/-- When `resumeRestoreJobs` comes to the lookup of a user, a write is to come or none has
succeeded last, or it has just started a worker, which queues one. -/
def Timely (s : RestoreState) : RestoreEvent → Prop
  | .resumeRows now => s.needsLookup (s.resuming.rows now) = true → s.chain.Covered
  | .resumeUser .missing now => s.needsLookup (s.resuming.rows now) = true → s.chain.Covered
  | .resumeUser .found now =>
      s.needsLookup (s.resuming.rows now) = true →
        s.chain.Covered ∨ (s.resuming.row.bind s.find).isSome = true
  | _ => True

instance : ∀ s e, Decidable (Timely s e)
  | s, .resumeRows now | s, .resumeUser .missing now =>
      inferInstanceAs (Decidable (s.needsLookup (s.resuming.rows now) = true → s.chain.Covered))
  | s, .resumeUser .found now =>
      inferInstanceAs (Decidable (s.needsLookup (s.resuming.rows now) = true →
        s.chain.Covered ∨ (s.resuming.row.bind s.find).isSome = true))
  | _, .resumeUser .failed _ | _, .enqueue _ _ _ | _, .beginWrite | _, .endWrite _ _
  | _, .answer _ _ _ | _, .wake _ _ | _, .taskEnded _ _ _ | _, .forget _ | _, .resumeRead _ =>
      inferInstanceAs (Decidable True)

/-! ## What a stretch of code does

`Follows` is what every stretch outside `resumeRestoreJobs` does: what is in the map stays as it is,
or a write is left. -/

structure Follows (s t : RestoreState) : Prop where
  heap : (∀ job ∈ s.heap, job.Storable) → ∀ job ∈ t.heap, job.Storable
  resuming : t.resuming = s.resuming
  saved : t.chain.Covered ∨ t.chain = s.chain ∧ t.values = s.values

variable {s t u : RestoreState}

theorem Follows.refl (s : RestoreState) : s.Follows s := ⟨id, rfl, .inr ⟨rfl, rfl⟩⟩

theorem Follows.trans (first : s.Follows t) (second : t.Follows u) : s.Follows u where
  heap := second.heap ∘ first.heap
  resuming := second.resuming.trans first.resuming
  saved := by
    rcases second.saved with covered | ⟨chain, values⟩
    · exact .inl covered
    · rw [chain, values]
      exact first.saved

/-- The change leaves the id and what was asked for. -/
def Progress (change : RestoreJob → RestoreJob) : Prop :=
  ∀ job, (change job).id = job.id ∧ (change job).toRestoreInput = job.toRestoreInput

theorem progress_failed (message : Text) (now : Nat) : Progress (·.failed message now) :=
  fun _ => ⟨rfl, rfl⟩

theorem Progress.storable {change : RestoreJob → RestoreJob} (progress : Progress change)
    {job : RestoreJob} (good : job.Storable) : (change job).Storable := by
  obtain ⟨id, input⟩ := progress job
  constructor
  · exact id ▸ good.id
  all_goals rw [input]
  · exact good.userId
  · exact good.hostId
  · exact good.node
  · exact good.volid
  · exact good.storage

theorem storable_modify {heap : List RestoreJob} (good : ∀ job ∈ heap, job.Storable)
    {change : RestoreJob → RestoreJob} (progress : Progress change) (n : Nat) :
    ∀ job ∈ heap.modify n change, job.Storable := by
  intro job member
  obtain ⟨m, found⟩ := List.mem_iff_getElem?.mp member
  rw [List.getElem?_modify] at found
  obtain ⟨old, there, rfl⟩ := Option.map_eq_some_iff.mp found
  have kept := good old (List.mem_of_getElem? there)
  split
  · exact progress.storable kept
  · exact kept

theorem storable_append {heap : List RestoreJob} (good : ∀ job ∈ heap, job.Storable)
    {new : RestoreJob} (storable : new.Storable) : ∀ job ∈ heap ++ [new], job.Storable := by
  intro job member
  rcases List.mem_append.mp member with old | added
  · exact good job old
  · exact List.mem_singleton.mp added ▸ storable

theorem follows_move (s : RestoreState) (n : Nat) (place : Option Place) :
    s.Follows (s.move n place) :=
  ⟨id, rfl, .inr ⟨rfl, rfl⟩⟩

/-- An object changed, and a write queued. -/
theorem follows_mutate {change : RestoreJob → RestoreJob} (progress : Progress change)
    (s : RestoreState) (m n : Nat) (place : Option Place) (owner : Option Nat) :
    s.Follows (((s.mutate m change).move n place).save owner) where
  heap := fun good => storable_modify good progress m
  resuming := rfl
  saved := .inl (Chain.covered_save _ _)

theorem follows_fail (s : RestoreState) (n : Nat) (w : Worker) (message : Text) (now : Nat) :
    s.Follows (s.fail n w message now) := by
  unfold fail
  split
  · exact s.follows_move n none
  · exact follows_mutate (progress_failed message now) s _ n _ _

theorem follows_note (s : RestoreState) (n : Nat) (w : Worker) (upid : Text) (place : Place) :
    s.Follows (s.note n w upid place) := by
  refine follows_mutate ?_ s _ n _ _
  exact fun job => ⟨rfl, rfl⟩

theorem follows_enterLoop (s : RestoreState) (n : Nat) (w : Worker) (attempt now : Nat) :
    s.Follows (s.enterLoop n w attempt now) := by
  unfold enterLoop
  split
  · refine follows_mutate ?_ s _ n _ _
    exact fun job => ⟨rfl, rfl⟩
  · exact s.follows_fail n w _ now

theorem follows_finish (s : RestoreState) (n : Nat) (w : Worker) : s.Follows (s.finish n w) :=
  ⟨id, rfl, .inl (Chain.covered_save _ _)⟩

theorem follows_endFailed (s : RestoreState) (n : Nat) (w : Worker) : s.Follows (s.endFailed n w) :=
  ⟨id, rfl, .inr ⟨rfl, rfl⟩⟩

theorem follows_runRestoreJob (s : RestoreState) (id : Text) (now : Nat) :
    s.Follows (s.runRestoreJob id now) := by
  unfold runRestoreJob
  split
  · exact .refl s
  · next n job found =>
      have started : s.Follows { s with workers := s.workers ++ [⟨id, n, none⟩] } :=
        ⟨fun good => good, rfl, .inr ⟨rfl, rfl⟩⟩
      refine started.trans ?_
      simp only
      split
      · exact follows_enterLoop _ _ _ _ _
      · exact follows_note _ _ _ _ _

theorem follows_saved (s : RestoreState) (n : Nat) (w : Worker) : s.Follows (s.saved n w) := by
  unfold saved
  split
  · exact s.follows_move n _
  · exact s.follows_note n w _ _
  · split
    · exact s.follows_move n _
    · exact s.follows_finish n w
  · exact s.follows_move n _
  · exact s.follows_endFailed n w
  · exact .refl s

/-- After a failed write the map may change without another. -/
theorem follows_notSaved (failed : s.chain.Covered) (n : Nat) (w : Worker) (message : Text)
    (now : Nat) : s.Follows (s.notSaved n w message now) := by
  unfold notSaved
  split
  · exact s.follows_fail n w message now
  · exact s.follows_fail n w message now
  · exact s.follows_fail n w message now
  · exact ⟨id, rfl, .inl failed⟩
  · exact s.follows_endFailed n w
  · exact .refl s

theorem follows_answered (s : RestoreState) (n : Nat) (w : Worker) (attempt now : Nat)
    (result : Except Text (Option Text)) : s.Follows (s.answered n w attempt now result) := by
  unfold answered
  split
  · exact s.follows_fail n w _ now
  · exact s.follows_move n _
  · split
    · exact s.follows_fail n w _ now
    · exact s.follows_note n w _ _

theorem follows_enqueue (s : RestoreState) {input : RestoreInput} (accepted : input.accepted = true)
    (suffix : Text) (now : Nat) : s.Follows (s.enqueueRestoreJob input suffix now) := by
  have named : (("restore-" : Text) ++ suffix) ≠ [] :=
    List.append_ne_nil_of_left_ne_nil (by decide) _
  have stored : s.Follows ((s.insert (newRestoreJob ("restore-" ++ suffix) input now)).save none) :=
    { heap := fun good => storable_append good (storable_newRestoreJob named accepted now)
      resuming := rfl
      saved := .inl (Chain.covered_save _ _) }
  exact stored.trans (follows_runRestoreJob _ _ now)

theorem follows_forget (s : RestoreState) (id : Text) : s.Follows (s.forget id) := by
  unfold forget
  simp only
  split
  · exact ⟨fun good => good, rfl, .inr ⟨rfl, rfl⟩⟩
  · split
    · exact ⟨fun good => good, rfl, .inl (Chain.covered_save _ _)⟩
    · exact ⟨fun good => good, rfl, .inr ⟨rfl, rfl⟩⟩

/-! ## Resuming -/

theorem needsLookup_cons_of_tail {row : RestoreJob} {rest : List RestoreJob}
    (later : s.needsLookup rest = true) : s.needsLookup (row :: rest) = true := by
  rw [needsLookup, List.any_cons, Bool.or_eq_true]
  exact .inr later

/-- A row taken up spares no lookup before. -/
theorem needsLookup_of_insert {row : RestoreJob} {rest : List RestoreJob}
    (later : (s.insert row).needsLookup rest = true) : s.needsLookup rest = true := by
  obtain ⟨other, member, needs⟩ := List.any_eq_true.mp later
  refine List.any_eq_true.mpr ⟨other, member, ?_⟩
  rw [Bool.and_eq_true, Option.isNone_iff_eq_none] at needs ⊢
  have missing : (s.jobs.set row.id s.heap.length).get? other.id = none := needs.2
  rw [Record.get?_set] at missing
  split at missing
  · cases missing
  · exact ⟨needs.1, missing⟩

theorem covered_takeUp (now : Nat) {rows : List RestoreJob} {s : RestoreState}
    (under : s.needsLookup rows = true → s.chain.Covered) :
    (s.takeUp now rows).chain.Covered := by
  induction rows generalizing s with
  | nil => exact Chain.covered_save _ _
  | cons row rest ih =>
      rw [takeUp]
      split
      · exact ih fun later => under (needsLookup_cons_of_tail later)
      · next fresh =>
          split
          · exact ih fun later => under (needsLookup_cons_of_tail (needsLookup_of_insert later))
          · next phase =>
              rw [Bool.or_eq_true, not_or, Bool.not_eq_true, Option.isSome_eq_false_iff] at fresh
              refine under ?_
              rw [needsLookup, List.any_cons, Bool.or_eq_true, Bool.and_eq_true, decide_eq_true_eq]
              exact .inl ⟨phase, fresh.1⟩

/-- The jobs of the process and the rows it still has to take up. -/
structure Sound (s : RestoreState) : Prop where
  heap : ∀ job ∈ s.heap, job.Storable
  left : ∀ id n rest, s.resuming = .lookup id n rest → ∀ row ∈ rest, row.Storable

theorem sound_takeUp (now : Nat) {rows : List RestoreJob} {s : RestoreState}
    (heap : ∀ job ∈ s.heap, job.Storable) (storable : ∀ row ∈ rows, row.Storable) :
    (s.takeUp now rows).Sound := by
  induction rows generalizing s with
  | nil => exact ⟨heap, nofun⟩
  | cons row rest ih =>
      have tail : ∀ other ∈ rest, other.Storable :=
        fun other member => storable other (List.mem_cons_of_mem _ member)
      have grown := storable_append heap (storable row List.mem_cons_self)
      rw [takeUp]
      split
      · exact ih heap tail
      · split
        · exact ih grown tail
        · refine ⟨grown, fun id n left same => ?_⟩
          cases same
          exact tail

theorem fail_jobs (s : RestoreState) (n : Nat) (w : Worker) (message : Text) (now : Nat) :
    (s.fail n w message now).jobs = s.jobs := by
  unfold fail
  split <;> rfl

theorem enterLoop_jobs (s : RestoreState) (n : Nat) (w : Worker) (attempt now : Nat) :
    (s.enterLoop n w attempt now).jobs = s.jobs := by
  unfold enterLoop
  split
  · rfl
  · exact s.fail_jobs n w _ now

theorem runRestoreJob_jobs (s : RestoreState) (id : Text) (now : Nat) :
    (s.runRestoreJob id now).jobs = s.jobs := by
  unfold runRestoreJob
  split
  · rfl
  · simp only
    split
    · exact enterLoop_jobs _ _ _ _ _
    · rfl

theorem covered_enterLoop {w : Worker} (present : (s.find w.id).isSome = true)
    (n attempt now : Nat) : (s.enterLoop n w attempt now).chain.Covered := by
  unfold enterLoop
  split
  · exact Chain.covered_save _ _
  · unfold fail
    split
    · next missing =>
        rw [missing] at present
        cases present
    · exact Chain.covered_save _ _

/-- A worker that starts queues a write. -/
theorem covered_runRestoreJob {id : Text} (present : (s.find id).isSome = true) (now : Nat) :
    (s.runRestoreJob id now).chain.Covered := by
  obtain ⟨⟨n, job⟩, found⟩ := Option.isSome_iff_exists.mp present
  rw [runRestoreJob, found]
  simp only
  split
  · exact covered_enterLoop present _ _ now
  · exact Chain.covered_save _ _

/-! ## One event -/

/-- What the writes know of the jobs. -/
def UpToDate (s : RestoreState) : Prop := s.chain.UpToDate s.snapshot

theorem Follows.sound (follows : s.Follows t) (sound : s.Sound) : t.Sound where
  heap := follows.heap sound.heap
  left := follows.resuming ▸ sound.left

theorem Follows.upToDate (follows : s.Follows t) (good : s.UpToDate) : t.UpToDate := by
  rcases follows.saved with covered | ⟨chain, values⟩
  · exact .inl covered
  · rw [UpToDate, snapshot, chain, values]
    exact good

theorem follows_endWrite {owner : Option Nat} {value : Setting} (outcome : WriteOutcome)
    (now : Nat) :
    ∃ chain, (chain = s.chain.succeeds value ∨ chain.Covered) ∧
      Follows { s with chain := chain } (s.endWrite owner value outcome now) := by
  unfold endWrite
  cases outcome with
  | done =>
      refine ⟨s.chain.succeeds value, .inl rfl, ?_⟩
      cases owner.bind fun n => s.workers[n]?.map (n, ·) with
      | none => exact .refl _
      | some waiting => exact follows_saved _ _ _
  | failed landed message =>
      have covered := s.chain.covered_fails value landed
      refine ⟨s.chain.fails value landed, .inr covered, ?_⟩
      cases owner.bind fun n => s.workers[n]?.map (n, ·) with
      | none => exact .refl _
      | some waiting => exact follows_notSaved covered _ _ _ _

/-- The loop of `resumeRestoreJobs`, after what the event did before it. -/
theorem keeps_takeUp {e : RestoreEvent} {rows : List RestoreJob} {now : Nat}
    (heap : ∀ job ∈ u.heap, job.Storable) (storable : ∀ row ∈ rows, row.Storable)
    (under : s.Timely e → u.needsLookup rows = true → u.chain.Covered) :
    (u.takeUp now rows).Sound ∧ (s.Timely e → s.UpToDate → (u.takeUp now rows).UpToDate) :=
  ⟨sound_takeUp now heap storable, fun meets _ => (covered_takeUp now (under meets)).upToDate _⟩

theorem worker_step {α : Type} {n : Nat} {at? : Place → Option α} {next : Worker × α → RestoreState}
    (follows : ∀ waiting, s.Follows (next waiting))
    (happens : (s.worker n at?).map next = some t) : s.Follows t := by
  obtain ⟨waiting, -, rfl⟩ := Option.map_eq_some_iff.mp happens
  exact follows waiting

/-- **Step.** What can be stored stays so, and the writes keep up where the event allows it. -/
theorem Sound.step (sound : s.Sound) {e : RestoreEvent} (happens : s.step e = some t) :
    t.Sound ∧ (s.Timely e → s.UpToDate → t.UpToDate) := by
  have keeps : s.Follows t → t.Sound ∧ (s.Timely e → s.UpToDate → t.UpToDate) :=
    fun follows => ⟨follows.sound sound, fun _ good => follows.upToDate good⟩
  cases e with
  | enqueue input suffix now =>
      simp only [RestoreState.step] at happens
      split at happens
      · next accepted =>
          cases happens
          exact keeps (s.follows_enqueue accepted suffix now)
      · cases happens
  | beginWrite =>
      obtain ⟨chain, begun, rfl⟩ := Option.map_eq_some_iff.mp happens
      exact ⟨⟨sound.heap, sound.left⟩, fun _ _ => Chain.upToDate_of_begins begun⟩
  | endWrite outcome now =>
      obtain ⟨⟨owner, value⟩, writes, rfl⟩ := Option.map_eq_some_iff.mp happens
      obtain ⟨chain, ended, follows⟩ := s.follows_endWrite outcome now
      refine ⟨follows.sound ⟨sound.heap, sound.left⟩, fun _ good => follows.upToDate ?_⟩
      rcases ended with rfl | covered
      · exact good.succeeds writes
      · exact covered.upToDate _
  | answer n result now =>
      exact keeps (worker_step (fun waiting => s.follows_answered n _ _ now result) happens)
  | wake n now =>
      exact keeps (worker_step (fun waiting => s.follows_enterLoop n _ _ now) happens)
  | taskEnded n failure now =>
      refine keeps (worker_step (fun waiting => ?_) happens)
      cases failure with
      | none => exact s.follows_finish n _
      | some message => exact s.follows_fail n _ message now
  | forget id =>
      simp only [RestoreState.step] at happens
      split at happens
      · cases happens
        exact keeps (s.follows_forget id)
      · cases happens
  | resumeRead readable =>
      simp only [RestoreState.step] at happens
      split at happens
      · cases happens
        refine ⟨⟨sound.heap, ?_⟩, fun _ good => good⟩
        cases readable <;> exact nofun
      · cases happens
  | resumeRows now =>
      simp only [RestoreState.step] at happens
      split at happens
      · next value read =>
          cases happens
          refine keeps_takeUp sound.heap (fun row => storable_of_mem_parseStored) ?_
          intro meets needs
          refine meets ?_
          rw [read]
          exact needs
      · cases happens
  | resumeUser user now =>
      simp only [RestoreState.step] at happens
      split at happens
      · next id n rest looks =>
          cases happens
          have storable := sound.left id n rest looks
          cases user with
          | failed => exact ⟨⟨sound.heap, nofun⟩, fun _ good => good⟩
          | missing =>
              have heap := storable_modify sound.heap
                (progress_failed "Restore-Benutzer nicht mehr vorhanden" now) n
              refine keeps_takeUp heap storable ?_
              intro meets needs
              refine meets ?_
              rw [looks]
              exact needs
          | found =>
              refine keeps_takeUp ((s.follows_runRestoreJob id now).heap sound.heap) storable ?_
              intro meets needs
              rw [needsLookup, runRestoreJob_jobs] at needs
              rw [Timely, looks] at meets
              rcases meets needs with covered | present
              · rcases (s.follows_runRestoreJob id now).saved with started | ⟨same, -⟩
                · exact started
                · rw [same]
                  exact covered
              · exact covered_runRestoreJob present now
      · cases happens

theorem sound_freshProcess (setting : Setting) : (freshProcess setting).Sound := ⟨nofun, nofun⟩

theorem upToDate_freshProcess (setting : Setting) : (freshProcess setting).UpToDate :=
  (Chain.covered_start setting).upToDate _

/-- **Runs.** In any run the jobs can be stored. -/
theorem sound_run {setting : Setting} {allowed : RestoreState → RestoreEvent → Prop}
    (run : Reaches step allowed (freshProcess setting) s) : s.Sound :=
  run.keeps (sound_freshProcess setting) fun _ _ _ good _ happens => (good.step happens).1

/-- In a run that the writes keep up with, they have the jobs of the map. -/
structure Converging (s : RestoreState) : Prop extends Sound s where
  upToDate : s.UpToDate

theorem converging_run {setting : Setting} (run : Reaches step Timely (freshProcess setting) s) :
    s.Converging :=
  run.keeps ⟨sound_freshProcess setting, upToDate_freshProcess setting⟩
    fun _ _ _ good meets happens =>
      ⟨(good.step happens).1, (good.step happens).2 meets good.upToDate⟩

/-- Nothing in the map is dropped when it is read back. -/
theorem Sound.parseStored_snapshot (sound : s.Sound) (now : Nat) :
    parseStored s.snapshot now = s.values := by
  refine parseStored_storedJobs (fun job member => ?_) now
  obtain ⟨n, -, found⟩ := List.mem_filterMap.mp member
  exact sound.heap job (List.mem_of_getElem? found)

end RestoreState

/-- **Convergence.** In a run in which `resumeRestoreJobs` never waits for a user over jobs that no
write is going to see, the setting holds the jobs of the map once the writes are over and the last
one has succeeded. In every run the jobs of the map can be read back, and a new job can. -/
theorem restoreJobs_converge (setting : Setting) :
    (∀ s, Reaches RestoreState.step RestoreState.Timely (freshProcess setting) s →
      s.chain.Settled → ∀ now, parseStored s.chain.stored now = s.values) ∧
    (∀ s, Reaches RestoreState.step Unrestricted (freshProcess setting) s →
      ∀ now, parseStored s.snapshot now = s.values) ∧
    ∀ input suffix made now, input.accepted = true →
      parseRow now (storedJob (newRestoreJob ("restore-" ++ suffix) input made)) =
        some (newRestoreJob ("restore-" ++ suffix) input made) := by
  refine ⟨fun s run settled now => ?_, fun s run now => ?_,
    fun input suffix made now accepted => ?_⟩
  · have good := RestoreState.converging_run run
    rw [good.upToDate.stored_eq settled]
    exact good.parseStored_snapshot now
  · exact (RestoreState.sound_run run).parseStored_snapshot now
  · have named : (("restore-" : Text) ++ suffix) ≠ [] :=
      List.append_ne_nil_of_left_ne_nil (by decide) _
    exact parseRow_storedJob (storable_newRestoreJob named accepted made) now

/-- A job that an earlier process has left. -/
def leftJob (id : Text) : RestoreJob where
  userId := "u1"
  hostId := "h1"
  hostName := "pve"
  node := "pve"
  volid := "local:backup/vzdump-qemu-100.vma"
  vmid := 100
  storage := "local"
  force := some true
  startAfter := none
  name := none
  id := id
  phase := .stopping
  upid := none
  error := none
  attempt := 1
  startedAt := 0
  errorAt := none

def leftJobs (ids : List Text) : Setting := some (.arr (ids.map fun id => storedJob (leftJob id)))

theorem restoreJobs_converge_after_resume :
    ∃ s, Reaches RestoreState.step RestoreState.Timely (freshProcess (leftJobs ["a", "b"])) s ∧
      s.chain.Settled ∧ s.values.map (·.phase) = [.stopping, .error] ∧
      parseStored s.chain.stored 9 = s.values := by
  have ends : (exec (guarded RestoreState.step RestoreState.Timely)
      (freshProcess (leftJobs ["a", "b"]))
      [.resumeRead true, .resumeRows 1, .resumeUser .found 2, .beginWrite, .endWrite .done 3,
        .resumeUser .missing 4, .beginWrite, .endWrite .done 5]).map
          (fun s => (decide s.chain.Settled, s.values.map (·.phase))) =
        some (true, [.stopping, .error]) := by
    decide
  obtain ⟨s, done, seen⟩ := Option.map_eq_some_iff.mp ends
  rw [Prod.mk.injEq, decide_eq_true_eq] at seen
  have run := reaches_of_guarded done
  exact ⟨s, run, seen.1, seen.2, (restoreJobs_converge _).1 s run seen.1 9⟩

/-- The user of the second job is gone and the lookup for the third one fails: the mark on the
second job and the third job stay out of the setting. -/
theorem marked_job_stays_unsaved :
    ∃ s, Reaches RestoreState.step Unrestricted (freshProcess (leftJobs ["a", "b", "c"])) s ∧
      s.chain.Settled ∧ parseStored s.chain.stored 9 ≠ s.values := by
  have ends : (exec RestoreState.step (freshProcess (leftJobs ["a", "b", "c"]))
      [.resumeRead true, .resumeRows 1, .resumeUser .found 2, .beginWrite, .endWrite .done 3,
        .resumeUser .missing 4, .resumeUser .failed 5]).map
          (fun s => (decide s.chain.Settled, (parseStored s.chain.stored 9).map (·.phase),
            s.values.map (·.phase))) =
        some (true, [.stopping, .stopping], [.stopping, .error, .stopping]) := by
    decide
  obtain ⟨s, done, seen⟩ := Option.map_eq_some_iff.mp ends
  simp only [Prod.mk.injEq, decide_eq_true_eq] at seen
  refine ⟨s, reaches_of_exec done, seen.1, fun same => ?_⟩
  have phases := seen.2.1
  rw [same, seen.2.2] at phases
  cases phases

end Proxora.RestorePersistence
