import Proxora.BackupActions
import Proxora.ProxmoxTasks
import Proxora.Runs

/-!
# Restore jobs

The worker of `server/services/restore-jobs.ts`.  The jobs live in a map of the
process; `persistJobs` queues writes of the whole map to one setting, and a
restarted process resumes what it finds there.  A state is the process, the
setting, the restore tasks Proxmox has started and the ids given out; an event
is what happens between two `await`s, a write or a request coming to its end,
or the end of the process at any moment.

A job that is stored without its task id is started again, so
`restores_at_most_once` asks that a restart finds no such job whose task runs.
-/

namespace Proxora

open Ecma Runs

/-! ## Jobs -/

inductive RestorePhase : Type
  | stopping | running | error
deriving DecidableEq, Repr

structure RestoreInput extends RestoreBody where
  userId : String
  hostId : String
  hostName : String
  name : Option String

/-- `RestoreJob`; an empty `upid` is an absent one. -/
structure RestoreJob extends RestoreInput where
  id : String
  phase : RestorePhase
  upid : Text
  error : Option String
  attempt : Nat
  startedAt : Nat
  errorAt : Option Nat

/-- The job that `enqueueRestoreJob` makes. -/
def newRestoreJob (id : String) (input : RestoreInput) (now : Nat) : RestoreJob where
  toRestoreInput := input
  id := id
  phase := .stopping
  upid := []
  error := none
  attempt := 1
  startedAt := now
  errorAt := none

/-- The fields that `parseStored` asks for; the setting is only written from jobs. -/
def RestoreJob.isStored (job : RestoreJob) : Bool :=
  job.id ≠ "" && job.userId ≠ "" && job.hostId ≠ "" && job.node ≠ [] && job.volid ≠ [] &&
    job.storage ≠ []

def parseStored (rows : List RestoreJob) : List RestoreJob := rows.filter RestoreJob.isStored

/-- `ERROR_TTL_MS`. -/
def errorTtlMs : Nat := 15 * 60 * 1000

/-- A failed job that is too old to be shown again. -/
def RestoreJob.isExpired (job : RestoreJob) (now : Nat) : Bool :=
  job.phase = .error && now - job.errorAt.getD job.startedAt > errorTtlMs

/-! ## The process -/

/-- Where a `runRestoreJob` waits.  In `answered` the call has its result, which
the worker has not seen yet: an error, `none` for a guest that is still
stopping, or the task id. -/
inductive WorkerPc : Type
  | saveAttempt (attempt : Nat)
  | restoring (attempt : Nat)
  | answered (attempt : Nat) (result : Except String (Option Text))
  | sleeping (attempt : Nat)
  | saveUpid (upid : Text)
  | saveRunning (upid : Text)
  | waiting (upid : Text)
  | saveDelete
  | saveError

/-- A job of the process: whether the map has it under its id, and its worker. -/
structure JobObject where
  job : RestoreJob
  inMap : Bool
  pc : Option WorkerPc

/-- The object once its id is deleted from the map. -/
def JobObject.leave (o : JobObject) (id : String) : JobObject :=
  if o.job.id = id then { o with inMap := false } else o

/-- `resumeRestoreJobs`: before its read, with rows left, or finished. -/
inductive Resuming : Type
  | due
  | rows (left : List RestoreJob)
  | finished

/-- The row to resume next. -/
def Resuming.next : Resuming → Option RestoreJob
  | .rows (row :: _) => some row
  | _ => none

structure RestoreState where
  objects : Nat → Option JobObject
  /-- The objects made so far. -/
  created : Nat
  /-- `persistChain`: the writes to come, each with the worker that awaits it. -/
  queue : List (Option Nat)
  writing : Option (Option Nat × List RestoreJob)
  /-- The jobs that `forgetRestoreJob` has a timer for. -/
  timers : List String
  resuming : Resuming
  /-- The setting `restore.jobs.v1`. -/
  stored : List RestoreJob
  /-- The jobs whose restore task Proxmox started, one entry for each task. -/
  tasks : List String
  /-- The ids that `enqueueRestoreJob` has made. -/
  ids : List String

/-- A process that has just started. -/
def freshProcess (stored : List RestoreJob) (tasks ids : List String) : RestoreState where
  objects := fun _ => none
  created := 0
  queue := []
  writing := none
  timers := []
  resuming := .due
  stored := stored
  tasks := tasks
  ids := ids

namespace RestoreState

/-- `jobs.get(id)`. -/
def find (s : RestoreState) (id : String) : Option Nat :=
  (List.range s.created).find? fun n =>
    (s.objects n).any fun o => o.inMap && o.job.id = id

/-- `[...jobs.values()].map(storedJob)`. -/
def rows (s : RestoreState) : List RestoreJob :=
  (List.range s.created).filterMap fun n =>
    ((s.objects n).filter (·.inMap)).map (·.job)

def put (s : RestoreState) (n : Nat) (o : JobObject) : RestoreState :=
  { s with objects := Function.update s.objects n (some o) }

/-- A new object. -/
def add (s : RestoreState) (o : JobObject) : RestoreState :=
  { s with
    objects := Function.update s.objects s.created (some o)
    created := s.created + 1 }

/-- `jobs.delete(id)`. -/
def unmap (s : RestoreState) (id : String) : RestoreState :=
  { s with objects := fun n => (s.objects n).map fun o => o.leave id }

/-- `persistJobs()`, awaited by a worker or by nobody. -/
def save (s : RestoreState) (owner : Option Nat) : RestoreState :=
  { s with queue := s.queue ++ [owner] }

/-! ## The worker -/

/-- The `catch` of `runRestoreJob`, up to its `persistJobs`. -/
def fail (s : RestoreState) (n : Nat) (o : JobObject) (now : Nat) (message : String) :
    RestoreState :=
  match s.find o.job.id with
  | none => s.put n { o with pc := none }
  | some m =>
      let s := s.put n { o with pc := some .saveError }
      match s.objects m with
      | none => s
      | some current =>
          (s.put m { current with
            job := { current.job with
              phase := .error, error := some message, errorAt := some now } }).save (some n)

/-- The head of the loop over the attempts. -/
def enterLoop (s : RestoreState) (n : Nat) (o : JobObject) (attempt now : Nat) : RestoreState :=
  if attempt ≤ 50 then
    (s.put n { o with
      job := { o.job with attempt := attempt }, pc := some (.saveAttempt attempt) }).save (some n)
  else s.fail n o now "Gast läuft noch und konnte nicht heruntergefahren werden"

/-- The task id and the phase noted in the job, then a write. -/
def note (s : RestoreState) (n : Nat) (o : JobObject) (upid : Text) (pc : WorkerPc) :
    RestoreState :=
  (s.put n { o with job := { o.job with upid := upid, phase := .running }, pc := some pc }).save
    (some n)

/-- `runRestoreJob` up to its first write. -/
def launch (s : RestoreState) (n : Nat) (o : JobObject) (now : Nat) : RestoreState :=
  if o.job.upid = [] then s.enterLoop n o o.job.attempt now
  else s.note n o o.job.upid (.saveRunning o.job.upid)

/-- The job taken out of the map, then a write. -/
def finish (s : RestoreState) (n : Nat) (o : JobObject) : RestoreState :=
  ((s.put n { o with pc := some .saveDelete }).unmap o.job.id).save (some n)

/-- The end of a failed job: a timer to forget it. -/
def endFailed (s : RestoreState) (n : Nat) (o : JobObject) : RestoreState :=
  { s.put n { o with pc := none } with timers := o.job.id :: s.timers }

/-- What a worker does when its write is done. -/
def saved (s : RestoreState) (n : Nat) : RestoreState :=
  match s.objects n with
  | none => s
  | some o =>
      match o.pc with
      | some (.saveAttempt attempt) => s.put n { o with pc := some (.restoring attempt) }
      | some (.saveUpid upid) => s.note n o upid (.saveRunning upid)
      | some (.saveRunning upid) =>
          if isUpid upid then s.put n { o with pc := some (.waiting upid) } else s.finish n o
      | some .saveDelete => s.put n { o with pc := none }
      | some .saveError => s.endFailed n o
      | _ => s

/-- What a worker does when its write has failed. -/
def notSaved (s : RestoreState) (n now : Nat) (message : String) : RestoreState :=
  match s.objects n with
  | none => s
  | some o =>
      match o.pc with
      | some (.saveAttempt _) | some (.saveUpid _) | some (.saveRunning _) =>
          s.fail n o now message
      | some .saveDelete => (s.unmap o.job.id).put n { o with inMap := true, pc := none }
      | some .saveError => s.endFailed n o
      | _ => s

/-- What a worker does with the answer to its call. -/
def answered (s : RestoreState) (n : Nat) (o : JobObject) (attempt now : Nat) :
    Except String (Option Text) → RestoreState
  | .error message => s.fail n o now message
  | .ok none => s.put n { o with pc := some (.sleeping attempt) }
  | .ok (some upid) =>
      if upid = [] then s.fail n o now "Wiederherstellung konnte nicht gestartet werden"
      else s.note n o upid (.saveUpid upid)

end RestoreState

/-! ## Events -/

/-- What comes of the call to the host: no client, or an attempt with what it
learned, whether Proxmox started the task and what came back.  An error can
hide a task that was started. -/
inductive RestoreOutcome : Type
  | unreachable (message : String)
  | tried (answers : RestoreAnswers) (accepted : Bool) (reply : Except String Text)

/-- The result of the call and whether it started a task. -/
def RestoreOutcome.result (outcome : RestoreOutcome) (body : RestoreBody) (attempt : Nat) :
    Except String (Option Text) × Bool :=
  match outcome with
  | .unreachable message => (.error message, false)
  | .tried answers accepted reply =>
      if (restoreBackup answers body (18 ≤ attempt)).2 then (reply.map fun _ => none, false)
      else
        match reply with
        | .error message => (.error message, accepted)
        | .ok upid => (.ok (some upid), accepted || upid ≠ [])

/-- The end of a write: a failed one may have reached the database. -/
inductive WriteOutcome : Type
  | done
  | failed (landed : Bool) (message : String)

/-- What `loadSessionUser` finds. -/
inductive UserLookup : Type
  | found | missing | failed

inductive RestoreEvent : Type
  | enqueue (id : String) (input : RestoreInput) (now : Nat)
  | beginWrite
  | endWrite (outcome : WriteOutcome) (now : Nat)
  | restore (worker : Nat) (outcome : RestoreOutcome)
  | answer (worker now : Nat)
  | wake (worker now : Nat)
  | taskEnded (worker : Nat) (failure : Option String) (now : Nat)
  | forget (id : String)
  | resumeRead (readable : Bool)
  | resumeRow (user : UserLookup) (now : Nat)
  | crash (landed : Bool)

namespace RestoreState

/-- A stored row whose user is looked up; nothing else works on a job without a worker. -/
def resume (s : RestoreState) (row : RestoreJob) (rest : List RestoreJob) (user : UserLookup)
    (now : Nat) : RestoreState :=
  let next := { s with resuming := .rows rest }
  if (s.find row.id).isSome || row.isExpired now then next
  else
    let o : JobObject := ⟨row, true, none⟩
    if row.phase = .error then next.add o
    else
      match user with
      | .found => (next.add o).launch s.created o now
      | .missing =>
          next.add { o with
            job := { row with
              phase := .error, error := some "Restore-Benutzer nicht mehr vorhanden",
              errorAt := some now } }
      | .failed => { s.add o with resuming := .finished }

/-- The worker `n`, when it waits at a place that `at?` knows. -/
def worker {α : Type} (s : RestoreState) (n : Nat) (at? : WorkerPc → Option α) :
    Option (JobObject × α) :=
  (s.objects n).bind fun o => (o.pc.bind at?).map fun a => (o, a)

/-- One event.  The new id of a job differs from all before: it holds a random part. -/
def step (s : RestoreState) : RestoreEvent → Option RestoreState
  | .enqueue id input now =>
      if id ∈ s.ids then none
      else
        let o : JobObject := ⟨newRestoreJob id input now, true, none⟩
        some ((({ s with ids := id :: s.ids }.add o).save none).launch s.created o now)
  | .beginWrite =>
      match s.writing, s.queue with
      | none, owner :: rest => some { s with queue := rest, writing := some (owner, s.rows) }
      | _, _ => none
  | .endWrite outcome now =>
      match s.writing with
      | none => none
      | some (owner, snapshot) =>
          let settled := { s with writing := none }
          match outcome with
          | .done =>
              let wrote := { settled with stored := snapshot }
              some (owner.elim wrote wrote.saved)
          | .failed landed message =>
              let left := { settled with stored := if landed then snapshot else s.stored }
              some (owner.elim left fun n => left.notSaved n now message)
  | .restore n outcome =>
      (s.worker n fun pc => match pc with | .restoring attempt => some attempt | _ => none).map
        fun (o, attempt) =>
          let (result, started) := outcome.result o.job.toRestoreBody attempt
          { s.put n { o with pc := some (.answered attempt result) } with
            tasks := if started then o.job.id :: s.tasks else s.tasks }
  | .answer n now =>
      (s.worker n fun pc =>
          match pc with | .answered attempt result => some (attempt, result) | _ => none).map
        fun (o, attempt, result) => s.answered n o attempt now result
  | .wake n now =>
      (s.worker n fun pc => match pc with | .sleeping attempt => some attempt | _ => none).map
        fun (o, attempt) => s.enterLoop n o (attempt + 1) now
  | .taskEnded n failure now =>
      (s.worker n fun pc => match pc with | .waiting upid => some upid | _ => none).map
        fun (o, _) =>
          match failure with
          | some message => s.fail n o now message
          | none => s.finish n o
  | .forget id =>
      if id ∈ s.timers then
        let rung := { s with timers := s.timers.erase id }
        match (s.find id).bind s.objects with
        | some o => if o.job.phase = .error then some ((rung.unmap id).save none) else some rung
        | none => some rung
      else none
  | .resumeRead readable =>
      match s.resuming with
      | .due =>
          some { s with resuming := if readable then .rows (parseStored s.stored) else .finished }
      | _ => none
  | .resumeRow user now =>
      match s.resuming with
      | .rows (row :: rest) => some (s.resume row rest user now)
      | .rows [] => some ({ s with resuming := .finished }.save none)
      | _ => none
  | .crash landed =>
      let stored :=
        match s.writing, landed with
        | some (_, snapshot), true => snapshot
        | _, _ => s.stored
      some (freshProcess stored s.tasks s.ids)

end RestoreState

/-! ## What a state keeps -/

/-- The worker may still be in its loop. -/
def WorkerPc.Active : WorkerPc → Prop
  | .saveAttempt _ | .restoring _ | .answered _ _ | .sleeping _ => True
  | _ => False

/-- The worker can go on to a restore call. -/
def WorkerPc.MayStart : WorkerPc → Prop
  | .saveAttempt _ | .restoring _ | .answered _ (.ok none) | .sleeping _ => True
  | _ => False

/-- The worker holds a task id. -/
def WorkerPc.HasTask : WorkerPc → Prop
  | .answered _ (.ok (some upid)) => upid ≠ []
  | .saveUpid _ | .saveRunning _ | .waiting _ | .saveDelete => True
  | _ => False

/-- The worker has not failed. -/
def WorkerPc.Live : WorkerPc → Prop
  | .saveError => False
  | _ => True

theorem WorkerPc.Active.live {pc : WorkerPc} (active : pc.Active) : pc.Live := by
  cases pc <;> first | exact trivial | exact active

theorem WorkerPc.MayStart.active {pc : WorkerPc} (may : pc.MayStart) : pc.Active := by
  cases pc <;> first | exact trivial | exact may

/-- A worker past its loop holds a task id. -/
theorem WorkerPc.Live.active_or_hasTask {pc : WorkerPc} (live : pc.Live) :
    pc.Active ∨ pc.HasTask := by
  cases pc <;> first | exact .inl trivial | exact .inr trivial | exact live.elim

/-- The object has a worker, and it waits at such a place. -/
def JobObject.At (o : JobObject) (P : WorkerPc → Prop) : Prop := ∃ pc, o.pc = some pc ∧ P pc

theorem JobObject.at_iff {o : JobObject} {pc : WorkerPc} (known : o.pc = some pc)
    {P : WorkerPc → Prop} : o.At P ↔ P pc := by
  simp [JobObject.At, known]

theorem JobObject.At.mono {o : JobObject} {P Q : WorkerPc → Prop} (reached : o.At P)
    (weaker : ∀ {pc}, P pc → Q pc) : o.At Q := by
  obtain ⟨pc, known, holds⟩ := reached
  exact ⟨pc, known, weaker holds⟩

theorem JobObject.not_at_place {o : JobObject} {pc : WorkerPc} (known : o.pc = some pc)
    {P : WorkerPc → Prop} (never : ¬ P pc) : ¬ o.At P :=
  fun reached => never ((JobObject.at_iff known).mp reached)

theorem JobObject.not_at {o : JobObject} (idle : o.pc = none) {P : WorkerPc → Prop} : ¬ o.At P := by
  simp [JobObject.At, idle]

@[simp] theorem JobObject.leave_job (o : JobObject) (id : String) : (o.leave id).job = o.job := by
  unfold JobObject.leave
  split <;> rfl

@[simp] theorem JobObject.leave_at (o : JobObject) (id : String) {P : WorkerPc → Prop} :
    (o.leave id).At P ↔ o.At P := by
  unfold JobObject.leave
  split <;> rfl

theorem JobObject.leave_inMap {o : JobObject} {id : String} :
    (o.leave id).inMap = true ↔ o.inMap = true ∧ o.job.id ≠ id := by
  unfold JobObject.leave
  split
  · next same => simp [same]
  · next other => simp [other]

/-- What holds of every object, given the jobs whose task was started. -/
structure JobObject.Sound (tasks : List String) (o : JobObject) : Prop where
  active : o.At WorkerPc.Active → o.inMap = true ∧ o.job.phase ≠ .error
  mayStart : o.At WorkerPc.MayStart → o.job.id ∉ tasks
  hasTask : o.At WorkerPc.HasTask → o.job.id ∈ tasks
  upid : o.job.upid ≠ [] → o.job.id ∈ tasks

/-- A worker that stops is nowhere but in its last write. -/
theorem JobObject.not_at_of_stops {o : JobObject} {pc : Option WorkerPc}
    (stops : pc = none ∨ pc = some .saveError) {P : WorkerPc → Prop} (never : ¬ P .saveError) :
    ¬ ({ o with pc := pc } : JobObject).At P := by
  intro reached
  obtain ⟨place, same, holds⟩ := reached
  rcases stops with rfl | rfl
  · cases same
  · cases same
    exact never holds

theorem JobObject.Sound.stop {o : JobObject} {tasks : List String} (good : o.Sound tasks)
    {pc : Option WorkerPc} (stops : pc = none ∨ pc = some .saveError) :
    ({ o with pc := pc } : JobObject).Sound tasks where
  active := fun active => absurd active (JobObject.not_at_of_stops stops id)
  mayStart := fun may => absurd may (JobObject.not_at_of_stops stops id)
  hasTask := fun has => absurd has (JobObject.not_at_of_stops stops id)
  upid := good.upid

/-- An id given out; with a task id, one whose task was started. -/
def RestoreJob.Known (tasks ids : List String) (row : RestoreJob) : Prop :=
  row.id ∈ ids ∧ (row.upid ≠ [] → row.id ∈ tasks)

/-- The invariant. -/
structure RestoreState.Sound (s : RestoreState) : Prop where
  once : s.tasks.Nodup
  given : ∀ id ∈ s.tasks, id ∈ s.ids
  bound : ∀ n, s.created ≤ n → s.objects n = none
  known : ∀ n o, s.objects n = some o → o.job.id ∈ s.ids
  object : ∀ n o, s.objects n = some o → o.Sound s.tasks
  /-- The map has one object under an id. -/
  distinct : ∀ m n a b, s.objects m = some a → s.objects n = some b → a.inMap = true →
    b.inMap = true → a.job.id = b.job.id → m = n
  /-- A worker in its loop is the only one of its job. -/
  alone : ∀ m n a b, m ≠ n → s.objects m = some a → s.objects n = some b →
    a.job.id = b.job.id → a.At WorkerPc.Active → ¬ b.At WorkerPc.Live
  stored : ∀ row ∈ s.stored, row.Known s.tasks s.ids
  writing : ∀ owner snapshot, s.writing = some (owner, snapshot) →
    ∀ row ∈ snapshot, row.Known s.tasks s.ids
  resuming : ∀ left, s.resuming = .rows left → ∀ row ∈ left, row.Known s.tasks s.ids

namespace RestoreState

variable {s : RestoreState} {n : Nat} {o : JobObject}

@[simp] theorem put_self : (s.put n o).objects n = some o := Function.update_self _ _ _

theorem put_other {m : Nat} (other : m ≠ n) : (s.put n o).objects m = s.objects m :=
  Function.update_of_ne other _ _

@[simp] theorem add_self : (s.add o).objects s.created = some o := Function.update_self _ _ _

/-- The start of a process, with or without jobs stored. -/
theorem sound_freshProcess {stored : List RestoreJob} {tasks ids : List String}
    (once : tasks.Nodup) (given : ∀ id ∈ tasks, id ∈ ids)
    (known : ∀ row ∈ stored, row.Known tasks ids) : (freshProcess stored tasks ids).Sound where
  once := once
  given := given
  bound := fun _ _ => rfl
  known := by
    intro n o found
    cases found
  object := by
    intro n o found
    cases found
  distinct := by
    intro m n a b found
    cases found
  alone := by
    intro m n a b _ found
    cases found
  stored := known
  writing := by
    intro owner snapshot writing
    cases writing
  resuming := by
    intro left rows
    cases rows

/-- What a new or changed object has to meet. -/
structure Fits (s : RestoreState) (n : Nat) (o : JobObject) : Prop where
  known : o.job.id ∈ s.ids
  sound : o.Sound s.tasks
  distinct : o.inMap = true → ∀ m a, m ≠ n → s.objects m = some a → a.inMap = true →
    a.job.id ≠ o.job.id
  live : o.At WorkerPc.Live → ∀ m a, m ≠ n → s.objects m = some a → a.job.id = o.job.id →
    ¬ a.At WorkerPc.Active
  active : o.At WorkerPc.Active → ∀ m a, m ≠ n → s.objects m = some a → a.job.id = o.job.id →
    ¬ a.At WorkerPc.Live

theorem Sound.update (sound : s.Sound) (fits : s.Fits n o) {created : Nat}
    (more : s.created ≤ created) (inside : n < created) :
    Sound { s with objects := Function.update s.objects n (some o), created := created } := by
  exact
    { once := sound.once
      given := sound.given
      bound := by
        intro m above
        have other : m ≠ n := (inside.trans_le above).ne'
        exact (Function.update_of_ne other _ _).trans (sound.bound m (more.trans above))
      known := by
        intro m a found
        rcases update_eq_some found with ⟨rfl, rfl⟩ | ⟨_, old⟩
        · exact fits.known
        · exact sound.known m a old
      object := by
        intro m a found
        rcases update_eq_some found with ⟨rfl, rfl⟩ | ⟨_, old⟩
        · exact fits.sound
        · exact sound.object m a old
      distinct := by
        intro m m' a b found found' mapped mapped' id
        rcases update_eq_some found with ⟨rfl, rfl⟩ | ⟨other, old⟩ <;>
          rcases update_eq_some found' with ⟨rfl, rfl⟩ | ⟨other', old'⟩
        · rfl
        · exact absurd id.symm (fits.distinct mapped m' b other' old' mapped')
        · exact absurd id (fits.distinct mapped' m a other old mapped)
        · exact sound.distinct m m' a b old old' mapped mapped' id
      alone := by
        intro m m' a b different found found' id active
        rcases update_eq_some found with ⟨rfl, rfl⟩ | ⟨other, old⟩ <;>
          rcases update_eq_some found' with ⟨rfl, rfl⟩ | ⟨other', old'⟩
        · exact absurd rfl different
        · exact fits.active active m' b other' old' id.symm
        · exact fun live => fits.live live m a other old id active
        · exact sound.alone m m' a b different old old' id active
      stored := sound.stored
      writing := sound.writing
      resuming := sound.resuming }

theorem Sound.lt_created (sound : s.Sound) (found : s.objects n = some o) : n < s.created := by
  by_contra above
  rw [sound.bound n (by omega)] at found
  cases found

theorem Sound.put (sound : s.Sound) {old : JobObject} (found : s.objects n = some old)
    (fits : s.Fits n o) : (s.put n o).Sound :=
  sound.update fits le_rfl (sound.lt_created found)

theorem Sound.add (sound : s.Sound) (fits : s.Fits s.created o) : (s.add o).Sound :=
  sound.update fits (Nat.le_succ _) (Nat.lt_succ_self _)

theorem Sound.save (sound : s.Sound) (owner : Option Nat) : (s.save owner).Sound :=
  { sound with }

/-- A change of an object that neither enters the map nor the loop. -/
theorem Sound.fits (sound : s.Sound) {old : JobObject} (found : s.objects n = some old)
    (id : o.job.id = old.job.id) (good : o.Sound s.tasks)
    (mapped : o.inMap = true → old.inMap = true)
    (live : o.At WorkerPc.Live → old.At WorkerPc.Live)
    (active : o.At WorkerPc.Active → old.At WorkerPc.Active) : s.Fits n o where
  known := id ▸ sound.known n old found
  sound := good
  distinct := by
    intro inMap m a different foundA mappedA same
    exact different (sound.distinct m n a old foundA found mappedA (mapped inMap) (same.trans id))
  live := by
    intro isLive m a different foundA same isActive
    exact sound.alone m n a old different foundA found (same.trans id) isActive (live isLive)
  active := by
    intro isActive m a different foundA same isLive
    exact sound.alone n m old a (Ne.symm different) found foundA (id.symm.trans same.symm)
      (active isActive) isLive

/-- The object found under an id. -/
theorem find_some {id : String} {m : Nat} (found : s.find id = some m) :
    ∃ a, s.objects m = some a ∧ a.inMap = true ∧ a.job.id = id := by
  have holds := List.find?_some found
  rw [Option.any_eq_true] at holds
  obtain ⟨a, same, test⟩ := holds
  rw [Bool.and_eq_true, decide_eq_true_eq] at test
  exact ⟨a, same, test⟩

theorem Sound.find_none (sound : s.Sound) {id : String} (none : s.find id = none) {m : Nat}
    {a : JobObject} (found : s.objects m = some a) (mapped : a.inMap = true) : a.job.id ≠ id := by
  intro same
  have missing := List.find?_eq_none.mp none m (List.mem_range.mpr (sound.lt_created found))
  rw [found, Option.any_some, mapped, same] at missing
  exact missing (by simp)

theorem unmap_objects {id : String} {m : Nat} {a : JobObject}
    (found : (s.unmap id).objects m = some a) :
    ∃ old, s.objects m = some old ∧ a = old.leave id := by
  obtain ⟨old, same, rfl⟩ := Option.map_eq_some_iff.mp found
  exact ⟨old, same, rfl⟩

/-- An id without a worker in its loop can be deleted from the map. -/
theorem Sound.unmap (sound : s.Sound) {id : String}
    (idle : ∀ m a, s.objects m = some a → a.job.id = id → ¬ a.At WorkerPc.Active) :
    (s.unmap id).Sound where
  once := sound.once
  given := sound.given
  bound := by
    intro n above
    show (s.objects n).map _ = none
    rw [sound.bound n above]
    rfl
  known := by
    intro n a found
    obtain ⟨old, same, rfl⟩ := unmap_objects found
    rw [JobObject.leave_job]
    exact sound.known n old same
  object := by
    intro n a found
    obtain ⟨old, same, rfl⟩ := unmap_objects found
    have good := sound.object n old same
    constructor
    · rw [JobObject.leave_at, JobObject.leave_inMap, JobObject.leave_job]
      intro active
      have kept := good.active active
      exact ⟨⟨kept.1, fun named => idle n old same named active⟩, kept.2⟩
    · rw [JobObject.leave_at, JobObject.leave_job]
      exact good.mayStart
    · rw [JobObject.leave_at, JobObject.leave_job]
      exact good.hasTask
    · rw [JobObject.leave_job]
      exact good.upid
  distinct := by
    intro m n a b foundA foundB mapA mapB same
    obtain ⟨oldA, sameA, rfl⟩ := unmap_objects foundA
    obtain ⟨oldB, sameB, rfl⟩ := unmap_objects foundB
    rw [JobObject.leave_job, JobObject.leave_job] at same
    exact sound.distinct m n oldA oldB sameA sameB (JobObject.leave_inMap.mp mapA).1
      (JobObject.leave_inMap.mp mapB).1 same
  alone := by
    intro m n a b different foundA foundB same active
    obtain ⟨oldA, sameA, rfl⟩ := unmap_objects foundA
    obtain ⟨oldB, sameB, rfl⟩ := unmap_objects foundB
    rw [JobObject.leave_job, JobObject.leave_job] at same
    rw [JobObject.leave_at] at active ⊢
    exact sound.alone m n oldA oldB different sameA sameB same active
  stored := sound.stored
  writing := sound.writing
  resuming := sound.resuming

/-! ## One event after the other -/

/-- No other worker of the job is in its loop. -/
def Apart (s : RestoreState) (n : Nat) (o : JobObject) : Prop :=
  ∀ m a, m ≠ n → s.objects m = some a → a.job.id = o.job.id → ¬ a.At WorkerPc.Active

theorem Sound.apart_of_live (sound : s.Sound) (found : s.objects n = some o)
    (live : o.At WorkerPc.Live) : s.Apart n o := by
  intro m a different other same active
  exact sound.alone m n a o different other found same active live

theorem Sound.apart_of_inMap (sound : s.Sound) (found : s.objects n = some o)
    (mapped : o.inMap = true) : s.Apart n o := by
  intro m a different other same active
  have also := (sound.object m a other).active active
  exact different (sound.distinct m n a o other found also.1 mapped same)

theorem Sound.stop (sound : s.Sound) (found : s.objects n = some o) {pc : Option WorkerPc}
    (stops : pc = none ∨ pc = some .saveError) : (s.put n { o with pc := pc }).Sound := by
  refine sound.put found (sound.fits found rfl ((sound.object n o found).stop stops) id ?_ ?_)
  · exact fun live => absurd live (JobObject.not_at_of_stops stops id)
  · exact fun active => absurd active (JobObject.not_at_of_stops stops id)

/-- The `catch` of a worker that is apart from the others. -/
theorem Sound.fail (sound : s.Sound) (found : s.objects n = some o) (apart : s.Apart n o)
    (now : Nat) (message : String) : (s.fail n o now message).Sound := by
  unfold RestoreState.fail
  split
  · exact sound.stop found (.inl rfl)
  · next m named =>
      obtain ⟨a, other, mapped, same⟩ := find_some named
      have stopped := sound.stop found (.inr rfl)
      simp only
      split
      · exact stopped
      · next current held =>
          refine Sound.save (stopped.put held ?_) _
          refine stopped.fits held rfl ?_ id id id
          have good := stopped.object m current held
          refine ⟨fun active => ?_, good.mayStart, good.hasTask, good.upid⟩
          exfalso
          by_cases itself : m = n
          · subst itself
            rw [put_self, Option.some.injEq] at held
            subst held
            exact (JobObject.at_iff rfl).mp active
          · rw [put_other itself, other, Option.some.injEq] at held
            subst held
            exact apart m a itself other same active

/-- No other worker of the job can start a task or holds one. -/
def Alone (s : RestoreState) (n : Nat) (o : JobObject) : Prop :=
  ∀ m a, m ≠ n → s.objects m = some a → a.job.id = o.job.id → ¬ a.At WorkerPc.Live

/-- The loop is entered by a job in the map without a task. -/
theorem Sound.enterLoop (sound : s.Sound) (found : s.objects n = some o) (mapped : o.inMap = true)
    (phase : o.job.phase ≠ .error) (free : o.job.id ∉ s.tasks) (alone : s.Alone n o)
    (attempt now : Nat) : (s.enterLoop n o attempt now).Sound := by
  have apart := sound.apart_of_inMap found mapped
  unfold RestoreState.enterLoop
  split
  · refine Sound.save (sound.put found ?_) _
    exact
      { known := sound.known n o found
        sound :=
          { active := fun _ => ⟨mapped, phase⟩
            mayStart := fun _ => free
            hasTask := fun has => absurd has (JobObject.not_at_place rfl id)
            upid := (sound.object n o found).upid }
        distinct := fun _ m a different other also same =>
          different (sound.distinct m n a o other found also mapped same)
        live := fun _ => apart
        active := fun _ => alone }
  · exact sound.fail found apart now _

/-- The task id is noted by a worker whose job has a task. -/
theorem Sound.note (sound : s.Sound) (found : s.objects n = some o) (task : o.job.id ∈ s.tasks)
    (apart : s.Apart n o) (upid : Text) {pc : WorkerPc} (past : ¬ pc.Active) :
    (s.note n o upid pc).Sound := by
  refine Sound.save (sound.put found ?_) _
  have busy : ∀ {P : WorkerPc → Prop} {job : RestoreJob},
      JobObject.At ⟨job, o.inMap, some pc⟩ P → P pc := (JobObject.at_iff rfl).mp
  have may : ¬ pc.MayStart := by
    intro starts
    cases pc <;> first | exact past trivial | exact starts
  exact
    { known := sound.known n o found
      sound :=
        { active := fun active => absurd (busy active) past
          mayStart := fun starts => absurd (busy starts) may
          hasTask := fun _ => task
          upid := fun _ => task }
      distinct := fun mapped m a different other also same =>
        different (sound.distinct m n a o other found also mapped same)
      live := fun _ => apart
      active := fun active => absurd (busy active) past }

/-- `runRestoreJob` on a job in the map, with a task id or without a task. -/
theorem Sound.launch (sound : s.Sound) (found : s.objects n = some o) (mapped : o.inMap = true)
    (phase : o.job.phase ≠ .error)
    (free : o.job.upid = [] → o.job.id ∉ s.tasks ∧ s.Alone n o) (now : Nat) :
    (s.launch n o now).Sound := by
  unfold RestoreState.launch
  split
  · next empty =>
      exact sound.enterLoop found mapped phase (free empty).1 (free empty).2 _ now
  · next given =>
      exact sound.note found ((sound.object n o found).upid given)
        (sound.apart_of_inMap found mapped) _ id

/-- A worker that takes its job out of the map. -/
theorem Sound.finish (sound : s.Sound) (found : s.objects n = some o) (task : o.job.id ∈ s.tasks)
    (live : o.At WorkerPc.Live) : (s.finish n o).Sound := by
  have apart := sound.apart_of_live found live
  have busy : ∀ {P : WorkerPc → Prop},
      JobObject.At { o with pc := some .saveDelete } P → P .saveDelete := (JobObject.at_iff rfl).mp
  have left : (s.put n { o with pc := some .saveDelete }).Sound := by
    refine sound.put found ?_
    refine sound.fits found rfl ?_ id (fun _ => live) (fun active => (busy active).elim)
    exact
      { active := fun active => (busy active).elim
        mayStart := fun starts => (busy starts).elim
        hasTask := fun _ => task
        upid := (sound.object n o found).upid }
  refine Sound.save (left.unmap ?_) _
  intro m a held same active
  by_cases itself : m = n
  · subst itself
    rw [put_self, Option.some.injEq] at held
    subst held
    exact busy active
  · rw [put_other itself] at held
    exact apart m a itself held same active

/-- A finished job whose deletion was not saved goes back into the map. -/
theorem Sound.restore (sound : s.Sound) (found : s.objects n = some o)
    (live : o.At WorkerPc.Live) (past : ¬ o.At WorkerPc.Active) :
    ((s.unmap o.job.id).put n { o with inMap := true, pc := none }).Sound := by
  have apart := sound.apart_of_live found live
  have idle : ∀ m a, s.objects m = some a → a.job.id = o.job.id → ¬ a.At WorkerPc.Active := by
    intro m a held same active
    by_cases itself : m = n
    · rw [itself, found, Option.some.injEq] at held
      exact past (held ▸ active)
    · exact apart m a itself held same active
  have left : (s.unmap o.job.id).objects n = some (o.leave o.job.id) := by
    show (s.objects n).map _ = _
    rw [found]
    rfl
  refine (sound.unmap idle).put left ?_
  have good := (sound.object n o found).stop (.inl rfl)
  exact
    { known := sound.known n o found
      sound :=
        { active := fun active => absurd active (JobObject.not_at rfl)
          mayStart := fun starts => absurd starts (JobObject.not_at rfl)
          hasTask := fun has => absurd has (JobObject.not_at rfl)
          upid := good.upid }
      distinct := by
        intro _ m a _ held also same
        obtain ⟨old, _, rfl⟩ := unmap_objects held
        rw [JobObject.leave_job] at same
        exact (JobObject.leave_inMap.mp also).2 same
      live := fun live => absurd live (JobObject.not_at rfl)
      active := fun active => absurd active (JobObject.not_at rfl) }

/-- A worker that moves on in its loop. -/
theorem Sound.moveOn (sound : s.Sound) (found : s.objects n = some o) {pc next : WorkerPc}
    (place : o.pc = some pc) (active : pc.Active) (free : pc.MayStart)
    (past : ¬ next.HasTask) : (s.put n { o with pc := some next }).Sound := by
  have good := sound.object n o found
  have was : o.At WorkerPc.Active := ⟨pc, place, active⟩
  refine sound.put found ?_
  refine sound.fits found rfl ?_ id (fun _ => ⟨pc, place, active.live⟩) (fun _ => was)
  exact
    { active := fun _ => good.active was
      mayStart := fun _ => good.mayStart ⟨pc, place, free⟩
      hasTask := fun has => absurd ((JobObject.at_iff rfl).mp has) past
      upid := good.upid }

theorem Sound.endFailed (sound : s.Sound) (found : s.objects n = some o) :
    (s.endFailed n o).Sound :=
  { sound.stop found (.inl rfl) with }

theorem Sound.saved (sound : s.Sound) (n : Nat) : (s.saved n).Sound := by
  unfold RestoreState.saved
  split
  · exact sound
  · next o found =>
      have good := sound.object n o found
      split
      · next attempt place => exact sound.moveOn found place trivial trivial id
      · next upid place =>
          exact sound.note found (good.hasTask ⟨_, place, trivial⟩)
            (sound.apart_of_live found ⟨_, place, trivial⟩) upid id
      · next upid place =>
          have task := good.hasTask ⟨_, place, trivial⟩
          have live : o.At WorkerPc.Live := ⟨_, place, trivial⟩
          split
          · refine sound.put found ?_
            refine sound.fits found rfl ?_ id (fun _ => live) ?_
            · exact
                { active := fun active => absurd active (JobObject.not_at_place rfl id)
                  mayStart := fun starts => absurd starts (JobObject.not_at_place rfl id)
                  hasTask := fun _ => task
                  upid := good.upid }
            · exact fun active => absurd active (JobObject.not_at_place rfl id)
          · exact sound.finish found task live
      · exact sound.stop found (.inl rfl)
      · exact sound.endFailed found
      · exact sound

theorem Sound.notSaved (sound : s.Sound) (n now : Nat) (message : String) :
    (s.notSaved n now message).Sound := by
  unfold RestoreState.notSaved
  split
  · exact sound
  · next o found =>
      split
      · next attempt place =>
          exact sound.fail found (sound.apart_of_live found ⟨_, place, trivial⟩) now message
      · next upid place =>
          exact sound.fail found (sound.apart_of_live found ⟨_, place, trivial⟩) now message
      · next upid place =>
          exact sound.fail found (sound.apart_of_live found ⟨_, place, trivial⟩) now message
      · next place =>
          exact sound.restore found ⟨_, place, trivial⟩ fun active =>
            absurd active (JobObject.not_at_place place id)
      · exact sound.endFailed found
      · exact sound

/-- A call that comes back with a task id has started a task, one that found the guest
stopping has not. -/
theorem started_of_result (outcome : RestoreOutcome) (body : RestoreBody) (attempt : Nat) :
    ((outcome.result body attempt).2 = true → (outcome.result body attempt).1 ≠ .ok none) ∧
      ∀ upid ≠ [], (outcome.result body attempt).1 = .ok (some upid) →
        (outcome.result body attempt).2 = true := by
  unfold RestoreOutcome.result
  cases outcome with
  | unreachable message => simp
  | tried answers accepted reply =>
      simp only
      split
      · cases reply <;> simp [Except.map]
      · cases reply with
        | error message => simp
        | ok upid => simp +contextual

/-- A task is started for a job without one, whose workers cannot start another. -/
theorem Sound.start (sound : s.Sound) {id : String} (fresh : id ∉ s.tasks) (given : id ∈ s.ids)
    (idle : ∀ m a, s.objects m = some a → a.job.id = id → ¬ a.At WorkerPc.MayStart) :
    Sound { s with tasks := id :: s.tasks } where
  once := List.nodup_cons.mpr ⟨fresh, sound.once⟩
  given := List.forall_mem_cons.mpr ⟨given, sound.given⟩
  bound := sound.bound
  known := sound.known
  object := by
    intro m a held
    have good := sound.object m a held
    constructor
    · exact good.active
    · intro may
      rw [List.mem_cons, not_or]
      exact ⟨fun same => idle m a held same may, good.mayStart may⟩
    · exact fun has => List.mem_cons_of_mem _ (good.hasTask has)
    · exact fun upid => List.mem_cons_of_mem _ (good.upid upid)
  distinct := sound.distinct
  alone := sound.alone
  stored := fun row member => (sound.stored row member).imp_right fun task upid =>
    List.mem_cons_of_mem _ (task upid)
  writing := fun owner snapshot writes row member =>
    (sound.writing owner snapshot writes row member).imp_right fun task upid =>
      List.mem_cons_of_mem _ (task upid)
  resuming := fun left rows row member =>
    (sound.resuming left rows row member).imp_right fun task upid =>
      List.mem_cons_of_mem _ (task upid)

/-- A call to the host. -/
theorem Sound.call (sound : s.Sound) (found : s.objects n = some o) {attempt : Nat}
    (place : o.pc = some (.restoring attempt)) {result : Except String (Option Text)}
    {started : Bool} (moves : started = true → result ≠ .ok none)
    (starts : ∀ upid ≠ [], result = .ok (some upid) → started = true) :
    Sound { s.put n { o with pc := some (.answered attempt result) } with
      tasks := if started then o.job.id :: s.tasks else s.tasks } := by
  have good := sound.object n o found
  have was : o.At WorkerPc.Active := ⟨_, place, trivial⟩
  have free : o.job.id ∉ s.tasks := good.mayStart ⟨_, place, trivial⟩
  cases started with
  | false =>
      refine sound.put found ?_
      refine sound.fits found rfl ?_ id (fun _ => was.mono WorkerPc.Active.live) (fun _ => was)
      refine ⟨fun _ => good.active was, fun _ => free, fun has => ?_, good.upid⟩
      obtain ⟨pc, known, holds⟩ := has
      cases known
      rcases result with message | _ | upid
      · exact holds.elim
      · exact holds.elim
      · exact absurd (starts upid holds rfl) Bool.false_ne_true
  | true =>
      have alone : s.Alone n o := fun m a different other same =>
        sound.alone n m o a different.symm found other same.symm was
      have bare := sound.stop found (.inl rfl)
      have begun := bare.start free (sound.known n o found) (by
        intro m a held same may
        by_cases itself : m = n
        · rw [itself, put_self, Option.some.injEq] at held
          subst held
          exact JobObject.not_at rfl may
        · rw [put_other itself] at held
          exact alone m a itself held same (may.mono fun holds => holds.active.live))
      have again := begun.put (o := { o with pc := some (.answered attempt result) }) put_self
        { known := sound.known n o found
          sound :=
            { active := fun _ => good.active was
              mayStart := by
                intro may
                obtain ⟨pc, known, holds⟩ := may
                cases known
                rcases result with message | _ | upid
                · exact holds.elim
                · exact absurd rfl (moves rfl)
                · exact holds.elim
              hasTask := fun _ => List.mem_cons_self
              upid := fun upid => List.mem_cons_of_mem _ (good.upid upid) }
          distinct := by
            intro mapped m a different held also same
            have old : s.objects m = some a := (put_other different).symm.trans held
            exact different (sound.distinct m n a o old found also mapped same)
          live := by
            intro _ m a different held same active
            have old : s.objects m = some a := (put_other different).symm.trans held
            exact alone m a different old same (active.mono WorkerPc.Active.live)
          active := by
            intro _ m a different held same
            have old : s.objects m = some a := (put_other different).symm.trans held
            exact alone m a different old same }
      rw [RestoreState.put] at again
      simpa only [RestoreState.put, Function.update_idem, if_true] using again

/-- A job that has no worker yet is added, and may then be launched. -/
theorem Sound.addIdle (sound : s.Sound) (job : RestoreJob) (known : job.Known s.tasks s.ids)
    (absent : ∀ m a, s.objects m = some a → a.inMap = true → a.job.id ≠ job.id) :
    (s.add ⟨job, true, none⟩).Sound :=
  sound.add
    { known := known.1
      sound :=
        { active := fun active => absurd active (JobObject.not_at rfl)
          mayStart := fun starts => absurd starts (JobObject.not_at rfl)
          hasTask := fun has => absurd has (JobObject.not_at rfl)
          upid := known.2 }
      distinct := fun _ m a _ held also => absent m a held also
      live := fun live => absurd live (JobObject.not_at rfl)
      active := fun active => absurd active (JobObject.not_at rfl) }

theorem Sound.enqueue (sound : s.Sound) {id : String} (new : id ∉ s.ids) (input : RestoreInput)
    (now : Nat) :
    ((({ s with ids := id :: s.ids }.add ⟨newRestoreJob id input now, true, none⟩).save none).launch
      s.created ⟨newRestoreJob id input now, true, none⟩ now).Sound := by
  have given : Sound { s with ids := id :: s.ids } :=
    { sound with
      given := fun other task => List.mem_cons_of_mem _ (sound.given other task)
      known := fun n o held => List.mem_cons_of_mem _ (sound.known n o held)
      stored := fun row member => (sound.stored row member).imp_left (List.mem_cons_of_mem _)
      writing := fun owner snapshot writes row member =>
        (sound.writing owner snapshot writes row member).imp_left (List.mem_cons_of_mem _)
      resuming := fun left rows row member =>
        (sound.resuming left rows row member).imp_left (List.mem_cons_of_mem _) }
  have other : ∀ m a, s.objects m = some a → a.job.id ≠ id := by
    intro m a held same
    exact new (same ▸ sound.known m a held)
  have added := given.addIdle (newRestoreJob id input now)
    ⟨List.mem_cons_self, fun upid => absurd rfl upid⟩ fun m a held _ => other m a held
  refine (added.save none).launch add_self rfl RestorePhase.noConfusion (fun _ => ⟨?_, ?_⟩) now
  · exact fun task => new (sound.given id task)
  · intro m a different held same
    have old : s.objects m = some a := (Function.update_of_ne different _ _).symm.trans held
    exact absurd same (other m a old)

/-- A stored job that is resumed without a task id has no task. -/
def ResumesUnstarted (s : RestoreState) : RestoreEvent → Prop
  | .resumeRow .found _ => ∀ row ∈ s.resuming.next, s.find row.id = none →
      row.phase ≠ .error → row.upid = [] → row.id ∉ s.tasks
  | _ => True

instance : ∀ s e, Decidable (ResumesUnstarted s e)
  | s, .resumeRow .found _ =>
      inferInstanceAs (Decidable (∀ row ∈ s.resuming.next, s.find row.id = none →
        row.phase ≠ .error → row.upid = [] → row.id ∉ s.tasks))
  | _, .resumeRow .missing _ | _, .resumeRow .failed _ | _, .enqueue _ _ _ | _, .beginWrite
  | _, .endWrite _ _ | _, .restore _ _ | _, .answer _ _ | _, .wake _ _ | _, .taskEnded _ _ _
  | _, .forget _ | _, .resumeRead _ | _, .crash _ => inferInstanceAs (Decidable True)

theorem Sound.resume (sound : s.Sound) {row : RestoreJob} {rest : List RestoreJob}
    (rows : s.resuming = .rows (row :: rest)) (user : UserLookup) (now : Nat)
    (unstarted : s.ResumesUnstarted (.resumeRow user now)) :
    (s.resume row rest user now).Sound := by
  have known := sound.resuming _ rows
  have next : Sound { s with resuming := .rows rest } :=
    { sound with
      resuming := by
        intro left same other member
        cases same
        exact known other (List.mem_cons_of_mem _ member) }
  unfold RestoreState.resume
  simp only
  split
  · exact next
  · next skipped =>
      rw [Bool.or_eq_true, not_or, Bool.not_eq_true, Option.isSome_eq_false_iff,
        Option.isNone_iff_eq_none] at skipped
      have absent : ∀ m a, s.objects m = some a → a.inMap = true → a.job.id ≠ row.id :=
        fun m a held mapped => sound.find_none skipped.1 held mapped
      have isKnown := known row List.mem_cons_self
      have added := next.addIdle _ isKnown absent
      split
      · exact added
      · next phase =>
          cases user with
          | found =>
              refine added.launch add_self rfl phase (fun empty => ?_) now
              have free := unstarted row (by rw [rows]; rfl) skipped.1 phase empty
              refine ⟨free, fun m a different held same live => ?_⟩
              have old : s.objects m = some a := (Function.update_of_ne different _ _).symm.trans held
              obtain ⟨pc, place, holds⟩ := live
              have good := sound.object m a old
              rcases holds.active_or_hasTask with active | task
              · exact absent m a old (good.active ⟨pc, place, active⟩).1 same
              · exact free (same ▸ good.hasTask ⟨pc, place, task⟩)
          | missing => exact next.addIdle _ isKnown absent
          | failed =>
              exact
                { sound.addIdle _ isKnown absent with
                  resuming := by
                    intro left same
                    cases same }

theorem mem_rows {row : RestoreJob} (member : row ∈ s.rows) :
    ∃ n o, s.objects n = some o ∧ o.job = row := by
  obtain ⟨n, _, made⟩ := List.mem_filterMap.mp member
  obtain ⟨o, kept, rfl⟩ := Option.map_eq_some_iff.mp made
  exact ⟨n, o, (Option.filter_eq_some_iff.mp kept).1, rfl⟩

theorem worker_eq_some {α : Type} {at? : WorkerPc → Option α} {a : α}
    (waits : s.worker n at? = some (o, a)) :
    s.objects n = some o ∧ ∃ pc, o.pc = some pc ∧ at? pc = some a := by
  obtain ⟨found, held, inner⟩ := Option.bind_eq_some_iff.mp waits
  obtain ⟨b, place, same⟩ := Option.map_eq_some_iff.mp inner
  cases same
  exact ⟨held, Option.bind_eq_some_iff.mp place⟩

theorem Sound.answered (sound : s.Sound) (found : s.objects n = some o) {attempt : Nat}
    {result : Except String (Option Text)} (place : o.pc = some (.answered attempt result))
    (now : Nat) : (s.answered n o attempt now result).Sound := by
  have apart := sound.apart_of_live found ⟨_, place, trivial⟩
  unfold RestoreState.answered
  split
  · exact sound.fail found apart now _
  · exact sound.moveOn found place trivial trivial id
  · split
    · exact sound.fail found apart now _
    · next given =>
        exact sound.note found ((sound.object n o found).hasTask ⟨_, place, given⟩) apart _ id

theorem Sound.endWrite (sound : s.Sound) (outcome : WriteOutcome) (now : Nat) {t : RestoreState}
    (happens : s.step (.endWrite outcome now) = some t) : t.Sound := by
  simp only [RestoreState.step] at happens
  split at happens
  · cases happens
  · next owner snapshot writes =>
      have done : Sound { s with writing := none, stored := snapshot } :=
        { sound with
          stored := sound.writing owner snapshot writes
          writing := by
            intro owner snapshot none
            cases none }
      have left : Sound { s with writing := none } :=
        { sound with
          writing := by
            intro owner snapshot none
            cases none }
      cases outcome with
      | done =>
          rw [Option.some.injEq] at happens
          subst happens
          cases owner with
          | none => exact done
          | some n => exact done.saved n
      | failed landed message =>
          rw [Option.some.injEq] at happens
          subst happens
          cases owner with
          | none => cases landed <;> assumption
          | some n =>
              cases landed with
              | true => exact done.notSaved n now message
              | false => exact left.notSaved n now message

theorem Sound.forget (sound : s.Sound) {id : String} {t : RestoreState}
    (happens : s.step (.forget id) = some t) : t.Sound := by
  have rung : Sound { s with timers := s.timers.erase id } := { sound with }
  simp only [RestoreState.step] at happens
  split at happens
  · split at happens
    · next o held =>
        split at happens
        · next failed =>
            cases happens
            refine Sound.save (rung.unmap ?_) _
            intro m a other same active
            obtain ⟨k, named, there⟩ := Option.bind_eq_some_iff.mp held
            obtain ⟨b, itself, mapped, named⟩ := find_some named
            rw [there, Option.some.injEq] at itself
            subst itself
            have good := (sound.object m a other).active active
            have one := sound.distinct m k a o other there good.1 mapped (same.trans named.symm)
            rw [one, there, Option.some.injEq] at other
            exact good.2 (other ▸ failed)
        · cases happens
          exact rung
    · cases happens
      exact rung
  · cases happens

/-- **Step.** Every event keeps the invariant, unless it resumes a started job as a new one. -/
theorem Sound.step (sound : s.Sound) {e : RestoreEvent} (meets : s.ResumesUnstarted e)
    {t : RestoreState} (happens : s.step e = some t) : t.Sound := by
  cases e with
  | enqueue id input now =>
      simp only [RestoreState.step] at happens
      split at happens
      · cases happens
      · next new =>
          cases happens
          exact sound.enqueue new input now
  | beginWrite =>
      simp only [RestoreState.step] at happens
      split at happens
      · cases happens
        exact
          { sound with
            writing := by
              intro owner snapshot same row member
              cases same
              obtain ⟨n, o, held, rfl⟩ := mem_rows member
              exact ⟨sound.known n o held, (sound.object n o held).upid⟩ }
      · cases happens
  | endWrite outcome now => exact sound.endWrite outcome now happens
  | restore n outcome =>
      obtain ⟨⟨o, attempt⟩, waits, rfl⟩ := Option.map_eq_some_iff.mp happens
      obtain ⟨found, pc, place, known⟩ := worker_eq_some waits
      obtain ⟨moves, starts⟩ := started_of_result outcome o.job.toRestoreBody attempt
      cases pc <;> cases known
      exact sound.call found place moves starts
  | answer n now =>
      obtain ⟨⟨o, attempt, result⟩, waits, rfl⟩ := Option.map_eq_some_iff.mp happens
      obtain ⟨found, pc, place, known⟩ := worker_eq_some waits
      cases pc <;> cases known
      exact sound.answered found place now
  | wake n now =>
      obtain ⟨⟨o, attempt⟩, waits, rfl⟩ := Option.map_eq_some_iff.mp happens
      obtain ⟨found, pc, place, known⟩ := worker_eq_some waits
      cases pc <;> cases known
      have good := sound.object n o found
      have was : o.At WorkerPc.Active := ⟨_, place, trivial⟩
      exact sound.enterLoop found (good.active was).1 (good.active was).2
        (good.mayStart ⟨_, place, trivial⟩)
        (fun m a different other same =>
          sound.alone n m o a different.symm found other same.symm was) _ now
  | taskEnded n failure now =>
      obtain ⟨⟨o, upid⟩, waits, rfl⟩ := Option.map_eq_some_iff.mp happens
      obtain ⟨found, pc, place, known⟩ := worker_eq_some waits
      cases pc <;> cases known
      have live : o.At WorkerPc.Live := ⟨_, place, trivial⟩
      cases failure with
      | some message => exact sound.fail found (sound.apart_of_live found live) now message
      | none => exact sound.finish found ((sound.object n o found).hasTask ⟨_, place, trivial⟩) live
  | forget id => exact sound.forget happens
  | resumeRead readable =>
      simp only [RestoreState.step] at happens
      split at happens
      · cases happens
        exact
          { sound with
            resuming := by
              intro left same row member
              cases readable with
              | true =>
                  cases same
                  exact sound.stored row (List.mem_of_mem_filter member)
              | false => cases same }
      · cases happens
  | resumeRow user now =>
      simp only [RestoreState.step] at happens
      split at happens
      · next row rest rows =>
          cases happens
          exact sound.resume rows user now meets
      · cases happens
        have ended : Sound { s with resuming := .finished } :=
          { sound with
            resuming := by
              intro left same
              cases same }
        exact ended.save _
      · cases happens
  | crash landed =>
      simp only [RestoreState.step] at happens
      split at happens
      · next owner snapshot writes =>
          cases happens
          exact sound_freshProcess sound.once sound.given (sound.writing owner snapshot writes)
      · cases happens
        exact sound_freshProcess sound.once sound.given sound.stored

end RestoreState

/-- The system before its first job. -/
def noRestoreJobs : RestoreState := freshProcess [] [] []

/-- **At most one restore.** In a run in which no restart takes up a job without
its task id after Proxmox has started the task, each job has one task at most. -/
theorem restores_at_most_once {s : RestoreState}
    (run : Reaches RestoreState.step RestoreState.ResumesUnstarted noRestoreJobs s) (id : String) :
    s.tasks.count id ≤ 1 := by
  have start : noRestoreJobs.Sound :=
    RestoreState.sound_freshProcess List.nodup_nil nofun nofun
  have sound := run.keeps start fun t e u sound meets happens => sound.step meets happens
  exact List.nodup_iff_count_le_one.mp sound.once id

/-- A restore of the archive of the VM 100. -/
def restoreOf100 : RestoreInput where
  node := "pve"
  volid := "local:backup/vzdump-qemu-100.vma"
  vmid := 100
  storage := "local"
  force := false
  startAfter := false
  userId := "u1"
  hostId := "h1"
  hostName := "pve"
  name := none

/-- Proxmox starts the task and answers with its id. -/
def taskStarts : RestoreOutcome := .tried ⟨none, none, []⟩ true (.ok "UPID:pve:1")

/-- A job up to the start of its task. -/
def startedRestore : List RestoreEvent :=
  [.enqueue "restore-1" restoreOf100 0, .beginWrite, .endWrite .done 0, .beginWrite,
   .endWrite .done 0, .restore 0 taskStarts]

theorem restores_at_most_once_after_restart :
    ∃ s, Reaches RestoreState.step RestoreState.ResumesUnstarted noRestoreJobs s ∧
      s.tasks = ["restore-1"] ∧ s.tasks.count "restore-1" ≤ 1 := by
  have ends : (exec (guarded RestoreState.step RestoreState.ResumesUnstarted) noRestoreJobs
      (startedRestore ++ [.answer 0 1, .beginWrite, .endWrite .done 2, .crash false,
        .resumeRead true, .resumeRow .found 3, .beginWrite, .endWrite .done 4])).map (·.tasks) =
          some ["restore-1"] := by
    decide
  obtain ⟨s, done, tasks⟩ := Option.map_eq_some_iff.mp ends
  have run := reaches_of_guarded done
  exact ⟨s, run, tasks, restores_at_most_once run "restore-1"⟩

/-- The process ends between the start of the task and the write of its id: the
restart starts the restore a second time. -/
theorem restore_started_twice :
    ∃ s, Reaches RestoreState.step Unrestricted noRestoreJobs s ∧
      s.tasks.count "restore-1" = 2 := by
  have ends : (exec RestoreState.step noRestoreJobs
      (startedRestore ++ [.crash false, .resumeRead true, .resumeRow .found 1, .beginWrite,
        .endWrite .done 1, .restore 0 taskStarts])).map (·.tasks.count "restore-1") = some 2 := by
    decide
  obtain ⟨s, done, twice⟩ := Option.map_eq_some_iff.mp ends
  exact ⟨s, reaches_of_exec done, twice⟩

end Proxora
