import Proxora.BackupActions
import Proxora.Steps

/-!
# Backup jobs

`upsertBackupJob` and `jobBody` of `server/services/backup-service.ts`, with the
schedule half of `lib/backup.ts`.  The state is the list of jobs on the host;
each call to Proxmox is one `call` that may fail, in which case the list stays
as it was.

`upsertBackupJob_keeps_iff` says when a failed edit leaves the job in place: an
edit that recreates the job loses it when the second call fails.
-/

namespace Proxora

open Ecma Ecma.Regex Steps Steps.Program

/-! ## Schedules -/

inductive BackupDay : Type
  | mon | tue | wed | thu | fri | sat | sun
deriving DecidableEq, Repr

def BackupDay.name : BackupDay → Text
  | .mon => "mon" | .tue => "tue" | .wed => "wed" | .thu => "thu"
  | .fri => "fri" | .sat => "sat" | .sun => "sun"

/-- `BACKUP_DAYS`. -/
def backupDays : List BackupDay := [.mon, .tue, .wed, .thu, .fri, .sat, .sun]

/-- `BACKUP_DAYS.indexOf(token)`, none for `-1`. -/
def dayIndex (token : Text) : Option Nat := backupDays.findIdx? fun day => day.name = token

/-- `part.split("..")`. -/
def splitDots : Text → List Text
  | '.' :: '.' :: rest => [] :: splitDots rest
  | c :: rest =>
      match splitDots rest with
      | [] => [[c]]
      | word :: words => (c :: word) :: words
  | [] => [[]]

/-- What one token picks: the days of a range, or the day it names. -/
def tokenDays (part : Text) : List BackupDay :=
  if includes part ".." then
    let pieces := splitDots part
    match dayIndex (pieces.headD []), dayIndex (pieces.tail.headD []) with
    | some start, some stop => (backupDays.drop start).take (stop + 1 - start)
    | _, _ => []
  else backupDays.filter fun day => day.name = part

/-- `raw.split(/[,\s]+/).filter(Boolean)`. -/
def dayTokens (raw : Text) : List Text :=
  (raw.splitOnP fun c => c = ',' || isSpace c).filter (· ≠ [])

def parseDayTokens (raw : Text) : List BackupDay :=
  let picked := (dayTokens (toLowerCase raw)).flatMap tokenDays
  backupDays.filter fun day => day ∈ picked

/-- `String(n).padStart(2, "0")`. -/
def padTwo (n : Nat) : Text :=
  let digits := (toString n : String).toList
  List.replicate (2 - digits.length) '0' ++ digits

def padClock (hour minute : Nat) : Text := padTwo hour ++ ':' :: padTwo minute

/-- `/(\d{1,2}):(\d{2})/`; group 0 is the whole match. -/
def clockPattern : Regex :=
  .group 0 (cat [.group 1 (cat [digit, opt digit]), lit ":", .group 2 (cat [digit, digit])])

/-- What `parseBackupSchedule` returns. -/
structure BackupSchedule where
  time : Text
  days : List BackupDay
deriving DecidableEq

def parseBackupSchedule (raw : Text) : BackupSchedule :=
  let trimmed := toLowerCase (trim raw)
  let timeMatch := exec clockPattern trimmed
  let part (index : Nat) (found : Found) : Nat := numberOfDigits ((found.group index).getD [])
  let hour := (timeMatch.map fun found => min 23 (part 1 found)).getD 2
  let minute := (timeMatch.map fun found => min 59 (part 2 found)).getD 0
  let front :=
    match timeMatch with
    | some found =>
        trim (found.before.drop ((found.group 0).getD []).length).reverse
    | none => trimmed
  let days := parseDayTokens front
  { time := padClock hour minute, days := if days ≠ [] then days else backupDays }

def formatBackupSchedule (days : List BackupDay) (time : Text) : Text :=
  let clock := (parseBackupSchedule time).time
  let ordered := backupDays.filter fun day => day ∈ days
  if ordered.length = 0 ∨ ordered.length = 7 then clock
  else join ',' (ordered.map BackupDay.name) ++ ' ' :: clock

/-- The entries of `jobSchedulePayload`. -/
def jobSchedulePayload (schedule : Text) : List (Text × Value) :=
  let parsed := parseBackupSchedule schedule
  [("schedule", .str (formatBackupSchedule parsed.days parsed.time))]

example : parseBackupSchedule "mon..fri 21:05" = ⟨"21:05", [.mon, .tue, .wed, .thu, .fri]⟩ := by
  decide

example : formatBackupSchedule [.fri, .mon] "7:00" = "mon,fri 07:00" := by decide

/-- `.` of a pattern: every character but the line terminators. -/
def isLineChar (c : Char) : Bool :=
  c ≠ '\n' && c ≠ '\r' && c.toNat ≠ 0x2028 && c.toNat ≠ 0x2029

/-- `/delete:.*unknown option ['"]?starttime/`. -/
def unknownStarttime : Regex :=
  cat [lit "delete:", .star (.cls isLineChar), lit "unknown option ",
    opt (.cls fun c => c = '\'' || c = '"'), lit "starttime"]

def isBackupJobScheduleConflict (message : Text) : Bool :=
  let m := toLowerCase message
  if includes m "starttime" && includes m "schedule" &&
      (includes m "both" || includes m "cannot") then true
  else test unknownStarttime m

/-! ## The body of a job -/

/-- `keep-last=…` for a positive number. -/
def pruneKeepLast (keepLast : Option Nat) : Value :=
  match keepLast with
  | none | some 0 => .undefined
  | some n => .str ("keep-last=" ++ (toString n : String).toList)

/-- The input of `upsertBackupJob`. -/
structure JobInput where
  id : Text
  update : Bool
  enabled : Option Bool
  schedule : Text
  storage : Text
  mode : Option BackupMode
  compress : Option Text
  all : Option Bool
  vmid : Option Text
  node : Option Text
  keepLast : Option Nat

/-- `jobBody`, for an input with this id. -/
def jobBody (id : Value) (input : JobInput) : Except AppError (Record Value) :=
  let vmid := removeSpaces (input.vmid.getD [])
  let all := input.all.getD false
  if !all && vmid = [] then
    .error (validationError "Mindestens eine VM oder einen Container auswählen.")
  else
    .ok (compactProxmoxBody ((Record.ofList
      [("id", id),
       ("enabled", if input.enabled = some false then .nat 0 else .nat 1),
       ("storage", .str input.storage),
       ("mode", .str (input.mode.getD .snapshot).name),
       ("compress", .str (input.compress.getD "zstd")),
       ("all", if all then .nat 1 else .undefined),
       ("vmid", if all then .undefined else .str vmid),
       ("node", optText (presentText input.node)),
       ("prune-backups", pruneKeepLast input.keepLast),
       ("notes-template", .str "\x7b\x7bguestname\x7d\x7d")]).assign
      (jobSchedulePayload input.schedule)))

/-! ## Calls -/

/-- The jobs of `/cluster/backup`. -/
abbrev BackupJobs := List (Record Value)

/-- `String(row.id)`. -/
def jobId (row : Record Value) : Text := (row.get "id").toText

/-- The calls that Proxmox refuses, each with its message. -/
structure JobFaults where
  jobs : Option Text
  create : Option Text
  update : Option Text
  delete : Option Text

/-- What an edit can throw. -/
inductive JobError : Type
  | app (error : AppError)
  | proxmox (message : Text)

/-- `error instanceof Error ? error.message : String(error)`. -/
def JobError.message : JobError → Text
  | .app error => error.message
  | .proxmox message => message

/-- A call that changes the jobs. -/
def jobCall (fault : Option Text) (change : BackupJobs → BackupJobs) :
    Program BackupJobs JobError Unit :=
  call fun jobs =>
    match fault with
    | some message => .error (.proxmox message)
    | none => .ok ((), change jobs)

/-- `client.backup.createJob`. -/
def createJob (faults : JobFaults) (params : Record Value) : Program BackupJobs JobError Unit :=
  jobCall faults.create fun jobs => jobs ++ [params]

/-- `client.backup.deleteJob`. -/
def deleteJob (faults : JobFaults) (id : Text) : Program BackupJobs JobError Unit :=
  jobCall faults.delete fun jobs => jobs.filter fun row => jobId row ≠ id

/-- `client.backup.updateJob`; `edit` is what Proxmox makes of a job and new parameters. -/
def updateJob (edit : Record Value → Record Value → Record Value) (faults : JobFaults) (id : Text)
    (params : Record Value) : Program BackupJobs JobError Unit :=
  jobCall faults.update fun jobs =>
    jobs.map fun row => if jobId row = id then edit row params else row

/-- `client.backup.jobs().catch(() => [])`. -/
def readJobs (faults : JobFaults) : Program BackupJobs JobError BackupJobs :=
  (call fun jobs =>
    match faults.jobs with
    | some message => .error (.proxmox message)
    | none => .ok (jobs, jobs)).rescue fun _ => result []

/-- The job of an id among the jobs read. -/
def findJob (jobs : BackupJobs) (id : Text) : Option (Record Value) :=
  jobs.find? fun row => jobId row = id

/-- `hasLegacyClock`. -/
def hasLegacyClock (existing : Option (Record Value)) : Bool :=
  let starttime := (existing.map fun row => row.get "starttime").getD .undefined
  trim (starttime.orElse (.str [])).toText ≠ []

/-- The payload of the update; leftover `maxfiles` are deleted. -/
def updatePayload (existing : Option (Record Value)) (payload : Record Value) : Record Value :=
  let maxfiles := (existing.map fun row => row.get "maxfiles").getD .undefined
  if !maxfiles.isNullish && trim maxfiles.toText ≠ [] then payload.set "delete" (.str "maxfiles")
  else payload

/-- The job deleted and made anew. -/
def recreateJob (faults : JobFaults) (id : Text) (payload : Record Value) :
    Program BackupJobs JobError Unit :=
  (deleteJob faults id).andThen fun _ => createJob faults (payload.set "id" (.str id))

def upsertBackupJob (edit : Record Value → Record Value → Record Value) (faults : JobFaults)
    (input : JobInput) : Program BackupJobs JobError Unit :=
  match jobBody (if input.update then .undefined else .str input.id) input with
  | .error e => fail (.app e)
  | .ok payload =>
      if !input.update then createJob faults (payload.set "id" (.str input.id))
      else
        (readJobs faults).andThen fun jobs =>
          let existing := findJob jobs input.id
          if hasLegacyClock existing then recreateJob faults input.id payload
          else
            (updateJob edit faults input.id (updatePayload existing payload)).rescue fun e =>
              if !isBackupJobScheduleConflict e.message then fail e
              else recreateJob faults input.id payload

/-! ## When a failed edit keeps the job -/

variable {edit : Record Value → Record Value → Record Value} {faults : JobFaults} {id : Text}
  {input : JobInput} {jobs : BackupJobs} {Q : BackupJobs → Prop}

/-- A refused call leaves the jobs. -/
theorem onError_jobCall {fault : Option Text} {change : BackupJobs → BackupJobs} :
    OnError Q (jobCall fault change) jobs ↔ (fault ≠ none → Q jobs) := by
  unfold OnError jobCall call
  cases fault <;> simp

/-- Between the two calls the job is gone. -/
theorem onError_recreateJob {payload : Record Value} :
    OnError Q (recreateJob faults id payload) jobs ↔
      (faults.delete ≠ none → Q jobs) ∧
        (faults.delete = none → faults.create ≠ none →
          Q (jobs.filter fun row => jobId row ≠ id)) := by
  rw [recreateJob, deleteJob, jobCall, onError_call_andThen]
  cases faults.delete with
  | some message => simp
  | none =>
      simp only [createJob, onError_jobCall]
      simp

/-- The body is refused without a guest. -/
theorem jobBody_ok_iff (field : Value) :
    (∃ payload, jobBody field input = .ok payload) ↔
      input.all.getD false = true ∨ removeSpaces (input.vmid.getD []) ≠ [] := by
  rw [jobBody]
  cases input.all.getD false with
  | true => simp
  | false => by_cases blank : removeSpaces (input.vmid.getD []) = [] <;> simp [blank]

/-- The jobs that the update reads; none when the call is refused. -/
def readableJobs (faults : JobFaults) (jobs : BackupJobs) : BackupJobs :=
  if faults.jobs = none then jobs else []

theorem onError_readJobs_andThen {f : BackupJobs → Program BackupJobs JobError Unit} :
    OnError Q ((readJobs faults).andThen f) jobs ↔
      OnError Q (f (readableJobs faults jobs)) jobs := by
  rw [readJobs, readableJobs]
  unfold OnError andThen rescue call
  cases faults.jobs <;> rfl

/-- The edit deletes the job and makes it anew: its clock is an old one, or
Proxmox refuses the update over one. -/
def RecreatesJob (faults : JobFaults) (input : JobInput) (jobs : BackupJobs) : Prop :=
  input.update = true ∧
    (input.all.getD false = true ∨ removeSpaces (input.vmid.getD []) ≠ []) ∧
    (hasLegacyClock (findJob (readableJobs faults jobs) input.id) = true ∨
      ∃ message, faults.update = some message ∧ isBackupJobScheduleConflict message = true)

/-- The rule of an edit: what it leaves behind when it fails. -/
theorem onError_upsertBackupJob (here : Q jobs) :
    OnError Q (upsertBackupJob edit faults input) jobs ↔
      (RecreatesJob faults input jobs → faults.delete = none → faults.create ≠ none →
        Q (jobs.filter fun row => jobId row ≠ input.id)) := by
  rw [upsertBackupJob, RecreatesJob, ← jobBody_ok_iff
    (if input.update then .undefined else .str input.id)]
  cases body : jobBody (if input.update then .undefined else .str input.id) input with
  | error e => simp [here]
  | ok payload =>
      cases update : input.update with
      | false => simp [createJob, onError_jobCall, here]
      | true =>
          simp only [Bool.not_true, Bool.false_eq_true, if_false, onError_readJobs_andThen]
          cases legacy : hasLegacyClock (findJob (readableJobs faults jobs) input.id) with
          | true => simp [onError_recreateJob, here]
          | false =>
              simp only [Bool.false_eq_true, if_false, updateJob, jobCall, onError_rescue_call]
              cases refused : faults.update with
              | none => simp
              | some message =>
                  cases conflict : isBackupJobScheduleConflict message with
                  | false => simp [JobError.message, conflict, here]
                  | true => simp [JobError.message, conflict, onError_recreateJob, here]

/-- A job of an older release, and an edit of its schedule. -/
def legacyJob : Record Value :=
  Record.ofList [("id", .str "backup-1"), ("starttime", .str "02:00"), ("all", .nat 1)]

def legacyEdit : JobInput :=
  ⟨"backup-1", true, none, "03:00", "local", none, none, some true, none, none, none⟩

end Proxora
