import Proxora.BackupJobs
import Proxora.Ecma.Lines

/-!
# Running a backup job

`runBackupJob` of `server/services/backup-service.ts` with `normalizeBackupJob` and
`vzdumpGuestParams` of `lib/backup.ts`: the job is read from the list of Proxmox, and a run
of `vzdump` is started for it with parameters made from what the reduced record keeps.

A job and a run name their guests by the same parameters, so both are read by
`readSelection`; `run_saves_job_iff` says for which jobs the two readings are the same.
-/

namespace Proxora

open Ecma

/-! ## The run -/

/-- `value === 1 || value === "1" || value === true`. -/
def isOne : Value → Bool
  | .num (.finite numeral) => numeral = "1"
  | .str s => s = "1"
  | .bool b => b
  | _ => false

/-- `String(record[key] ?? other)`. -/
def entryText (record : Record Value) (key other : Text) : Text :=
  ((record.get key).orElse (.str other)).toText

/-- What `normalizeBackupJob` keeps of a job; `keepLast` is left out. -/
structure BackupJob where
  id : Text
  enabled : Bool
  schedule : Text
  storage : Text
  mode : Text
  compress : Text
  all : Bool
  vmid : Text
  node : Text
  prune : Text

def normalizeBackupJob (raw : Record Value) : BackupJob :=
  let starttime := trim (entryText raw "starttime" [])
  let dow := trim (entryText raw "dow" [])
  let given := trim (entryText raw "schedule" [])
  let legacy := trim (join ' ' ([dow, starttime].filter (· ≠ [])))
  let pruneValue := (raw.get "prune-backups").orElse (raw.get "prune_backups")
  { id := entryText raw "id" []
    enabled := isOne (raw.get "enabled")
    schedule := if given ≠ [] then given else if legacy ≠ [] then legacy else starttime
    storage := entryText raw "storage" []
    mode := entryText raw "mode" "snapshot"
    compress := entryText raw "compress" "zstd"
    all := isOne (raw.get "all")
    vmid := trim (entryText raw "vmid" [])
    node := trim (entryText raw "node" [])
    prune :=
      match pruneValue with
      | .obj | .arr _ => []
      | v => trim (v.orElse (.str [])).toText }

def vzdumpGuestParams (job : BackupJob) : List (Text × Value) :=
  let vmid := removeSpaces job.vmid
  if job.all || vmid = [] then [("all", .nat 1)] else [("vmid", .str vmid)]

/-- What `runBackupJob` returns, with the parameters of the run in place of its task. -/
structure StartedRun where
  job : BackupJob
  node : Text
  params : Record Value

/-- `nodeHint || job.node || names[0]`, none when that is falsy. -/
def runNode (job : BackupJob) (names : List Text) (nodeHint : Option Text) : Option Text :=
  [nodeHint.getD [], job.node, names.headD []].find? (· ≠ [])

/-- `runBackupJob`, given the jobs and the names of the nodes. -/
def runBackupJob (jobs : BackupJobs) (names : List Text) (id : Text) (nodeHint : Option Text) :
    Except Text StartedRun :=
  match findJob jobs id with
  | none => .error "Backup-Job nicht gefunden"
  | some raw =>
      let job := normalizeBackupJob raw
      match runNode job names nodeHint with
      | none => .error "Kein Node für das Backup"
      | some node =>
          let params := compactProxmoxBody (Record.ofList
            (("job-id", .str id) :: vzdumpGuestParams job))
          .ok ⟨job, node, params⟩

/-! ## The guests of a job and of a run -/

/-- A guest, as far as a backup selects it. -/
structure BackupCandidate where
  vmid : Nat
  pool : Option Text
deriving DecidableEq

/-- Between the VMIDs of a list stand commas, semicolons and white space. -/
def isListBreak (c : Char) : Bool := c = ',' || c = ';' || isSpace c

/-- The VMIDs of a list, as Proxmox reads it. -/
def vmidList (s : Text) : List Nat :=
  ((s.splitOnP isListBreak).filter fun word => word ≠ [] && word.all Char.isDigit).map digitsValue

/-- How `vzdump` reads its guests from the parameters of a run or of a job. -/
inductive GuestSelection : Type
  | pool (name : Text)
  | guests (vmids : List Nat)
  | allBut (vmids : List Nat)
  | nothing

def readSelection (params : Record Value) : GuestSelection :=
  let pool := trim (paramText params "pool")
  let vmid := paramText params "vmid"
  let exclude := paramText params "exclude"
  if pool ≠ [] then .pool pool
  else if trim vmid ≠ [] then .guests (vmidList vmid)
  else if isOne (params.get "all") ∨ trim exclude ≠ [] then .allBut (vmidList exclude)
  else .nothing

def GuestSelection.Picks (g : BackupCandidate) : GuestSelection → Prop
  | .pool name => g.pool = some name
  | .guests vmids => g.vmid ∈ vmids
  | .allBut vmids => g.vmid ∉ vmids
  | .nothing => False

/-- The run that is started for the job saves the guests that the job is for. -/
def RunSavesJob (jobs : BackupJobs) (names : List Text) (id : Text) (nodeHint : Option Text) :
    Prop :=
  ∀ raw started, findJob jobs id = some raw → runBackupJob jobs names id nodeHint = .ok started →
    ∀ g, (readSelection started.params).Picks g ↔ (readSelection raw).Picks g

/-- The reduced record keeps what selects the guests: there is no pool; a list of VMIDs is
not overruled and names the same without its white space; without a list the job is for
all guests and excludes none. -/
def KeepsSelection (raw : Record Value) : Prop :=
  let vmid := paramText raw "vmid"
  let exclude := paramText raw "exclude"
  trim (paramText raw "pool") = [] ∧
    if trim vmid = [] then
      (isOne (raw.get "all") = true ∨ trim exclude ≠ []) ∧ vmidList exclude = []
    else isOne (raw.get "all") = false ∧ ∀ n, n ∈ vmidList vmid ↔ n ∈ vmidList (removeSpaces vmid)

/-! ## What is sent -/

/-- The guests of a run that is started for a job. -/
def sentSelection (job : BackupJob) : GuestSelection :=
  if job.all || removeSpaces job.vmid = [] then .allBut []
  else .guests (vmidList (removeSpaces job.vmid))

theorem entryText_eq_paramText (record : Record Value) (key : Text) :
    entryText record key [] = paramText record key := by
  unfold entryText paramText Value.orElse
  dsimp only
  split
  · rfl
  · rfl

theorem removeSpaces_trim (s : Text) : removeSpaces (trim s) = removeSpaces s := by
  have front (t : Text) : removeSpaces (t.dropWhile isSpace) = removeSpaces t := by
    induction t with
    | nil => rfl
    | cons c t ih =>
        cases space : isSpace c with
        | true =>
            rw [List.dropWhile_cons_of_pos space, ih]
            exact (List.filter_cons_of_neg (by rw [space]; exact Bool.false_ne_true)).symm
        | false => rw [List.dropWhile_cons_of_neg (by rw [space]; exact Bool.false_ne_true)]
  obtain ⟨spaces, form, blank⟩ := trimRight_append (s.dropWhile isSpace)
  have gone : removeSpaces spaces = [] :=
    List.filter_eq_nil_iff.mpr fun c member => by simp [blank c member]
  rw [trim_eq, ← front s]
  conv_rhs => rw [form]
  rw [removeSpaces, removeSpaces, List.filter_append]
  exact (List.append_right_eq_self.mpr gone).symm

theorem removeSpaces_eq_nil_iff {s : Text} : removeSpaces s = [] ↔ trim s = [] := by
  rw [← removeSpaces_trim]
  constructor
  · intro none
    cases form : trim s with
    | nil => rfl
    | cons c rest =>
        rw [form] at none
        have space := List.filter_eq_nil_iff.mp none c List.mem_cons_self
        rw [head_trim form] at space
        exact absurd rfl space
  · intro blank
    rw [blank]
    rfl

theorem trim_removeSpaces (s : Text) : trim (removeSpaces s) = removeSpaces s :=
  trim_of_notSpace fun c member => by simpa using (List.mem_filter.mp member).2

/-- What `vzdump` reads from the parameters of the run. -/
theorem readSelection_params (id : Text) (job : BackupJob) :
    readSelection (compactProxmoxBody (Record.ofList (("job-id", .str id) ::
      vzdumpGuestParams job))) = sentSelection job := by
  have read (key : Text) := paramText_compact
    (Record.ofList (("job-id", .str id) :: vzdumpGuestParams job)) key
  unfold readSelection sentSelection
  rw [read, read, read]
  unfold vzdumpGuestParams
  by_cases every : job.all || removeSpaces job.vmid = []
  · rw [if_pos every, if_pos every]
    have pool : paramText (Record.ofList [("job-id", .str id), ("all", .nat 1)]) "pool" = [] := rfl
    have vmid : paramText (Record.ofList [("job-id", .str id), ("all", .nat 1)]) "vmid" = [] := rfl
    have exclude : paramText (Record.ofList [("job-id", .str id), ("all", .nat 1)]) "exclude" = [] :=
      rfl
    have all : isOne ((compactProxmoxBody (Record.ofList
        [("job-id", .str id), ("all", .nat 1)])).get "all") = true := by
      unfold compactProxmoxBody
      rw [Record.get_filter]
      rfl
    simp only [pool, vmid, exclude, all]
    rfl
  · rw [if_neg every, if_neg every]
    have some_vmid : trim (removeSpaces job.vmid) ≠ [] := by
      rw [trim_removeSpaces]
      exact fun none => every (by simp [none])
    have pool : paramText (Record.ofList
        [("job-id", .str id), ("vmid", .str (removeSpaces job.vmid))]) "pool" = [] := rfl
    have vmid : paramText (Record.ofList
        [("job-id", .str id), ("vmid", .str (removeSpaces job.vmid))]) "vmid" =
          removeSpaces job.vmid := rfl
    simp only [pool, vmid, if_pos some_vmid]
    rfl

theorem sentSelection_normalize (raw : Record Value) :
    sentSelection (normalizeBackupJob raw) =
      if isOne (raw.get "all") = true ∨ trim (paramText raw "vmid") = [] then .allBut []
      else .guests (vmidList (removeSpaces (paramText raw "vmid"))) := by
  unfold sentSelection normalizeBackupJob
  simp only [entryText_eq_paramText, removeSpaces_trim, Bool.or_eq_true, decide_eq_true_eq,
    removeSpaces_eq_nil_iff]

/-! ## When the selections are the same -/

/-- A VMID that is not in a list. -/
theorem exists_vmid_notMem (vmids : List Nat) : ∃ n, n ∉ vmids := by
  obtain ⟨n, fresh⟩ := Infinite.exists_notMem_finset vmids.toFinset
  exact ⟨n, fun member => fresh (List.mem_toFinset.mpr member)⟩

theorem allBut_same_iff {vmids : List Nat} :
    (∀ g, (GuestSelection.allBut []).Picks g ↔ (GuestSelection.allBut vmids).Picks g) ↔
      vmids = [] := by
  constructor
  · intro same
    refine List.eq_nil_iff_forall_not_mem.mpr fun n => ?_
    exact (same ⟨n, none⟩).mp List.not_mem_nil
  · rintro rfl g
    exact Iff.rfl

theorem guests_same_iff {vmids others : List Nat} :
    (∀ g, (GuestSelection.guests vmids).Picks g ↔ (GuestSelection.guests others).Picks g) ↔
      ∀ n, n ∈ others ↔ n ∈ vmids :=
  ⟨fun same n => (same ⟨n, none⟩).symm, fun same g => (same g.vmid).symm⟩

/-- All guests are more than a list of them. -/
theorem not_allBut_same_guests {vmids : List Nat} :
    ¬∀ g, (GuestSelection.allBut []).Picks g ↔ (GuestSelection.guests vmids).Picks g := by
  intro same
  obtain ⟨n, fresh⟩ := exists_vmid_notMem vmids
  exact fresh ((same ⟨n, none⟩).mp List.not_mem_nil)

theorem not_allBut_same_nothing :
    ¬∀ g, (GuestSelection.allBut []).Picks g ↔ GuestSelection.nothing.Picks g :=
  fun same => (same ⟨0, none⟩).mp List.not_mem_nil

/-- Neither all guests nor a list of them are the guests of a pool. -/
theorem not_same_pool {name : Text} {sent : GuestSelection}
    (listed : sent = .allBut [] ∨ ∃ vmids, sent = .guests vmids) :
    ¬∀ g, sent.Picks g ↔ (GuestSelection.pool name).Picks g := by
  intro same
  rcases listed with rfl | ⟨vmids, rfl⟩
  · have inPool := (same ⟨0, none⟩).mp List.not_mem_nil
    cases inPool
  · obtain ⟨n, fresh⟩ := exists_vmid_notMem vmids
    exact fresh ((same ⟨n, some name⟩).mpr rfl)

/-- The run of a job selects as the job does when the reduced record keeps the selection. -/
theorem sentSelection_same_iff (raw : Record Value) :
    (∀ g, (sentSelection (normalizeBackupJob raw)).Picks g ↔ (readSelection raw).Picks g) ↔
      KeepsSelection raw := by
  rw [sentSelection_normalize]
  unfold readSelection KeepsSelection
  by_cases pool : trim (paramText raw "pool") = []
  · by_cases blank : trim (paramText raw "vmid") = []
    · simp only [pool, blank, ne_eq, not_true_eq_false, if_false, or_true, if_true, true_and]
      by_cases every : isOne (raw.get "all") = true ∨ ¬trim (paramText raw "exclude") = []
      · rw [if_pos every, allBut_same_iff, and_iff_right every]
      · rw [if_neg every]
        exact iff_of_false not_allBut_same_nothing fun both => every both.1
    · simp only [pool, blank, ne_eq, not_true_eq_false, not_false_eq_true, if_false, or_false,
        if_true, true_and]
      cases all : isOne (raw.get "all") with
      | true => exact iff_of_false not_allBut_same_guests fun both => by cases both.1
      | false =>
          rw [if_neg Bool.false_ne_true, guests_same_iff]
          exact (and_iff_right rfl).symm
  · rw [if_pos pool]
    refine iff_of_false (not_same_pool ?_) fun both => pool both.1
    split
    · exact .inl rfl
    · exact .inr ⟨_, rfl⟩

/-- What is started, when something is. -/
theorem runBackupJob_eq_ok_iff {jobs : BackupJobs} {names : List Text} {id : Text}
    {nodeHint : Option Text} {raw : Record Value} {started : StartedRun}
    (found : findJob jobs id = some raw) :
    runBackupJob jobs names id nodeHint = .ok started ↔
      ∃ node, runNode (normalizeBackupJob raw) names nodeHint = some node ∧
        started = ⟨normalizeBackupJob raw, node, compactProxmoxBody (Record.ofList
          (("job-id", .str id) :: vzdumpGuestParams (normalizeBackupJob raw)))⟩ := by
  unfold runBackupJob
  rw [found]
  dsimp only
  cases runNode (normalizeBackupJob raw) names nodeHint with
  | none => simp
  | some node => simp [eq_comm]

/-- **When running a job saves the guests of the job.** The reduced record has no place for
a pool or an exclude list, and white space is taken out of the list of VMIDs. -/
theorem run_saves_job_iff (jobs : BackupJobs) (names : List Text) (id : Text)
    (nodeHint : Option Text) :
    RunSavesJob jobs names id nodeHint ↔
      ∀ raw, findJob jobs id = some raw →
        runNode (normalizeBackupJob raw) names nodeHint = none ∨ KeepsSelection raw := by
  constructor
  · intro saves raw found
    cases ready : runNode (normalizeBackupJob raw) names nodeHint with
    | none => exact .inl rfl
    | some node =>
        have same := saves raw _ found ((runBackupJob_eq_ok_iff found).mpr ⟨node, ready, rfl⟩)
        simp only [readSelection_params] at same
        exact .inr ((sentSelection_same_iff raw).mp same)
  · intro keeps raw started found runs
    obtain ⟨node, ready, rfl⟩ := (runBackupJob_eq_ok_iff found).mp runs
    rw [readSelection_params]
    rcases keeps raw found with stopped | kept
    · rw [stopped] at ready
      cases ready
    · exact (sentSelection_same_iff raw).mpr kept

/-- A job for all guests but one. -/
def excludingJob : Record Value :=
  Record.ofList [("id", .str "b1"), ("all", .nat 1), ("exclude", .str "100")]

/-- The run of the job saves the guest that it excludes. -/
theorem run_saves_excluded_guest :
    ¬∀ (jobs : BackupJobs) (names : List Text) (id : Text) (nodeHint : Option Text),
      RunSavesJob jobs names id nodeHint := by
  intro claim
  have found : findJob [excludingJob] "b1" = some excludingJob := rfl
  have ready : runNode (normalizeBackupJob excludingJob) ["pve"] none = some ("pve" : Text) := by
    decide
  have runs := (runBackupJob_eq_ok_iff found).mpr ⟨"pve", ready, rfl⟩
  have same := claim _ _ _ _ excludingJob _ found runs
  simp only [readSelection_params] at same
  obtain ⟨-, kept⟩ := (sentSelection_same_iff excludingJob).mp same
  have blank : trim (paramText excludingJob "vmid") = [] := by decide
  rw [if_pos blank] at kept
  exact absurd kept.2 (by decide)

end Proxora
