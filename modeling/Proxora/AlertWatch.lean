import Mathlib
import Proxora.Ecma.Value
import Proxora.Runs
import Proxora.Alarms

/-!
# Alerts for disks, temperatures and pools

The settings of `lib/disk-alerts.ts` and `lib/cpu-temp.ts`, and what
`server/services/disk-watch.ts`, `cpu-temp-watch.ts` and `zfs-watch.ts` do with
the samples of a scan.  The flags are stored between the scans; a log notes what
every sample was and whether it notified.

`keeps_spaced` says when a key is observed recovered between two notifications.
The flag of a key that a scan does not see is dropped, and the lowest alert
temperature is its own clear temperature.
-/

namespace Proxora

open Ecma Runs Alarms

/-! ## Settings -/

/-- `Math.round(x)`. -/
def mathRound (x : ℚ) : Int := ⌊x + 1 / 2⌋

/-- `clampPercent` and `clampCelsius`; `none` is a value whose number is not finite. -/
def clampNumber (low high fallback : Int) : Option ℚ → Int
  | none => fallback
  | some n => min high (max low (mathRound n))

/-- What `Number` makes of the two fields of a stored setting. -/
structure RawThresholds where
  alertAt : Option ℚ
  clearAt : Option ℚ

structure Thresholds where
  alertAt : Int
  clearAt : Int
deriving DecidableEq, Repr

def parseThresholds (low high alertDefault clearDefault lowestClear : Int) (raw : RawThresholds) :
    Thresholds :=
  let alertAt := clampNumber low high alertDefault raw.alertAt
  let clearAt := clampNumber low high clearDefault raw.clearAt
  { alertAt, clearAt := if alertAt ≤ clearAt then max lowestClear (alertAt - 5) else clearAt }

def parseDiskAlertSettings (raw : RawThresholds) : Thresholds := parseThresholds 1 99 90 85 0 raw

def parseCpuTempSettings (raw : RawThresholds) : Thresholds := parseThresholds 40 120 85 75 40 raw

/-- The thresholds for disks are always apart. -/
theorem parseDiskAlertSettings_strict (raw : RawThresholds) :
    (parseDiskAlertSettings raw).clearAt < (parseDiskAlertSettings raw).alertAt := by
  have low : 1 ≤ clampNumber 1 99 90 raw.alertAt := by
    unfold clampNumber
    split <;> omega
  unfold parseDiskAlertSettings parseThresholds
  dsimp only
  split <;> omega

/-- The thresholds for temperatures are apart above the lowest alert temperature. -/
theorem parseCpuTempSettings_strict_iff (raw : RawThresholds) :
    (parseCpuTempSettings raw).clearAt < (parseCpuTempSettings raw).alertAt ↔
      40 < (parseCpuTempSettings raw).alertAt := by
  have alertLow : 40 ≤ clampNumber 40 120 85 raw.alertAt := by
    unfold clampNumber
    split <;> omega
  have clearLow : 40 ≤ clampNumber 40 120 75 raw.clearAt := by
    unfold clampNumber
    split <;> omega
  unfold parseCpuTempSettings parseThresholds
  dsimp only
  split <;> omega

/-! ## Signals -/

/-- Whether to notify, and the flag from then on. -/
structure AlertSignal where
  notify : Bool
  notified : Bool
deriving DecidableEq, Repr

def applyDiskWatchState (notified : Bool) (percent : ℚ) (alertAt clearAt : Int) : AlertSignal :=
  if alertAt ≤ percent ∧ notified = false then ⟨true, true⟩
  else if percent < clearAt then ⟨false, false⟩
  else ⟨false, notified⟩

def applyCpuTempWatchState (notified : Bool) (celsius : ℚ) (alertAt clearAt : Int) : AlertSignal :=
  applyDiskWatchState notified celsius alertAt clearAt

def applyZfsWatchState (notified healthy : Bool) : AlertSignal :=
  if healthy = false ∧ notified = false then ⟨true, true⟩
  else if healthy then ⟨false, false⟩
  else ⟨false, notified⟩

/-- The two watches with thresholds. -/
inductive LevelWatch : Type
  | disk | cpuTemp
deriving DecidableEq, Repr

def LevelWatch.parse : LevelWatch → RawThresholds → Thresholds
  | .disk => parseDiskAlertSettings
  | .cpuTemp => parseCpuTempSettings

def LevelWatch.apply : LevelWatch → Bool → ℚ → Int → Int → AlertSignal
  | .disk => applyDiskWatchState
  | .cpuTemp => applyCpuTempWatchState

/-! ## Scans -/

structure LevelSample where
  key : Text
  value : ℚ

structure PoolSample where
  key : Text
  healthy : Bool
deriving DecidableEq, Repr

inductive AlertKey : Type
  | level (watch : LevelWatch) (key : Text)
  | pool (key : Text)
deriving DecidableEq, Repr

inductive AlertReading : Type
  | level (value : ℚ) (limits : Thresholds)
  | pool (healthy : Bool)

/-- Below the clear threshold, which is below the alert threshold; or healthy. -/
def AlertReading.Recovered : AlertReading → Prop
  | .level value limits => value < limits.clearAt ∧ limits.clearAt < limits.alertAt
  | .pool healthy => healthy = true

abbrev AlertLog : Type := List (Observation AlertKey AlertReading)

/-- `notified[key] ?? false`. -/
def flagAt (notified : Record Bool) (key : Text) : Bool := (notified.get? key).getD false

/-- The stored flags of the keys that a scan has seen. -/
def liveFlags (notified : Record Bool) (keys : List Text) : Record Bool where
  entries := notified.entries.filter fun entry => entry.1 ∈ keys
  nodup := notified.nodup.sublist (List.filter_sublist.map Prod.fst)

/-- The loop of `remember` over the samples. -/
def rememberSamples (watch : LevelWatch) (limits : Thresholds) :
    Record Bool → AlertLog → List LevelSample → Record Bool × AlertLog
  | notified, log, [] => (notified, log)
  | notified, log, sample :: rest =>
      let next := watch.apply (flagAt notified sample.key) sample.value limits.alertAt limits.clearAt
      rememberSamples watch limits (notified.set sample.key next.notified)
        (⟨.level watch sample.key, .level sample.value limits, next.notify⟩ :: log) rest

/-- `remember`, up to the write of the flags. -/
def remember (watch : LevelWatch) (limits : Thresholds) (stored : Record Bool) (log : AlertLog)
    (samples : List LevelSample) : Record Bool × AlertLog :=
  rememberSamples watch limits (liveFlags stored (samples.map (·.key))) log samples

/-- The loop of `scanZfsHealth` over the pools: `prev` are the stored flags. -/
def scanPools (prev : Record Bool) :
    Record Bool → AlertLog → List PoolSample → Record Bool × AlertLog
  | nextNotified, log, [] => (nextNotified, log)
  | nextNotified, log, pool :: rest =>
      let next := applyZfsWatchState (flagAt prev pool.key) pool.healthy
      scanPools prev (nextNotified.set pool.key next.notified)
        (⟨.pool pool.key, .pool pool.healthy, next.notify⟩ :: log) rest

/-- The stored flags, and what was observed. -/
structure AlertSystem where
  levels : LevelWatch → Record Bool
  pools : Record Bool
  log : AlertLog

/-- A scan: what it has seen, and whether its flags are stored. -/
inductive AlertEvent : Type
  | scan (watch : LevelWatch) (raw : RawThresholds) (samples : List LevelSample) (saved : Bool)
  | scanZfsHealth (found : List PoolSample) (saved : Bool)

namespace AlertSystem

def step (s : AlertSystem) : AlertEvent → Option AlertSystem
  | .scan watch raw samples saved =>
      let after := remember watch (watch.parse raw) (s.levels watch) s.log samples
      some { s with
        levels := if saved then Function.update s.levels watch after.1 else s.levels
        log := after.2 }
  | .scanZfsHealth found saved =>
      let after := scanPools s.pools .empty s.log found
      some { s with
        pools := if saved then after.1 else s.pools
        log := after.2 }

/-- Nothing has been observed. -/
def starting (levels : LevelWatch → Record Bool) (pools : Record Bool) : AlertSystem where
  levels := levels
  pools := pools
  log := []

/-- Every flag that is up belongs to a key that was seen. -/
def SeesFlags (notified : Record Bool) (keys : List Text) : Prop :=
  ∀ entry ∈ notified.entries, entry.2 = true → entry.1 ∈ keys

/-- Where the thresholds are equal, nothing below them has its flag up or gets it
up in the scan. -/
def ClearsStrictly (limits : Thresholds) (notified : Record Bool) (samples : List LevelSample) :
    Prop :=
  limits.clearAt < limits.alertAt ∨ ∀ sample ∈ samples, sample.value < limits.clearAt →
    flagAt notified sample.key = false ∧
      ∀ other ∈ samples, other.key = sample.key → other.value < limits.alertAt

/-- No pool without its flag is found degraded twice. -/
def DegradedOnce (notified : Record Bool) (found : List PoolSample) : Prop :=
  found.Pairwise fun p q => p.key = q.key →
    p.healthy = true ∨ q.healthy = true ∨ flagAt notified p.key = true

/-- A scan whose flags are stored has seen every key with its flag up, and a scan
whose flags are not stored notifies of nothing. -/
def KeepsFlags (s : AlertSystem) : AlertEvent → Prop
  | .scan watch raw samples saved =>
      ClearsStrictly (watch.parse raw) (s.levels watch) samples ∧
        if saved then SeesFlags (s.levels watch) (samples.map (·.key))
        else ∀ sample ∈ samples, (watch.parse raw).alertAt ≤ sample.value →
          flagAt (s.levels watch) sample.key = true
  | .scanZfsHealth found saved =>
      DegradedOnce s.pools found ∧
        if saved then SeesFlags s.pools (found.map (·.key))
        else ∀ pool ∈ found, pool.healthy = false → flagAt s.pools pool.key = true

instance (limits : Thresholds) (notified : Record Bool) (samples : List LevelSample) :
    Decidable (ClearsStrictly limits notified samples) :=
  inferInstanceAs (Decidable (_ ∨ ∀ sample ∈ samples, _ → _ ∧ ∀ other ∈ samples, _ → _))

instance (notified : Record Bool) (keys : List Text) : Decidable (SeesFlags notified keys) :=
  inferInstanceAs (Decidable (∀ entry ∈ notified.entries, _ → _))

instance (notified : Record Bool) (found : List PoolSample) :
    Decidable (DegradedOnce notified found) :=
  inferInstanceAs (Decidable (List.Pairwise _ found))

instance (s : AlertSystem) : ∀ e, Decidable (KeepsFlags s e)
  | .scan watch raw samples saved =>
      inferInstanceAs (Decidable (ClearsStrictly (watch.parse raw) (s.levels watch) samples ∧
        if saved then SeesFlags (s.levels watch) (samples.map (·.key))
        else ∀ sample ∈ samples, (watch.parse raw).alertAt ≤ sample.value →
          flagAt (s.levels watch) sample.key = true))
  | .scanZfsHealth found saved =>
      inferInstanceAs (Decidable (DegradedOnce s.pools found ∧
        if saved then SeesFlags s.pools (found.map (·.key))
        else ∀ pool ∈ found, pool.healthy = false → flagAt s.pools pool.key = true))

/-! ## Flags -/

theorem flagAt_set (notified : Record Bool) (key : Text) (flag : Bool) (k : Text) :
    flagAt (notified.set key flag) k = if k = key then flag else flagAt notified k := by
  have entry : (notified.set key flag).get? k = if k = key then some flag else notified.get? k :=
    lookup_setEntry notified.entries key flag k
  unfold flagAt
  rw [entry]
  split <;> rfl

theorem flagAt_liveFlags (notified : Record Bool) (keys : List Text) (k : Text) :
    flagAt (liveFlags notified keys) k = if k ∈ keys then flagAt notified k else false := by
  have entry : ∀ entries : List (Text × Bool),
      (entries.filter fun entry => decide (entry.1 ∈ keys)).lookup k =
        if k ∈ keys then entries.lookup k else none := by
    intro entries
    induction entries with
    | nil => simp
    | cons entry rest ih =>
        by_cases same : k = entry.1
        · by_cases seen : entry.1 ∈ keys
          · rw [List.filter_cons_of_pos (by simpa using seen), same, List.lookup_cons_self,
              if_pos seen, List.lookup_cons_self]
          · rw [List.filter_cons_of_neg (by simpa using seen), ih, same, if_neg seen, if_neg seen]
        · have other : (k == entry.1) = false := beq_eq_false_iff_ne.mpr same
          by_cases seen : entry.1 ∈ keys
          · rw [List.filter_cons_of_pos (by simpa using seen), List.lookup_cons, List.lookup_cons,
              other]
            exact ih
          · rw [List.filter_cons_of_neg (by simpa using seen), List.lookup_cons, other]
            exact ih
  unfold flagAt Record.get? liveFlags
  rw [entry]
  split <;> rfl

/-- A key that was not seen has its flag down. -/
theorem SeesFlags.flagAt {notified : Record Bool} {keys : List Text} {k : Text}
    (sees : SeesFlags notified keys) (unseen : k ∉ keys) : flagAt notified k = false := by
  by_contra up
  rw [Bool.not_eq_false] at up
  have found : notified.entries.lookup k = some true := by
    unfold Proxora.flagAt Record.get? at up
    cases entry : notified.entries.lookup k with
    | none =>
        rw [entry] at up
        cases up
    | some flag =>
        rw [entry] at up
        rw [← up]
        rfl
  obtain ⟨entry, member, same⟩ : ∃ entry ∈ notified.entries, entry = (k, true) := by
    have split := List.lookup_eq_some_iff.mp found
    obtain ⟨before, after, entries, -⟩ := split
    exact ⟨(k, true), by rw [entries]; simp, rfl⟩
  have seen := sees entry member (by rw [same])
  rw [same] at seen
  exact unseen seen

section Signals

variable {watch : LevelWatch} {notified healthy : Bool} {value : ℚ} {alertAt clearAt : Int}

theorem LevelWatch.apply_eq :
    watch.apply notified value alertAt clearAt =
      applyDiskWatchState notified value alertAt clearAt := by
  cases watch <;> rfl

/-- A notification needs the flag down and a value of at least the alert threshold. -/
theorem LevelWatch.notify_needs (notify : (watch.apply notified value alertAt clearAt).notify = true) :
    notified = false ∧ alertAt ≤ value := by
  rw [apply_eq, applyDiskWatchState] at notify
  split at notify
  · next high => exact ⟨high.2, high.1⟩
  · split at notify <;> cases notify

/-- The flag comes down without a notification, below the clear threshold. -/
theorem LevelWatch.notified_down
    (down : (watch.apply notified value alertAt clearAt).notified = false) :
    (watch.apply notified value alertAt clearAt).notify = false ∧
      (notified = false ∨ value < clearAt) := by
  rw [apply_eq, applyDiskWatchState] at *
  split at down
  · cases down
  · next notHigh =>
    rw [if_neg notHigh]
    split at down
    · next low =>
      rw [if_pos low]
      exact ⟨rfl, .inr low⟩
    · next notLow =>
      rw [if_neg notLow]
      exact ⟨rfl, .inl down⟩

/-- Below the alert threshold the flag stays down. -/
theorem LevelWatch.notified_quiet (down : notified = false) (low : value < alertAt) :
    (watch.apply notified value alertAt clearAt).notified = false := by
  rw [apply_eq, applyDiskWatchState, if_neg (by intro high; exact absurd high.1 (not_le.mpr low))]
  split
  · rfl
  · exact down

theorem applyZfsWatchState_needs (notify : (applyZfsWatchState notified healthy).notify = true) :
    healthy = false ∧ notified = false := by
  unfold applyZfsWatchState at notify
  split at notify
  · next degraded => exact degraded
  · split at notify <;> cases notify

theorem applyZfsWatchState_down (down : (applyZfsWatchState notified healthy).notified = false) :
    (applyZfsWatchState notified healthy).notify = false ∧ healthy = true := by
  cases healthy <;> cases notified
  · cases down
  · cases down
  · exact ⟨rfl, rfl⟩
  · exact ⟨rfl, rfl⟩

end Signals

/-! ## Scans for levels -/

section Levels

variable {watch : LevelWatch} {limits : Thresholds} {notified : Record Bool} {log : AlertLog}
  {samples : List LevelSample} {keys : List Text}

/-- The flags of a watch, for the keys that the scan has seen. -/
def scanFlags (watch : LevelWatch) (keys : List Text) (notified : Record Bool) : AlertKey → Bool
  | .level other key => if other = watch ∧ key ∈ keys then flagAt notified key else true
  | .pool _ => true

theorem scanFlags_level {other : LevelWatch} {key : Text} :
    scanFlags watch keys notified (.level other key) =
      if other = watch ∧ key ∈ keys then flagAt notified key else true := rfl

/-- The observations of a scan are of its samples. -/
theorem rememberSamples_log :
    ∃ latest, (rememberSamples watch limits notified log samples).2 = latest ++ log ∧
      ∀ o ∈ latest, ∃ sample ∈ samples, o.key = .level watch sample.key ∧
        (o.notified = true → limits.alertAt ≤ sample.value) := by
  induction samples generalizing notified log with
  | nil => exact ⟨[], rfl, fun o member => by cases member⟩
  | cons sample rest ih =>
      obtain ⟨latest, log_eq, ofRest⟩ := @ih
        (notified.set sample.key (watch.apply (flagAt notified sample.key) sample.value
          limits.alertAt limits.clearAt).notified)
        (⟨.level watch sample.key, .level sample.value limits,
          (watch.apply (flagAt notified sample.key) sample.value limits.alertAt
            limits.clearAt).notify⟩ :: log)
      refine ⟨latest ++ [⟨.level watch sample.key, .level sample.value limits,
        (watch.apply (flagAt notified sample.key) sample.value limits.alertAt
          limits.clearAt).notify⟩], ?_, ?_⟩
      · rw [rememberSamples, log_eq, List.append_assoc]
        rfl
      · intro o member
        rcases List.mem_append.mp member with later | first
        · obtain ⟨other, inRest, facts⟩ := ofRest o later
          exact ⟨other, List.mem_cons_of_mem sample inRest, facts⟩
        · rw [List.mem_singleton] at first
          rw [first]
          exact ⟨sample, List.mem_cons_self, rfl, fun notify => (LevelWatch.notify_needs notify).2⟩

/-- The first sample of a scan leaves the others to be cleared strictly. -/
theorem ClearsStrictly.tail {sample : LevelSample}
    (clears : ClearsStrictly limits notified (sample :: samples)) :
    ClearsStrictly limits (notified.set sample.key
      (watch.apply (flagAt notified sample.key) sample.value limits.alertAt
        limits.clearAt).notified) samples := by
  rcases clears with strict | quiet
  · exact .inl strict
  · refine .inr fun other inRest low => ?_
    obtain ⟨down, below⟩ := quiet other (List.mem_cons_of_mem sample inRest) low
    refine ⟨?_, fun third member => below third (List.mem_cons_of_mem sample member)⟩
    rw [flagAt_set]
    split
    · next same =>
      rw [same] at down
      exact LevelWatch.notified_quiet down (below sample List.mem_cons_self same.symm)
    · exact down

/-- **Loop.** Sample after sample the log stays spaced and the flags track it. -/
theorem rememberSamples_sound (inKeys : ∀ sample ∈ samples, sample.key ∈ keys)
    (clears : ClearsStrictly limits notified samples) (spaced : Spaced AlertReading.Recovered log)
    (tracks : Tracks AlertReading.Recovered (scanFlags watch keys notified) log) :
    Spaced AlertReading.Recovered (rememberSamples watch limits notified log samples).2 ∧
      Tracks AlertReading.Recovered
        (scanFlags watch keys (rememberSamples watch limits notified log samples).1)
        (rememberSamples watch limits notified log samples).2 := by
  induction samples generalizing notified log with
  | nil => exact ⟨spaced, tracks⟩
  | cons sample rest ih =>
      rw [rememberSamples]
      have here := inKeys sample List.mem_cons_self
      have flag_eq (record : Record Bool) : scanFlags watch keys record (.level watch sample.key) =
          flagAt record sample.key := if_pos ⟨rfl, here⟩
      refine ih (fun other inRest => inKeys other (List.mem_cons_of_mem sample inRest)) clears.tail
        (spaced.cons fun notify => ?_) (tracks.observe ?_ fun down => ?_)
      · exact tracks _ ((flag_eq notified).trans (LevelWatch.notify_needs notify).1)
      · intro k different
        cases k with
        | pool key => rfl
        | level other key =>
            rw [scanFlags_level, scanFlags_level]
            split
            · next seen =>
              rw [flagAt_set, if_neg]
              intro same
              rw [same, seen.1] at different
              exact different rfl
            · rfl
      · rw [flag_eq, flagAt_set, if_pos rfl] at down
        obtain ⟨silent, wasDown | low⟩ := LevelWatch.notified_down down
        · exact ⟨silent, .inl ((flag_eq notified).trans wasDown)⟩
        · rcases clears with strict | quiet
          · exact ⟨silent, .inr ⟨low, strict⟩⟩
          · have wasDown := (quiet sample List.mem_cons_self low).1
            exact ⟨silent, .inl ((flag_eq notified).trans wasDown)⟩

theorem flagAt_live {sample : LevelSample} (member : sample ∈ samples) :
    flagAt (liveFlags notified (samples.map (·.key))) sample.key = flagAt notified sample.key := by
  rw [flagAt_liveFlags, if_pos (List.mem_map_of_mem member)]

theorem remember_sound (watch : LevelWatch) (clears : ClearsStrictly limits notified samples)
    (spaced : Spaced AlertReading.Recovered log)
    (tracks : ∀ key ∈ samples.map (·.key), flagAt notified key = false →
      Calm AlertReading.Recovered (.level watch key) log) :
    Spaced AlertReading.Recovered (remember watch limits notified log samples).2 ∧
      Tracks AlertReading.Recovered
        (scanFlags watch (samples.map (·.key)) (remember watch limits notified log samples).1)
        (remember watch limits notified log samples).2 := by
  refine rememberSamples_sound (fun sample member => List.mem_map_of_mem member) ?_ spaced ?_
  · refine clears.imp_right fun quiet sample member low => ?_
    rw [flagAt_live member]
    exact quiet sample member low
  · intro k down
    cases k with
    | pool key => cases down
    | level other key =>
        rw [scanFlags_level] at down
        split at down
        · next seen =>
          rw [flagAt_liveFlags, if_pos seen.2] at down
          rw [seen.1]
          exact tracks key seen.2 down
        · cases down

end Levels

/-! ## Scans for pools -/

section Pools

variable {prev next : Record Bool} {log : AlertLog} {found : List PoolSample}

/-- The flags of the pools that the scan has been through. -/
def poolFlags (next : Record Bool) : AlertKey → Bool
  | .level _ _ => true
  | .pool key => (next.get? key).getD true

theorem poolFlags_set (key : Text) (flag : Bool) (k : Text) :
    poolFlags (next.set key flag) (.pool k) = if k = key then flag else poolFlags next (.pool k) := by
  have entry : (next.set key flag).get? k = if k = key then some flag else next.get? k :=
    lookup_setEntry next.entries key flag k
  unfold poolFlags
  dsimp only
  rw [entry]
  split <;> rfl

theorem scanPools_log :
    ∃ latest, (scanPools prev next log found).2 = latest ++ log ∧
      ∀ o ∈ latest, ∃ pool ∈ found, o.key = .pool pool.key ∧
        (o.notified = true → pool.healthy = false ∧ flagAt prev pool.key = false) := by
  induction found generalizing next log with
  | nil => exact ⟨[], rfl, fun o member => by cases member⟩
  | cons pool rest ih =>
      obtain ⟨latest, log_eq, ofRest⟩ := @ih
        (next.set pool.key (applyZfsWatchState (flagAt prev pool.key) pool.healthy).notified)
        (⟨.pool pool.key, .pool pool.healthy,
          (applyZfsWatchState (flagAt prev pool.key) pool.healthy).notify⟩ :: log)
      refine ⟨latest ++ [⟨.pool pool.key, .pool pool.healthy,
        (applyZfsWatchState (flagAt prev pool.key) pool.healthy).notify⟩], ?_, ?_⟩
      · rw [scanPools, log_eq, List.append_assoc]
        rfl
      · intro o member
        rcases List.mem_append.mp member with later | first
        · obtain ⟨other, inRest, facts⟩ := ofRest o later
          exact ⟨other, List.mem_cons_of_mem pool inRest, facts⟩
        · rw [List.mem_singleton] at first
          rw [first]
          exact ⟨pool, List.mem_cons_self, rfl, applyZfsWatchState_needs⟩

/-- Every pool of the scan has a flag afterwards. -/
theorem scanPools_seen {k : Text} (seen : k ∈ found.map (·.key) ∨ (next.get? k).isSome = true) :
    ((scanPools prev next log found).1.get? k).isSome = true := by
  induction found generalizing next log with
  | nil =>
      rcases seen with member | held
      · cases member
      · exact held
  | cons pool rest ih =>
      rw [scanPools]
      apply ih
      have entry : ∀ flag, (next.set pool.key flag).get? k =
          if k = pool.key then some flag else next.get? k := fun flag =>
        lookup_setEntry next.entries pool.key flag k
      rw [List.map_cons, List.mem_cons, or_assoc] at seen
      rcases seen with here | later | held
      · exact .inr (by rw [entry, if_pos here]; rfl)
      · exact .inl later
      · refine .inr ?_
        rw [entry]
        split
        · rfl
        · exact held

/-- **Loop.** Pool after pool the log stays spaced and the flags track it. -/
theorem scanPools_sound (next : Record Bool) (once : DegradedOnce prev found)
    (calm : ∀ pool ∈ found, pool.healthy = false → flagAt prev pool.key = false →
      Calm AlertReading.Recovered (.pool pool.key) log)
    (spaced : Spaced AlertReading.Recovered log)
    (tracks : Tracks AlertReading.Recovered (poolFlags next) log) :
    Spaced AlertReading.Recovered (scanPools prev next log found).2 ∧
      Tracks AlertReading.Recovered (poolFlags (scanPools prev next log found).1)
        (scanPools prev next log found).2 := by
  induction found generalizing next log with
  | nil => exact ⟨spaced, tracks⟩
  | cons pool rest ih =>
      rw [scanPools]
      obtain ⟨others, onceRest⟩ := List.pairwise_cons.mp once
      refine ih _ onceRest (fun q inRest degraded down => ?_) (spaced.cons fun notify => ?_)
        (tracks.observe ?_ fun down => ?_)
      · have before := calm q (List.mem_cons_of_mem pool inRest) degraded down
        by_cases same : pool.key = q.key
        · rcases others q inRest same with healthy | healthy | up
          · have quiet : (applyZfsWatchState (flagAt prev pool.key) pool.healthy).notify = false := by
              rw [healthy]
              cases flagAt prev pool.key <;> rfl
            exact before.cons_of_silent quiet
          · rw [degraded] at healthy
            cases healthy
          · rw [same, down] at up
            cases up
        · refine before.cons_of_ne fun equal => same ?_
          exact AlertKey.pool.inj equal
      · obtain ⟨degraded, down⟩ := applyZfsWatchState_needs notify
        exact calm pool List.mem_cons_self degraded down
      · intro k different
        cases k with
        | level watch key => rfl
        | pool key =>
            rw [poolFlags_set, if_neg]
            intro same
            rw [same] at different
            exact different rfl
      · rw [poolFlags_set, if_pos rfl] at down
        obtain ⟨silent, healthy⟩ := applyZfsWatchState_down down
        exact ⟨silent, .inr healthy⟩

end Pools

/-! ## Runs -/

/-- The stored flags. -/
def flags (s : AlertSystem) : AlertKey → Bool
  | .level watch key => flagAt (s.levels watch) key
  | .pool key => flagAt s.pools key

/-- The log is spaced, and the stored flags track it. -/
structure Sound (s : AlertSystem) : Prop where
  spaced : Spaced AlertReading.Recovered s.log
  tracks : Tracks AlertReading.Recovered s.flags s.log

variable {s t : AlertSystem}

theorem sound_starting (levels : LevelWatch → Record Bool) (pools : Record Bool) :
    Sound (starting levels pools) where
  spaced := spaced_nil
  tracks := tracks_nil

/-- Keys that nothing was notified of stay calm. -/
theorem Sound.calm_after {latest : AlertLog} {k : AlertKey} (sound : Sound s)
    (down : s.flags k = false) (silent : ∀ o ∈ latest, o.key = k → o.notified = false) :
    Calm AlertReading.Recovered k (latest ++ s.log) :=
  (sound.tracks k down).append silent

theorem Sound.scan {watch : LevelWatch} {raw : RawThresholds} {samples : List LevelSample}
    {saved : Bool} (sound : Sound s) (keeps : KeepsFlags s (.scan watch raw samples saved))
    (happens : step s (.scan watch raw samples saved) = some t) : Sound t := by
  obtain ⟨clears, sees⟩ := keeps
  have during := remember_sound watch clears sound.spaced fun key _ down =>
    sound.tracks (.level watch key) down
  obtain ⟨latest, log_eq, ofSamples⟩ : ∃ latest,
      (remember watch (watch.parse raw) (s.levels watch) s.log samples).2 = latest ++ s.log ∧
        ∀ o ∈ latest, ∃ sample ∈ samples, o.key = .level watch sample.key ∧
          (o.notified = true → (watch.parse raw).alertAt ≤ sample.value) := rememberSamples_log
  cases happens
  refine ⟨during.1, fun k down => ?_⟩
  dsimp only at *
  have unseen (down : s.flags k = false)
      (other : ∀ sample ∈ samples, k ≠ .level watch sample.key) :
      Calm AlertReading.Recovered k
        (remember watch (watch.parse raw) (s.levels watch) s.log samples).2 := by
    rw [log_eq]
    refine sound.calm_after down fun o member same => ?_
    obtain ⟨sample, inSamples, key, -⟩ := ofSamples o member
    exact absurd (same.symm.trans key) (other sample inSamples)
  cases k with
  | pool key => exact unseen down fun sample _ => by simp
  | level other key =>
      by_cases same : watch = other
      · subst same
        by_cases seen : key ∈ samples.map (·.key)
        · cases saved with
          | true =>
              have now : scanFlags watch (samples.map (·.key))
                  (remember watch (watch.parse raw) (s.levels watch) s.log samples).1
                  (.level watch key) = false := by
                rw [scanFlags_level, if_pos ⟨rfl, seen⟩]
                unfold AlertSystem.flags at down
                dsimp only at down
                rw [if_pos rfl, Function.update_self] at down
                exact down
              exact during.2 _ now
          | false =>
              rw [log_eq]
              refine sound.calm_after down fun o member named => ?_
              obtain ⟨sample, inSamples, key_eq, high⟩ := ofSamples o member
              by_contra notified
              rw [Bool.not_eq_false] at notified
              have up := sees sample inSamples (high notified)
              have sameKey : sample.key = key :=
                (AlertKey.level.inj (key_eq.symm.trans named)).2
              rw [sameKey] at up
              have before : flagAt (s.levels watch) key = false := down
              rw [up] at before
              cases before
        · have before : s.flags (.level watch key) = false := by
            cases saved with
            | true => exact SeesFlags.flagAt sees seen
            | false => exact down
          refine unseen before fun sample member equal => seen ?_
          rw [(AlertKey.level.inj equal).2]
          exact List.mem_map_of_mem member
      · have before : s.flags (.level other key) = false := by
          cases saved with
          | true =>
              unfold AlertSystem.flags at *
              dsimp only at down
              rw [if_pos rfl, Function.update_of_ne (Ne.symm same)] at down
              exact down
          | false => exact down
        exact unseen before fun sample _ equal => same (AlertKey.level.inj equal).1.symm

theorem Sound.scanZfsHealth {found : List PoolSample} {saved : Bool} (sound : Sound s)
    (keeps : KeepsFlags s (.scanZfsHealth found saved))
    (happens : step s (.scanZfsHealth found saved) = some t) : Sound t := by
  obtain ⟨once, sees⟩ := keeps
  have during := scanPools_sound .empty once
    (fun pool _ _ down => sound.tracks (.pool pool.key) down) sound.spaced
    (fun k down => by cases k <;> cases down)
  obtain ⟨latest, log_eq, ofPools⟩ : ∃ latest,
      (scanPools s.pools .empty s.log found).2 = latest ++ s.log ∧
        ∀ o ∈ latest, ∃ pool ∈ found, o.key = .pool pool.key ∧
          (o.notified = true → pool.healthy = false ∧ flagAt s.pools pool.key = false) :=
    scanPools_log
  cases happens
  refine ⟨during.1, fun k down => ?_⟩
  dsimp only at *
  have unseen (down : s.flags k = false)
      (other : ∀ pool ∈ found, k ≠ .pool pool.key) :
      Calm AlertReading.Recovered k (scanPools s.pools .empty s.log found).2 := by
    rw [log_eq]
    refine sound.calm_after down fun o member same => ?_
    obtain ⟨pool, inFound, key, -⟩ := ofPools o member
    exact absurd (same.symm.trans key) (other pool inFound)
  cases k with
  | level watch key => exact unseen down fun pool _ => by simp
  | pool key =>
      cases saved with
      | true =>
          have now : flagAt (scanPools s.pools .empty s.log found).1 key = false := down
          by_cases seen : key ∈ found.map (·.key)
          · refine during.2 _ ?_
            have held : ((scanPools s.pools .empty s.log found).1.get? key).isSome = true :=
              scanPools_seen (.inl seen)
            obtain ⟨flag, flag_eq⟩ := Option.isSome_iff_exists.mp held
            unfold flagAt at now
            unfold poolFlags
            dsimp only
            rw [flag_eq] at now ⊢
            exact now
          · refine unseen (SeesFlags.flagAt sees seen) fun pool member equal => seen ?_
            rw [AlertKey.pool.inj equal]
            exact List.mem_map_of_mem member
      | false =>
          rw [log_eq]
          refine sound.calm_after down fun o member named => ?_
          obtain ⟨pool, inFound, -, needs⟩ := ofPools o member
          by_contra notified
          rw [Bool.not_eq_false] at notified
          obtain ⟨degraded, low⟩ := needs notified
          have up := sees pool inFound degraded
          rw [low] at up
          cases up

/-- **Step lemma.** -/
theorem Sound.step {e : AlertEvent} (sound : Sound s) (keeps : KeepsFlags s e)
    (happens : step s e = some t) : Sound t := by
  cases e with
  | scan watch raw samples saved => exact sound.scan keeps happens
  | scanZfsHealth found saved => exact sound.scanZfsHealth keeps happens

/-- **When alerts are spaced.** While no flag is lost and no flag comes down at a
value that is not strictly recovered, every key is observed recovered between two
notifications of it. -/
theorem keeps_spaced {levels : LevelWatch → Record Bool} {pools : Record Bool}
    (run : Reaches step KeepsFlags (starting levels pools) s) :
    Spaced AlertReading.Recovered s.log := by
  have sound : Sound s :=
    run.keeps (sound_starting levels pools) fun _ _ _ before keeps happens =>
      before.step keeps happens
  exact sound.spaced

/-! ## A machine that does not answer -/

/-- A scan with the default thresholds whose flags are stored. -/
def diskScan (samples : List LevelSample) : AlertEvent := .scan .disk ⟨none, none⟩ samples true

def machine (percent : ℚ) : LevelSample := ⟨"guest:host:vm:100", percent⟩

/-- A full disk notifies, is not seen in one scan, and notifies again. -/
theorem unseen_disk_notifies_again :
    ∃ events s, exec step (starting (fun _ => .empty) .empty) events = some s ∧
      ¬Spaced AlertReading.Recovered s.log := by
  refine ⟨[diskScan [machine 95], diskScan [], diskScan [machine 95]], _, rfl, fun spaced => ?_⟩
  obtain ⟨r, member, -⟩ := spaced [] _ [] _ [] rfl rfl (by decide) (by decide)
  cases member

/-- A full disk that is seen to empty, and fills again. -/
def refilled : List AlertEvent :=
  [diskScan [machine 95], diskScan [machine 87], diskScan [machine 80], diskScan [machine 95],
    .scan .cpuTemp ⟨some 90, some 95⟩ [⟨"host:pve", 91⟩] true, .scanZfsHealth [⟨"zfs:host:pve:tank", false⟩] true]

theorem refilled_happens :
    (exec (guarded step KeepsFlags) (starting (fun _ => .empty) .empty) refilled).isSome = true := by
  decide +kernel

theorem keeps_spaced_refilled :
    Spaced AlertReading.Recovered (Option.get _ refilled_happens).log :=
  keeps_spaced (reaches_of_guarded (Option.some_get refilled_happens).symm)

end AlertSystem

end Proxora
