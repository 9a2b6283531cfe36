import Proxora.Runs
import Proxora.Ecma.Text

/-!
# The update signal

The parties of a self-update in a container: `applySelfUpdate` of `services/self-update-service.ts`,
which writes the files of `lib/self-update-signal.ts`, the loop of `scripts/update-watcher.sh`, and
the updater that it starts. They share the request, the target and the lock of the signal directory
and the lock of the install directory, and each reads and writes one file at a time.

`UpdateState.updater_alone` says that a running updater keeps the application from requesting an
update and is never removed by the start of another one, which has the tag of the request that it
serves; `UpdateState.request_once` says when a request starts no second updater.
-/

namespace Proxora

open Ecma Runs

/-! ## The files -/

/-- What `writeUpdateTarget` leaves in the file of the target. -/
def writeUpdateTarget (tag : Option Text) : Option Text :=
  if trim (tag.getD []) = [] then none else some (trim (tag.getD []) ++ ['\n'])

/-- `[:space:]` -/
def isShellSpace (c : Char) : Bool := c ∈ (" \t\n\x0b\x0c\r" : Text)

/-- The tag that `start_updater` reads off the target. -/
def updaterTag (target : Option Text) : Text := (target.getD []).filter (!isShellSpace ·)

/-! ## The parties -/

/-- Where `applySelfUpdate` is; `cleared` has asked for the signal once more. -/
inductive AppPhase : Type
  | idle
  | checking
  | cleared (tag : Option Text)
  | pinned (tag : Option Text)
deriving DecidableEq

/-- Where the watcher is: at the check of `sync_lock`, behind it, at the look for a request, at the
check before an update, and behind it in the order of the script. -/
inductive WatcherPhase : Type
  | syncing
  | synced (busy : Bool)
  | looking
  | requested
  | dropping
  | locking
  | starting
  | launching (tag : Text)
  | started
  | failed
deriving DecidableEq

/-- An updater that was started, with the tag of the last accepted update. -/
structure UpdaterStart where
  tag : Text
  accepted : Option Text
deriving DecidableEq

/-- The last four fields only record what has happened: the tag of the last accepted update, how
many there were, the updaters started, and how many were removed while they ran. -/
structure UpdateState where
  request : Bool
  target : Option Text
  lock : Bool
  applyLock : Bool
  updater : Bool
  app : AppPhase
  watcher : WatcherPhase
  accepted : Option Text
  accepts : Nat
  starts : List UpdaterStart
  removed : Nat
deriving DecidableEq

inductive UpdateEvent : Type
  /-- A call of `applySelfUpdate`. -/
  | apply
  /-- The call ends without a request. -/
  | giveUp
  /-- `applyViaSignal` asks for the signal. -/
  | viaSignal (tag : Option Text)
  | writeTarget
  | writeRequest
  | appRestarts
  /-- `apply_busy`, and whether `docker ps` answers. -/
  | look (answers : Bool)
  /-- The next command of the watcher. -/
  | act
  /-- Whether the script of the updater is there. -/
  | script (present : Bool)
  /-- `docker rm` and `docker run`. -/
  | launch (works : Bool)
  | watcherRestarts
  | updaterExits
  /-- A script takes or leaves the lock of the install directory. -/
  | hold (held : Bool)

namespace UpdateState

/-- Nothing is going on; the watcher begins. -/
def start : UpdateState where
  request := false
  target := none
  lock := false
  applyLock := false
  updater := false
  app := .idle
  watcher := .syncing
  accepted := none
  accepts := 0
  starts := []
  removed := 0

def isUpdateBusyFromSignal (s : UpdateState) : Bool := s.request || s.lock

/-- Between its two looks no updater starts: only the watcher starts one. -/
def applyBusy (s : UpdateState) (answers : Bool) : Bool := answers && s.updater || s.applyLock

/-- The commands of the watcher that neither check nor start anything. -/
def watch (s : UpdateState) : Option UpdateState :=
  match s.watcher with
  | .synced busy => some { s with lock := busy, watcher := .looking }
  | .looking => some { s with watcher := if s.request then .requested else .syncing }
  | .dropping => some { s with request := false, watcher := .syncing }
  | .locking => some { s with lock := true, watcher := .starting }
  | .started => some { s with request := false, watcher := .syncing }
  | .failed => some { s with lock := false, watcher := .syncing }
  | _ => none

def step (s : UpdateState) : UpdateEvent → Option UpdateState
  | .apply =>
      -- `applyInFlight` is set from the first phase to the last.
      if s.app = .idle ∧ s.isUpdateBusyFromSignal = false then some { s with app := .checking }
      else some s
  | .giveUp => if s.app = .idle then none else some { s with app := .idle }
  | .viaSignal tag =>
      if s.app = .checking then
        some { s with app := if s.isUpdateBusyFromSignal then .idle else .cleared tag }
      else none
  | .writeTarget =>
      match s.app with
      | .cleared tag => some { s with target := writeUpdateTarget tag, app := .pinned tag }
      | _ => none
  | .writeRequest =>
      match s.app with
      | .pinned tag =>
          some { s with request := true, app := .idle, accepted := tag, accepts := s.accepts + 1 }
      | _ => none
  | .appRestarts => some { s with app := .idle }
  | .look answers =>
      match s.watcher with
      | .syncing => some { s with watcher := .synced (s.applyBusy answers) }
      | .requested =>
          some { s with watcher := if s.applyBusy answers then .dropping else .locking }
      | _ => none
  | .act => s.watch
  | .script present =>
      if s.watcher = .starting then
        some { s with watcher := if present then .launching (updaterTag s.target) else .failed }
      else none
  | .launch works =>
      match s.watcher with
      | .launching tag =>
          let clear := { s with updater := false, removed := s.removed + s.updater.toNat }
          if works then
            some { clear with
              updater := true
              watcher := .started
              starts := s.starts ++ [⟨tag, s.accepted⟩] }
          else some { clear with watcher := .failed }
      | _ => none
  | .watcherRestarts => some { s with watcher := .syncing }
  | .updaterExits => some { s with updater := false }
  | .hold held => some { s with applyLock := held }

/-- `docker ps` answers when an updater runs that the lock of the install directory does not show. -/
def Answered (s : UpdateState) : UpdateEvent → Prop
  | .look answers => s.updater = true → answers = true ∨ s.applyLock = true
  | _ => True

/-- The watcher does not restart between the start of an updater and the removal of the request. -/
def Finishes (s : UpdateState) : UpdateEvent → Prop
  | .watcherRestarts => s.watcher ≠ .started
  | _ => True

instance (s : UpdateState) : ∀ e, Decidable (s.Answered e)
  | .look _ => inferInstanceAs (Decidable (_ → _))
  | .apply | .giveUp | .viaSignal _ | .writeTarget | .writeRequest | .appRestarts | .act
  | .script _ | .launch _ | .watcherRestarts | .updaterExits | .hold _ =>
      inferInstanceAs (Decidable True)

instance (s : UpdateState) : ∀ e, Decidable (s.Finishes e)
  | .watcherRestarts => inferInstanceAs (Decidable (¬_))
  | .apply | .giveUp | .viaSignal _ | .writeTarget | .writeRequest | .appRestarts | .look _ | .act
  | .script _ | .launch _ | .updaterExits | .hold _ => inferInstanceAs (Decidable True)

end UpdateState

/-! ## Phases -/

/-- `applySelfUpdate` is going to write. -/
def AppPhase.writes : AppPhase → Bool
  | idle | checking => false
  | cleared _ | pinned _ => true

namespace WatcherPhase

/-- The watcher has seen a request that is still there. -/
def serves : WatcherPhase → Bool
  | syncing | synced _ | looking => false
  | requested | dropping | locking | starting | launching _ | started | failed => true

/-- The watcher knows that no updater runs. -/
def alone : WatcherPhase → Bool
  | synced busy => !busy
  | locking | starting | launching _ | failed => true
  | syncing | looking | requested | dropping | started => false

/-- The watcher has written the lock for an updater. -/
def locked : WatcherPhase → Bool
  | starting | launching _ | started => true
  | syncing | synced _ | looking | requested | dropping | locking | failed => false

end WatcherPhase

namespace UpdateState

variable {s t : UpdateState} {e : UpdateEvent}

/-- What each command of the watcher does. -/
theorem watch_cases (happens : s.watch = some t) :
    (∃ busy, s.watcher = .synced busy ∧ t = { s with lock := busy, watcher := .looking }) ∨
      (s.watcher = .looking ∧ s.request = true ∧ t = { s with watcher := .requested }) ∨
      (s.watcher = .looking ∧ s.request = false ∧ t = { s with watcher := .syncing }) ∨
      ((s.watcher = .dropping ∨ s.watcher = .started) ∧
        t = { s with request := false, watcher := .syncing }) ∨
      (s.watcher = .locking ∧ t = { s with lock := true, watcher := .starting }) ∨
      (s.watcher = .failed ∧ t = { s with lock := false, watcher := .syncing }) := by
  unfold watch at happens
  split at happens
  · next busy on =>
      exact Or.inl ⟨busy, on, (Option.some.inj happens).symm⟩
  · next on =>
      have next := Option.some.inj happens
      split at next
      · next there => exact Or.inr (Or.inl ⟨on, there, next.symm⟩)
      · next none =>
          exact Or.inr (Or.inr (Or.inl ⟨on, Bool.eq_false_iff.mpr none, next.symm⟩))
  · next on =>
      exact Or.inr (Or.inr (Or.inr (Or.inl ⟨Or.inl on, (Option.some.inj happens).symm⟩)))
  · next on =>
      exact Or.inr (Or.inr (Or.inr (Or.inr (Or.inl ⟨on, (Option.some.inj happens).symm⟩))))
  · next on =>
      exact Or.inr (Or.inr (Or.inr (Or.inl ⟨Or.inr on, (Option.some.inj happens).symm⟩)))
  · next on =>
      exact Or.inr (Or.inr (Or.inr (Or.inr (Or.inr ⟨on, (Option.some.inj happens).symm⟩))))
  · cases happens

/-! ## Requests and tags -/

/-- A request that is served stays, with the tag that was written for it, and the application
writes only where there is none. -/
structure Served (s : UpdateState) : Prop where
  request : s.watcher.serves = true → s.request = true
  free : s.app.writes = true → s.request = false
  pinned : ∀ tag, s.app = .pinned tag → s.target = writeUpdateTarget tag
  target : s.request = true → s.target = writeUpdateTarget s.accepted
  tag : ∀ tag, s.watcher = .launching tag → tag = updaterTag (writeUpdateTarget s.accepted)
  starts : ∀ u ∈ s.starts, u.tag = updaterTag (writeUpdateTarget u.accepted)

theorem served_start : start.Served := ⟨nofun, nofun, nofun, nofun, nofun, nofun⟩

/-- The locks and the updater do not matter here. -/
theorem Served.locks (served : s.Served) (lock applyLock updater : Bool) :
    ({ s with lock := lock, applyLock := applyLock, updater := updater } : UpdateState).Served :=
  ⟨served.request, served.free, served.pinned, served.target, served.tag, served.starts⟩

/-- The request cannot be written while the watcher serves one. -/
theorem Served.app_waits (served : s.Served) (serves : s.watcher.serves = true) :
    s.app.writes = false := by
  cases writing : s.app.writes with
  | false => rfl
  | true => cases (served.request serves).symm.trans (served.free writing)

theorem Served.idle (served : s.Served) : ({ s with app := .idle } : UpdateState).Served :=
  ⟨served.request, nofun, nofun, served.target, served.tag, served.starts⟩

/-- The watcher serves nothing. -/
theorem Served.rest (served : s.Served) {phase : WatcherPhase} (rests : phase.serves = false) :
    ({ s with watcher := phase } : UpdateState).Served := by
  refine ⟨fun serves => ?_, served.free, served.pinned, served.target, fun tag launches => ?_,
    served.starts⟩
  · cases serves.symm.trans rests
  · subst launches
    cases rests

/-- The watcher goes on with the request. -/
theorem Served.goOn (served : s.Served) (there : s.request = true) {phase : WatcherPhase}
    (other : ∀ tag, phase ≠ .launching tag) :
    ({ s with watcher := phase } : UpdateState).Served :=
  ⟨fun _ => there, served.free, served.pinned, served.target,
    fun tag launches => absurd launches (other tag), served.starts⟩

theorem Served.watch (served : s.Served) (happens : s.watch = some t) : t.Served := by
  rcases watch_cases happens with ⟨busy, -, rfl⟩ | ⟨-, there, rfl⟩ | ⟨-, -, rfl⟩ | ⟨-, rfl⟩ |
    ⟨on, rfl⟩ | ⟨-, rfl⟩
  · exact (served.locks busy s.applyLock s.updater).rest rfl
  · exact served.goOn there nofun
  · exact served.rest rfl
  · exact ⟨nofun, fun _ => rfl, served.pinned, nofun, nofun, served.starts⟩
  · have there : s.request = true := served.request (by rw [on]; rfl)
    exact (served.locks true s.applyLock s.updater).goOn there nofun
  · exact (served.locks false s.applyLock s.updater).rest rfl

/-- **Step.** -/
theorem Served.step (served : s.Served) (happens : s.step e = some t) : t.Served := by
  cases e with
  | apply =>
      rw [UpdateState.step] at happens
      split at happens
      · cases happens
        exact ⟨served.request, nofun, nofun, served.target, served.tag, served.starts⟩
      · cases happens
        exact served
  | giveUp =>
      rw [UpdateState.step] at happens
      split at happens
      · cases happens
      · cases happens
        exact served.idle
  | viaSignal tag =>
      rw [UpdateState.step] at happens
      split at happens
      · cases happens
        split
        · exact served.idle
        · next free =>
            rw [isUpdateBusyFromSignal, Bool.or_eq_true, not_or] at free
            exact ⟨served.request, fun _ => Bool.eq_false_iff.mpr free.1, nofun, served.target,
              served.tag, served.starts⟩
      · cases happens
  | writeTarget =>
      simp only [UpdateState.step] at happens
      split at happens
      · next tag on =>
          cases happens
          have none : s.request = false := served.free (by rw [on]; rfl)
          refine ⟨served.request, fun _ => none, fun other same => ?_, fun there => ?_, served.tag,
            served.starts⟩
          · cases same
            rfl
          · cases none.symm.trans there
      · cases happens
  | writeRequest =>
      simp only [UpdateState.step] at happens
      split at happens
      · next tag on =>
          cases happens
          refine ⟨fun _ => rfl, nofun, nofun, fun _ => served.pinned tag on,
            fun other launches => ?_, served.starts⟩
          have waits := served.app_waits (congrArg WatcherPhase.serves launches)
          rw [on] at waits
          cases waits
      · cases happens
  | appRestarts =>
      cases happens
      exact served.idle
  | look answers =>
      simp only [UpdateState.step] at happens
      split at happens
      · cases happens
        exact served.rest rfl
      · next on =>
          cases happens
          have there : s.request = true := served.request (by rw [on]; rfl)
          split
          · exact served.goOn there nofun
          · exact served.goOn there nofun
      · cases happens
  | act => exact served.watch happens
  | script present =>
      rw [UpdateState.step] at happens
      split at happens
      · next on =>
          cases happens
          have there : s.request = true := served.request (by rw [on]; rfl)
          split
          · refine ⟨fun _ => there, served.free, served.pinned, served.target, fun tag same => ?_,
              served.starts⟩
            cases same
            rw [served.target there]
          · exact served.goOn there nofun
      · cases happens
  | launch works =>
      simp only [UpdateState.step] at happens
      split at happens
      · next tag on =>
          have there : s.request = true := served.request (by rw [on]; rfl)
          split at happens
          · cases happens
            refine ⟨fun _ => there, served.free, served.pinned, served.target, nofun, ?_⟩
            exact List.forall_mem_append.mpr
              ⟨served.starts, List.forall_mem_singleton.mpr (served.tag tag on)⟩
          · cases happens
            exact ⟨fun _ => there, served.free, served.pinned, served.target, nofun, served.starts⟩
      · cases happens
  | watcherRestarts =>
      cases happens
      exact served.rest rfl
  | updaterExits =>
      cases happens
      exact served.locks s.lock s.applyLock false
  | hold held =>
      cases happens
      exact served.locks s.lock held s.updater

/-! ## One updater -/

/-- Where the watcher has found no updater there is none, and its lock stays as long as one
runs. -/
structure Alone (s : UpdateState) : Prop where
  running : s.updater = true → s.lock = true
  alone : s.watcher.alone = true → s.updater = false
  locked : s.watcher.locked = true → s.lock = true
  removed : s.removed = 0

theorem alone_start : start.Alone := ⟨nofun, nofun, nofun, rfl⟩

/-- A phase that claims nothing. -/
theorem Alone.rest (alone : s.Alone) {phase : WatcherPhase} (claims : phase.alone = false)
    (locks : phase.locked = false) : ({ s with watcher := phase } : UpdateState).Alone :=
  ⟨alone.running, fun claimed => absurd (claimed.symm.trans claims) nofun,
    fun locked => absurd (locked.symm.trans locks) nofun, alone.removed⟩

theorem Alone.watch (alone : s.Alone) (happens : s.watch = some t) : t.Alone := by
  rcases watch_cases happens with ⟨busy, on, rfl⟩ | ⟨-, -, rfl⟩ | ⟨-, -, rfl⟩ | ⟨-, rfl⟩ |
    ⟨on, rfl⟩ | ⟨on, rfl⟩
  · refine ⟨fun running => ?_, nofun, nofun, alone.removed⟩
    cases busy with
    | true => rfl
    | false =>
        have none : s.updater = false := alone.alone (by rw [on]; rfl)
        cases none.symm.trans running
  · exact alone.rest rfl rfl
  · exact alone.rest rfl rfl
  · exact ⟨alone.running, nofun, nofun, alone.removed⟩
  · have none : s.updater = false := alone.alone (by rw [on]; rfl)
    exact ⟨fun _ => rfl, fun _ => none, fun _ => rfl, alone.removed⟩
  · have none : s.updater = false := alone.alone (by rw [on]; rfl)
    exact ⟨fun running => absurd (none.symm.trans running) nofun, nofun, nofun, alone.removed⟩

/-- What a check that finds nothing means. -/
theorem updater_of_applyBusy {answers : Bool}
    (answered : s.updater = true → answers = true ∨ s.applyLock = true)
    (free : s.applyBusy answers = false) : s.updater = false := by
  cases running : s.updater with
  | false => rfl
  | true =>
      rw [applyBusy, running, Bool.and_true, Bool.or_eq_false_iff] at free
      rcases answered running with answers | held
      · cases free.1.symm.trans answers
      · cases free.2.symm.trans held

/-- **Step.** -/
theorem Alone.step (alone : s.Alone) (answered : s.Answered e) (happens : s.step e = some t) :
    t.Alone := by
  cases e with
  | apply =>
      rw [UpdateState.step] at happens
      split at happens
      · cases happens
        exact ⟨alone.running, alone.alone, alone.locked, alone.removed⟩
      · cases happens
        exact alone
  | giveUp =>
      rw [UpdateState.step] at happens
      split at happens
      · cases happens
      · cases happens
        exact ⟨alone.running, alone.alone, alone.locked, alone.removed⟩
  | viaSignal tag =>
      rw [UpdateState.step] at happens
      split at happens
      · cases happens
        exact ⟨alone.running, alone.alone, alone.locked, alone.removed⟩
      · cases happens
  | writeTarget | writeRequest =>
      simp only [UpdateState.step] at happens
      split at happens
      · cases happens
        exact ⟨alone.running, alone.alone, alone.locked, alone.removed⟩
      · cases happens
  | appRestarts =>
      cases happens
      exact ⟨alone.running, alone.alone, alone.locked, alone.removed⟩
  | look answers =>
      simp only [UpdateState.step] at happens
      split at happens
      · cases happens
        refine ⟨alone.running, fun claimed => ?_, nofun, alone.removed⟩
        have free : s.applyBusy answers = false := Bool.not_eq_true' _ ▸ claimed
        exact updater_of_applyBusy answered free
      · cases happens
        split
        · exact alone.rest rfl rfl
        · next free =>
            have none := updater_of_applyBusy answered (Bool.eq_false_iff.mpr free)
            exact ⟨alone.running, fun _ => none, nofun, alone.removed⟩
      · cases happens
  | act => exact alone.watch happens
  | script present =>
      rw [UpdateState.step] at happens
      split at happens
      · next on =>
          cases happens
          have none : s.updater = false := alone.alone (by rw [on]; rfl)
          have held : s.lock = true := alone.locked (by rw [on]; rfl)
          exact ⟨alone.running, fun _ => none, fun _ => held, alone.removed⟩
      · cases happens
  | launch works =>
      simp only [UpdateState.step] at happens
      split at happens
      · next tag on =>
          have none : s.updater = false := alone.alone (by rw [on]; rfl)
          have held : s.lock = true := alone.locked (by rw [on]; rfl)
          have removed : s.removed + s.updater.toNat = 0 := by
            rw [none, alone.removed]
            rfl
          split at happens
          · cases happens
            exact ⟨fun _ => held, nofun, fun _ => held, removed⟩
          · cases happens
            exact ⟨nofun, fun _ => rfl, nofun, removed⟩
      · cases happens
  | watcherRestarts =>
      cases happens
      exact alone.rest rfl rfl
  | updaterExits =>
      cases happens
      exact ⟨nofun, fun _ => rfl, alone.locked, alone.removed⟩
  | hold held =>
      cases happens
      exact ⟨alone.running, alone.alone, alone.locked, alone.removed⟩

/-- **One updater.** While an updater runs the application finds the signal busy; no updater is
removed while it runs, and each has the tag that was written for the last accepted update. -/
theorem updater_alone (run : Reaches step Answered start s) :
    (s.updater = true → s.isUpdateBusyFromSignal = true) ∧ s.removed = 0 ∧
      ∀ u ∈ s.starts, u.tag = updaterTag (writeUpdateTarget u.accepted) := by
  have served : s.Served :=
    run.keeps served_start fun _ _ _ before _ happens => before.step happens
  have alone : s.Alone :=
    run.keeps alone_start fun _ _ _ before answered happens => before.step answered happens
  refine ⟨fun running => ?_, alone.removed, served.starts⟩
  rw [isUpdateBusyFromSignal, alone.running running, Bool.or_true]

/-- A first update up to the start of its updater. -/
def firstUpdate : List UpdateEvent :=
  [.apply, .viaSignal (some "v1.2.3"), .writeTarget, .writeRequest, .look true, .act, .act,
    .look true, .act, .script true, .launch true]

theorem updater_alone_launched : ∃ s, Reaches step Answered start s ∧ s.updater = true ∧
    s.isUpdateBusyFromSignal = true ∧ s.removed = 0 := by
  obtain ⟨s, done, running⟩ : ∃ s, exec (guarded step Answered) start firstUpdate = some s ∧
      s.updater = true := ⟨_, rfl, rfl⟩
  have run := reaches_of_guarded done
  obtain ⟨busy, removed, -⟩ := updater_alone run
  exact ⟨s, run, running, busy running, removed⟩

/-! ## One updater for a request -/

/-- The request that has no updater yet, by the phase of the watcher. -/
def pending (request : Bool) (phase : WatcherPhase) : Nat :=
  if phase = .started then 0 else request.toNat

/-- Every updater has an accepted update of its own. -/
def Counted (s : UpdateState) : Prop :=
  s.starts.length + pending s.request s.watcher ≤ s.accepts

theorem pending_le_one (request : Bool) (phase : WatcherPhase) : pending request phase ≤ 1 := by
  unfold pending
  split
  · exact Nat.zero_le 1
  · exact Bool.toNat_le request

theorem pending_none (phase : WatcherPhase) : pending false phase = 0 := by
  unfold pending
  split <;> rfl

/-- Only the phase behind the start hides a request. -/
theorem pending_le {request : Bool} {phase : WatcherPhase} (before : phase ≠ .started)
    (after : WatcherPhase) : pending request after ≤ pending request phase := by
  unfold pending
  rw [if_neg before]
  split
  · exact Nat.zero_le _
  · exact Nat.le_refl _

theorem Counted.move (counted : s.Counted) (before : s.watcher ≠ .started)
    (after : WatcherPhase) : ({ s with watcher := after } : UpdateState).Counted :=
  (Nat.add_le_add_left (pending_le before after) _).trans counted

theorem Counted.watch (counted : s.Counted) (happens : s.watch = some t) : t.Counted := by
  have fewer : s.starts.length ≤ s.accepts := (Nat.le_add_right _ _).trans counted
  rcases watch_cases happens with ⟨busy, on, rfl⟩ | ⟨on, -, rfl⟩ | ⟨on, -, rfl⟩ | ⟨-, rfl⟩ |
    ⟨on, rfl⟩ | ⟨on, rfl⟩
  · exact counted.move (by rw [on]; exact nofun) .looking
  · exact counted.move (by rw [on]; exact nofun) .requested
  · exact counted.move (by rw [on]; exact nofun) .syncing
  · exact (Nat.add_le_add_left (pending_none .syncing).le _).trans fewer
  · exact counted.move (by rw [on]; exact nofun) .starting
  · exact counted.move (by rw [on]; exact nofun) .syncing

/-- **Step.** -/
theorem Counted.step (counted : s.Counted) (served : s.Served) (finishes : s.Finishes e)
    (happens : s.step e = some t) : t.Counted := by
  cases e with
  | apply =>
      rw [UpdateState.step] at happens
      split at happens <;> cases happens <;> exact counted
  | giveUp =>
      rw [UpdateState.step] at happens
      split at happens <;> cases happens
      exact counted
  | viaSignal tag =>
      rw [UpdateState.step] at happens
      split at happens <;> cases happens
      exact counted
  | writeTarget =>
      simp only [UpdateState.step] at happens
      split at happens <;> cases happens
      exact counted
  | writeRequest =>
      simp only [UpdateState.step] at happens
      split at happens
      · cases happens
        have fewer : s.starts.length ≤ s.accepts := (Nat.le_add_right _ _).trans counted
        exact Nat.add_le_add fewer (pending_le_one true s.watcher)
      · cases happens
  | appRestarts =>
      cases happens
      exact counted
  | look answers =>
      simp only [UpdateState.step] at happens
      split at happens
      · next on =>
          cases happens
          exact counted.move (by rw [on]; exact nofun) _
      · next on =>
          cases happens
          exact counted.move (by rw [on]; exact nofun) _
      · cases happens
  | act => exact counted.watch happens
  | script present =>
      rw [UpdateState.step] at happens
      split at happens
      · next on =>
          cases happens
          exact counted.move (by rw [on]; exact nofun) _
      · cases happens
  | launch works =>
      simp only [UpdateState.step] at happens
      split at happens
      · next tag on =>
          have there : s.request = true := served.request (by rw [on]; rfl)
          split at happens
          · cases happens
            rw [Counted, there, on] at counted
            change (s.starts ++ [_]).length + 0 ≤ s.accepts
            rw [List.length_append]
            exact counted
          · cases happens
            exact counted.move (by rw [on]; exact nofun) .failed
      · cases happens
  | watcherRestarts =>
      cases happens
      exact counted.move finishes .syncing
  | updaterExits | hold _ =>
      cases happens
      exact counted

/-- **One updater for a request.** Unless the watcher restarts behind the start of an updater, there
are no more updaters than accepted updates, and one fewer while a request waits for its own. -/
theorem request_once (run : Reaches step Finishes start s) :
    s.starts.length + pending s.request s.watcher ≤ s.accepts := by
  have both : s.Served ∧ s.Counted := by
    apply @Reaches.keeps _ _ step Finishes start s (fun u => u.Served ∧ u.Counted) run
    · exact ⟨served_start, Nat.le_refl 0⟩
    · intro u e v before finishes happens
      exact ⟨before.1.step happens, before.2.step before.1 finishes happens⟩
  exact both.2

theorem request_once_launched : ∃ s, Reaches step Finishes start s ∧ s.starts.length = 1 ∧
    s.starts.length + pending s.request s.watcher ≤ 1 := by
  obtain ⟨s, done, starts, accepts⟩ : ∃ s, exec (guarded step Finishes) start firstUpdate = some s ∧
      s.starts.length = 1 ∧ s.accepts = 1 := ⟨_, rfl, rfl, rfl⟩
  have run := reaches_of_guarded done
  exact ⟨s, run, starts, accepts ▸ request_once run⟩

end UpdateState

end Proxora
