import Proxora.HostStates

/-!
# The reconnect loop

`server/services/host-reconnect.ts`: the one timer, the flags, and the calls of
`tick` that have not returned.  A tick probes the hosts and then lists them to
choose the next delay; between the two `running` is off, so that other ticks can
begin while one lists.

`keeps_going` says when the loop lives on and starts a tick in time for every
kick.
-/

namespace Proxora

open Runs

/-! ## Delays -/

def hostReconnectMs : Nat := 15000

def hostHealthcheckMs : Nat := 60000

def hostReconnectKickMs : Nat := 3000

def nextHostProbeDelayMs (states : List HostConnectionState) : Nat :=
  if states.any (fun state => state ≠ .online && state ≠ .maintenance) then hostReconnectMs
  else hostHealthcheckMs

inductive TickStage : Type
  | probing | listing
deriving DecidableEq, Repr

/-- A call of `tick` that has not returned, and whether a kick was requested in
it that has not led to another tick. -/
structure ReconnectTick where
  stage : TickStage
  kicked : Bool
deriving DecidableEq, Repr

/-- The variables of the module, with `timer` as the time it fires at, the ticks,
and the times by which a kick is to have led to another tick. -/
structure ReconnectLoop where
  scheduled : Bool
  running : Bool
  timer : Option Nat
  kickSoon : Bool
  clock : Nat
  ticks : Nat → Option ReconnectTick
  begun : Nat
  owed : List Nat

/-- `probed` is the end of `probeAllHosts`, which `tick` does not ask the outcome
of; `listed` and `listFails` are the answers to the list of the hosts. -/
inductive ReconnectEvent : Type
  | start
  | fire
  | kick
  | probed (n : Nat)
  | listed (n : Nat) (states : List HostConnectionState)
  | listFails (n : Nat)
  | wait (ms : Nat)
deriving DecidableEq, Repr

namespace ReconnectLoop

/-- The module as it is loaded. -/
def fresh (clock : Nat) : ReconnectLoop where
  scheduled := false
  running := false
  timer := none
  kickSoon := false
  clock := clock
  ticks := fun _ => none
  begun := 0
  owed := []

def arm (s : ReconnectLoop) (delayMs : Nat) : ReconnectLoop :=
  { s with timer := some (s.clock + delayMs) }

/-- `tick` up to its first wait.  A tick that begins settles the kicks. -/
def tick (s : ReconnectLoop) : ReconnectLoop :=
  if s.running then { s with kickSoon := true }
  else
    { s with
      running := true
      kickSoon := false
      ticks := Function.update (fun m => (s.ticks m).map fun t => { t with kicked := false })
        s.begun (some ⟨.probing, false⟩)
      begun := s.begun + 1
      owed := [] }

/-- A kick is requested in the tick that probes, or else in those that list. -/
def mark (s : ReconnectLoop) : ReconnectLoop :=
  { s with
    ticks := fun m => (s.ticks m).map fun t =>
      if t.stage = .probing ∨ s.running = false then { t with kicked := true } else t }

/-- The tick returns, or throws. -/
def ends (s : ReconnectLoop) (n : Nat) (t : ReconnectTick) : ReconnectLoop :=
  { s with
    ticks := Function.update s.ticks n none
    owed := if t.kicked then (s.clock + hostReconnectKickMs) :: s.owed else s.owed }

/-- `requestHostReconnect`. -/
def requestHostReconnect (s : ReconnectLoop) : ReconnectLoop :=
  if !s.scheduled then s
  else
    let kicked := { s.mark with kickSoon := true }
    if s.running then kicked else kicked.arm hostReconnectKickMs

/-- The `finally` block of a tick up to its wait. -/
def probed (s : ReconnectLoop) (n : Nat) (t : ReconnectTick) : ReconnectLoop :=
  if s.kickSoon then ({ s with running := false }.arm hostReconnectKickMs).ends n t
  else
    { s with
      running := false
      ticks := Function.update s.ticks n (some { t with stage := .listing }) }

def step (s : ReconnectLoop) : ReconnectEvent → Option ReconnectLoop
  | .start => some (if s.scheduled then s else { s with scheduled := true }.tick)
  | .fire =>
      match s.timer with
      | some due => if due ≤ s.clock then some { s with timer := none }.tick else none
      | none => none
  | .kick => some s.requestHostReconnect
  | .probed n =>
      match s.ticks n with
      | some ⟨.probing, kicked⟩ => some (s.probed n ⟨.probing, kicked⟩)
      | _ => none
  | .listed n states =>
      match s.ticks n with
      | some ⟨.listing, kicked⟩ => some ((s.arm (nextHostProbeDelayMs states)).ends n ⟨.listing, kicked⟩)
      | _ => none
  | .listFails n =>
      match s.ticks n with
      | some ⟨.listing, kicked⟩ => some (s.ends n ⟨.listing, kicked⟩)
      | _ => none
  | .wait ms =>
      -- A timer fires when it is due.
      if ∀ due ∈ s.timer, s.clock + ms ≤ due then some { s with clock := s.clock + ms } else none

/-- Once started, a tick is under way or the timer is armed, and no kick that was
requested in a tick waits longer than it may. -/
structure KeepsGoing (s : ReconnectLoop) : Prop where
  alive : s.scheduled = true → s.timer ≠ none ∨ ∃ n, s.ticks n ≠ none
  onTime : ∀ limit ∈ s.owed, s.clock ≤ limit

/-- No kick is postponed by the next one, none waits when a tick has listed the
hosts, and the list fails only where something else keeps the loop alive. -/
def InTurn (s : ReconnectLoop) : ReconnectEvent → Prop
  | .kick => s.running = false → ∀ limit ∈ s.owed, s.clock + hostReconnectKickMs ≤ limit
  | .listed _ _ => s.running = false → s.kickSoon = false
  | .listFails n => s.timer ≠ none ∨ ∃ m, m < s.begun ∧ m ≠ n ∧ s.ticks m ≠ none
  | .start | .fire | .probed _ | .wait _ => True

instance (s : ReconnectLoop) : ∀ e, Decidable (s.InTurn e)
  | .kick =>
      inferInstanceAs (Decidable (s.running = false → ∀ limit ∈ s.owed,
        s.clock + hostReconnectKickMs ≤ limit))
  | .listed _ _ => inferInstanceAs (Decidable (s.running = false → s.kickSoon = false))
  | .listFails n =>
      inferInstanceAs (Decidable (s.timer ≠ none ∨ ∃ m, m < s.begun ∧ m ≠ n ∧ s.ticks m ≠ none))
  | .start | .fire | .probed _ | .wait _ => inferInstanceAs (Decidable True)

/-! ## The invariant -/

/-- A kick waits for a timer that fires in time. -/
def FiresBy (s : ReconnectLoop) (limit : Nat) : Prop := ∃ due, s.timer = some due ∧ due ≤ limit

structure Sound (s : ReconnectLoop) : Prop where
  alive : s.scheduled = true → s.timer ≠ none ∨ ∃ n, s.ticks n ≠ none
  future : ∀ due, s.timer = some due → s.clock ≤ due
  bound : ∀ n t, s.ticks n = some t → n < s.begun
  runs : ∀ n t, s.ticks n = some t → t.stage = .probing → s.running = true
  probes : s.running = true → ∃ n t, s.ticks n = some t ∧ t.stage = .probing
  one : ∀ n m t u, s.ticks n = some t → s.ticks m = some u → t.stage = .probing →
    u.stage = .probing → n = m
  owed : ∀ limit ∈ s.owed, s.running = false ∧ s.kickSoon = true ∧ s.FiresBy limit
  kickedProbing : ∀ n t, s.ticks n = some t → t.kicked = true → t.stage = .probing →
    s.kickSoon = true
  kickedListing : ∀ n t, s.ticks n = some t → t.kicked = true → t.stage = .listing →
    s.running = false ∧ s.kickSoon = true ∧ s.FiresBy (s.clock + hostReconnectKickMs)

variable {s t : ReconnectLoop}

theorem sound_fresh (clock : Nat) : (fresh clock).Sound where
  alive := fun scheduled => by cases scheduled
  future := fun due armed => by cases armed
  bound := fun n t held => by cases held
  runs := fun n t held => by cases held
  probes := fun running => by cases running
  one := fun n m t u held => by cases held
  owed := fun limit member => by cases member
  kickedProbing := fun n t held => by cases held
  kickedListing := fun n t held => by cases held

/-- While a tick probes no kick is overdue, and none waits in a tick that lists. -/
theorem Sound.of_running (sound : s.Sound) (running : s.running = true) :
    s.owed = [] ∧ ∀ n t, s.ticks n = some t → t.stage = .listing → t.kicked = false := by
  constructor
  · cases owed : s.owed with
    | nil => rfl
    | cons limit rest =>
        have idle := (sound.owed limit (by rw [owed]; exact List.mem_cons_self)).1
        rw [running] at idle
        cases idle
  · intro n t held stage
    by_contra kicked
    rw [Bool.not_eq_false] at kicked
    have idle := (sound.kickedListing n t held kicked stage).1
    rw [running] at idle
    cases idle

theorem tick_of_running (running : s.running = true) : s.tick = { s with kickSoon := true } :=
  if_pos running

theorem tick_of_idle (idle : s.running = false) : s.tick =
    { s with
      running := true
      kickSoon := false
      ticks := Function.update (fun m => (s.ticks m).map fun t => { t with kicked := false })
        s.begun (some ⟨.probing, false⟩)
      begun := s.begun + 1
      owed := [] } :=
  if_neg (by rw [idle]; exact Bool.false_ne_true)

/-- A tick that finds one probing leaves it a note. -/
theorem Sound.tick_running (sound : s.Sound) (running : s.running = true) (scheduled : Bool)
    {timer : Option Nat} (future : ∀ due, timer = some due → s.clock ≤ due) :
    Sound { s with scheduled := scheduled, timer := timer, kickSoon := true } where
  alive := by
    intro _
    obtain ⟨n, t, held, -⟩ := sound.probes running
    exact .inr ⟨n, by rw [held]; exact Option.some_ne_none t⟩
  future := future
  bound := sound.bound
  runs := sound.runs
  probes := sound.probes
  one := sound.one
  owed := by
    intro limit member
    rw [(sound.of_running running).1] at member
    cases member
  kickedProbing := fun _ _ _ _ _ => rfl
  kickedListing := by
    intro n t held kicked stage
    rw [(sound.of_running running).2 n t held stage] at kicked
    cases kicked

/-- The ticks when another one begins: none has a kick, and only the new one probes. -/
theorem Sound.settled (sound : s.Sound) (idle : s.running = false) {n : Nat} {t : ReconnectTick}
    (held : Function.update (fun m => (s.ticks m).map fun t => { t with kicked := false }) s.begun
      (some ⟨.probing, false⟩) n = some t) :
    t.kicked = false ∧ (n = s.begun ∨ t.stage = .listing ∧ n < s.begun) := by
  rcases update_eq_some held with ⟨same, rfl⟩ | ⟨-, held⟩
  · exact ⟨rfl, .inl same⟩
  · obtain ⟨before, earlier, rfl⟩ := Option.map_eq_some_iff.mp held
    refine ⟨rfl, .inr ⟨?_, sound.bound n before earlier⟩⟩
    cases stage : before.stage with
    | listing => rfl
    | probing =>
        rw [sound.runs n before earlier stage] at idle
        cases idle

/-- A tick begins when none probes. -/
theorem Sound.tick_idle (sound : s.Sound) (idle : s.running = false) (scheduled : Bool)
    {timer : Option Nat} (future : ∀ due, timer = some due → s.clock ≤ due) :
    Sound { s with
      scheduled := scheduled
      timer := timer
      running := true
      kickSoon := false
      ticks := Function.update (fun m => (s.ticks m).map fun t => { t with kicked := false })
        s.begun (some ⟨.probing, false⟩)
      begun := s.begun + 1
      owed := [] } := by
  have new : ∀ n t, Function.update
      (fun m => (s.ticks m).map fun t => { t with kicked := false }) s.begun
      (some ⟨.probing, false⟩) n = some t → t.stage = .probing → n = s.begun := by
    intro n t held stage
    rcases (sound.settled idle held).2 with same | ⟨listing, -⟩
    · exact same
    · rw [stage] at listing
      cases listing
  refine ⟨?_, future, ?_, fun _ _ _ _ => rfl, ?_, ?_, ?_, ?_, ?_⟩
  · intro _
    refine .inr ⟨s.begun, ?_⟩
    dsimp only
    rw [Function.update_self]
    exact Option.some_ne_none _
  · intro n t held
    rcases (sound.settled idle held).2 with rfl | ⟨-, older⟩
    · exact Nat.lt_succ_self _
    · exact Nat.lt_succ_of_lt older
  · intro _
    refine ⟨s.begun, ⟨.probing, false⟩, ?_, rfl⟩
    dsimp only
    rw [Function.update_self]
  · intro n m t u held also stage other
    exact (new n t held stage).trans (new m u also other).symm
  · intro limit member
    cases member
  · intro n t held kicked
    rw [(sound.settled idle held).1] at kicked
    cases kicked
  · intro n t held kicked
    rw [(sound.settled idle held).1] at kicked
    cases kicked

/-- A tick can begin whatever the timer is. -/
theorem Sound.tick (sound : s.Sound) (scheduled : Bool) {timer : Option Nat}
    (future : ∀ due, timer = some due → s.clock ≤ due) :
    Sound { s with scheduled := scheduled, timer := timer }.tick := by
  rcases Bool.eq_false_or_eq_true s.running with running | idle
  · have ticked : ({ s with scheduled := scheduled, timer := timer } : ReconnectLoop).tick = _ :=
      tick_of_running running
    rw [ticked]
    exact sound.tick_running running scheduled future
  · have ticked : ({ s with scheduled := scheduled, timer := timer } : ReconnectLoop).tick = _ :=
      tick_of_idle idle
    rw [ticked]
    exact sound.tick_idle idle scheduled future

/-- The ticks of the marked loop. -/
theorem mark_eq_some {n : Nat} {t : ReconnectTick} (held : s.mark.ticks n = some t) :
    ∃ before, s.ticks n = some before ∧ t.stage = before.stage ∧
      (t.kicked = true → before.kicked = true ∨ t.stage = .probing ∨ s.running = false) := by
  obtain ⟨before, earlier, same⟩ := Option.map_eq_some_iff.mp held
  refine ⟨before, earlier, ?_⟩
  split at same
  · next reached =>
      rw [← same]
      exact ⟨rfl, fun _ => .inr reached⟩
  · rw [← same]
    exact ⟨rfl, fun kicked => .inl kicked⟩

/-- A kick marks the ticks, and arms the timer unless one probes. -/
theorem Sound.kick (sound : s.Sound)
    (turn : s.running = false → ∀ limit ∈ s.owed, s.clock + hostReconnectKickMs ≤ limit) :
    s.requestHostReconnect.Sound := by
  unfold requestHostReconnect
  split
  · exact sound
  have marked : ∀ n, s.ticks n ≠ none → s.mark.ticks n ≠ none := by
    intro n under
    rw [mark, ne_eq, Option.map_eq_none_iff]
    exact under
  have bound : ∀ n t, s.mark.ticks n = some t → n < s.begun := by
    intro n t held
    obtain ⟨before, earlier, -, -⟩ := mark_eq_some held
    exact sound.bound n before earlier
  have runs : ∀ n t, s.mark.ticks n = some t → t.stage = .probing → s.running = true := by
    intro n t held stage
    obtain ⟨before, earlier, same, -⟩ := mark_eq_some held
    exact sound.runs n before earlier (same.symm.trans stage)
  have one : ∀ n m t u, s.mark.ticks n = some t → s.mark.ticks m = some u → t.stage = .probing →
      u.stage = .probing → n = m := by
    intro n m t u held also stage other
    obtain ⟨first, earlier, same, -⟩ := mark_eq_some held
    obtain ⟨second, past, equal, -⟩ := mark_eq_some also
    exact sound.one n m first second earlier past (same.symm.trans stage) (equal.symm.trans other)
  dsimp only
  split
  · next running =>
      refine ⟨?_, sound.future, bound, runs, ?_, one, ?_, fun _ _ _ _ _ => rfl, ?_⟩
      · intro scheduled
        exact (sound.alive scheduled).imp_right fun ⟨n, under⟩ => ⟨n, marked n under⟩
      · intro _
        obtain ⟨n, t, held, stage⟩ := sound.probes running
        refine ⟨n, _, congrArg (Option.map _) held, ?_⟩
        dsimp only
        split <;> exact stage
      · intro limit member
        have noneOwed : s.mark.owed = [] := (sound.of_running running).1
        rw [noneOwed] at member
        cases member
      · intro n t held kicked stage
        obtain ⟨before, earlier, same, kick⟩ := mark_eq_some held
        rw [same] at stage
        rcases kick kicked with already | probing | idle
        · rw [(sound.of_running running).2 n before earlier stage] at already
          cases already
        · rw [same, stage] at probing
          cases probing
        · rw [running] at idle
          cases idle
  · next idle =>
      rw [Bool.not_eq_true] at idle
      refine ⟨?_, ?_, bound, runs, ?_, one, ?_, fun _ _ _ _ _ => rfl, ?_⟩
      · exact fun _ => .inl (Option.some_ne_none _)
      · intro due armed
        cases armed
        exact Nat.le_add_right _ _
      · intro running
        cases idle.symm.trans running
      · intro limit member
        exact ⟨idle, rfl, _, rfl, turn idle limit member⟩
      · intro n t held kicked stage
        exact ⟨idle, rfl, _, rfl, Nat.le_refl _⟩

/-- The other ticks when one has returned. -/
theorem ends_eq_some {n m : Nat} {t u : ReconnectTick} (held : (s.ends n t).ticks m = some u) :
    m ≠ n ∧ s.ticks m = some u :=
  update_none_eq_some held

/-- A tick that lists returns, with the timer as it was or armed. -/
theorem Sound.returns (sound : s.Sound) {n : Nat} {kicked : Bool}
    (held : s.ticks n = some ⟨.listing, kicked⟩)
    (alive : s.timer ≠ none ∨ ∃ m, m ≠ n ∧ s.ticks m ≠ none) :
    (s.ends n ⟨.listing, kicked⟩).Sound where
  alive := by
    intro _
    refine alive.imp_right fun ⟨m, other, under⟩ => ⟨m, ?_⟩
    dsimp only [ends]
    rw [Function.update_of_ne other]
    exact under
  future := sound.future
  bound := fun m u found => sound.bound m u (ends_eq_some found).2
  runs := fun m u found => sound.runs m u (ends_eq_some found).2
  probes := by
    intro running
    obtain ⟨m, u, found, stage⟩ := sound.probes running
    have other : m ≠ n := by
      rintro rfl
      rw [held, Option.some.injEq] at found
      rw [← found] at stage
      cases stage
    exact ⟨m, u, (Function.update_of_ne other ..).trans found, stage⟩
  one := fun m l u v found also =>
    sound.one m l u v (ends_eq_some found).2 (ends_eq_some also).2
  owed := by
    intro limit member
    cases kicked with
    | false => exact sound.owed limit member
    | true =>
        rcases List.mem_cons.mp member with rfl | older
        · exact sound.kickedListing n _ held rfl rfl
        · exact sound.owed limit older
  kickedProbing := fun m u found => sound.kickedProbing m u (ends_eq_some found).2
  kickedListing := fun m u found => sound.kickedListing m u (ends_eq_some found).2

/-- Where no kick waits, the timer can be armed with any delay. -/
theorem Sound.arm (sound : s.Sound) (turn : s.running = false → s.kickSoon = false)
    (delayMs : Nat) : (s.arm delayMs).Sound := by
  have waits : ¬(s.running = false ∧ s.kickSoon = true) := by
    intro ⟨idle, soon⟩
    rw [turn idle] at soon
    cases soon
  refine ⟨fun _ => .inl (Option.some_ne_none _), ?_, sound.bound, sound.runs, sound.probes,
    sound.one, ?_, sound.kickedProbing, ?_⟩
  · intro due armed
    cases armed
    exact Nat.le_add_right _ _
  · intro limit member
    obtain ⟨idle, soon, -⟩ := sound.owed limit member
    exact absurd ⟨idle, soon⟩ waits
  · intro n t held kicked stage
    obtain ⟨idle, soon, -⟩ := sound.kickedListing n t held kicked stage
    exact absurd ⟨idle, soon⟩ waits

/-- The end of a probe. -/
theorem Sound.probed (sound : s.Sound) {n : Nat} {kicked : Bool}
    (held : s.ticks n = some ⟨.probing, kicked⟩) : (s.probed n ⟨.probing, kicked⟩).Sound := by
  have running := sound.runs n _ held rfl
  obtain ⟨noneOwed, noneKicked⟩ := sound.of_running running
  have only : ∀ m u, s.ticks m = some u → m ≠ n → u.stage = .listing := by
    intro m u found other
    cases stage : u.stage with
    | listing => rfl
    | probing => exact absurd (sound.one m n u _ found held stage rfl) other
  unfold ReconnectLoop.probed
  split
  · next soon =>
      have noneLeft : ∀ m u, (s.ends n ⟨.probing, kicked⟩).ticks m = some u →
          u.stage = .listing ∧ u.kicked = false := by
        intro m u found
        obtain ⟨other, earlier⟩ := ends_eq_some found
        have stage := only m u earlier other
        exact ⟨stage, noneKicked m u earlier stage⟩
      refine ⟨fun _ => .inl (Option.some_ne_none _), ?_, ?_, ?_, ?_, ?_, ?_, ?_, ?_⟩
      · intro due armed
        cases armed
        exact Nat.le_add_right _ _
      · exact fun m u found => sound.bound m u (ends_eq_some found).2
      · intro m u found stage
        rw [(noneLeft m u found).1] at stage
        cases stage
      · intro again
        cases again
      · intro m l u v found also stage
        rw [(noneLeft m u found).1] at stage
        cases stage
      · intro limit member
        have after : limit = s.clock + hostReconnectKickMs := by
          cases kicked with
          | false =>
              have still : limit ∈ s.owed := member
              rw [noneOwed] at still
              cases still
          | true =>
              rcases List.mem_cons.mp member with same | older
              · exact same
              · have still : limit ∈ s.owed := older
                rw [noneOwed] at still
                cases still
        exact ⟨rfl, soon, _, rfl, after ▸ Nat.le_refl _⟩
      · intro m u found kick
        rw [(noneLeft m u found).2] at kick
        cases kick
      · intro m u found kick
        rw [(noneLeft m u found).2] at kick
        cases kick
  · next quiet =>
      have unkicked : kicked = false := by
        cases kicked with
        | false => rfl
        | true => exact absurd (sound.kickedProbing n _ held rfl rfl) quiet
      have noneLeft : ∀ m u, Function.update s.ticks n (some ⟨.listing, kicked⟩) m = some u →
          m < s.begun ∧ u.stage = .listing ∧ u.kicked = false := by
        intro m u found
        rcases update_eq_some found with ⟨rfl, rfl⟩ | ⟨other, earlier⟩
        · exact ⟨sound.bound m _ held, rfl, unkicked⟩
        · have stage := only m u earlier other
          exact ⟨sound.bound m u earlier, stage, noneKicked m u earlier stage⟩
      refine ⟨?_, sound.future, fun m u found => (noneLeft m u found).1, ?_, ?_, ?_, ?_, ?_, ?_⟩
      · intro _
        refine .inr ⟨n, ?_⟩
        dsimp only
        rw [Function.update_self]
        exact Option.some_ne_none _
      · intro m u found stage
        rw [(noneLeft m u found).2.1] at stage
        cases stage
      · intro again
        cases again
      · intro m l u v found also stage
        rw [(noneLeft m u found).2.1] at stage
        cases stage
      · intro limit member
        dsimp only at member
        rw [noneOwed] at member
        cases member
      · intro m u found kick
        rw [(noneLeft m u found).2.2] at kick
        cases kick
      · intro m u found kick
        rw [(noneLeft m u found).2.2] at kick
        cases kick

/-- Time passes up to the timer. -/
theorem Sound.wait (sound : s.Sound) {ms : Nat}
    (waits : ∀ due ∈ s.timer, s.clock + ms ≤ due) : Sound { s with clock := s.clock + ms } where
  alive := sound.alive
  future := waits
  bound := sound.bound
  runs := sound.runs
  probes := sound.probes
  one := sound.one
  owed := sound.owed
  kickedProbing := sound.kickedProbing
  kickedListing := by
    intro n t held kicked stage
    obtain ⟨idle, soon, due, armed, early⟩ := sound.kickedListing n t held kicked stage
    refine ⟨idle, soon, due, armed, early.trans ?_⟩
    dsimp only
    omega

theorem Sound.step (sound : s.Sound) {e : ReconnectEvent} (turn : s.InTurn e)
    (happens : s.step e = some t) : t.Sound := by
  cases e with
  | start =>
      cases happens
      split
      · exact sound
      · exact sound.tick true sound.future
  | fire =>
      simp only [ReconnectLoop.step] at happens
      split at happens
      · split at happens
        · cases happens
          exact sound.tick s.scheduled fun due armed => by cases armed
        · cases happens
      · cases happens
  | kick =>
      cases happens
      exact sound.kick turn
  | probed n =>
      simp only [ReconnectLoop.step] at happens
      split at happens
      · next kicked held =>
          cases happens
          exact sound.probed held
      · cases happens
  | listed n states =>
      simp only [ReconnectLoop.step] at happens
      split at happens
      · next kicked held =>
          cases happens
          exact (sound.arm turn _).returns held (.inl (Option.some_ne_none _))
      · cases happens
  | listFails n =>
      simp only [ReconnectLoop.step] at happens
      split at happens
      · next kicked held =>
          cases happens
          exact sound.returns held (turn.imp_right fun ⟨m, _, other, under⟩ => ⟨m, other, under⟩)
      · cases happens
  | wait ms =>
      simp only [ReconnectLoop.step] at happens
      split at happens
      · next waits =>
          cases happens
          exact sound.wait waits
      · cases happens

theorem Sound.keepsGoing (sound : s.Sound) : s.KeepsGoing where
  alive := sound.alive
  onTime := by
    intro limit member
    obtain ⟨-, -, due, armed, early⟩ := sound.owed limit member
    exact (sound.future due armed).trans early

/-- **The loop lives on, and every kick that is requested in a tick leads to
another one in time.** -/
theorem keeps_going {clock : Nat} (run : Reaches step InTurn (fresh clock) s) : s.KeepsGoing :=
  Sound.keepsGoing (run.keeps (sound_fresh clock) fun _ _ _ sound turn happens =>
    sound.step turn happens)

/-- Where the loop stands: the time, the timer, how many ticks have begun, and
what is owed. -/
def report (s : ReconnectLoop) : Nat × Option Nat × Nat × List Nat :=
  (s.clock, s.timer, s.begun, s.owed)

/-- A kick in a probe leads to the next tick, whose list is answered. -/
theorem keeps_going_kicked :
    ∃ s, Reaches step InTurn (fresh 0) s ∧ s.report = (3000, some 18000, 2, []) ∧
      s.KeepsGoing := by
  have ends : (exec (guarded step InTurn) (fresh 0)
      [.start, .kick, .probed 0, .wait 3000, .fire, .probed 1, .listed 1 [.error]]).map report =
        some (3000, some 18000, 2, []) := by
    decide
  obtain ⟨s, done, reported⟩ := Option.map_eq_some_iff.mp ends
  have run := reaches_of_guarded done
  exact ⟨s, run, reported, keeps_going run⟩

/-- The list of the hosts fails, and nothing is left of the loop; and a kick
comes while the hosts are listed, whose answer arms the timer again. -/
theorem failed_list_ends_loop :
    (∃ s, Reaches step Unrestricted (fresh 0) s ∧
      ¬(s.scheduled = true → s.timer ≠ none ∨ ∃ n, s.ticks n ≠ none)) ∧
    ∃ s, Reaches step Unrestricted (fresh 0) s ∧ ¬∀ limit ∈ s.owed, s.clock ≤ limit := by
  constructor
  · have done : exec step (fresh 0) [.start, .probed 0, .listFails 0] = some _ := rfl
    refine ⟨_, reaches_of_exec done, fun alive => ?_⟩
    rcases alive rfl with armed | ⟨n, under⟩
    · exact armed rfl
    · cases n with
      | zero => exact under rfl
      | succ n => exact under rfl
  · have ends : (exec step (fresh 0)
        [.start, .probed 0, .kick, .listed 0 [], .wait 3001]).map report =
          some (3001, some 60000, 1, [3000]) := by
      decide
    obtain ⟨s, done, reported⟩ := Option.map_eq_some_iff.mp ends
    refine ⟨s, reaches_of_exec done, fun onTime => ?_⟩
    simp only [report, Prod.mk.injEq] at reported
    obtain ⟨clock, -, -, owed⟩ := reported
    have late : s.clock ≤ 3000 := onTime 3000 (by rw [owed]; exact List.mem_cons_self)
    omega

end ReconnectLoop

end Proxora
