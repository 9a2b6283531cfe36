import Proxora.GuestUpload
import Proxora.Runs

/-!
# Downloads from a guest

`pumpSftpReads` and `sftpPipelineReadStream` of `server/services/guest-files.ts`: reads that are
answered in any order, a destination that may be full, and the handlers that share the variables
of the pump. An event is one answer, one event of the destination, or the end of the promise.
-/

namespace Proxora

open Files Runs

/-- A file of the announced size, and the chunk size of the session. -/
structure Download where
  file : Bytes
  chunkSize : Nat
  positive : 0 < chunkSize

namespace Download

def size (d : Download) : Nat := d.file.length

/-- How much is read at an offset. -/
def len (d : Download) (offset : Nat) : Nat := min d.chunkSize (d.size - offset)

/-- The bytes of a read. -/
def chunk (d : Download) (offset : Nat) : Bytes := (d.file.drop offset).take (d.len offset)

end Download

/-- What `dest.write` does. -/
inductive WriteAnswer : Type
  | taken
  | full
  | thrown
deriving DecidableEq

inductive PumpFailure : Type
  | read
  | incomplete
  | write
  | destination
deriving DecidableEq

inductive PumpOutcome : Type
  | resolved
  | rejected (failure : PumpFailure)
deriving DecidableEq

/-- The variables of the pump; the reads on their way by their offsets, what was written, and the
destination. -/
structure Pump where
  nextIssue : Nat
  nextEmit : Nat
  ready : List (Nat × Bytes)
  inFlight : Nat
  paused : Bool
  stopped : Bool
  outcome : Option PumpOutcome
  outstanding : List Nat
  written : List Bytes
  needDrain : Bool
  destroyed : Bool
  closed : Bool
  ended : Bool
deriving DecidableEq

/-- `bytesRead` and `data` of a read, or an error. -/
inductive ReadReply : Type
  | error
  | data (bytesRead : Nat) (data : Bytes)

/-- `settled` is what `sftpPipelineReadStream` does when the promise is settled. -/
inductive PumpEvent : Type
  | read (offset : Nat) (reply : ReadReply)
  | drain
  | destroy
  | close
  | error
  | settled

namespace Pump

def stop (p : Pump) (outcome : PumpOutcome) : Pump :=
  if p.stopped then p else { p with stopped := true, outcome := some outcome }

/-- The check at the end of `issue` and `flush`. -/
def finish (d : Download) (p : Pump) : Pump :=
  if d.size ≤ p.nextEmit ∧ p.inFlight = 0 then p.stop .resolved else p

/-- `dest.write(chunk)`. A destroyed destination takes nothing and owes no `drain`. -/
def write (answers : Nat → WriteAnswer) (p : Pump) (chunk : Bytes) : Pump :=
  if p.destroyed then { p with written := p.written ++ [chunk], paused := true }
  else
    match answers p.written.length with
    | .taken => { p with written := p.written ++ [chunk] }
    | .full => { p with written := p.written ++ [chunk], paused := true, needDrain := true }
    | .thrown => p.stop (.rejected .write)

/-- A chunk leaves the map. -/
def advance (p : Pump) (chunk : Bytes) : Pump :=
  { p with
    ready := p.ready.filter fun entry => entry.1 ≠ p.nextEmit
    nextEmit := p.nextEmit + chunk.length }

/-- The loop of `flush`. -/
def emit (answers : Nat → WriteAnswer) : Nat → Pump → Pump
  | 0, p => p
  | n + 1, p =>
      match p.ready.lookup p.nextEmit with
      | none => p
      | some chunk =>
          if chunk = [] then emit answers n (p.advance chunk)
          else
            let q := (p.advance chunk).write answers chunk
            if q.stopped || q.paused then q else emit answers n q

/-- Each turn of the loop takes an entry of the map. -/
def flush (d : Download) (answers : Nat → WriteAnswer) (p : Pump) : Pump :=
  if p.stopped then p else (emit answers p.ready.length p).finish d

/-- The loop of `issue`. -/
def request (d : Download) : Nat → Pump → Pump
  | 0, p => p
  | n + 1, p =>
      if !p.paused ∧ p.inFlight < sftpInFlight ∧ p.nextIssue < d.size then
        request d n { p with
          nextIssue := p.nextIssue + d.len p.nextIssue
          inFlight := p.inFlight + 1
          outstanding := p.outstanding ++ [p.nextIssue] }
      else p

/-- Each turn of the loop adds a read. -/
def issue (d : Download) (p : Pump) : Pump :=
  if p.stopped then p else (request d (sftpInFlight - p.inFlight) p).finish d

/-- The variables at the beginning; nothing is to be read of an empty file. -/
def start (d : Download) : Pump :=
  let p : Pump := {
    nextIssue := 0
    nextEmit := 0
    ready := []
    inFlight := 0
    paused := false
    stopped := false
    outcome := none
    outstanding := []
    written := []
    needDrain := false
    destroyed := false
    closed := false
    ended := false }
  if d.size = 0 then p.stop .resolved else p.issue d

/-- The callback of a read: `n` of `len` bytes. -/
def receive (d : Download) (answers : Nat → WriteAnswer) (p : Pump) (offset n : Nat)
    (data : Bytes) : Pump :=
  if n ≠ d.len offset ∧ offset + n < d.size then p.stop (.rejected .incomplete)
  else
    (({ p with
      ready := (offset, if n = data.length then data else data.take n) ::
        p.ready.filter fun entry => entry.1 ≠ offset }).flush d answers).issue d

def answered (p : Pump) (offset : Nat) : Pump :=
  { p with outstanding := p.outstanding.erase offset, inFlight := p.inFlight - 1 }

/-- An event is possible as the session and the stream behave: a read gives bytes of the file, at
most as many as were asked for; `drain` follows a full `write` while the destination is there;
`error` and `close` follow its destruction. -/
def step (d : Download) (answers : Nat → WriteAnswer) (p : Pump) : PumpEvent → Option Pump
  | .read offset reply =>
      if offset ∈ p.outstanding then
        match reply with
        | .error =>
            some (if p.stopped then p.answered offset
              else (p.answered offset).stop (.rejected .read))
        | .data n data =>
            if n ≤ d.len offset ∧ data.take n = (d.file.drop offset).take n then
              some (if p.stopped then p.answered offset
                else (p.answered offset).receive d answers offset n data)
            else none
      else none
  | .drain =>
      if p.needDrain ∧ ¬p.destroyed then
        some (if p.stopped then { p with needDrain := false }
          else (({ p with needDrain := false, paused := false }).flush d answers).issue d)
      else none
  | .destroy => some { p with destroyed := true }
  | .close =>
      if p.destroyed ∧ ¬p.closed then some ({ p with closed := true }.stop .resolved) else none
  | .error =>
      if p.destroyed ∧ ¬p.closed then some (p.stop (.rejected .destination)) else none
  | .settled =>
      match p.outcome with
      | none => none
      | some .resolved => some (if p.destroyed then p else { p with ended := true })
      | some (.rejected _) => some { p with destroyed := true }

end Pump

/-! ## Places of the chunks -/

namespace Download

variable {d : Download} {a b x : Nat}

theorem len_pos (below : a < d.size) : 0 < d.len a :=
  lt_min d.positive (Nat.sub_pos_of_lt below)

theorem add_len_le (below : a ≤ d.size) : a + d.len a ≤ d.size := by
  have short : d.len a ≤ d.size - a := min_le_right _ _
  omega

/-- Behind a chunk that is not the last one the next chunk begins. -/
theorem dvd_add_len (here : d.chunkSize ∣ a) (below : a + d.len a < d.size) :
    d.chunkSize ∣ a + d.len a := by
  have whole : d.len a = d.chunkSize := by
    rw [len] at below ⊢
    omega
  rw [whole]
  exact here.add (dvd_refl _)

/-- Two chunks do not overlap. -/
theorem add_len_le_of_lt (here : d.chunkSize ∣ a) (there : b < d.size → d.chunkSize ∣ b)
    (below : b ≤ d.size) (lt : a < b) : a + d.len a ≤ b := by
  have short : d.len a ≤ d.chunkSize := min_le_left _ _
  rcases Nat.lt_or_ge b d.size with inside | last
  · have apart := Nat.le_of_dvd (Nat.sub_pos_of_lt lt) (Nat.dvd_sub (there inside) here)
    omega
  · have fits := add_len_le (d := d) (a := a) (by omega)
    omega

theorem length_chunk (below : a ≤ d.size) : (d.chunk a).length = d.len a := by
  have fits := add_len_le below
  have size : d.file.length = d.size := rfl
  rw [chunk, List.length_take, List.length_drop]
  omega

theorem take_append_chunk (a : Nat) :
    d.file.take a ++ d.chunk a = d.file.take (a + d.len a) := List.take_add.symm

end Download

/-! ## The invariant -/

namespace Pump

/-- What is true of a pump whether or not it has stopped. -/
structure Sound (d : Download) (p : Pump) : Prop where
  counted : p.inFlight = p.outstanding.length
  bounded : p.inFlight ≤ sftpInFlight
  inOrder : p.written.flatten <+: d.file
  settled : p.stopped = p.outcome.isSome
  whole : p.outcome = some .resolved → p.destroyed = false → p.written.flatten = d.file
  ended : p.ended = true → p.stopped = true ∧ p.written.flatten = d.file
  closed : p.closed = true → p.stopped = true

/-- Where the chunks are until it has stopped: those before `nextEmit` are written, and each one
from there to `nextIssue` is asked for or in the map. -/
structure Moving (d : Download) (p : Pump) : Prop where
  emitted : p.written.flatten = d.file.take p.nextEmit
  ordered : p.nextEmit ≤ p.nextIssue
  inside : p.nextIssue ≤ d.size
  edge : p.nextIssue < d.size → d.chunkSize ∣ p.nextIssue
  begins : p.nextEmit < d.size → d.chunkSize ∣ p.nextEmit
  held : ∀ entry ∈ p.ready, entry.2 = d.chunk entry.1
  once : p.outstanding.Nodup
  apart : ∀ entry ∈ p.ready, entry.1 ∉ p.outstanding
  places : ∀ x, (x ∈ p.outstanding ∨ x ∈ p.ready.map Prod.fst) ↔
    d.chunkSize ∣ x ∧ p.nextEmit ≤ x ∧ x < p.nextIssue
  pauses : p.destroyed = false → p.paused = p.needDrain

/-- `flush` has nothing more to do. -/
def Idle (p : Pump) : Prop :=
  p.stopped = true ∨ p.paused = true ∨ p.ready.lookup p.nextEmit = none

/-- Nor has `issue`. -/
structure Resting (d : Download) (p : Pump) : Prop where
  idle : p.Idle
  asked : p.stopped = true ∨ p.paused = true ∨ sftpInFlight ≤ p.inFlight ∨ d.size ≤ p.nextIssue
  unfinished : p.stopped = true ∨ ¬(d.size ≤ p.nextEmit ∧ p.inFlight = 0)

/-- The invariant inside a handler. -/
structure Live (d : Download) (p : Pump) : Prop where
  sound : p.Sound d
  moving : p.stopped = false → p.Moving d

variable {d : Download} {answers : Nat → WriteAnswer} {p q : Pump}

theorem stop_stopped (outcome : PumpOutcome) : (p.stop outcome).stopped = true := by
  rw [stop]
  split
  · assumption
  · rfl

/-- A stop is sound when the promise is rejected, or the destination is gone or has it all. -/
theorem Sound.stop (sound : p.Sound d) {outcome : PumpOutcome}
    (given : outcome = .resolved → p.destroyed = false → p.written.flatten = d.file) :
    (p.stop outcome).Sound d := by
  rw [Pump.stop]
  split
  · exact sound
  · exact {
      counted := sound.counted
      bounded := sound.bounded
      inOrder := sound.inOrder
      settled := rfl
      whole := fun same there => given (Option.some.inj same) there
      ended := fun ended => ⟨rfl, (sound.ended ended).2⟩
      closed := fun _ => rfl }

theorem Live.of_stopped (sound : p.Sound d) (stopped : p.stopped = true) : p.Live d :=
  ⟨sound, fun running => by rw [stopped] at running; cases running⟩

theorem Live.finish (live : p.Live d) : (p.finish d).Live d := by
  rw [Pump.finish]
  split
  · next done =>
      refine .of_stopped ?_ (stop_stopped _)
      by_cases stopped : p.stopped = true
      · rw [Pump.stop, if_pos stopped]
        exact live.sound
      · apply live.sound.stop
        intro _ _
        have moving := live.moving (Bool.eq_false_iff.mpr stopped)
        rw [moving.emitted, List.take_of_length_le done.1]
  · exact live

/-- The entry at `nextEmit` is the chunk there. -/
theorem Moving.found (moving : p.Moving d) {chunk : Bytes}
    (found : p.ready.lookup p.nextEmit = some chunk) :
    (p.nextEmit, chunk) ∈ p.ready ∧ chunk = d.chunk p.nextEmit ∧ d.chunkSize ∣ p.nextEmit ∧
      p.nextEmit < p.nextIssue := by
  obtain ⟨front, back, form, -⟩ := List.lookup_eq_some_iff.mp found
  have member : (p.nextEmit, chunk) ∈ p.ready := by
    rw [form]
    exact List.mem_append_right front List.mem_cons_self
  obtain ⟨here, -, below⟩ :=
    (moving.places p.nextEmit).mp (.inr (List.mem_map_of_mem (f := Prod.fst) member))
  exact ⟨member, moving.held _ member, here, below⟩

/-- A chunk is written: it leaves the map, and the next one begins behind it. -/
theorem Live.advance (live : p.Live d) (running : p.stopped = false) {chunk : Bytes}
    (found : p.ready.lookup p.nextEmit = some chunk) (paused needDrain : Bool)
    (pauses : p.destroyed = false → paused = needDrain) :
    Live d { p.advance chunk with
      written := p.written ++ [chunk], paused := paused, needDrain := needDrain } := by
  obtain ⟨sound, moving⟩ := live
  replace moving := moving running
  obtain ⟨member, rfl, here, below⟩ := moving.found found
  have inside : p.nextEmit < d.size := below.trans_le moving.inside
  have length := Download.length_chunk (d := d) inside.le
  have positive := Download.len_pos (d := d) inside
  have written : (p.written ++ [d.chunk p.nextEmit]).flatten =
      d.file.take (p.nextEmit + d.len p.nextEmit) := by
    rw [List.flatten_append, moving.emitted, List.flatten_singleton, Download.take_append_chunk]
  have unsettled : p.outcome = none := by
    rw [← Option.not_isSome_iff_eq_none, ← sound.settled, running]
    exact Bool.false_ne_true
  refine ⟨?_, fun _ => ?_⟩
  · exact {
      counted := sound.counted
      bounded := sound.bounded
      inOrder := by
        change (p.written ++ [d.chunk p.nextEmit]).flatten <+: d.file
        rw [written]
        exact List.take_prefix _ _
      settled := sound.settled
      whole := fun resolved => by
        change p.outcome = _ at resolved
        rw [unsettled] at resolved
        cases resolved
      ended := fun ended => by
        have stopped := (sound.ended ended).1
        rw [running] at stopped
        cases stopped
      closed := sound.closed }
  · exact {
      emitted := by
        change (p.written ++ [d.chunk p.nextEmit]).flatten = d.file.take (p.nextEmit + _)
        rw [written, length]
      ordered := by
        change p.nextEmit + (d.chunk p.nextEmit).length ≤ p.nextIssue
        rw [length]
        exact Download.add_len_le_of_lt here moving.edge moving.inside below
      inside := moving.inside
      edge := moving.edge
      begins := by
        change p.nextEmit + (d.chunk p.nextEmit).length < d.size →
          d.chunkSize ∣ p.nextEmit + (d.chunk p.nextEmit).length
        rw [length]
        exact Download.dvd_add_len here
      held := fun entry listed => moving.held entry (List.mem_of_mem_filter listed)
      once := moving.once
      apart := fun entry listed => moving.apart entry (List.mem_of_mem_filter listed)
      places := by
        intro x
        change (x ∈ p.outstanding ∨ x ∈ List.map Prod.fst (p.ready.filter _)) ↔
          d.chunkSize ∣ x ∧ p.nextEmit + (d.chunk p.nextEmit).length ≤ x ∧ x < p.nextIssue
        have free : p.nextEmit ∉ p.outstanding := moving.apart _ member
        have left : (x ∈ p.outstanding ∨ x ∈ List.map Prod.fst
            (p.ready.filter fun entry => entry.1 ≠ p.nextEmit)) ↔
            (x ∈ p.outstanding ∨ x ∈ p.ready.map Prod.fst) ∧ x ≠ p.nextEmit := by
          simp only [List.mem_map, List.mem_filter, decide_eq_true_eq]
          constructor
          · rintro (asked | ⟨entry, ⟨listed, other⟩, rfl⟩)
            · exact ⟨.inl asked, fun same => free (same ▸ asked)⟩
            · exact ⟨.inr ⟨entry, listed, rfl⟩, other⟩
          · rintro ⟨asked | ⟨entry, listed, rfl⟩, other⟩
            · exact .inl asked
            · exact .inr ⟨entry, ⟨listed, other⟩, rfl⟩
        rw [left, moving.places, length]
        constructor
        · rintro ⟨⟨multiple, low, high⟩, other⟩
          refine ⟨multiple, ?_, high⟩
          exact Download.add_len_le_of_lt here (fun _ => multiple)
            (high.trans_le moving.inside).le (Nat.lt_of_le_of_ne low (Ne.symm other))
        · rintro ⟨multiple, low, high⟩
          exact ⟨⟨multiple, by omega, high⟩, by omega⟩
      pauses := pauses }

theorem Live.write (live : p.Live d) (running : p.stopped = false) {chunk : Bytes}
    (found : p.ready.lookup p.nextEmit = some chunk) :
    ((p.advance chunk).write answers chunk).Live d := by
  have pauses := (live.moving running).pauses
  rw [Pump.write]
  split
  · next destroyed =>
      refine live.advance running found true p.needDrain fun there => ?_
      change p.destroyed = true at destroyed
      rw [there] at destroyed
      cases destroyed
  split
  · exact live.advance running found p.paused p.needDrain pauses
  · exact live.advance running found true true fun _ => rfl
  · have advanced := live.sound
    refine .of_stopped (Sound.stop ?_ nofun) (stop_stopped _)
    exact ⟨advanced.counted, advanced.bounded, advanced.inOrder, advanced.settled, advanced.whole,
      advanced.ended, advanced.closed⟩

/-- **The loop of `flush`** keeps what the handlers rely on. -/
theorem Live.emit (live : p.Live d) (running : p.stopped = false) (n : Nat) :
    (p.emit answers n).Live d := by
  induction n generalizing p with
  | zero => exact live
  | succ n ih =>
      rw [Pump.emit]
      split
      · exact live
      · next chunk found =>
          obtain ⟨-, same, -, below⟩ := (live.moving running).found found
          have inside : p.nextEmit < d.size := below.trans_le (live.moving running).inside
          have some : chunk ≠ [] := by
            rw [← List.length_pos_iff, same, Download.length_chunk inside.le]
            exact Download.len_pos inside
          have written : ((p.advance chunk).write answers chunk).Live d := live.write running found
          rw [if_neg some]
          dsimp only
          split
          · exact written
          · next goes =>
              rw [Bool.or_eq_true, not_or] at goes
              exact ih written (Bool.eq_false_iff.mpr goes.1)

/-- Each turn takes an entry out of the map. -/
theorem length_advance {chunk : Bytes} (found : p.ready.lookup p.nextEmit = some chunk) :
    (p.advance chunk).ready.length < p.ready.length := by
  obtain ⟨front, back, form, -⟩ := List.lookup_eq_some_iff.mp found
  refine List.length_filter_lt_length_iff_exists.mpr ⟨(p.nextEmit, chunk), ?_, ?_⟩
  · rw [form]
    exact List.mem_append_right front List.mem_cons_self
  · exact of_decide_eq_false (by simp)

theorem write_ready (p : Pump) (chunk : Bytes) : (p.write answers chunk).ready = p.ready := by
  rw [write, stop]
  repeat' split
  all_goals rfl

/-- So the loop ends by itself. -/
theorem idle_emit {n : Nat} (enough : p.ready.length ≤ n) : (p.emit answers n).Idle := by
  induction n generalizing p with
  | zero =>
      have empty := List.eq_nil_of_length_eq_zero (Nat.le_zero.mp enough)
      rw [Pump.emit]
      refine .inr (.inr ?_)
      rw [empty]
      rfl
  | succ n ih =>
      rw [Pump.emit]
      split
      · next missing => exact .inr (.inr missing)
      · next chunk found =>
          have fewer := length_advance found
          split
          · exact ih (by omega)
          dsimp only
          split
          · next ends =>
              rw [Bool.or_eq_true] at ends
              exact ends.imp_right .inl
          · apply ih
            rw [write_ready]
            omega

/-- One read more. -/
theorem Live.ask (live : p.Live d) (running : p.stopped = false) (room : p.inFlight < sftpInFlight)
    (below : p.nextIssue < d.size) :
    Live d { p with
      nextIssue := p.nextIssue + d.len p.nextIssue
      inFlight := p.inFlight + 1
      outstanding := p.outstanding ++ [p.nextIssue] } := by
  obtain ⟨sound, moving⟩ := live
  replace moving := moving running
  have here := moving.edge below
  have positive := Download.len_pos (d := d) below
  have short : d.len p.nextIssue ≤ d.chunkSize := min_le_left _ _
  have fresh : p.nextIssue ∉ p.outstanding := fun asked =>
    absurd ((moving.places _).mp (.inl asked)).2.2 (lt_irrefl _)
  have missing : ∀ entry ∈ p.ready, entry.1 ≠ p.nextIssue := fun entry listed same =>
    absurd ((moving.places _).mp (.inr (List.mem_map_of_mem (f := Prod.fst) listed))).2.2
      (same ▸ lt_irrefl _)
  refine ⟨?_, fun _ => ?_⟩
  · exact {
      counted := by
        change p.inFlight + 1 = (p.outstanding ++ [p.nextIssue]).length
        rw [List.length_append, ← sound.counted, List.length_singleton]
      bounded := room
      inOrder := sound.inOrder
      settled := sound.settled
      whole := sound.whole
      ended := sound.ended
      closed := sound.closed }
  · exact {
      emitted := moving.emitted
      ordered := moving.ordered.trans (Nat.le_add_right _ _)
      inside := Download.add_len_le below.le
      edge := Download.dvd_add_len here
      begins := moving.begins
      held := moving.held
      once := by
        rw [List.nodup_append]
        refine ⟨moving.once, List.nodup_singleton _, fun x asked y new => ?_⟩
        rw [List.mem_singleton.mp new]
        exact fun same => fresh (same ▸ asked)
      apart := by
        intro entry listed asked
        rcases List.mem_append.mp asked with before | new
        · exact moving.apart entry listed before
        · exact missing entry listed (List.mem_singleton.mp new)
      places := by
        intro x
        have old := moving.places x
        change (x ∈ p.outstanding ++ [p.nextIssue] ∨ x ∈ p.ready.map Prod.fst) ↔
          d.chunkSize ∣ x ∧ p.nextEmit ≤ x ∧ x < p.nextIssue + d.len p.nextIssue
        rw [List.mem_append, List.mem_singleton, or_right_comm, old]
        constructor
        · rintro (⟨multiple, low, high⟩ | rfl)
          · exact ⟨multiple, low, by omega⟩
          · exact ⟨here, moving.ordered, by omega⟩
        · rintro ⟨multiple, low, high⟩
          rcases Nat.lt_trichotomy x p.nextIssue with before | same | behind
          · exact .inl ⟨multiple, low, before⟩
          · exact .inr same
          · have next := Download.add_len_le_of_lt here (fun _ => multiple)
              (high.trans_le (Download.add_len_le below.le)).le behind
            omega
      pauses := moving.pauses }

/-- **The loop of `issue`** keeps what the handlers rely on. -/
theorem Live.request (live : p.Live d) (running : p.stopped = false) (n : Nat) :
    (p.request d n).Live d := by
  induction n generalizing p with
  | zero => exact live
  | succ n ih =>
      rw [Pump.request]
      split
      · next more => exact ih (live.ask running more.2.1 more.2.2) running
      · exact live

/-- The loop leaves the map, the position and the pause as they are. -/
theorem request_kept (n : Nat) : (p.request d n).ready = p.ready ∧
    (p.request d n).nextEmit = p.nextEmit ∧ (p.request d n).paused = p.paused ∧
    (p.request d n).stopped = p.stopped := by
  induction n generalizing p with
  | zero => exact ⟨rfl, rfl, rfl, rfl⟩
  | succ n ih =>
      rw [Pump.request]
      split
      · exact ih
      · exact ⟨rfl, rfl, rfl, rfl⟩

/-- When it ends, nothing more can be asked for. -/
theorem asked_request {n : Nat} (enough : sftpInFlight - p.inFlight ≤ n) :
    (p.request d n).paused = true ∨ sftpInFlight ≤ (p.request d n).inFlight ∨
      d.size ≤ (p.request d n).nextIssue := by
  induction n generalizing p with
  | zero =>
      rw [Pump.request]
      omega
  | succ n ih =>
      rw [Pump.request]
      split
      · apply ih
        change sftpInFlight - (p.inFlight + 1) ≤ n
        omega
      · next ends =>
          rw [Bool.not_eq_true', Bool.eq_false_iff] at ends
          by_cases paused : p.paused = true
          · exact .inl paused
          · have full : ¬(p.inFlight < sftpInFlight ∧ p.nextIssue < d.size) :=
              fun room => ends ⟨paused, room⟩
            omega

theorem finish_kept (p : Pump) : (p.finish d).stopped = true ∨ p.finish d = p := by
  rw [finish]
  split
  · exact .inl (stop_stopped _)
  · exact .inr rfl

theorem finish_unfinished (p : Pump) : (p.finish d).stopped = true ∨
    ¬(d.size ≤ (p.finish d).nextEmit ∧ (p.finish d).inFlight = 0) := by
  rw [finish]
  split
  · exact .inl (stop_stopped _)
  · next more => exact .inr more

theorem Live.flush (live : p.Live d) : (p.flush d answers).Live d ∧ (p.flush d answers).Idle := by
  rw [Pump.flush]
  split
  · next stopped => exact ⟨live, .inl stopped⟩
  · next running =>
      have emitted : (p.emit answers p.ready.length).Live d :=
        live.emit (Bool.eq_false_iff.mpr running) p.ready.length
      refine ⟨emitted.finish, ?_⟩
      rcases (p.emit answers p.ready.length).finish_kept (d := d) with stopped | same
      · exact .inl stopped
      · rw [same]
        exact idle_emit le_rfl

theorem Live.issue (live : p.Live d) (idle : p.Idle) :
    (p.issue d).Live d ∧ (p.issue d).Resting d := by
  rw [Pump.issue]
  split
  · next stopped => exact ⟨live, .inl stopped, .inl stopped, .inl stopped⟩
  · next running =>
      have asked := live.request (Bool.eq_false_iff.mpr running) (sftpInFlight - p.inFlight)
      have all := asked_request (d := d) (p := p) le_rfl
      obtain ⟨ready, position, paused, stops⟩ :=
        p.request_kept (d := d) (sftpInFlight - p.inFlight)
      have unfinished := (p.request d (sftpInFlight - p.inFlight)).finish_unfinished (d := d)
      refine ⟨asked.finish, ?_, ?_, unfinished⟩
      · rcases (p.request d (sftpInFlight - p.inFlight)).finish_kept (d := d) with stopped | same
        · exact .inl stopped
        · rw [same, Idle, ready, position, paused, stops]
          exact idle
      · rcases (p.request d (sftpInFlight - p.inFlight)).finish_kept (d := d) with stopped | same
        · exact .inl stopped
        · rw [same]
          exact .inr all

/-! ## Every event -/

/-- The invariant between the events. -/
def Inv (d : Download) (p : Pump) : Prop := p.Live d ∧ p.Resting d

theorem Live.handled (live : p.Live d) : ((p.flush d answers).issue d).Inv d :=
  live.flush.1.issue live.flush.2

theorem Inv.of_stopped (sound : p.Sound d) (stopped : p.stopped = true) : p.Inv d :=
  ⟨.of_stopped sound stopped, .inl stopped, .inl stopped, .inl stopped⟩

theorem inv_start (d : Download) : (start d).Inv d := by
  have sound : Sound d ⟨0, 0, [], 0, false, false, none, [], [], false, false, false, false⟩ :=
    ⟨rfl, Nat.zero_le _, List.nil_prefix, rfl, nofun, nofun, nofun⟩
  rw [start]
  split
  · next empty =>
      refine .of_stopped (sound.stop fun _ _ => ?_) (stop_stopped _)
      exact (List.eq_nil_of_length_eq_zero empty).symm
  · refine Live.issue ⟨sound, fun _ => ?_⟩ (.inr (.inr rfl))
    exact {
      emitted := List.take_zero.symm
      ordered := le_rfl
      inside := Nat.zero_le _
      edge := fun _ => dvd_zero _
      begins := fun _ => dvd_zero _
      held := nofun
      once := List.nodup_nil
      apart := nofun
      places := fun x => by simp
      pauses := fun _ => rfl }

theorem Sound.answered (sound : p.Sound d) {offset : Nat} (asked : offset ∈ p.outstanding) :
    (p.answered offset).Sound d := by
  exact {
    counted := by
      change p.inFlight - 1 = (p.outstanding.erase offset).length
      rw [List.length_erase_of_mem asked, sound.counted]
    bounded := (Nat.sub_le _ _).trans sound.bounded
    inOrder := sound.inOrder
    settled := sound.settled
    whole := sound.whole
    ended := sound.ended
    closed := sound.closed }

/-- An answer puts its chunk in the map, or stops the pump. -/
theorem Live.receive (live : p.Live d) (running : p.stopped = false) {offset n : Nat}
    (asked : offset ∈ p.outstanding) {data : Bytes} (few : n ≤ d.len offset)
    (bytes : data.take n = (d.file.drop offset).take n) :
    ((p.answered offset).receive d answers offset n data).Inv d := by
  have sound := live.sound.answered asked
  have moving := live.moving running
  obtain ⟨here, low, high⟩ := (moving.places offset).mp (.inl asked)
  have inside : offset < d.size := high.trans_le moving.inside
  rw [Pump.receive]
  split
  · exact .of_stopped (sound.stop nofun) (stop_stopped _)
  · next whole =>
      have all : n = d.len offset := by
        have fits := Download.add_len_le inside.le
        omega
      have chunk : (if n = data.length then data else data.take n) = d.chunk offset := by
        rw [Download.chunk, ← all, ← bytes]
        split
        · next length => rw [length, List.take_length]
        · rfl
      rw [chunk]
      refine Live.handled ⟨?_, fun _ => ?_⟩
      · exact ⟨sound.counted, sound.bounded, sound.inOrder, sound.settled, sound.whole,
          sound.ended, sound.closed⟩
      have entries {entry : Nat × Bytes} (listed : entry ∈ (offset, d.chunk offset) ::
          p.ready.filter fun entry => entry.1 ≠ offset) :
          entry = (offset, d.chunk offset) ∨ entry ∈ p.ready :=
        (List.mem_cons.mp listed).imp_right List.mem_of_mem_filter
      exact {
        emitted := moving.emitted
        ordered := moving.ordered
        inside := moving.inside
        edge := moving.edge
        begins := moving.begins
        held := by
          intro entry listed
          rcases entries listed with rfl | before
          · rfl
          · exact moving.held entry before
        once := moving.once.erase offset
        apart := by
          intro entry listed waits
          obtain ⟨other, waits⟩ := moving.once.mem_erase_iff.mp waits
          rcases entries listed with rfl | before
          · exact other rfl
          · exact moving.apart entry before waits
        places := by
          intro x
          refine Iff.trans ?_ (moving.places x)
          change (x ∈ p.outstanding.erase offset ∨ x ∈ ((offset, d.chunk offset) ::
            p.ready.filter fun entry => entry.1 ≠ offset).map Prod.fst) ↔ _
          rw [moving.once.mem_erase_iff, List.map_cons, List.mem_cons]
          by_cases same : x = offset
          · rw [same]
            exact iff_of_true (.inr (.inl rfl)) (.inl asked)
          · simp only [List.mem_map, List.mem_filter, decide_eq_true_eq]
            constructor
            · rintro (⟨-, waits⟩ | equal | ⟨entry, ⟨listed, -⟩, rfl⟩)
              · exact .inl waits
              · exact absurd equal same
              · exact .inr ⟨entry, listed, rfl⟩
            · rintro (waits | ⟨entry, listed, rfl⟩)
              · exact .inl ⟨same, waits⟩
              · exact .inr (.inr ⟨entry, ⟨listed, same⟩, rfl⟩)
        pauses := moving.pauses }

theorem Sound.destroy (sound : p.Sound d) : Sound d { p with destroyed := true } := by
  exact {
    counted := sound.counted
    bounded := sound.bounded
    inOrder := sound.inOrder
    settled := sound.settled
    whole := fun _ there => by cases there
    ended := sound.ended
    closed := sound.closed }

theorem Sound.close (sound : p.Sound d) (gone : p.destroyed = true) :
    ({ p with closed := true }.stop .resolved).Sound d := by
  rw [Pump.stop]
  split
  · next stopped =>
      exact ⟨sound.counted, sound.bounded, sound.inOrder, sound.settled, sound.whole, sound.ended,
        fun _ => stopped⟩
  · exact {
      counted := sound.counted
      bounded := sound.bounded
      inOrder := sound.inOrder
      settled := rfl
      whole := fun _ there => by
        change p.destroyed = false at there
        rw [gone] at there
        cases there
      ended := fun ended => ⟨rfl, (sound.ended ended).2⟩
      closed := fun _ => rfl }

theorem Inv.destroy (inv : p.Inv d) : Inv d { p with destroyed := true } := by
  obtain ⟨live, resting⟩ := inv
  refine ⟨⟨live.sound.destroy, fun running => ?_⟩, resting.idle, resting.asked,
    resting.unfinished⟩
  have moving := live.moving running
  exact {
    emitted := moving.emitted
    ordered := moving.ordered
    inside := moving.inside
    edge := moving.edge
    begins := moving.begins
    held := moving.held
    once := moving.once
    apart := moving.apart
    places := moving.places
    pauses := fun there => by cases there }

/-- **Step lemma.** -/
theorem Inv.step (inv : p.Inv d) {e : PumpEvent} (happens : p.step d answers e = some q) :
    q.Inv d := by
  have sound := inv.1.sound
  cases e with
  | read offset reply =>
      simp only [Pump.step] at happens
      split at happens
      · next asked =>
          have kept := sound.answered asked
          cases reply with
          | error =>
              obtain rfl := Option.some.inj happens
              split
              · next stopped => exact .of_stopped kept stopped
              · exact .of_stopped (kept.stop nofun) (stop_stopped _)
          | data n data =>
              dsimp only at happens
              split at happens
              · next possible =>
                  obtain rfl := Option.some.inj happens
                  split
                  · next stopped => exact .of_stopped kept stopped
                  · next running =>
                      exact inv.1.receive (Bool.eq_false_iff.mpr running) asked possible.1
                        possible.2
              · cases happens
      · cases happens
  | drain =>
      rw [Pump.step] at happens
      split at happens
      · next owed =>
          obtain rfl := Option.some.inj happens
          have drained : Sound d { p with needDrain := false } :=
            ⟨sound.counted, sound.bounded, sound.inOrder, sound.settled, sound.whole, sound.ended,
              sound.closed⟩
          split
          · next stopped => exact .of_stopped drained stopped
          · refine Live.handled ⟨?_, fun running => ?_⟩
            · exact ⟨sound.counted, sound.bounded, sound.inOrder, sound.settled, sound.whole,
                sound.ended, sound.closed⟩
            · have moving := inv.1.moving running
              exact ⟨moving.emitted, moving.ordered, moving.inside, moving.edge, moving.begins,
                moving.held, moving.once, moving.apart, moving.places, fun _ => rfl⟩
      · cases happens
  | destroy =>
      obtain rfl := Option.some.inj happens
      exact inv.destroy
  | close =>
      rw [Pump.step] at happens
      split at happens
      · next gone =>
          obtain rfl := Option.some.inj happens
          exact .of_stopped (sound.close gone.1) (stop_stopped _)
      · cases happens
  | error =>
      rw [Pump.step] at happens
      split at happens
      · obtain rfl := Option.some.inj happens
        exact .of_stopped (sound.stop nofun) (stop_stopped _)
      · cases happens
  | settled =>
      rw [Pump.step] at happens
      split at happens
      · cases happens
      · next resolved =>
          obtain rfl := Option.some.inj happens
          have stopped : p.stopped = true := by
            rw [sound.settled, resolved]
            rfl
          split
          · exact inv
          · next there =>
              have whole := sound.whole resolved (Bool.eq_false_iff.mpr there)
              refine .of_stopped ?_ stopped
              exact ⟨sound.counted, sound.bounded, sound.inOrder, sound.settled, sound.whole,
                fun _ => ⟨stopped, whole⟩, sound.closed⟩
      · obtain rfl := Option.some.inj happens
        exact inv.destroy

/-! ## Every run -/

/-- What a reader of the stream relies on. -/
structure Faithful (d : Download) (p : Pump) : Prop where
  /-- Nothing is repeated, skipped or out of order. -/
  inOrder : p.written.flatten <+: d.file
  bounded : p.outstanding.length ≤ sftpInFlight
  /-- While the destination is there, the promise is resolved with all of the file only. -/
  whole : p.outcome = some .resolved → p.destroyed = false → p.written.flatten = d.file
  /-- And so is the end of the stream. -/
  ended : p.ended = true → p.written.flatten = d.file
  /-- Until it is settled a read, the `drain` of a full destination or the `close` of a destroyed
  one is still to come. -/
  waits : p.outcome = none → p.outstanding ≠ [] ∨ (p.destroyed = false ∧ p.needDrain = true) ∨
    (p.destroyed = true ∧ p.closed = false)

/-- With no read on its way a pump that has not stopped is paused. -/
theorem Inv.paused (inv : p.Inv d) (running : p.stopped = false) (answered : p.outstanding = []) :
    p.paused = true := by
  obtain ⟨⟨sound, moving⟩, idle, asked, unfinished⟩ := inv
  replace moving := moving running
  have none : p.inFlight = 0 := by
    rw [sound.counted, answered]
    rfl
  have few : ¬sftpInFlight ≤ p.inFlight := by
    rw [none]
    decide
  have runs : ¬p.stopped = true := Bool.eq_false_iff.mp running
  by_contra goes
  have missing := (idle.resolve_left runs).resolve_left goes
  have all := ((asked.resolve_left runs).resolve_left goes).resolve_left few
  have more := unfinished.resolve_left runs
  have below : p.nextEmit < d.size := by
    by_contra last
    exact more ⟨Nat.le_of_not_lt last, none⟩
  -- the chunk at `nextEmit` is asked for, and so neither on its way nor in the map
  have place : p.nextEmit ∈ p.outstanding ∨ p.nextEmit ∈ p.ready.map Prod.fst :=
    (moving.places _).mpr ⟨moving.begins below, le_rfl, below.trans_le all⟩
  rcases place with waits | held
  · rw [answered] at waits
    cases waits
  · obtain ⟨entry, listed, same⟩ := List.mem_map.mp held
    have other := List.lookup_eq_none_iff.mp missing entry listed
    rw [same, bne_self_eq_false] at other
    cases other

theorem Inv.faithful (inv : p.Inv d) : p.Faithful d := by
  have sound := inv.1.sound
  refine ⟨sound.inOrder, sound.counted ▸ sound.bounded, sound.whole, fun e => (sound.ended e).2, ?_⟩
  intro unsettled
  have running : p.stopped = false := by
    rw [sound.settled, unsettled]
    rfl
  by_cases answered : p.outstanding = []
  · cases there : p.destroyed with
    | false =>
        have paused := inv.paused running answered
        rw [(inv.1.moving running).pauses there] at paused
        exact .inr (.inl ⟨rfl, paused⟩)
    | true =>
        refine .inr (.inr ⟨rfl, Bool.eq_false_iff.mpr fun closed => ?_⟩)
        have stopped := sound.closed closed
        rw [running] at stopped
        cases stopped
  · exact .inl answered

end Pump

/-- **The pump keeps order and completeness**, whatever the order of the answers and the events of
the destination. -/
theorem pumpSftpReads_faithful (d : Download) (answers : Nat → WriteAnswer) {p : Pump}
    (run : Reaches (Pump.step d answers) Unrestricted (Pump.start d) p) : p.Faithful d := by
  have inv : p.Inv d :=
    run.keeps (Pump.inv_start d) fun _ _ _ before _ happens => before.step happens
  exact inv.faithful

/-- Three bytes in chunks of two. -/
def threeBytes : Download := ⟨[1, 2, 3], 2, Nat.zero_lt_two⟩

/-- All is written, the last chunk after a `drain`. -/
def threeWritten : Pump where
  nextIssue := 3
  nextEmit := 3
  ready := []
  inFlight := 0
  paused := true
  stopped := true
  outcome := some .resolved
  outstanding := []
  written := [[1, 2], [3]]
  needDrain := true
  destroyed := false
  closed := false
  ended := true

theorem threeWritten_faithful : threeWritten.Faithful threeBytes := by
  have done : exec (Pump.step threeBytes fun _ => .full) (Pump.start threeBytes)
      [.read 2 (.data 1 [3, 0]), .read 0 (.data 2 [1, 2]), .drain, .settled] =
      some threeWritten := by
    decide
  exact pumpSftpReads_faithful threeBytes _ (reaches_of_exec done)

end Proxora
