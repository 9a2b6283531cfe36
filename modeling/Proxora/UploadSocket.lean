import Proxora.Ecma.Json
import Proxora.Files
import Proxora.Runs

/-!
# The upload socket

An accepted upload of `handleUploadSocket` in `server/ws/guest-file-upload.ts`: the callbacks of
the socket and the steps of the handler share three flags, the promise of the start message and the
body. An event is what a callback is called with, or what the handler gets for what it awaits. The
process ends where a callback throws, and where the body is destroyed or the promise rejected with
no handler attached.

`UploadSocket.law_of_reaches` says what holds in every state of a run whose steps meet a condition,
and `UploadSocket.law_iff_meets` that no other step keeps it. `parse` is `JSON.parse` of a payload
read as UTF-8.
-/

namespace Proxora

open Ecma Files Runs

/-! ## Messages -/

structure UploadPlan where
  size : Int
  offset : Int
  prefixHex : Option Text
deriving DecidableEq, Repr

/-- `/^[0-9a-f]{64}$/` on the trimmed text in lower case. -/
def parseGuestUploadPrefix (raw : Text) : Option Text :=
  let value := toLowerCase (trim raw)
  if value.length = 64 && value.all fun c => c ∈ ("0123456789abcdef" : Text) then some value
  else none

/-- What the callback does with a text: it throws, takes the message for invalid, begins or ends
the upload, or does nothing. -/
inductive UploadMessage : Type
  | throws
  | invalid
  | start (plan : UploadPlan)
  | stop
  | ignored
deriving DecidableEq, Repr

def maxSafeInteger : Int := 2 ^ 53 - 1

/-- `x || 0`. -/
def orZero : Double → Double
  | .nan => .finite 0
  | x => x

/-- `msg.prefix ?? ""`; a value that is no text has no `trim`. -/
def prefixText : Option (Json Text Double) → Option Text
  | none | some .null => some []
  | some (.str raw) => some raw
  | some _ => none

def startPlan (size offset : Double) (raw : Option (Json Text Double)) : UploadMessage :=
  match size, offset with
  | .finite size, .finite offset =>
      let size := size.floor
      let offset := offset.floor
      if size < 0 || maxSafeInteger < size || offset < 0 || size < offset then .invalid
      else
        match prefixText raw with
        | some raw => .start ⟨size, offset, parseGuestUploadPrefix raw⟩
        | none => .throws
  | _, _ => .invalid

/-- A text before the upload is accepted; `none` is no JSON, and `null` has no properties. -/
def startMessage : Option (Json Text Double) → UploadMessage
  | none => .invalid
  | some .null => .throws
  | some msg =>
      if !Json.isText (msg.member ("type" : Text)) "start" then .ignored
      else
        match Json.number (msg.member ("size" : Text)), Json.number (msg.member ("offset" : Text)) with
        | some size, some offset => startPlan size (orZero offset) (msg.member ("prefix" : Text))
        | _, _ => .throws

/-- A text from then on. -/
def streamMessage : Option (Json Text Double) → UploadMessage
  | none => .invalid
  | some .null => .throws
  | some msg => if Json.isText (msg.member ("type" : Text)) "end" then .stop else .ignored

def uploadMessage (accepted : Bool) (msg : Option (Json Text Double)) : UploadMessage :=
  if accepted then streamMessage msg else startMessage msg

/-! ## The handler -/

namespace UploadSocket

/-- What the handler awaits: the host, the start message, the upload, the audit log of its success
or of its failure; or how it has ended. -/
inductive Stage : Type
  | lookup | waiting | streaming | recording | failing | done | failed
deriving DecidableEq, Repr

inductive StartPromise : Type
  | pending
  | resolved (plan : UploadPlan)
  | rejected
deriving DecidableEq, Repr

/-- What is written to the body, whether it has been ended or destroyed with an error, and whether
a handler of its errors is attached. -/
structure Body where
  chunks : List Bytes
  ended : Bool
  destroyed : Bool
  watched : Bool
deriving DecidableEq, Repr

/-- A message, an error or the end of the socket; the host is found or not; the race of the start
message is settled, or its time is up; the upload begins to read the body, and is answered. That it
is answered may come at any time: the remote `cat` may end early, and so may a peer answer. -/
inductive Event : Type
  | text (payload : Bytes)
  | binary (payload : Bytes)
  | error
  | close
  | host (found : Bool)
  | settled
  | timeout
  | watch
  | upload (ok : Bool)
  | recorded
deriving DecidableEq, Repr

end UploadSocket

open UploadSocket in
/-- The variables of the handler. `raced` says that a rejection of the promise is handled, `fatal`
that the process ends, and `log` is what has happened. -/
structure UploadSocket where
  stage : Stage
  start : StartPromise
  raced : Bool
  started : Bool
  accepted : Bool
  inputClosed : Bool
  body : Body
  fatal : Bool
  log : List Event
deriving DecidableEq, Repr

namespace UploadSocket

def opened : UploadSocket where
  stage := .lookup
  start := .pending
  raced := false
  started := false
  accepted := false
  inputClosed := false
  body := ⟨[], false, false, false⟩
  fatal := false
  log := []

def failBody (s : UploadSocket) : UploadSocket :=
  if s.inputClosed then s
  else
    { s with
      inputClosed := true
      body := { s.body with destroyed := true }
      start := if s.start = .pending then .rejected else s.start
      fatal := s.fatal || !s.body.watched || (s.start = .pending && !s.raced) }

/-- The `catch` block; only the failure of an upload that was started is logged. -/
def caught (s : UploadSocket) : UploadSocket :=
  { s.failBody with stage := if s.started then .failing else .failed }

def receive (s : UploadSocket) : UploadMessage → UploadSocket
  | .throws => { s with fatal := true }
  | .invalid => s.failBody
  | .start plan => { s with accepted := true, start := .resolved plan }
  | .stop => { s with inputClosed := true, body := { s.body with ended := true } }
  | .ignored => s

/-- A binary message; the socket is paused and resumed with the body, which loses nothing. -/
def write (s : UploadSocket) (chunk : Bytes) : UploadSocket :=
  if s.inputClosed || !s.accepted || chunk = [] then s
  else { s with body := { s.body with chunks := s.body.chunks ++ [chunk] } }

variable (parse : Bytes → Option (Json Text Double))

def act (s : UploadSocket) : Event → Option UploadSocket
  | .text payload =>
      some (if s.inputClosed then s else s.receive (uploadMessage s.accepted (parse payload)))
  | .binary payload => some (s.write payload)
  | .error | .close => some s.failBody
  | .host found =>
      if s.stage = .lookup then
        some (if found then { s with stage := .waiting, raced := true } else s.caught)
      else none
  | .settled =>
      if s.stage = .waiting then
        match s.start with
        | .pending => none
        | .resolved _ => some { s with stage := .streaming, started := true }
        | .rejected => some s.caught
      else none
  | .timeout => if s.stage = .waiting && s.start = .pending then some s.caught else none
  | .watch =>
      if s.stage = .streaming then some { s with body := { s.body with watched := true } } else none
  | .upload ok =>
      if s.stage = .streaming then some (if ok then { s with stage := .recording } else s.caught)
      else none
  | .recorded =>
      match s.stage with
      | .recording => some { s with stage := .done }
      | .failing => some { s with stage := .failed }
      | _ => none

/-- Nothing happens once the process has ended. -/
def step (s : UploadSocket) (e : Event) : Option UploadSocket :=
  if s.fatal then none else (s.act parse e).map fun t => { t with log := s.log ++ [e] }

/-! ## The stream law -/

namespace Event

/-- What the callback makes of a text. -/
def message (accepted : Bool) : Event → Option UploadMessage
  | text payload => some (uploadMessage accepted (parse payload))
  | _ => none

/-- The start message that is accepted. -/
def starts (e : Event) : Bool :=
  match e.message parse false with
  | some (.start _) => true
  | _ => false

/-- The end message. -/
def stops (e : Event) : Bool := e.message parse true = some .stop

/-- An error or the close of the socket, an invalid message, or a failure of the handler. -/
def fails (accepted : Bool) (e : Event) : Bool :=
  match e with
  | error | close | host false | timeout | upload false => true
  | _ => e.message parse accepted = some .invalid

/-- The callback throws. -/
def throws (accepted : Bool) (e : Event) : Bool := e.message parse accepted = some .throws

/-- The end message or a failure. -/
def closes (e : Event) : Bool := e.stops parse || e.fails parse true

def frame : Event → Option Bytes
  | binary payload => some payload
  | _ => none

end Event

/-- What is received behind the accepted start message, if nothing fails before it. -/
def received (log : List Event) : Option (List Event) :=
  match log.dropWhile fun e => !(e.starts parse || e.fails parse false) with
  | [] => none
  | e :: rest => if e.starts parse then some rest else none

def frames (events : List Event) : Bytes := (events.filterMap Event.frame).flatten

/-- The frames between the accepted start message and the end message or a failure. -/
def framesBetween (log : List Event) : Bytes :=
  ((received parse log).map fun rest =>
    frames (rest.takeWhile fun e => !e.closes parse)).getD []

/-- The end message comes before any failure. -/
def endsFirst (log : List Event) : Bool :=
  ((received parse log).bind fun rest => rest.find? fun e => e.closes parse).any fun e =>
    e.stops parse

/-- The body has the frames of the upload and ends with its end message; an upload whose body has
not ended is not reported as done, and where it cannot end any more the handler is before its
`catch` block or in it; and the process goes on. -/
structure Law (s : UploadSocket) : Prop where
  offered : s.body.chunks.flatten = framesBetween parse s.log
  ends : s.body.ended = endsFirst parse s.log
  reported : s.stage = .done → s.body.ended = true
  failing : s.inputClosed = true → s.body.ended = false →
    s.stage = .streaming ∨ s.stage = .failing ∨ s.stage = .failed
  handled : s.fatal = false

/-- While the input is open no callback throws, and nothing fails before the upload reads the body
or after it is answered with success; and such an answer is not taken for a body that can no longer
end, nor logged for one that has not ended. -/
structure Meets (s : UploadSocket) (e : Event) : Prop where
  returns : s.inputClosed = false → e.throws parse s.accepted = false
  watched : s.inputClosed = false → e.fails parse s.accepted = true →
    s.body.watched = true ∧ s.stage ≠ .recording
  answered : e = .upload true → s.inputClosed = true → s.body.ended = true
  whole : e = .recorded → s.stage = .recording → s.body.ended = true

instance (s : UploadSocket) (e : Event) : Decidable (s.Meets parse e) :=
  decidable_of_iff
    ((s.inputClosed = false → e.throws parse s.accepted = false) ∧
      (s.inputClosed = false → e.fails parse s.accepted = true →
        s.body.watched = true ∧ s.stage ≠ .recording) ∧
      (e = .upload true → s.inputClosed = true → s.body.ended = true) ∧
      (e = .recorded → s.stage = .recording → s.body.ended = true))
    ⟨fun meets => ⟨meets.1, meets.2.1, meets.2.2.1, meets.2.2.2⟩,
      fun meets => ⟨meets.returns, meets.watched, meets.answered, meets.whole⟩⟩

/-! ## The log -/

/-- What the log has to do with the state: accepted, closed, ended, and what is written. -/
inductive Phase : Bool → Bool → Bool → Bytes → List Event → Prop
  | idle {log : List Event}
      (calm : ∀ e ∈ log, (e.starts parse || e.fails parse false) = false) :
      Phase false false false [] log
  | taking {before rest : List Event} {first : Event}
      (calm : ∀ e ∈ before, (e.starts parse || e.fails parse false) = false)
      (starts : first.starts parse = true) (goesOn : ∀ e ∈ rest, e.closes parse = false) :
      Phase true false false (frames rest) (before ++ first :: rest)
  | closed {before rest more : List Event} {first last : Event}
      (calm : ∀ e ∈ before, (e.starts parse || e.fails parse false) = false)
      (starts : first.starts parse = true) (goesOn : ∀ e ∈ rest, e.closes parse = false)
      (closes : last.closes parse = true) :
      Phase true true (last.stops parse) (frames rest) (before ++ first :: (rest ++ last :: more))

variable {parse}
variable {accepted closed ended : Bool} {bytes : Bytes} {log before rest : List Event}
  {s t : UploadSocket} {e first : Event}

theorem frames_append (events more : List Event) :
    frames (events ++ more) = frames events ++ frames more := by
  rw [frames, List.filterMap_append, List.flatten_append]
  rfl

theorem received_of_calm
    (calm : ∀ e ∈ log, (e.starts parse || e.fails parse false) = false) :
    received parse log = none := by
  have skipped : log.dropWhile (fun e => !(e.starts parse || e.fails parse false)) = [] := by
    rw [List.dropWhile_eq_nil_iff]
    intro e listed
    rw [calm e listed]
    rfl
  rw [received, skipped]

theorem received_of_starts
    (calm : ∀ e ∈ before, (e.starts parse || e.fails parse false) = false)
    (starts : first.starts parse = true) :
    received parse (before ++ first :: rest) = some rest := by
  have skipped : (before ++ first :: rest).dropWhile
      (fun e => !(e.starts parse || e.fails parse false)) = first :: rest := by
    rw [List.dropWhile_append_of_pos]
    · rw [List.dropWhile_cons_of_neg]
      rw [starts, Bool.true_or]
      decide
    · intro e listed
      rw [calm e listed]
      rfl
  rw [received, skipped]
  exact if_pos starts

/-- What the body has been given is what the log says. -/
theorem Phase.offered (phase : Phase parse accepted closed ended bytes log) :
    bytes = framesBetween parse log := by
  cases phase with
  | idle calm => rw [framesBetween, received_of_calm calm]; rfl
  | @taking before rest first calm starts goesOn =>
      have all : rest.takeWhile (fun e => !e.closes parse) = rest := by
        rw [List.takeWhile_eq_self_iff]
        intro e listed
        rw [goesOn e listed]
        rfl
      rw [framesBetween, received_of_starts calm starts]
      exact congrArg frames all.symm
  | @closed before rest more first last calm starts goesOn closes =>
      have cut : (rest ++ last :: more).takeWhile (fun e => !e.closes parse) = rest := by
        rw [List.takeWhile_append_of_pos]
        · rw [List.takeWhile_cons_of_neg, List.append_nil]
          rw [closes]
          decide
        · intro e listed
          rw [goesOn e listed]
          rfl
      rw [framesBetween, received_of_starts calm starts]
      exact congrArg frames cut.symm

theorem Phase.ends (phase : Phase parse accepted closed ended bytes log) :
    ended = endsFirst parse log := by
  cases phase with
  | idle calm => rw [endsFirst, received_of_calm calm]; rfl
  | @taking before rest first calm starts goesOn =>
      have nothing : rest.find? (fun e => e.closes parse) = none := by
        rw [List.find?_eq_none]
        intro e listed
        rw [goesOn e listed]
        exact Bool.false_ne_true
      rw [endsFirst, received_of_starts calm starts, Option.bind_some, nothing]
      rfl
  | @closed before rest more first last calm starts goesOn closes =>
      have found : (rest ++ last :: more).find? (fun e => e.closes parse) = some last := by
        have nothing : rest.find? (fun e => e.closes parse) = none := by
          rw [List.find?_eq_none]
          intro e listed
          rw [goesOn e listed]
          exact Bool.false_ne_true
        rw [List.find?_append, nothing, Option.none_or, List.find?_cons_of_pos]
        exact closes
      rw [endsFirst, received_of_starts calm starts, Option.bind_some, found]
      rfl

/-- An event that neither starts nor fails leaves the input unaccepted. -/
theorem Phase.wait (phase : Phase parse false closed ended bytes log)
    (calm : (e.starts parse || e.fails parse false) = false) :
    Phase parse false closed ended bytes (log ++ [e]) := by
  cases phase with
  | idle earlier =>
      apply Phase.idle
      intro other listed
      rcases List.mem_append.mp listed with old | new
      · exact earlier other old
      · rw [List.mem_singleton.mp new]
        exact calm

theorem Phase.accept (phase : Phase parse false closed ended bytes log)
    (starts : e.starts parse = true) : Phase parse true false false [] (log ++ [e]) := by
  cases phase with
  | idle calm => exact .taking calm starts (List.forall_mem_nil _)

theorem Phase.take (phase : Phase parse true false ended bytes log)
    (goesOn : e.closes parse = false) :
    Phase parse true false ended (bytes ++ frames [e]) (log ++ [e]) := by
  cases phase with
  | @taking before rest first calm starts earlier =>
      rw [← frames_append, List.append_assoc, List.cons_append]
      apply Phase.taking calm starts
      intro other listed
      rcases List.mem_append.mp listed with old | new
      · exact earlier other old
      · rw [List.mem_singleton.mp new]
        exact goesOn

theorem Phase.close (phase : Phase parse true false ended bytes log)
    (closes : e.closes parse = true) :
    Phase parse true true (e.stops parse) bytes (log ++ [e]) := by
  cases phase with
  | taking calm starts goesOn =>
      rw [List.append_assoc, List.cons_append]
      exact .closed calm starts goesOn closes

theorem Phase.stay (phase : Phase parse accepted true ended bytes log) :
    Phase parse accepted true ended bytes (log ++ [e]) := by
  cases phase with
  | closed calm starts goesOn closes =>
      rw [List.append_assoc, List.cons_append, List.append_assoc, List.cons_append]
      exact .closed calm starts goesOn closes

theorem Phase.goesOn (phase : Phase parse accepted false ended bytes log) : ended = false := by
  cases phase with
  | idle => rfl
  | taking => rfl

theorem Phase.nothing (phase : Phase parse false closed ended bytes log) : bytes = [] := by
  cases phase with
  | idle => rfl

/-- An event of the handler that does not fail. -/
theorem Phase.quiet (phase : Phase parse accepted closed ended bytes log)
    (silent : e.message parse false = none) (still : e.message parse true = none)
    (fine : e.fails parse accepted = false) (frameless : e.frame = none) :
    Phase parse accepted closed ended bytes (log ++ [e]) := by
  have starts : e.starts parse = false := by rw [Event.starts, silent]
  cases accepted with
  | false =>
      apply phase.wait
      rw [starts, fine]
      rfl
  | true =>
      cases closed with
      | true => exact phase.stay
      | false =>
          have stops : e.stops parse = false := by
            rw [Event.stops, still]
            rfl
          have goesOn : e.closes parse = false := by
            rw [Event.closes, stops, fine]
            rfl
          have nothing : frames [e] = [] := by
            rw [frames, List.filterMap_cons_none frameless]
            rfl
          have taken := phase.take goesOn
          rw [nothing, List.append_nil] at taken
          exact taken

/-! ## One step -/

/-- The state is the one that the log leads to, and the promise and the handlers go with it. -/
structure Sound (parse : Bytes → Option (Json Text Double)) (s : UploadSocket) : Prop where
  phase : Phase parse s.accepted s.inputClosed s.body.ended s.body.chunks.flatten s.log
  promise : s.accepted = true → ∃ plan, s.start = .resolved plan
  pending : s.accepted = false → s.start = .pending
  reading : s.stage = .streaming → s.accepted = true
  watched : s.body.watched = true → s.accepted = true ∧ s.stage ≠ .lookup ∧ s.stage ≠ .waiting
  reported : s.stage = .done → s.body.ended = true
  failing : s.inputClosed = true → s.body.ended = false →
    s.stage = .streaming ∨ s.stage = .failing ∨ s.stage = .failed
  handled : s.fatal = false

theorem Sound.law (sound : s.Sound parse) : s.Law parse :=
  ⟨sound.phase.offered, sound.phase.ends, sound.reported, sound.failing, sound.handled⟩

theorem sound_opened : opened.Sound parse where
  phase := .idle (List.forall_mem_nil _)
  promise := nofun
  pending := fun _ => rfl
  reading := by decide
  watched := by decide
  reported := by decide
  failing := by decide
  handled := rfl

theorem failBody_of_closed (closed : s.inputClosed = true) : s.failBody = s := if_pos closed

/-- The input fails with a handler of the body's errors and a settled promise. -/
theorem failBody_of_open {plan : UploadPlan} (isOpen : s.inputClosed = false)
    (watched : s.body.watched = true) (start : s.start = .resolved plan) :
    s.failBody = { s with inputClosed := true, body := { s.body with destroyed := true } } := by
  rw [failBody, isOpen, watched, start]
  simp

/-- Where no handler is attached, the process ends. -/
theorem fatal_failBody (isOpen : s.inputClosed = false) (watched : s.body.watched = false) :
    s.failBody.fatal = true := by
  rw [failBody, isOpen, watched]
  simp

theorem stops_of_fails (fails : e.fails parse true = true) : e.stops parse = false := by
  cases e with
  | text payload =>
      have invalid := of_decide_eq_true fails
      rw [Event.stops, invalid]
      rfl
  | _ => rfl

/-- A failure closes the input, and may bring the handler into its `catch` block. -/
theorem act_of_fails (fails : e.fails parse s.accepted = true) (happens : s.act parse e = some t) :
    ∃ stage, (stage = s.stage ∨ stage = .failing ∨ stage = .failed) ∧
      t = { s.failBody with stage := stage } := by
  have same : s.failBody = { s.failBody with stage := s.stage } := by
    rw [failBody]
    split <;> rfl
  have catching : ∃ stage, (stage = s.stage ∨ stage = .failing ∨ stage = .failed) ∧
      s.caught = { s.failBody with stage := stage } := by
    refine ⟨_, ?_, rfl⟩
    split
    · exact .inr (.inl rfl)
    · exact .inr (.inr rfl)
  cases e with
  | text payload =>
      have invalid : uploadMessage s.accepted (parse payload) = .invalid :=
        Option.some.inj (of_decide_eq_true fails)
      rw [act, invalid] at happens
      refine ⟨s.stage, .inl rfl, ?_⟩
      rw [← same]
      split at happens
      · next closed => rw [failBody_of_closed closed, Option.some.inj happens]
      · exact (Option.some.inj happens).symm
  | binary => cases fails
  | error | close => exact ⟨s.stage, .inl rfl, (Option.some.inj happens).symm.trans same⟩
  | host found =>
      cases found with
      | true => cases fails
      | false =>
          rw [act] at happens
          split at happens
          · rw [← Option.some.inj happens]
            exact catching
          · cases happens
  | settled => cases fails
  | timeout =>
      rw [act] at happens
      split at happens
      · rw [← Option.some.inj happens]
        exact catching
      · cases happens
  | watch => cases fails
  | upload ok =>
      cases ok with
      | true => cases fails
      | false =>
          rw [act] at happens
          split at happens
          · rw [← Option.some.inj happens]
            exact catching
          · cases happens
  | recorded => cases fails

theorem Sound.fail (sound : s.Sound parse) (meets : s.Meets parse e)
    (fails : e.fails parse s.accepted = true) (happens : s.act parse e = some t) :
    Sound parse { t with log := s.log ++ [e] } := by
  obtain ⟨stage, moved, rfl⟩ := act_of_fails fails happens
  have reading : stage = .streaming → s.accepted = true := by
    rcases moved with rfl | rfl | rfl
    · exact sound.reading
    · exact nofun
    · exact nofun
  cases isOpen : s.inputClosed with
  | true =>
      rw [failBody_of_closed isOpen]
      refine ⟨?_, sound.promise, sound.pending, reading, ?_, ?_, ?_, sound.handled⟩
      · have phase := sound.phase
        rw [isOpen] at phase
        exact isOpen.symm ▸ phase.stay
      · intro watched
        obtain ⟨accepted, lookup, waiting⟩ := sound.watched watched
        rcases moved with rfl | rfl | rfl
        · exact ⟨accepted, lookup, waiting⟩
        · exact ⟨accepted, nofun, nofun⟩
        · exact ⟨accepted, nofun, nofun⟩
      · rcases moved with rfl | rfl | rfl
        · exact sound.reported
        · exact nofun
        · exact nofun
      · intro closed open'
        rcases moved with rfl | rfl | rfl
        · exact sound.failing closed open'
        · exact .inr (.inl rfl)
        · exact .inr (.inr rfl)
  | false =>
      obtain ⟨watched, unanswered⟩ := meets.watched isOpen fails
      obtain ⟨accepted, lookup, waiting⟩ := sound.watched watched
      obtain ⟨plan, start⟩ := sound.promise accepted
      have phase := sound.phase
      rw [accepted] at fails phase
      rw [isOpen] at phase
      have closes : e.closes parse = true := by
        rw [Event.closes, fails, Bool.or_true]
      have later := phase.close closes
      rw [stops_of_fails fails] at later
      have goesOn := phase.goesOn
      rw [failBody_of_open isOpen watched start]
      refine ⟨?_, fun _ => ⟨plan, start⟩, sound.pending, reading, ?_, ?_, ?_, sound.handled⟩
      · rw [accepted, goesOn]
        exact later
      · intro _
        rcases moved with rfl | rfl | rfl
        · exact ⟨accepted, lookup, waiting⟩
        · exact ⟨accepted, nofun, nofun⟩
        · exact ⟨accepted, nofun, nofun⟩
      · rcases moved with rfl | rfl | rfl
        · exact sound.reported
        · exact nofun
        · exact nofun
      · intro _ _
        rcases moved with rfl | rfl | rfl
        · have unreported : s.stage ≠ .done := by
            intro done
            rw [sound.reported done] at goesOn
            cases goesOn
          cases stage : s.stage with
          | lookup => exact absurd stage lookup
          | waiting => exact absurd stage waiting
          | streaming => exact .inl rfl
          | recording => exact absurd stage unanswered
          | failing => exact .inr (.inl rfl)
          | done => exact absurd stage unreported
          | failed => exact .inr (.inr rfl)
        · exact .inr (.inl rfl)
        · exact .inr (.inr rfl)

theorem streamMessage_ne_start {msg : Option (Json Text Double)} {plan : UploadPlan} :
    streamMessage msg ≠ .start plan := by
  rw [streamMessage.eq_def]
  split
  · exact nofun
  · exact nofun
  · split
    · exact nofun
    · exact nofun

theorem startPlan_ne_stop {size offset : Double} {raw : Option (Json Text Double)} :
    startPlan size offset raw ≠ .stop := by
  rw [startPlan.eq_def]
  split
  · dsimp only
    split
    · exact nofun
    · split
      · exact nofun
      · exact nofun
  · exact nofun

theorem startMessage_ne_stop {msg : Option (Json Text Double)} : startMessage msg ≠ .stop := by
  rw [startMessage.eq_def]
  split
  · exact nofun
  · exact nofun
  · split
    · exact nofun
    · split
      · exact startPlan_ne_stop
      · exact nofun

theorem Sound.text {payload : Bytes} (sound : s.Sound parse) (meets : s.Meets parse (.text payload))
    (fine : (Event.text payload).fails parse s.accepted = false)
    (happens : s.act parse (.text payload) = some t) :
    Sound parse { t with log := s.log ++ [.text payload] } := by
  obtain ⟨phase, promise, pending, reading, watched, reported, failing, handled⟩ := sound
  rw [act, Option.some.injEq] at happens
  cases isOpen : s.inputClosed with
  | true =>
      rw [if_pos isOpen] at happens
      subst happens
      refine ⟨?_, promise, pending, reading, watched, reported, failing, handled⟩
      rw [isOpen] at phase
      exact isOpen.symm ▸ phase.stay
  | false =>
      rw [if_neg (isOpen.symm ▸ Bool.false_ne_true)] at happens
      rw [isOpen] at phase
      have returns := of_decide_eq_false (meets.returns isOpen)
      have valid := of_decide_eq_false fine
      cases accepted : s.accepted with
      | false =>
          rw [accepted] at phase happens returns valid
          cases read : startMessage (parse payload) with
          | throws => exact absurd (congrArg some read) returns
          | invalid => exact absurd (congrArg some read) valid
          | start plan =>
              have starts : (Event.text payload).starts parse = true := by
                have message : (Event.text payload).message parse false = some (.start plan) :=
                  congrArg some read
                rw [Event.starts, message]
              have message : uploadMessage false (parse payload) = .start plan := read
              rw [message] at happens
              subst happens
              refine ⟨?_, fun _ => ⟨plan, rfl⟩, nofun, fun _ => rfl, ?_, reported, ?_, handled⟩
              · have accepting := phase.accept starts
                rw [receive, isOpen, phase.goesOn, phase.nothing]
                exact accepting
              · exact fun seen => ⟨rfl, (watched seen).2⟩
              · exact fun closed => absurd (isOpen.symm.trans closed) Bool.false_ne_true
          | stop => exact absurd read startMessage_ne_stop
          | ignored =>
              have starts : (Event.text payload).starts parse = false := by
                have message : (Event.text payload).message parse false = some .ignored :=
                  congrArg some read
                rw [Event.starts, message]
              have message : uploadMessage false (parse payload) = .ignored := read
              rw [message] at happens
              subst happens
              refine ⟨?_, promise, pending, reading, watched, reported, failing, handled⟩
              have calm : ((Event.text payload).starts parse ||
                  (Event.text payload).fails parse false) = false := by
                rw [accepted] at fine
                rw [starts, fine]
                rfl
              have waits := phase.wait calm
              rw [receive, accepted, isOpen]
              exact waits
      | true =>
          rw [accepted] at phase happens returns valid
          cases read : streamMessage (parse payload) with
          | throws => exact absurd (congrArg some read) returns
          | invalid => exact absurd (congrArg some read) valid
          | start plan => exact absurd read streamMessage_ne_start
          | stop =>
              have stops : (Event.text payload).stops parse = true := by
                have message : (Event.text payload).message parse true = some .stop :=
                  congrArg some read
                rw [Event.stops, message]
                rfl
              have closes : (Event.text payload).closes parse = true := by
                rw [Event.closes, stops, Bool.true_or]
              have message : uploadMessage true (parse payload) = .stop := read
              rw [message] at happens
              subst happens
              refine ⟨?_, promise, pending, reading, watched, fun _ => rfl, ?_, handled⟩
              · have ending := phase.close closes
                rw [stops] at ending
                rw [receive, accepted]
                exact ending
              · exact nofun
          | ignored =>
              have stops : (Event.text payload).stops parse = false := by
                have message : (Event.text payload).message parse true = some .ignored :=
                  congrArg some read
                rw [Event.stops, message]
                rfl
              have goesOn : (Event.text payload).closes parse = false := by
                rw [Event.closes, stops, ← accepted, fine, Bool.or_self]
              have message : uploadMessage true (parse payload) = .ignored := read
              rw [message] at happens
              subst happens
              refine ⟨?_, promise, pending, reading, watched, reported, failing, handled⟩
              have taken := phase.take goesOn
              rw [receive, accepted, isOpen]
              rw [show frames [Event.text payload] = [] from rfl, List.append_nil] at taken
              exact taken

theorem write_of_ignored {payload : Bytes}
    (ignored : (s.inputClosed || !s.accepted || payload = []) = true) : s.write payload = s :=
  if_pos ignored

theorem Sound.binary {payload : Bytes} (sound : s.Sound parse) :
    Sound parse { s.write payload with log := s.log ++ [.binary payload] } := by
  obtain ⟨phase, promise, pending, reading, watched, reported, failing, handled⟩ := sound
  by_cases closed : s.inputClosed = true
  · rw [write_of_ignored (by simp [closed])]
    refine ⟨?_, promise, pending, reading, watched, reported, failing, handled⟩
    rw [closed] at phase
    exact closed.symm ▸ phase.stay
  · have isOpen : s.inputClosed = false := Bool.not_eq_true _ ▸ closed
    rw [isOpen] at phase
    by_cases accepted : s.accepted = true
    · rw [accepted] at phase
      have taken := phase.take (e := .binary payload) rfl
      by_cases empty : payload = []
      · rw [write_of_ignored (by simp [empty])]
        refine ⟨?_, promise, pending, reading, watched, reported, failing, handled⟩
        rw [show frames [Event.binary payload] = payload from List.flatten_singleton, empty,
          List.append_nil] at taken
        rw [isOpen, accepted, empty]
        exact taken
      · have written : s.write payload =
            { s with body := { s.body with chunks := s.body.chunks ++ [payload] } } :=
          if_neg (by simp [isOpen, accepted, empty])
        rw [written]
        refine ⟨?_, promise, pending, reading, watched, reported, failing, handled⟩
        rw [show frames [Event.binary payload] = payload from List.flatten_singleton] at taken
        rw [isOpen, accepted, List.flatten_append, List.flatten_singleton]
        exact taken
    · rw [Bool.not_eq_true] at accepted
      rw [write_of_ignored (by simp [accepted])]
      refine ⟨?_, promise, pending, reading, watched, reported, failing, handled⟩
      rw [accepted] at phase
      have waits := phase.wait (e := .binary payload) rfl
      rw [isOpen, accepted]
      exact waits

/-- The other steps of the handler. -/
theorem Sound.proceed (sound : s.Sound parse) (meets : s.Meets parse e)
    (fine : e.fails parse s.accepted = false) (silent : ∀ payload, e ≠ .text payload)
    (frameless : ∀ payload, e ≠ .binary payload) (happens : s.act parse e = some t) :
    Sound parse { t with log := s.log ++ [e] } := by
  obtain ⟨phase, promise, pending, reading, watched, reported, failing, handled⟩ := sound
  cases e with
  | text payload => exact absurd rfl (silent payload)
  | binary payload => exact absurd rfl (frameless payload)
  | error | close | timeout => cases fine
  | host found =>
      cases found with
      | false => cases fine
      | true =>
          rw [act] at happens
          split at happens
          · next lookup =>
              rw [← Option.some.inj happens]
              refine ⟨phase.quiet rfl rfl rfl rfl, promise, pending, nofun, ?_, nofun, ?_, handled⟩
              · exact fun seen => absurd lookup (watched seen).2.1
              · intro closed unended
                rcases failing closed unended with other | other | other
                all_goals
                  rw [lookup] at other
                  cases other
          · cases happens
  | settled =>
      rw [act] at happens
      split at happens
      · next waiting =>
          split at happens
          · cases happens
          · next plan start =>
              have accepted : s.accepted = true := by
                cases missing : s.accepted with
                | true => rfl
                | false =>
                    rw [pending missing] at start
                    cases start
              rw [← Option.some.inj happens]
              refine ⟨phase.quiet rfl rfl rfl rfl, promise, pending, fun _ => accepted, ?_, nofun,
                fun _ _ => .inl rfl, handled⟩
              exact fun seen => ⟨accepted, nofun, nofun⟩
          · next start =>
              cases accepted : s.accepted with
              | true =>
                  obtain ⟨plan, resolved⟩ := promise accepted
                  rw [resolved] at start
                  cases start
              | false =>
                  rw [pending accepted] at start
                  cases start
      · cases happens
  | watch =>
      rw [act] at happens
      split at happens
      · next streaming =>
          rw [← Option.some.inj happens]
          refine ⟨phase.quiet rfl rfl rfl rfl, promise, pending, reading, ?_, reported, failing,
            handled⟩
          intro _
          dsimp only
          rw [streaming]
          exact ⟨reading streaming, nofun, nofun⟩
      · cases happens
  | upload ok =>
      cases ok with
      | false => cases fine
      | true =>
          rw [act] at happens
          split at happens
          · next streaming =>
              rw [← Option.some.inj happens]
              refine ⟨phase.quiet rfl rfl rfl rfl, promise, pending, nofun, ?_, nofun, ?_, handled⟩
              · exact fun seen => ⟨(watched seen).1, nofun, nofun⟩
              · intro closed unended
                exact nomatch (meets.answered rfl closed).symm.trans unended
          · cases happens
  | recorded =>
      rw [act] at happens
      split at happens
      · next recording =>
          have ended := meets.whole rfl recording
          rw [← Option.some.inj happens]
          refine ⟨phase.quiet rfl rfl rfl rfl, promise, pending, nofun, ?_, fun _ => ended, ?_,
            handled⟩
          · exact fun seen => ⟨(watched seen).1, nofun, nofun⟩
          · exact fun _ unended => nomatch ended.symm.trans unended
      · rw [← Option.some.inj happens]
        refine ⟨phase.quiet rfl rfl rfl rfl, promise, pending, nofun, ?_, nofun,
          fun _ _ => .inr (.inr rfl), handled⟩
        exact fun seen => ⟨(watched seen).1, nofun, nofun⟩
      · cases happens

/-- A step that meets the condition leads to what its log says. -/
theorem Sound.step (sound : s.Sound parse) (meets : s.Meets parse e)
    (happens : s.step parse e = some t) : t.Sound parse := by
  rw [UploadSocket.step, sound.handled] at happens
  obtain ⟨after, acted, rfl⟩ := Option.map_eq_some_iff.mp happens
  cases fails : e.fails parse s.accepted with
  | true => exact sound.fail meets fails acted
  | false =>
      cases e with
      | text payload => exact sound.text meets fails acted
      | binary payload =>
          rw [← Option.some.inj acted]
          exact sound.binary
      | _ => exact sound.proceed meets fails nofun nofun acted

theorem sound_of_reaches (run : Reaches (step parse) (Meets parse) opened s) : s.Sound parse :=
  run.keeps sound_opened fun _ _ _ sound meets happens => sound.step meets happens

/-- In every state of a run whose steps meet the condition the law holds. -/
theorem law_of_reaches (run : Reaches (step parse) (Meets parse) opened s) : s.Law parse :=
  (sound_of_reaches run).law

/-! ## The steps that keep the law -/

theorem fatal_act_of_throws (isOpen : s.inputClosed = false)
    (throws : e.throws parse s.accepted = true) (happens : s.act parse e = some t) :
    t.fatal = true := by
  cases e with
  | text payload =>
      have thrown : uploadMessage s.accepted (parse payload) = .throws :=
        Option.some.inj (of_decide_eq_true throws)
      rw [act, if_neg (by simp [isOpen]), thrown, Option.some.injEq] at happens
      rw [← happens]
      rfl
  | _ => cases throws

/-- A failure closes an open input, without its end. -/
theorem Sound.inputClosed_of_fails (sound : s.Sound parse) (isOpen : s.inputClosed = false)
    (fails : e.fails parse s.accepted = true) (happens : s.act parse e = some t) :
    t.inputClosed = true ∧ t.body.ended = false := by
  obtain ⟨stage, -, rfl⟩ := act_of_fails fails happens
  have phase := sound.phase
  rw [isOpen] at phase
  rw [failBody, if_neg (by simp [isOpen])]
  exact ⟨rfl, phase.goesOn⟩

/-- While the success is logged, a failure comes from the socket. -/
theorem stage_of_fails (fails : e.fails parse s.accepted = true) (recording : s.stage = .recording)
    (happens : s.act parse e = some t) : t.stage = .recording := by
  have kept : s.failBody.stage = .recording := by
    rw [failBody]
    split
    · exact recording
    · exact recording
  cases e with
  | text payload =>
      have invalid : uploadMessage s.accepted (parse payload) = .invalid :=
        Option.some.inj (of_decide_eq_true fails)
      rw [act, invalid] at happens
      split at happens
      · rw [← Option.some.inj happens]
        exact recording
      · rw [← Option.some.inj happens]
        exact kept
  | error | close =>
      rw [← Option.some.inj happens]
      exact kept
  | host | timeout | upload =>
      rw [act, recording] at happens
      cases happens
  | _ => cases fails

/-- In a run that has met the condition so far, a step keeps the law just if it meets it. -/
theorem law_iff_meets (run : Reaches (step parse) (Meets parse) opened s)
    (happens : s.step parse e = some t) : t.Law parse ↔ s.Meets parse e := by
  have sound := sound_of_reaches run
  constructor
  · intro law
    have stepped := happens
    rw [UploadSocket.step, sound.handled] at stepped
    obtain ⟨after, acted, rfl⟩ := Option.map_eq_some_iff.mp stepped
    refine ⟨fun isOpen => ?_, fun isOpen fails => ⟨?_, ?_⟩, ?_, ?_⟩
    · rw [Bool.eq_false_iff]
      intro throws
      have fatal : after.fatal = true := fatal_act_of_throws isOpen throws acted
      exact nomatch law.handled.symm.trans fatal
    · obtain ⟨stage, -, rfl⟩ := act_of_fails fails acted
      cases watched : s.body.watched with
      | true => rfl
      | false => exact nomatch law.handled.symm.trans (fatal_failBody isOpen watched)
    · intro recording
      obtain ⟨closed, unended⟩ := sound.inputClosed_of_fails isOpen fails acted
      have stages : after.stage = .streaming ∨ after.stage = .failing ∨ after.stage = .failed :=
        law.failing closed unended
      rw [stage_of_fails fails recording acted] at stages
      rcases stages with other | other | other
      all_goals cases other
    · rintro rfl closed
      rw [act] at acted
      split at acted
      · rw [← Option.some.inj acted] at law
        cases ended : s.body.ended with
        | true => rfl
        | false => simpa using law.failing closed ended
      · cases acted
    · rintro rfl recording
      rw [act, recording, Option.some.injEq] at acted
      rw [← acted] at law
      exact law.reported rfl
  · exact fun meets => (sound.step meets happens).law

/-! ## Runs on fixed messages -/

/-- A start message of two bytes, and the end message. -/
def sampleParse (payload : Bytes) : Option (Json Text Double) :=
  if payload = [0] then
    some (.obj [("type", .str "start"), ("size", .num (.finite 2)), ("prefix", .null)])
  else if payload = [1] then some (.obj [("type", .str "end")])
  else none

/-- An upload of two frames. -/
theorem law_of_upload : ∃ s, Reaches (step sampleParse) (Meets sampleParse) opened s ∧
    s.stage = .done ∧ s.body.chunks = [[7], [8]] ∧ s.Law sampleParse := by
  let events : List Event :=
    [.text [0], .host true, .settled, .binary [7], .watch, .binary [8], .text [1], .upload true,
      .recorded, .close]
  have run := @reaches_of_guarded _ _ (step sampleParse) (Meets sampleParse) opened
    { stage := .done
      start := .resolved ⟨2, 0, none⟩
      raced := true
      started := true
      accepted := true
      inputClosed := true
      body := ⟨[[7], [8]], true, false, true⟩
      fatal := false
      log := events } _ events (by decide)
  exact ⟨_, run, rfl, rfl, law_of_reaches run⟩

/-- The host is not found. -/
theorem lookup_failure_ends_process :
    ¬∀ (parse : Bytes → Option (Json Text Double)) (s : UploadSocket),
      Reaches (step parse) Unrestricted opened s → s.Law parse := by
  intro lawful
  have run := @reaches_of_exec _ _ (step sampleParse) opened _ [.host false] rfl
  have handled := (lawful sampleParse _ run).handled
  revert handled
  decide

end UploadSocket

end Proxora
