import Proxora.UploadSocket

/-!
# The upload exchange

`putBlobOverWebSocket` of `lib/guest-file-transfer.ts` against the handler of the upload socket.
The browser and the handler take turns in any order; a frame arrives in the order in which it was
sent, until the line breaks and the rest of both directions is lost. `JSON.parse` gives the browser
what `sendJson` was given.

`UploadExchange.body_of_exchange` says what the body has in every state that is reached: a beginning
of the blob, all of it where the body has ended, and nothing where the browser reports a failed
handshake. `UploadExchange.resolved_of_exchange` says what a resolved promise means.
-/

namespace Proxora

open Ecma Files Runs

/-! ## The browser -/

/-- What is uploaded: the chunks that the stream of the blob is read in, and the start and the end
message as they are sent. -/
structure UploadJob where
  chunks : List Bytes
  offset : Nat
  total : Nat
  prefixHex : Text
  startPayload : Bytes
  endPayload : Bytes

namespace UploadJob

def blob (job : UploadJob) : Bytes := job.chunks.flatten

def startMessage (job : UploadJob) : Json Text Double :=
  .ofProperties
    [("type", some (.str "start")), ("size", some (.num (.finite job.total))),
      ("offset", some (.num (.finite job.offset))), ("prefix", some (.str job.prefixHex))]

def endMessage : Json Text Double := .ofProperties [("type", some (.str "end"))]

/-- The plan that the handler makes of the start message. -/
def plan (job : UploadJob) : UploadPlan :=
  ⟨job.total, job.offset, parseGuestUploadPrefix job.prefixHex⟩

end UploadJob

inductive UploadFailure : Type
  /-- `AbortError` -/
  | aborted
  /-- `WsHandshakeError` -/
  | handshake (message : Text)
  | error (message : Text)
  /-- `msg.error || "Upload fehlgeschlagen"` -/
  | reported (error : Option (Json Text Double))
  /-- What the stream of the blob throws. -/
  | stream

inductive UploadOutcome : Type
  | resolved (path name size : Option (Json Text Double))
  | rejected (failure : UploadFailure)

/-- A message on the line. -/
inductive UploadFrame : Type
  | text (payload : Bytes)
  | binary (payload : Bytes)
deriving DecidableEq, Repr

namespace UploadClient

/-- `readyState`, with closing and closed as one. -/
inductive Line : Type
  | connecting | opened | closing
deriving DecidableEq, Repr

/-- What `pump` awaits: the buffer before it reads, the stream, the buffer before it ends. -/
inductive PumpWait : Type
  | idle | waiting | reading | draining | finished
deriving DecidableEq, Repr

/-- The socket opens, fails or closes; the handshake takes too long; the signal aborts; the buffer
is low enough, or the signal has aborted by then; the stream is read, or fails. -/
inductive Event : Type
  | opened | error | close | timeout | abort | waited | interrupted | read | readFailed
deriving DecidableEq, Repr

end UploadClient

open UploadClient in
structure UploadClient where
  line : Line
  outcome : Option UploadOutcome
  aborted : Bool
  pumping : Bool
  pump : PumpWait
  unread : List Bytes

namespace UploadClient

def start (job : UploadJob) : UploadClient where
  line := .connecting
  outcome := none
  aborted := false
  pumping := false
  pump := .idle
  unread := job.chunks

def fail (c : UploadClient) (failure : UploadFailure) : UploadClient :=
  match c.outcome with
  | some _ => c
  | none => { c with outcome := some (.rejected failure), line := .closing }

/-- `pump` throws. -/
def stop (c : UploadClient) (failure : UploadFailure) : UploadClient :=
  { c.fail failure with pump := .finished }

/-- The head of the loop of `pump`. -/
def loop (c : UploadClient) : UploadClient :=
  if c.aborted then c.stop .aborted
  else if c.line ≠ .opened then c.stop (.error "Upload abgebrochen")
  else { c with pump := .waiting }

/-- `ws.send`, which drops the frame once the socket is closing. -/
def send (c : UploadClient) (frame : UploadFrame) : List UploadFrame :=
  if c.line = .opened then [frame] else []

/-- `ws.onmessage`; the read of a property of `null` throws. -/
def receive (job : UploadJob) (c : UploadClient) :
    Option (Json Text Double) → UploadClient × List UploadFrame
  | none => (c.fail (.error "Ungültige Server-Antwort"), [])
  | some .null => (c, [])
  | some msg =>
      let kind := msg.member ("type" : Text)
      if Json.isText kind "error" then (c.fail (.reported (msg.member ("error" : Text))), [])
      else if Json.isText kind "ready" then (c, c.send (.text job.startPayload))
      else if Json.isText kind "go" then
        (if c.pumping then c else ({ c with pumping := true } : UploadClient).loop, [])
      else if Json.isText kind "done" then
        match c.outcome with
        | some _ => (c, [])
        | none =>
            ({ c with
                outcome := some (.resolved (msg.member ("path" : Text)) (msg.member ("name" : Text))
                  (msg.member ("size" : Text)))
                line := .closing }, [])
      else (c, [])

/-- One chunk of the stream; an empty one is skipped. -/
def takeChunk (c : UploadClient) (value : Bytes) (rest : List Bytes) :
    UploadClient × List UploadFrame :=
  (({ c with unread := rest } : UploadClient).loop,
    if value = [] then [] else c.send (.binary value))

def act (job : UploadJob) (c : UploadClient) : Event → Option (UploadClient × List UploadFrame)
  | .opened => if c.line = .connecting then some ({ c with line := .opened }, []) else none
  | .error =>
      some (c.fail (if c.pumping then .error "Upload fehlgeschlagen"
        else .handshake "WebSocket failed"), [])
  | .close =>
      some ({ c.fail (if c.pumping then .error "Upload abgebrochen"
        else .handshake "WebSocket closed") with line := .closing }, [])
  | .timeout =>
      if c.pumping then none else some (c.fail (.handshake "WebSocket handshake timeout"), [])
  | .abort => some (({ c with aborted := true } : UploadClient).fail .aborted, [])
  | .waited =>
      match c.pump with
      | .waiting => some ({ c with pump := .reading }, [])
      | .draining =>
          if c.line ≠ .opened then some (c.stop (.error "Upload abgebrochen"), [])
          else some ({ c with pump := .finished }, c.send (.text job.endPayload))
      | _ => none
  | .interrupted =>
      if c.aborted && (c.pump = .waiting || c.pump = .draining) then some (c.stop .aborted, [])
      else none
  | .read =>
      if c.pump = .reading then
        match c.unread with
        | [] => some ({ c with pump := .draining }, [])
        | value :: rest => some (c.takeChunk value rest)
      else none
  | .readFailed => if c.pump = .reading then some (c.stop .stream, []) else none

end UploadClient

/-! ## Both ends -/

/-- What the handler sends. -/
inductive UploadReply : Type
  | ready
  | go (plan : UploadPlan)
  | done (path name : Text) (size : Int)
  | error (message : Text)
deriving DecidableEq, Repr

def UploadReply.json : UploadReply → Json Text Double
  | ready => .ofProperties [("type", some (.str "ready"))]
  | go plan =>
      .ofProperties
        [("type", some (.str "go")), ("offset", some (.num (.finite plan.offset))),
          ("size", some (.num (.finite plan.size)))]
  | done path name size =>
      .ofProperties
        [("type", some (.str "done")), ("path", some (.str path)), ("name", some (.str name)),
          ("size", some (.num (.finite size)))]
  | error message => .ofProperties [("type", some (.str "error")), ("error", some (.str message))]

/-- The two ends and what is under way between them. `serverOpen` is the `readyState` of the
handler's socket. -/
structure UploadExchange where
  client : UploadClient
  server : UploadSocket
  toServer : List UploadFrame
  toClient : List UploadReply
  serverOpen : Bool
  broken : Bool

namespace UploadExchange

/-- The message that the handler's failure is reported with, and what its upload returns. -/
structure Answers where
  message : Text
  path : Text
  name : Text
  size : Int

/-- The browser or the handler goes on, a frame or a reply arrives, or the line breaks with so many
of them still arriving. -/
inductive Move : Type
  | client (e : UploadClient.Event)
  | server (e : UploadSocket.Event)
  | deliver
  | receive
  | cut (frames replies : Nat)
deriving DecidableEq, Repr

def start (job : UploadJob) : UploadExchange where
  client := .start job
  server := .opened
  toServer := []
  toClient := []
  serverOpen := true
  broken := false

/-- What is sent with a step of the handler. -/
def replies (answers : Answers) (before after : UploadSocket) : List UploadReply :=
  if before.stage = after.stage then []
  else
    match after.stage, after.start with
    | .waiting, _ => [.ready]
    | .streaming, .resolved plan => [.go plan]
    | .done, _ => [.done answers.path answers.name answers.size]
    | .failed, _ => [.error answers.message]
    | _, _ => []

/-- The callback of the handler's socket that a frame calls. -/
def arrival : UploadFrame → UploadSocket.Event
  | .text payload => .text payload
  | .binary payload => .binary payload

def isArrival : UploadSocket.Event → Bool
  | .text _ | .binary _ => true
  | _ => false

variable (parse : Bytes → Option (Json Text Double)) (job : UploadJob) (answers : Answers)

def serve (s : UploadExchange) (e : UploadSocket.Event) : Option UploadExchange :=
  if isArrival e then none
  else
    (s.server.step parse e).map fun server =>
      { s with
        server := server
        toClient :=
          if s.serverOpen && !s.broken then s.toClient ++ replies answers s.server server
          else s.toClient
        serverOpen := s.serverOpen && e ≠ .close && server.stage ≠ .failed }

/-- The browser's end goes on with frames to send. -/
def put (s : UploadExchange) (sent : UploadClient × List UploadFrame) : UploadExchange :=
  { s with
    client := sent.1
    toServer := if s.broken then s.toServer else s.toServer ++ sent.2 }

def step (s : UploadExchange) : Move → Option UploadExchange
  | .client e => (s.client.act job e).map s.put
  | .server e => s.serve parse answers e
  | .deliver =>
      match s.toServer with
      | [] => none
      | frame :: rest =>
          (s.server.step parse (arrival frame)).map fun server =>
            { s with server := server, toServer := rest }
  | .receive =>
      match s.toClient with
      | [] => none
      | reply :: rest =>
          if s.client.line = .opened then
            some (put { s with toClient := rest } (s.client.receive job (some reply.json)))
          else none
  | .cut frames replies =>
      some
        { s with
          toServer := s.toServer.take frames
          toClient := s.toClient.take replies
          broken := true }

end UploadExchange

/-! ## What is read of a message -/

theorem startMessage_plan (job : UploadJob) :
    startMessage (some job.startMessage) = .start job.plan ∨
      startMessage (some job.startMessage) = .invalid := by
  have read : startMessage (some job.startMessage) =
      startPlan (.finite job.total) (.finite job.offset) (some (.str job.prefixHex)) := rfl
  have total : (job.total : Rat).floor = (job.total : Int) := Rat.floor_intCast job.total
  have offset : (job.offset : Rat).floor = (job.offset : Int) := Rat.floor_intCast job.offset
  rw [read, startPlan, total, offset]
  split
  · exact .inr rfl
  · exact .inl rfl

theorem streamMessage_endMessage : streamMessage (some UploadJob.endMessage) = .stop := rfl

namespace UploadClient

variable {job : UploadJob} {c d : UploadClient} {failure : UploadFailure}
  {frames : List UploadFrame} {e : Event}

theorem send_of_open (frame : UploadFrame) (opened : c.line = .opened) : c.send frame = [frame] :=
  if_pos opened

theorem send_of_closing (frame : UploadFrame) (closing : c.line ≠ .opened) : c.send frame = [] :=
  if_neg closing

theorem receive_ready :
    c.receive job (some UploadReply.ready.json) = (c, c.send (.text job.startPayload)) := rfl

theorem receive_go {plan : UploadPlan} :
    c.receive job (some (UploadReply.go plan).json) =
      (if c.pumping then c else ({ c with pumping := true } : UploadClient).loop, []) := rfl

theorem receive_done {path name : Text} {size : Int} (unsettled : c.outcome = none) :
    c.receive job (some (UploadReply.done path name size).json) =
      ({ c with
          outcome := some (.resolved (some (.str path)) (some (.str name))
            (some (.num (.finite size))))
          line := .closing }, []) := by
  have read : c.receive job (some (UploadReply.done path name size).json) =
      match c.outcome with
      | some _ => (c, [])
      | none =>
          ({ c with
              outcome := some (.resolved (some (.str path)) (some (.str name))
                (some (.num (.finite size))))
              line := .closing }, []) := rfl
  rw [read, unsettled]

theorem receive_error {message : Text} :
    c.receive job (some (UploadReply.error message).json) =
      (c.fail (.reported (some (.str message))), []) := rfl

/-! ## What the browser keeps -/

/-- A settled promise has closed the line; before the first chunk the stream has not been read, and
a failed handshake is reported only then. -/
structure Settled (job : UploadJob) (c : UploadClient) : Prop where
  closing : c.outcome ≠ none → c.line = .closing
  handshake : ∀ message, c.outcome = some (.rejected (.handshake message)) → c.pumping = false
  early : c.pumping = false → c.pump = .idle ∧ c.unread = job.chunks
  late : c.pumping = true → c.pump ≠ .idle ∧ c.line ≠ .connecting
  drained : c.pump = .draining → c.unread = []

/-- A state that can send no more than the one before: nothing was sent, and the line and `pump`
only close. -/
structure Quiet (c d : UploadClient) : Prop where
  unread : d.unread = c.unread
  pumping : d.pumping = c.pumping
  line : d.line = .opened → c.line ≠ .closing
  pump : d.pump ≠ .finished → c.pump ≠ .finished

theorem settled_start (job : UploadJob) : (start job).Settled job :=
  ⟨fun settled => absurd rfl settled, nofun, fun _ => ⟨rfl, rfl⟩, nofun, nofun⟩

@[simp] theorem fail_unread : (c.fail failure).unread = c.unread := by
  unfold fail
  split <;> rfl

@[simp] theorem fail_pumping : (c.fail failure).pumping = c.pumping := by
  unfold fail
  split <;> rfl

@[simp] theorem fail_pump : (c.fail failure).pump = c.pump := by
  unfold fail
  split <;> rfl

theorem fail_eq_of_unsettled (failure : UploadFailure) (unsettled : c.outcome = none) :
    c.fail failure = { c with outcome := some (.rejected failure), line := .closing } := by
  unfold fail
  rw [unsettled]

/-- The promise is settled from then on, and with this failure if it was not before. -/
theorem fail_outcome (c : UploadClient) (failure : UploadFailure) :
    (c.fail failure).outcome = some (.rejected failure) ∨
      c.outcome ≠ none ∧ (c.fail failure).outcome = c.outcome := by
  unfold fail
  split
  · next settled => exact .inr ⟨settled ▸ Option.some_ne_none _, rfl⟩
  · exact .inl rfl

theorem Settled.line_fail (settled : c.Settled job) : (c.fail failure).line = .closing := by
  unfold fail
  split
  · next found => exact settled.closing (found ▸ Option.some_ne_none _)
  · rfl

theorem Settled.fail (settled : c.Settled job) (failure : UploadFailure)
    (early : ∀ message, failure = .handshake message → c.pumping = false) :
    (c.fail failure).Settled job where
  closing := fun _ => settled.line_fail
  handshake := by
    intro message rejected
    rw [fail_pumping]
    rcases fail_outcome c failure with now | ⟨-, before⟩
    · rw [now, Option.some.injEq, UploadOutcome.rejected.injEq] at rejected
      exact early message rejected
    · exact settled.handshake message (before ▸ rejected)
  early := by
    rw [fail_pumping, fail_pump, fail_unread]
    exact settled.early
  late := by
    rw [fail_pumping, fail_pump, settled.line_fail]
    exact fun pumping => ⟨(settled.late pumping).1, nofun⟩
  drained := by
    rw [fail_pump, fail_unread]
    exact settled.drained

theorem Settled.quiet_fail (settled : c.Settled job) (failure : UploadFailure) :
    Quiet c (c.fail failure) where
  unread := fail_unread
  pumping := fail_pumping
  line := by
    rw [settled.line_fail]
    exact nofun
  pump := by
    rw [fail_pump]
    exact id

theorem Settled.stop (settled : c.Settled job) (pumping : c.pumping = true)
    (failed : ∀ message, failure ≠ .handshake message) : (c.stop failure).Settled job := by
  have kept := settled.fail failure fun message same => absurd same (failed message)
  refine ⟨kept.closing, kept.handshake, fun idle => ?_, fun on => ⟨nofun, (kept.late on).2⟩, nofun⟩
  rw [UploadClient.stop, fail_pumping, pumping] at idle
  cases idle

theorem Settled.quiet_stop (settled : c.Settled job) : Quiet c (c.stop failure) where
  unread := fail_unread
  pumping := fail_pumping
  line := by
    rw [UploadClient.stop, settled.line_fail]
    exact nofun
  pump := fun goesOn => absurd rfl goesOn

/-- The head of the loop either stops `pump`, or the line is open and `pump` waits. -/
theorem loop_cases (c : UploadClient) :
    (∃ failure, (∀ message, failure ≠ .handshake message) ∧ c.loop = c.stop failure) ∨
      c.line = .opened ∧ c.loop = { c with pump := .waiting } := by
  unfold loop
  split
  · exact .inl ⟨.aborted, nofun, rfl⟩
  · split
    · exact .inl ⟨.error "Upload abgebrochen", nofun, rfl⟩
    · next opened => exact .inr ⟨not_not.mp opened, rfl⟩

theorem Settled.loop (settled : c.Settled job) (pumping : c.pumping = true) :
    c.loop.Settled job := by
  rcases c.loop_cases with ⟨failure, failed, stopped⟩ | ⟨opened, waits⟩
  · rw [stopped]
    exact settled.stop pumping failed
  · rw [waits]
    refine ⟨settled.closing, settled.handshake, fun idle => ?_, fun on => ⟨nofun, ?_⟩, nofun⟩
    · cases pumping.symm.trans idle
    · exact (settled.late on).2

/-- What the browser does by itself: it goes on without sending, sends the next chunk, or sends the
end message. -/
inductive Turn (job : UploadJob) (c d : UploadClient) : List UploadFrame → Prop
  | quiet (quiet : Quiet c d) : Turn job c d []
  | chunk {value : Bytes} {rest : List Bytes} (pumping : c.pumping = true)
      (reading : c.pump = .reading) (read : c.unread = value :: rest) (left : d.unread = rest)
      (goesOn : d.pumping = true) (line : d.line = .opened → c.line = .opened) :
      Turn job c d (if value = [] then [] else c.send (.binary value))
  | finish (pumping : c.pumping = true) (draining : c.pump = .draining) (opened : c.line = .opened)
      (finished : d = { c with pump := .finished }) : Turn job c d [.text job.endPayload]

theorem Settled.pumping (settled : c.Settled job) (busy : c.pump ≠ .idle) : c.pumping = true := by
  by_contra off
  exact busy (settled.early (Bool.not_eq_true _ ▸ off)).1

theorem act_cases (settled : c.Settled job) (happens : c.act job e = some (d, frames)) :
    d.Settled job ∧ Turn job c d frames := by
  have quiet : d.Settled job → Quiet c d → frames = [] → d.Settled job ∧ Turn job c d frames :=
    fun kept quiet silent => ⟨kept, silent ▸ .quiet quiet⟩
  cases e with
  | opened =>
      rw [act] at happens
      split at happens
      · next connecting =>
          cases happens
          have unsettled : c.outcome = none := by
            by_contra some
            cases connecting.symm.trans (settled.closing some)
          refine quiet ⟨fun some => absurd unsettled some, settled.handshake, settled.early,
            fun on => ⟨(settled.late on).1, nofun⟩, settled.drained⟩ ⟨rfl, rfl, ?_, id⟩ rfl
          intro _ closing
          cases connecting.symm.trans closing
      · cases happens
  | error =>
      cases happens
      refine quiet (settled.fail _ fun message same => ?_) (settled.quiet_fail _) rfl
      split at same
      · cases same
      · next off => exact Bool.not_eq_true _ ▸ off
  | close =>
      cases happens
      have kept := settled.fail (if c.pumping then .error "Upload abgebrochen"
        else .handshake "WebSocket closed") fun message same => by
          split at same
          · cases same
          · next off => exact Bool.not_eq_true _ ▸ off
      have silent := settled.quiet_fail (if c.pumping then .error "Upload abgebrochen"
        else .handshake "WebSocket closed")
      exact quiet ⟨fun _ => rfl, kept.handshake, kept.early, fun on => ⟨(kept.late on).1, nofun⟩,
        kept.drained⟩ ⟨silent.unread, silent.pumping, nofun, silent.pump⟩ rfl
  | timeout =>
      rw [act] at happens
      split at happens
      · cases happens
      · next off =>
          cases happens
          have early : c.pumping = false := Bool.not_eq_true _ ▸ off
          exact quiet (settled.fail _ fun _ _ => early) (settled.quiet_fail _) rfl
  | abort =>
      cases happens
      have aborted : ({ c with aborted := true } : UploadClient).Settled job :=
        ⟨settled.closing, settled.handshake, settled.early, settled.late, settled.drained⟩
      have silent := aborted.quiet_fail .aborted
      exact quiet (aborted.fail _ nofun)
        ⟨silent.unread, silent.pumping, silent.line, silent.pump⟩ rfl
  | waited =>
      rw [act] at happens
      split at happens
      · next waiting =>
          cases happens
          have on := settled.pumping (waiting ▸ nofun)
          refine quiet ⟨settled.closing, settled.handshake, fun idle => ?_,
            fun _ => ⟨nofun, (settled.late on).2⟩, nofun⟩ ⟨rfl, rfl, ?_, ?_⟩ rfl
          · cases on.symm.trans idle
          · intro opened closing
            cases opened.symm.trans closing
          · intro _ finished
            cases waiting.symm.trans finished
      · next draining =>
          have on := settled.pumping (draining ▸ nofun)
          split at happens
          · cases happens
            exact quiet (settled.stop on nofun) settled.quiet_stop rfl
          · next opened =>
              cases happens
              refine ⟨⟨settled.closing, settled.handshake, fun idle => ?_,
                fun _ => ⟨nofun, (settled.late on).2⟩, nofun⟩, ?_⟩
              · cases on.symm.trans idle
              · rw [send_of_open _ (not_not.mp opened)]
                exact .finish on draining (not_not.mp opened) rfl
      · cases happens
  | interrupted =>
      rw [act] at happens
      split at happens
      · next both =>
          cases happens
          have on := settled.pumping fun idle => by
            rw [idle] at both
            simp at both
          exact quiet (settled.stop on nofun) settled.quiet_stop rfl
      · cases happens
  | read =>
      rw [act] at happens
      split at happens
      · next reading =>
          have on := settled.pumping (reading ▸ nofun)
          split at happens
          · next empty =>
              cases happens
              refine quiet ⟨settled.closing, settled.handshake, fun idle => ?_,
                fun _ => ⟨nofun, (settled.late on).2⟩, fun _ => empty⟩ ⟨rfl, rfl, ?_, ?_⟩ rfl
              · cases on.symm.trans idle
              · intro opened closing
                cases opened.symm.trans closing
              · intro _ finished
                cases reading.symm.trans finished
          · next value rest some =>
              cases happens
              have taken : ({ c with unread := rest } : UploadClient).Settled job := by
                refine ⟨settled.closing, settled.handshake, fun idle => ?_, settled.late,
                  fun draining => ?_⟩
                · cases on.symm.trans idle
                · cases reading.symm.trans draining
              refine ⟨taken.loop on, .chunk on reading some ?_ ?_ ?_⟩
              · rcases loop_cases { c with unread := rest } with ⟨_, -, stopped⟩ | ⟨-, waits⟩
                · rw [stopped, stop, fail_unread]
                · rw [waits]
              · rcases loop_cases { c with unread := rest } with ⟨_, -, stopped⟩ | ⟨-, waits⟩
                · rw [stopped, stop, fail_pumping]
                  exact on
                · rw [waits]
                  exact on
              · intro opened
                rcases loop_cases { c with unread := rest } with ⟨_, -, stopped⟩ | ⟨same, -⟩
                · rw [stopped, stop, taken.line_fail] at opened
                  cases opened
                · exact same
      · cases happens
  | readFailed =>
      rw [act] at happens
      split at happens
      · next reading =>
          cases happens
          have on := settled.pumping (reading ▸ nofun)
          exact quiet (settled.stop on nofun) settled.quiet_stop rfl
      · cases happens

/-- The promise is resolved. -/
def Resolved (c : UploadClient) : Prop :=
  ∃ path name size, c.outcome = some (.resolved path name size)

theorem fail_resolved (resolved : (c.fail failure).Resolved) : c.Resolved := by
  obtain ⟨path, name, size, found⟩ := resolved
  rcases fail_outcome c failure with now | ⟨-, before⟩
  · cases now.symm.trans found
  · exact ⟨path, name, size, before.symm.trans found⟩

theorem loop_resolved (resolved : c.loop.Resolved) : c.Resolved := by
  rcases c.loop_cases with ⟨failure, -, stopped⟩ | ⟨-, waits⟩
  · rw [stopped] at resolved
    exact fail_resolved (c := c) resolved
  · rw [waits] at resolved
    exact resolved

/-- Only a reply resolves the promise. -/
theorem act_resolved (happens : c.act job e = some (d, frames)) (resolved : d.Resolved) :
    c.Resolved := by
  cases e with
  | opened =>
      rw [act] at happens
      split at happens <;> cases happens
      exact resolved
  | error | close =>
      cases happens
      exact fail_resolved resolved
  | abort =>
      cases happens
      exact fail_resolved (c := { c with aborted := true }) resolved
  | timeout =>
      rw [act] at happens
      split at happens <;> cases happens
      exact fail_resolved resolved
  | waited =>
      rw [act] at happens
      split at happens
      · cases happens
        exact resolved
      · split at happens <;> cases happens
        · exact fail_resolved resolved
        · exact resolved
      · cases happens
  | interrupted | readFailed =>
      rw [act] at happens
      split at happens <;> cases happens
      exact fail_resolved resolved
  | read =>
      rw [act] at happens
      split at happens
      · split at happens <;> cases happens
        · exact resolved
        · next rest _ => exact loop_resolved (c := { c with unread := rest }) resolved
      · cases happens

/-- The reply `go` begins to pump. -/
theorem Settled.begin (settled : c.Settled job) (opened : c.line = .opened) :
    ({ c with pumping := true } : UploadClient).loop.Settled job := by
  have unsettled : c.outcome = none := by
    by_contra some
    cases opened.symm.trans (settled.closing some)
  rcases loop_cases { c with pumping := true } with ⟨failure, failed, stopped⟩ | ⟨-, waits⟩
  · rw [stopped, UploadClient.stop,
      fail_eq_of_unsettled (c := { c with pumping := true }) failure unsettled]
    refine ⟨fun _ => rfl, fun message rejected => ?_, nofun, fun _ => ⟨nofun, nofun⟩, nofun⟩
    cases rejected
    exact absurd rfl (failed message)
  · rw [waits]
    refine ⟨settled.closing, fun message rejected => ?_, nofun, fun _ => ⟨nofun, ?_⟩, nofun⟩
    · cases unsettled.symm.trans rejected
    · rw [opened]
      exact nofun

end UploadClient

/-! ## The exchange law -/

namespace UploadExchange

variable {parse : Bytes → Option (Json Text Double)} {job : UploadJob} {answers : Answers}
  {s t : UploadExchange} {got : Bytes} {accepted : Bool} {frames more : List UploadFrame}

/-- What the frames under way still have to say, to a handler that has accepted the start message
or not and has written `got`: the start message first, then chunks that go on with the blob, and the
end message behind all of it. -/
def Ahead (job : UploadJob) : Bool → Bytes → List UploadFrame → Prop
  | _, got, [] => got <+: job.blob
  | false, got, .text payload :: rest => payload = job.startPayload ∧ Ahead job true got rest
  | false, _, .binary _ :: _ => False
  | true, got, .text payload :: rest => payload = job.endPayload ∧ got = job.blob ∧ rest = []
  | true, got, .binary chunk :: rest => chunk ≠ [] ∧ Ahead job true (got ++ chunk) rest

/-- The chunks under way. -/
def chunksOf (frames : List UploadFrame) : Bytes :=
  (frames.map fun frame =>
    match frame with
    | .text _ => []
    | .binary chunk => chunk).flatten

/-- What is written, what is under way and what is not read yet is the blob, as long as the browser
still sends chunks. -/
def Whole (job : UploadJob) (s : UploadExchange) : Prop :=
  s.client.pumping = true → s.client.line = .opened → s.broken = false →
    s.server.inputClosed = false → s.client.pump ≠ .finished →
      (∀ frame ∈ s.toServer, ∃ chunk, frame = .binary chunk) ∧
        s.server.body.chunks.flatten ++ chunksOf s.toServer ++ s.client.unread.flatten = job.blob

/-- The invariant of the exchange. -/
structure Coherent (job : UploadJob) (s : UploadExchange) : Prop where
  settled : s.client.Settled job
  written : s.server.body.chunks.flatten <+: job.blob
  whole : s.server.body.ended = true →
    s.server.inputClosed = true ∧ s.server.body.chunks.flatten = job.blob
  ahead : s.server.inputClosed = false →
    Ahead job s.server.accepted s.server.body.chunks.flatten s.toServer
  sends : s.Whole job
  early : s.client.pumping = false →
    s.server.body.chunks = [] ∧ s.server.body.ended = false ∧
      (s.toServer = [] ∨ s.server.accepted = false ∧ s.toServer = [.text job.startPayload])
  plan : ∀ plan, s.server.start = .resolved plan → plan = job.plan ∧ s.server.accepted = true
  lookup : s.server.stage = .lookup →
    s.toClient = [] ∧ s.toServer = [] ∧ s.server.accepted = false ∧ s.client.pumping = false
  ready : .ready ∈ s.toClient →
    s.toServer = [] ∧ s.server.accepted = false ∧ s.client.pumping = false
  once : s.toClient.count .ready ≤ 1
  go : (∃ plan, .go plan ∈ s.toClient) ∨ s.client.pumping = true → s.server.accepted = true
  done : (∃ path name size, .done path name size ∈ s.toClient) ∨
    s.client.Resolved → s.server.stage = .done

theorem coherent_start (job : UploadJob) : (start job).Coherent job where
  settled := UploadClient.settled_start job
  written := List.nil_prefix
  whole := nofun
  ahead := fun _ => List.nil_prefix
  sends := nofun
  early := fun _ => ⟨rfl, rfl, .inl rfl⟩
  plan := nofun
  lookup := fun _ => ⟨rfl, rfl, rfl, rfl⟩
  ready := nofun
  once := Nat.zero_le _
  go := by
    intro some
    rcases some with ⟨_, member⟩ | pumping
    · cases member
    · cases pumping
  done := by
    intro some
    rcases some with ⟨_, _, _, member⟩ | ⟨_, _, _, resolved⟩
    · cases member
    · cases resolved

/-! ### The frames under way -/

theorem Ahead.written : ∀ {frames : List UploadFrame} {accepted : Bool} {got : Bytes},
    Ahead job accepted got frames → got <+: job.blob
  | [], _, _, ahead => by simpa only [Ahead] using ahead
  | .text _ :: _, false, _, ahead => Ahead.written ahead.2
  | .text _ :: _, true, _, ahead => ahead.2.1 ▸ List.prefix_rfl
  | .binary _ :: _, false, _, ahead => ahead.elim
  | .binary _ :: _, true, _, ahead => (List.prefix_append _ _).trans (Ahead.written ahead.2)

/-- What is lost with the line is a tail. -/
theorem Ahead.take : ∀ {frames : List UploadFrame} {accepted : Bool} {got : Bytes} {n : Nat},
    Ahead job accepted got frames → Ahead job accepted got (frames.take n)
  | [], _, _, _, ahead => by simpa only [List.take_nil] using ahead
  | _ :: _, accepted, _, 0, ahead => by
      cases accepted <;> exact Ahead.written ahead
  | .text _ :: _, false, _, _ + 1, ahead => ⟨ahead.1, Ahead.take ahead.2⟩
  | .text _ :: _, true, _, _ + 1, ahead => ⟨ahead.1, ahead.2.1, by rw [ahead.2.2, List.take_nil]⟩
  | .binary _ :: _, false, _, _ + 1, ahead => ahead.elim
  | .binary _ :: _, true, _, _ + 1, ahead => ⟨ahead.1, Ahead.take ahead.2⟩

theorem chunksOf_append (frames more : List UploadFrame) :
    chunksOf (frames ++ more) = chunksOf frames ++ chunksOf more := by
  rw [chunksOf, List.map_append, List.flatten_append]
  rfl

/-- Behind chunks anything may be sent that goes on from where they end. -/
theorem Ahead.append (binaries : ∀ frame ∈ frames, ∃ chunk, frame = .binary chunk) :
    ∀ {got : Bytes}, Ahead job true got frames →
      Ahead job true (got ++ chunksOf frames) more → Ahead job true got (frames ++ more) := by
  induction frames with
  | nil =>
      intro got _ after
      simpa [chunksOf] using after
  | cons frame rest ih =>
      intro got ahead after
      obtain ⟨chunk, rfl⟩ := binaries frame List.mem_cons_self
      refine ⟨ahead.1, ih (fun other member => binaries other (List.mem_cons_of_mem _ member))
        ahead.2 ?_⟩
      simpa [chunksOf] using after

/-! ### Steps of the handler -/

/-- What the handler's own steps leave: the body and what it has accepted, and a stage that only
moves on. -/
structure Handled (s t : UploadSocket) : Prop where
  accepted : t.accepted = s.accepted
  chunks : t.body.chunks = s.body.chunks
  ended : t.body.ended = s.body.ended
  closed : s.inputClosed = true → t.inputClosed = true
  start : ∀ plan, t.start = .resolved plan → s.start = .resolved plan
  lookup : t.stage = .lookup → s.stage = .lookup
  waiting : t.stage = .waiting → s.stage = .waiting ∨ s.stage = .lookup
  done : s.stage = .done → t.stage = .done

theorem Handled.refl (s : UploadSocket) : Handled s s :=
  ⟨rfl, rfl, rfl, id, fun _ => id, id, .inl, id⟩

/-- A stage behind `waiting` leaves the rest as it is. -/
theorem handled_forth (s : UploadSocket) {stage : UploadSocket.Stage} (started : Bool)
    (lookup : stage ≠ .lookup) (waiting : stage ≠ .waiting)
    (last : s.stage = .done → stage = .done) :
    Handled s { s with stage := stage, started := started } :=
  ⟨rfl, rfl, rfl, id, fun _ => id, fun same => absurd same lookup,
    fun same => absurd same waiting, last⟩

theorem handled_failBody (s : UploadSocket) : Handled s s.failBody := by
  unfold UploadSocket.failBody
  split
  · exact .refl s
  · refine ⟨rfl, rfl, rfl, fun _ => rfl, fun plan resolved => ?_, id, .inl, id⟩
    dsimp only at resolved
    split at resolved
    · cases resolved
    · exact resolved

theorem handled_caught {s : UploadSocket} (unfinished : s.stage ≠ .done) : Handled s s.caught := by
  have failed := handled_failBody s
  refine ⟨failed.accepted, failed.chunks, failed.ended, failed.closed, failed.start, ?_, ?_,
    fun done => absurd done unfinished⟩
  · unfold UploadSocket.caught
    dsimp only
    split <;> exact nofun
  · unfold UploadSocket.caught
    dsimp only
    split <;> exact nofun

theorem handled_act {s t : UploadSocket} {e : UploadSocket.Event} (own : isArrival e = false)
    (happens : s.act parse e = some t) : Handled s t := by
  cases e with
  | text | binary => cases own
  | error | close =>
      cases happens
      exact handled_failBody s
  | host found =>
      rw [UploadSocket.act] at happens
      split at happens
      · next lookup =>
          cases happens
          split
          · exact ⟨rfl, rfl, rfl, id, fun _ => id, (by rintro ⟨⟩), fun _ => .inr lookup,
              fun done => by cases lookup.symm.trans done⟩
          · exact handled_caught fun done => by cases lookup.symm.trans done
      · cases happens
  | settled =>
      rw [UploadSocket.act] at happens
      split at happens
      · next waiting =>
          split at happens
          · cases happens
          · cases happens
            exact handled_forth s true (by decide) (by decide)
              fun done => by cases waiting.symm.trans done
          · cases happens
            exact handled_caught fun done => by cases waiting.symm.trans done
      · cases happens
  | timeout =>
      rw [UploadSocket.act] at happens
      split at happens
      · next both =>
          cases happens
          rw [Bool.and_eq_true, decide_eq_true_eq] at both
          exact handled_caught fun done => by cases both.1.symm.trans done
      · cases happens
  | watch =>
      rw [UploadSocket.act] at happens
      split at happens
      · cases happens
        exact ⟨rfl, rfl, rfl, id, fun _ => id, id, .inl, id⟩
      · cases happens
  | upload ok =>
      rw [UploadSocket.act] at happens
      split at happens
      · next streaming =>
          cases happens
          split
          · exact handled_forth s s.started (by decide) (by decide)
              fun done => by cases streaming.symm.trans done
          · exact handled_caught fun done => by cases streaming.symm.trans done
      · cases happens
  | recorded =>
      rw [UploadSocket.act] at happens
      split at happens
      · cases happens
        exact handled_forth s s.started (by decide) (by decide) fun _ => rfl
      · next failing =>
          cases happens
          exact handled_forth s s.started (by decide) (by decide)
            fun done => by cases failing.symm.trans done
      · cases happens

theorem step_socket {s t : UploadSocket} {e : UploadSocket.Event}
    (happens : s.step parse e = some t) :
    ∃ u, s.act parse e = some u ∧ t = { u with log := s.log ++ [e] } := by
  unfold UploadSocket.step at happens
  split at happens
  · cases happens
  · obtain ⟨u, acted, same⟩ := Option.map_eq_some_iff.mp happens
    exact ⟨u, acted, same.symm⟩

theorem handled_step {s t : UploadSocket} {e : UploadSocket.Event} (own : isArrival e = false)
    (happens : s.step parse e = some t) : Handled s t := by
  obtain ⟨u, acted, rfl⟩ := step_socket happens
  have handled := handled_act own acted
  exact ⟨handled.accepted, handled.chunks, handled.ended, handled.closed, handled.start,
    handled.lookup, handled.waiting, handled.done⟩

/-- A reply says which stage has been reached. -/
theorem replies_cases (answers : Answers) (s t : UploadSocket) :
    t.stage = .waiting ∧ s.stage ≠ .waiting ∧ replies answers s t = [.ready] ∨
      (∃ plan, t.stage = .streaming ∧ t.start = .resolved plan ∧
        replies answers s t = [.go plan]) ∨
      t.stage = .done ∧ replies answers s t = [.done answers.path answers.name answers.size] ∨
      t.stage = .failed ∧ replies answers s t = [.error answers.message] ∨
      replies answers s t = [] := by
  unfold replies
  split
  · exact .inr (.inr (.inr (.inr rfl)))
  · next moved =>
      split
      · next _ waiting => exact .inl ⟨waiting, fun same => moved (same.trans waiting.symm), rfl⟩
      · next plan streaming started => exact .inr (.inl ⟨plan, streaming, started, rfl⟩)
      · next _ done => exact .inr (.inr (.inl ⟨done, rfl⟩))
      · next _ failed => exact .inr (.inr (.inr (.inl ⟨failed, rfl⟩)))
      · exact .inr (.inr (.inr (.inr rfl)))

/-! ### One move -/

theorem not_closing {c : UploadClient} (settled : c.Settled job) (pumping : c.pumping = true)
    (line : c.line ≠ .closing) : c.line = .opened := by
  cases found : c.line with
  | connecting => exact absurd found (settled.late pumping).2
  | opened => rfl
  | closing => exact absurd found line

/-- The browser goes on without sending. -/
theorem Coherent.quiet (coherent : s.Coherent job) {d : UploadClient} (settled : d.Settled job)
    (quiet : UploadClient.Quiet s.client d) (resolved : d.Resolved → s.server.stage = .done) :
    Coherent job { s with client := d } where
  settled := settled
  written := coherent.written
  whole := coherent.whole
  ahead := coherent.ahead
  sends := by
    intro pumping line unbroken isOpen goesOn
    have on : s.client.pumping = true := quiet.pumping.symm.trans pumping
    have opened := not_closing coherent.settled on (quiet.line line)
    dsimp only
    rw [quiet.unread]
    exact coherent.sends on opened unbroken isOpen (quiet.pump goesOn)
  early := fun off => coherent.early (quiet.pumping.symm.trans off)
  plan := coherent.plan
  lookup := fun stage => quiet.pumping ▸ coherent.lookup stage
  ready := fun member => quiet.pumping ▸ coherent.ready member
  once := coherent.once
  go := fun some => coherent.go (some.imp_right quiet.pumping.symm.trans)
  done := by
    intro some
    rcases some with member | settledNow
    · exact coherent.done (.inl member)
    · exact resolved settledNow

/-- The browser sends a frame behind chunks under way. -/
theorem Coherent.client (coherent : s.Coherent job) {e : UploadClient.Event}
    (happens : step parse job answers s (.client e) = some t) : t.Coherent job := by
  obtain ⟨⟨d, frames⟩, acted, rfl⟩ := Option.map_eq_some_iff.mp happens
  obtain ⟨settled, turn⟩ := UploadClient.act_cases coherent.settled acted
  have resolved : d.Resolved → s.server.stage = .done := fun now =>
    coherent.done (.inr (UploadClient.act_resolved acted now))
  have putNil : put s (d, []) = { s with client := d } := by
    unfold put
    simp
  cases turn with
  | quiet quiet =>
      rw [putNil]
      exact coherent.quiet settled quiet resolved
  | @chunk value rest pumping reading read left goesOn line =>
      have accepted := coherent.go (.inr pumping)
      have busy : s.server.stage ≠ .lookup := fun stage => by
        cases pumping.symm.trans (coherent.lookup stage).2.2.2
      have notReady : .ready ∉ s.toClient := fun member => by
        cases pumping.symm.trans (coherent.ready member).2.2
      have unfinished : s.client.pump ≠ .finished := reading ▸ nofun
      refine ⟨settled, coherent.written, coherent.whole, fun isOpen => ?_, ?_, fun off => ?_,
        coherent.plan, fun stage => absurd stage busy, fun member => absurd member notReady,
        coherent.once, fun _ => accepted, fun some => ?_⟩
      · have before := coherent.ahead isOpen
        unfold put
        dsimp only
        split
        · exact before
        · next unbroken =>
            by_cases opened : s.client.line = .opened
            · obtain ⟨binaries, all⟩ := coherent.sends pumping opened
                (Bool.not_eq_true _ ▸ unbroken) isOpen unfinished
              split
              · rw [List.append_nil]
                exact before
              · next some =>
                  rw [UploadClient.send_of_open _ opened, accepted]
                  rw [accepted] at before
                  refine before.append binaries ⟨some, ?_⟩
                  refine ⟨rest.flatten, ?_⟩
                  rw [← all, read, List.flatten_cons, List.append_assoc, List.append_assoc]
            · split
              · rw [List.append_nil]
                exact before
              · rw [UploadClient.send_of_closing _ opened, List.append_nil]
                exact before
      · intro _ opened unbroken isOpen _
        have wasOpen := line opened
        obtain ⟨binaries, all⟩ := coherent.sends pumping wasOpen unbroken isOpen unfinished
        rw [read, List.flatten_cons] at all
        have still : s.broken = false := unbroken
        unfold put
        dsimp only
        rw [still, if_neg Bool.false_ne_true, left]
        by_cases empty : value = []
        · rw [empty, List.nil_append] at all
          rw [if_pos empty, List.append_nil]
          exact ⟨binaries, all⟩
        · rw [if_neg empty, UploadClient.send_of_open _ wasOpen, chunksOf_append, ← all]
          refine ⟨fun frame member => ?_, ?_⟩
          · rcases List.mem_append.mp member with old | new
            · exact binaries frame old
            · exact ⟨value, List.mem_singleton.mp new⟩
          · simp [chunksOf]
      · cases goesOn.symm.trans off
      · rcases some with member | settledNow
        · exact coherent.done (.inl member)
        · exact resolved settledNow
  | finish pumping draining opened finished =>
      have accepted := coherent.go (.inr pumping)
      have unfinished : s.client.pump ≠ .finished := draining ▸ nofun
      have busy : s.server.stage ≠ .lookup := fun stage => by
        cases pumping.symm.trans (coherent.lookup stage).2.2.2
      have notReady : .ready ∉ s.toClient := fun member => by
        cases pumping.symm.trans (coherent.ready member).2.2
      refine ⟨settled, coherent.written, coherent.whole, fun isOpen => ?_, ?_, fun off => ?_,
        coherent.plan, fun stage => absurd stage busy, fun member => absurd member notReady,
        coherent.once, fun _ => accepted, fun some => ?_⟩
      · have before := coherent.ahead isOpen
        unfold put
        dsimp only
        split
        · exact before
        · next unbroken =>
            obtain ⟨binaries, all⟩ := coherent.sends pumping opened
              (Bool.not_eq_true _ ▸ unbroken) isOpen unfinished
            rw [accepted]
            rw [accepted] at before
            refine before.append binaries ⟨rfl, ?_, rfl⟩
            rw [coherent.settled.drained draining, List.flatten_nil, List.append_nil] at all
            exact all
      · intro _ _ _ _ goesOn
        rw [finished] at goesOn
        exact absurd rfl goesOn
      · rw [finished] at off
        cases pumping.symm.trans off
      · rcases some with member | settledNow
        · exact coherent.done (.inl member)
        · exact resolved settledNow

/-- The handler goes on, and may send a reply. -/
theorem Coherent.serve (coherent : s.Coherent job) {e : UploadSocket.Event}
    (happens : step parse job answers s (.server e) = some t) : t.Coherent job := by
  rw [step, UploadExchange.serve] at happens
  split at happens
  · cases happens
  next own =>
  obtain ⟨server, stepped, rfl⟩ := Option.map_eq_some_iff.mp happens
  have handled := handled_step (Bool.not_eq_true _ ▸ own) stepped
  have isOpen : server.inputClosed = false → s.server.inputClosed = false := by
    intro goesOn
    by_contra closed
    cases goesOn.symm.trans (handled.closed (Bool.not_eq_false _ ▸ closed))
  have sent : ∀ reply, reply ∈ (if s.serverOpen && !s.broken then
      s.toClient ++ replies answers s.server server else s.toClient) →
      reply ∈ s.toClient ∨ reply ∈ replies answers s.server server := by
    intro reply member
    split at member
    · exact List.mem_append.mp member
    · exact .inl member
  have begun : server.stage = .waiting → s.server.stage ≠ .waiting → s.server.stage = .lookup :=
    fun now before => (handled.waiting now).resolve_left before
  refine ⟨coherent.settled, ?_, ?_, ?_, ?_, ?_, ?_, ?_, ?_, ?_, ?_, ?_⟩
  · dsimp only
    rw [handled.chunks]
    exact coherent.written
  · intro ended
    obtain ⟨closed, all⟩ := coherent.whole (handled.ended ▸ ended)
    dsimp only
    rw [handled.chunks]
    exact ⟨handled.closed closed, all⟩
  · intro goesOn
    dsimp only
    rw [handled.accepted, handled.chunks]
    exact coherent.ahead (isOpen goesOn)
  · intro pumping line unbroken goesOn unfinished
    dsimp only
    rw [handled.chunks]
    exact coherent.sends pumping line unbroken (isOpen goesOn) unfinished
  · intro off
    dsimp only
    rw [handled.chunks, handled.ended, handled.accepted]
    exact coherent.early off
  · intro plan resolved
    dsimp only
    rw [handled.accepted]
    exact coherent.plan plan (handled.start plan resolved)
  · intro stage
    obtain ⟨silent, rest⟩ := coherent.lookup (handled.lookup stage)
    have nothing : replies answers s.server server = [] := by
      rcases replies_cases answers s.server server with
        ⟨now, -⟩ | ⟨_, now, -⟩ | ⟨now, -⟩ | ⟨now, -⟩ | nothing
      · cases stage.symm.trans now
      · cases stage.symm.trans now
      · cases stage.symm.trans now
      · cases stage.symm.trans now
      · exact nothing
    dsimp only
    rw [handled.accepted, nothing, silent, List.append_nil, ite_self]
    exact ⟨rfl, rest⟩
  · intro member
    dsimp only
    rw [handled.accepted]
    rcases sent _ member with old | new
    · exact coherent.ready old
    · rcases replies_cases answers s.server server with
        ⟨now, before, -⟩ | ⟨_, -, -, other⟩ | ⟨-, other⟩ | ⟨-, other⟩ | other
      · exact (coherent.lookup (begun now before)).2
      all_goals
        rw [other] at new
        simp at new
  · dsimp only
    split
    · rw [List.count_append]
      rcases replies_cases answers s.server server with
        ⟨now, before, one⟩ | ⟨_, -, -, other⟩ | ⟨-, other⟩ | ⟨-, other⟩ | other
      · rw [one, (coherent.lookup (begun now before)).1]
        simp
      all_goals
        rw [other]
        simpa using coherent.once
    · exact coherent.once
  · intro some
    dsimp only
    rw [handled.accepted]
    rcases some with ⟨plan, member⟩ | pumping
    · rcases sent _ member with old | new
      · exact coherent.go (.inl ⟨plan, old⟩)
      · rcases replies_cases answers s.server server with
          ⟨-, -, other⟩ | ⟨resolved, -, started, -⟩ | ⟨-, other⟩ | ⟨-, other⟩ | other
        · rw [other] at new
          simp at new
        · exact (coherent.plan resolved (handled.start resolved started)).2
        all_goals
          rw [other] at new
          simp at new
    · exact coherent.go (.inr pumping)
  · intro some
    rcases some with ⟨path, name, size, member⟩ | resolved
    · rcases sent _ member with old | new
      · exact handled.done (coherent.done (.inl ⟨path, name, size, old⟩))
      · rcases replies_cases answers s.server server with
          ⟨-, -, other⟩ | ⟨_, -, -, other⟩ | ⟨now, -⟩ | ⟨-, other⟩ | other
        · rw [other] at new
          simp at new
        · rw [other] at new
          simp at new
        · exact now
        · rw [other] at new
          simp at new
        · rw [other] at new
          simp at new
    · exact handled.done (coherent.done (.inr resolved))

/-- A frame arrives. -/
theorem Coherent.deliver (startRead : parse job.startPayload = some job.startMessage)
    (endRead : parse job.endPayload = some UploadJob.endMessage) (coherent : s.Coherent job)
    (happens : step parse job answers s .deliver = some t) : t.Coherent job := by
  rw [step] at happens
  split at happens
  · cases happens
  next frame rest under =>
  obtain ⟨server, stepped, rfl⟩ := Option.map_eq_some_iff.mp happens
  obtain ⟨u, acted, rfl⟩ := step_socket stepped
  have some' : s.toServer ≠ [] := under ▸ List.cons_ne_nil _ _
  have busy : s.server.stage ≠ .lookup := fun stage => some' (coherent.lookup stage).2.1
  have notReady : .ready ∉ s.toClient := fun member => some' (coherent.ready member).1
  have early : s.client.pumping = false →
      s.server.body.chunks = [] ∧ s.server.body.ended = false ∧ s.server.accepted = false ∧
        frame = .text job.startPayload ∧ rest = [] := by
    intro off
    obtain ⟨empty, open', none | ⟨before, only⟩⟩ := coherent.early off
    · exact absurd none some'
    · obtain ⟨same, nil⟩ := List.cons.inj (under.symm.trans only)
      exact ⟨empty, open', before, same, nil⟩
  by_cases closed : s.server.inputClosed = true
  · -- nothing is taken any more
    have same : u = s.server := by
      cases frame with
      | text payload =>
          rw [arrival, UploadSocket.act, if_pos closed] at acted
          exact (Option.some.inj acted).symm
      | binary payload =>
          rw [arrival, UploadSocket.act, UploadSocket.write, closed] at acted
          exact (Option.some.inj acted).symm
    subst same
    refine ⟨coherent.settled, coherent.written, coherent.whole, fun isOpen => ?_,
      fun _ _ _ isOpen => ?_, fun off => ?_, coherent.plan, fun stage => absurd stage busy,
      fun member => absurd member notReady, coherent.once, coherent.go, coherent.done⟩
    · cases closed.symm.trans isOpen
    · cases closed.symm.trans isOpen
    · obtain ⟨empty, open', -, -, nil⟩ := early off
      exact ⟨empty, open', .inl nil⟩
  · have isOpen : s.server.inputClosed = false := Bool.not_eq_true _ ▸ closed
    have ahead := coherent.ahead isOpen
    rw [under] at ahead
    cases frame with
    | text payload =>
        rw [arrival, UploadSocket.act, isOpen, if_neg Bool.false_ne_true,
          Option.some.injEq] at acted
        cases accepted : s.server.accepted with
        | false =>
            rw [accepted] at ahead acted
            obtain ⟨rfl, later⟩ := ahead
            rw [startRead] at acted
            have off : s.client.pumping = false := by
              by_contra on
              cases accepted.symm.trans (coherent.go (.inr (Bool.not_eq_false _ ▸ on)))
            obtain ⟨empty, open', -, -, nil⟩ := early off
            rcases startMessage_plan job with taken | refused
            · have read : uploadMessage false (some job.startMessage) = .start job.plan := taken
              rw [read, UploadSocket.receive] at acted
              subst acted
              refine ⟨coherent.settled, coherent.written, coherent.whole, fun _ => later,
                fun on => ?_, fun _ => ⟨empty, open', .inl nil⟩, fun plan same => ?_,
                fun stage => absurd stage busy, fun member => absurd member notReady,
                coherent.once, fun _ => rfl, coherent.done⟩
              · cases off.symm.trans on
              · cases same
                exact ⟨rfl, rfl⟩
            · have read : uploadMessage false (some job.startMessage) = .invalid := refused
              rw [read, UploadSocket.receive, UploadSocket.failBody, isOpen,
                if_neg Bool.false_ne_true] at acted
              subst acted
              refine ⟨coherent.settled, coherent.written, fun ended => ?_,
                fun isOpen => absurd isOpen.symm Bool.false_ne_true,
                fun on => absurd (off.symm.trans on) Bool.false_ne_true,
                fun _ => ⟨empty, open', .inl nil⟩, fun plan same => ?_,
                fun stage => absurd stage busy, fun member => absurd member notReady,
                coherent.once, coherent.go, coherent.done⟩
              · cases open'.symm.trans ended
              · dsimp only at same
                split at same
                · cases same
                · exact coherent.plan plan same
        | true =>
            rw [accepted] at ahead acted
            obtain ⟨rfl, all, nil⟩ := ahead
            rw [endRead] at acted
            have read : uploadMessage true (some UploadJob.endMessage) = .stop := rfl
            rw [read, UploadSocket.receive] at acted
            subst acted
            refine ⟨coherent.settled, coherent.written, fun _ => ⟨rfl, all⟩,
              fun isOpen => absurd isOpen.symm Bool.false_ne_true,
              fun _ _ _ isOpen => absurd isOpen.symm Bool.false_ne_true,
              fun off => ?_, coherent.plan, fun stage => absurd stage busy,
              fun member => absurd member notReady, coherent.once, coherent.go, coherent.done⟩
            cases accepted.symm.trans (early off).2.2.1
    | binary chunk =>
        cases accepted : s.server.accepted with
        | false =>
            rw [accepted] at ahead
            exact ahead.elim
        | true =>
            rw [accepted] at ahead
            obtain ⟨some, later⟩ := ahead
            have written : s.server.write chunk =
                { s.server with
                  body := { s.server.body with chunks := s.server.body.chunks ++ [chunk] } } :=
              if_neg (by simp [isOpen, accepted, some])
            rw [arrival, UploadSocket.act, written, Option.some.injEq] at acted
            subst acted
            have bytes : (s.server.body.chunks ++ [chunk]).flatten =
                s.server.body.chunks.flatten ++ chunk := by
              rw [List.flatten_append, List.flatten_singleton]
            refine ⟨coherent.settled, ?_, fun ended => ?_, fun _ => ?_, ?_, fun off => ?_,
              coherent.plan, fun stage => absurd stage busy, fun member => absurd member notReady,
              coherent.once, coherent.go, coherent.done⟩
            · dsimp only
              rw [bytes]
              exact later.written
            · cases isOpen.symm.trans (coherent.whole ended).1
            · dsimp only
              rw [bytes, accepted]
              exact later
            · intro on line unbroken _ unfinished
              obtain ⟨binaries, all⟩ := coherent.sends on line unbroken isOpen unfinished
              rw [under] at binaries all
              dsimp only
              rw [bytes]
              refine ⟨fun frame member => binaries frame (List.mem_cons_of_mem _ member), ?_⟩
              rw [← all]
              simp [chunksOf]
            · cases (early off).2.2.2.1

/-- A reply arrives. -/
theorem Coherent.receive (coherent : s.Coherent job)
    (happens : step parse job answers s .receive = some t) : t.Coherent job := by
  rw [step] at happens
  split at happens
  · cases happens
  next reply rest under =>
  split at happens
  next opened =>
    cases happens
    have unsettled : s.client.outcome = none := by
      by_contra some
      cases opened.symm.trans (coherent.settled.closing some)
    have awake : s.server.stage ≠ .lookup := fun stage => by
      cases under.symm.trans (coherent.lookup stage).1
    have later : ∀ other, other ∈ rest → other ∈ s.toClient := fun other member =>
      under ▸ List.mem_cons_of_mem _ member
    have once : rest.count .ready ≤ 1 := by
      have all := coherent.once
      rw [under, List.count_cons] at all
      omega
    -- the exchange with the reply taken off the line
    have popped : Coherent job { s with toClient := rest } :=
      ⟨coherent.settled, coherent.written, coherent.whole, coherent.ahead, coherent.sends,
        coherent.early, coherent.plan, fun stage => absurd stage awake,
        fun member => coherent.ready (later _ member), once,
        fun some => coherent.go (some.imp_left fun found => found.imp fun _ => later _),
        fun some => coherent.done (some.imp_left fun found =>
          found.imp fun _ => Exists.imp fun _ => Exists.imp fun _ => later _)⟩
    have putNil : ∀ d, put { s with toClient := rest } (d, []) =
        { s with toClient := rest, client := d } := by
      intro d
      unfold put
      simp
    cases reply with
    | ready =>
        obtain ⟨nothing, before, off⟩ := coherent.ready (under ▸ List.mem_cons_self)
        have absent : .ready ∉ rest := by
          intro member
          have all := coherent.once
          rw [under, List.count_cons_self] at all
          have := List.count_pos_iff.mpr member
          omega
        rw [UploadClient.receive_ready, UploadClient.send_of_open _ opened]
        obtain ⟨empty, open', -⟩ := coherent.early off
        refine ⟨coherent.settled, coherent.written, coherent.whole, fun isOpen => ?_, ?_,
          fun _ => ⟨empty, open', ?_⟩, coherent.plan, fun stage => absurd stage awake,
          fun member => absurd member absent, once, popped.go, popped.done⟩
        · unfold put
          dsimp only
          rw [nothing, before]
          split
          · exact coherent.written
          · exact ⟨rfl, coherent.written⟩
        · intro on
          cases off.symm.trans on
        · unfold put
          dsimp only
          rw [nothing]
          split
          · exact .inl rfl
          · exact .inr ⟨before, rfl⟩
    | go plan =>
        have accepted := coherent.go (.inl ⟨plan, under ▸ List.mem_cons_self⟩)
        rw [UploadClient.receive_go, putNil]
        split
        · exact popped
        · next notYet =>
            have off : s.client.pumping = false := Bool.not_eq_true _ ▸ notYet
            obtain ⟨empty, open', nothing⟩ := coherent.early off
            have nil : s.toServer = [] := nothing.resolve_right fun both => by
              cases accepted.symm.trans both.1
            obtain ⟨-, unread⟩ := coherent.settled.early off
            have begun := coherent.settled.begin opened
            have pumps : ({ s.client with pumping := true } : UploadClient).loop.pumping = true ∧
                ({ s.client with pumping := true } : UploadClient).loop.unread = job.chunks := by
              rcases UploadClient.loop_cases { s.client with pumping := true } with
                ⟨failure, -, stopped⟩ | ⟨-, waits⟩
              · rw [stopped, UploadClient.stop, UploadClient.fail_pumping, UploadClient.fail_unread]
                exact ⟨rfl, unread⟩
              · rw [waits]
                exact ⟨rfl, unread⟩
            refine ⟨begun, coherent.written, coherent.whole, coherent.ahead, ?_, fun still => ?_,
              coherent.plan, fun stage => absurd stage awake, fun member => ?_, once,
              fun _ => accepted, fun some => ?_⟩
            · intro _ _ _ _ _
              dsimp only
              rw [nil, empty, pumps.2]
              exact ⟨List.forall_mem_nil _, rfl⟩
            · cases pumps.1.symm.trans still
            · cases accepted.symm.trans (popped.ready member).2.1
            · refine popped.done (some.imp_right fun resolved => ?_)
              exact UploadClient.loop_resolved (c := { s.client with pumping := true }) resolved
    | done path name size =>
        have finished := coherent.done (.inl ⟨path, name, size, under ▸ List.mem_cons_self⟩)
        rw [UploadClient.receive_done unsettled, putNil]
        refine popped.quiet ⟨fun _ => rfl, fun _ rejected => ?_, coherent.settled.early,
          fun on => ⟨(coherent.settled.late on).1, nofun⟩, coherent.settled.drained⟩
          ⟨rfl, rfl, nofun, id⟩ fun _ => finished
        cases rejected
    | error message =>
        rw [UploadClient.receive_error, putNil]
        exact popped.quiet (coherent.settled.fail _ nofun) (coherent.settled.quiet_fail _)
          fun resolved => coherent.done (.inr (UploadClient.fail_resolved resolved))
  · cases happens

/-- The line breaks. -/
theorem Coherent.cut (coherent : s.Coherent job) {frames replies : Nat}
    (happens : step parse job answers s (.cut frames replies) = some t) : t.Coherent job := by
  cases happens
  have later : ∀ reply, reply ∈ s.toClient.take replies → reply ∈ s.toClient := fun _ =>
    List.mem_of_mem_take
  refine ⟨coherent.settled, coherent.written, coherent.whole,
    fun isOpen => (coherent.ahead isOpen).take, nofun, fun off => ?_, coherent.plan,
    fun stage => ?_, fun member => ?_, ?_, fun some => ?_, fun some => ?_⟩
  · obtain ⟨empty, open', nothing⟩ := coherent.early off
    refine ⟨empty, open', ?_⟩
    rcases nothing with nothing | ⟨before, only⟩
    · exact .inl (by rw [nothing, List.take_nil])
    · rw [only]
      cases frames with
      | zero => exact .inl rfl
      | succ n => exact .inr ⟨before, by rw [List.take_succ_cons, List.take_nil]⟩
  · obtain ⟨silent, nothing, rest⟩ := coherent.lookup stage
    refine ⟨?_, ?_, rest⟩
    · rw [silent, List.take_nil]
    · rw [nothing, List.take_nil]
  · obtain ⟨nothing, rest⟩ := coherent.ready (later _ member)
    refine ⟨?_, rest⟩
    rw [nothing, List.take_nil]
  · exact ((List.take_sublist _ _).count_le _).trans coherent.once
  · exact coherent.go (some.imp_left fun found => found.imp fun _ => later _)
  · exact coherent.done (some.imp_left fun found =>
      found.imp fun _ => Exists.imp fun _ => Exists.imp fun _ => later _)

theorem Coherent.step (startRead : parse job.startPayload = some job.startMessage)
    (endRead : parse job.endPayload = some UploadJob.endMessage) (coherent : s.Coherent job)
    {move : Move} (happens : step parse job answers s move = some t) : t.Coherent job := by
  cases move with
  | client e => exact coherent.client happens
  | server e => exact coherent.serve happens
  | deliver => exact coherent.deliver startRead endRead happens
  | receive => exact coherent.receive happens
  | cut frames replies => exact coherent.cut happens

/-! ### Runs -/

/-- How the stage, the promise and the end of the body go on. -/
structure Moves (e : UploadSocket.Event) (s t : UploadSocket) : Prop where
  start : (∃ plan, s.start = .resolved plan) → ∃ plan, t.start = .resolved plan
  ended : s.body.ended = true → t.body.ended = true
  streaming : t.stage = .streaming → s.stage = .streaming ∨ ∃ plan, s.start = .resolved plan
  recording : t.stage = .recording →
    s.stage = .recording ∨ s.stage = .streaming ∧ e = .upload true
  done : t.stage = .done → s.stage = .done ∨ s.stage = .recording

theorem Moves.refl (e : UploadSocket.Event) (s : UploadSocket) : Moves e s s :=
  ⟨id, id, .inl, .inl, .inl⟩

theorem moves_failBody (e : UploadSocket.Event) (s : UploadSocket) : Moves e s s.failBody := by
  unfold UploadSocket.failBody
  split
  · exact .refl e s
  · refine ⟨fun resolved => ?_, id, .inl, .inl, .inl⟩
    obtain ⟨plan, found⟩ := resolved
    refine ⟨plan, ?_⟩
    dsimp only
    rw [found, if_neg nofun]

theorem moves_caught (e : UploadSocket.Event) (s : UploadSocket) : Moves e s s.caught := by
  have failed := moves_failBody e s
  have stage : s.caught.stage = .failing ∨ s.caught.stage = .failed := by
    unfold UploadSocket.caught
    dsimp only
    split
    · exact .inl rfl
    · exact .inr rfl
  refine ⟨failed.start, failed.ended, fun now => ?_, fun now => ?_, fun now => ?_⟩
  all_goals
    rw [now] at stage
    rcases stage with other | other <;> cases other

theorem moves_receive (e : UploadSocket.Event) (s : UploadSocket) (message : UploadMessage) :
    Moves e s (s.receive message) := by
  cases message with
  | throws => exact ⟨id, id, .inl, .inl, .inl⟩
  | invalid => exact moves_failBody e s
  | start plan => exact ⟨fun _ => ⟨plan, rfl⟩, id, .inl, .inl, .inl⟩
  | stop => exact ⟨id, fun _ => rfl, .inl, .inl, .inl⟩
  | ignored => exact .refl e s

theorem moves_act {s t : UploadSocket} {e : UploadSocket.Event}
    (happens : s.act parse e = some t) : Moves e s t := by
  cases e with
  | text payload =>
      cases happens
      split
      · exact .refl _ s
      · exact moves_receive _ s _
  | binary payload =>
      cases happens
      unfold UploadSocket.write
      split
      · exact .refl _ s
      · exact ⟨id, id, .inl, .inl, .inl⟩
  | error | close =>
      cases happens
      exact moves_failBody _ s
  | host found =>
      rw [UploadSocket.act] at happens
      split at happens
      · cases happens
        split
        · exact ⟨id, id, (by rintro ⟨⟩), (by rintro ⟨⟩), (by rintro ⟨⟩)⟩
        · exact moves_caught _ s
      · cases happens
  | settled =>
      rw [UploadSocket.act] at happens
      split at happens
      · split at happens
        · cases happens
        · next plan started =>
            cases happens
            exact ⟨id, id, fun _ => .inr ⟨plan, started⟩, (by rintro ⟨⟩), (by rintro ⟨⟩)⟩
        · cases happens
          exact moves_caught _ s
      · cases happens
  | timeout =>
      rw [UploadSocket.act] at happens
      split at happens
      · cases happens
        exact moves_caught _ s
      · cases happens
  | watch =>
      rw [UploadSocket.act] at happens
      split at happens
      · cases happens
        exact ⟨id, id, .inl, .inl, .inl⟩
      · cases happens
  | upload ok =>
      rw [UploadSocket.act] at happens
      split at happens
      · next streaming =>
          cases happens
          cases ok with
          | true => exact ⟨id, id, (by rintro ⟨⟩), fun _ => .inr ⟨streaming, rfl⟩, (by rintro ⟨⟩)⟩
          | false => exact moves_caught _ s
      · cases happens
  | recorded =>
      rw [UploadSocket.act] at happens
      split at happens
      · next recording =>
          cases happens
          exact ⟨id, id, (by rintro ⟨⟩), (by rintro ⟨⟩), fun _ => .inr recording⟩
      · cases happens
        exact ⟨id, id, (by rintro ⟨⟩), (by rintro ⟨⟩), (by rintro ⟨⟩)⟩
      · cases happens

theorem moves_step {s t : UploadSocket} {e : UploadSocket.Event}
    (happens : s.step parse e = some t) : Moves e s t := by
  obtain ⟨u, acted, rfl⟩ := step_socket happens
  have moves := moves_act acted
  exact ⟨moves.start, moves.ended, moves.streaming, moves.recording, moves.done⟩

/-- The upload reports success only for a body that has ended. -/
def AnswersEnded (s : UploadExchange) (move : Move) : Prop :=
  move = .server (.upload true) → s.server.body.ended = true

instance (s : UploadExchange) (move : Move) : Decidable (s.AnswersEnded move) := by
  unfold AnswersEnded
  infer_instance

/-- An upload has a plan, and one that has succeeded a body that has ended. -/
structure Answered (s : UploadSocket) : Prop where
  planned : s.stage = .streaming ∨ s.stage = .recording ∨ s.stage = .done →
    ∃ plan, s.start = .resolved plan
  ended : s.stage = .recording ∨ s.stage = .done → s.body.ended = true

theorem answered_opened : Answered .opened := by
  refine ⟨fun stage => ?_, fun stage => ?_⟩
  · rcases stage with stage | stage | stage <;> cases stage
  · rcases stage with stage | stage <;> cases stage

theorem Answered.move {s t : UploadSocket} {e : UploadSocket.Event} (answered : Answered s)
    (moves : Moves e s t) (meets : e = .upload true → s.body.ended = true) : Answered t := by
  refine ⟨fun stage => moves.start ?_, fun stage => moves.ended ?_⟩
  · rcases stage with streaming | recording | done
    · exact (moves.streaming streaming).elim (fun now => answered.planned (.inl now)) id
    · rcases moves.recording recording with now | ⟨now, -⟩
      · exact answered.planned (.inr (.inl now))
      · exact answered.planned (.inl now)
    · exact answered.planned (.inr (moves.done done).symm)
  · rcases stage with recording | done
    · rcases moves.recording recording with now | ⟨-, answer⟩
      · exact answered.ended (.inl now)
      · exact meets answer
    · exact answered.ended (moves.done done).symm

theorem Answered.step (answered : Answered s.server) {move : Move} (meets : s.AnswersEnded move)
    (happens : step parse job answers s move = some t) : Answered t.server := by
  cases move with
  | client e =>
      obtain ⟨sent, -, rfl⟩ := Option.map_eq_some_iff.mp happens
      exact answered
  | server e =>
      rw [UploadExchange.step, UploadExchange.serve] at happens
      split at happens
      · cases happens
      · obtain ⟨server, stepped, rfl⟩ := Option.map_eq_some_iff.mp happens
        exact answered.move (moves_step stepped) fun answer => meets (answer ▸ rfl)
  | deliver =>
      rw [UploadExchange.step] at happens
      split at happens
      · cases happens
      next frame rest under =>
      obtain ⟨server, stepped, rfl⟩ := Option.map_eq_some_iff.mp happens
      refine answered.move (moves_step stepped) fun answer => ?_
      cases frame <;> cases answer
  | receive =>
      rw [UploadExchange.step] at happens
      split at happens
      · cases happens
      · split at happens
        · cases happens
          exact answered
        · cases happens
  | cut frames replies =>
      cases happens
      exact answered

/-- What holds where success is reported only for a body that has ended. -/
def Trusted (job : UploadJob) (s : UploadExchange) : Prop :=
  s.Coherent job ∧ Answered s.server

/-- In every state that is reached the body has a beginning of the blob, and all of it once it has
ended; the handler's plan is the browser's; and where the browser reports a failed handshake,
nothing has been written. -/
theorem body_of_exchange (parse : Bytes → Option (Json Text Double)) (job : UploadJob)
    (answers : Answers) (startRead : parse job.startPayload = some job.startMessage)
    (endRead : parse job.endPayload = some UploadJob.endMessage) (s : UploadExchange)
    (run : Reaches (step parse job answers) Unrestricted (start job) s) :
    s.server.body.chunks.flatten <+: job.blob ∧
      (s.server.body.ended = true → s.server.body.chunks.flatten = job.blob) ∧
      (∀ plan, s.server.start = .resolved plan → plan = job.plan) ∧
      ∀ message, s.client.outcome = some (.rejected (.handshake message)) →
        s.server.body.chunks = [] ∧ s.server.body.ended = false := by
  have coherent : s.Coherent job := run.keeps (coherent_start job)
    fun _ _ _ before _ happens => before.step startRead endRead happens
  refine ⟨coherent.written, fun ended => (coherent.whole ended).2,
    fun plan resolved => (coherent.plan plan resolved).1, fun message failed => ?_⟩
  obtain ⟨empty, open', -⟩ := coherent.early (coherent.settled.handshake message failed)
  exact ⟨empty, open'⟩

/-- Where the upload reports success only for a body that has ended, a promise that is resolved
means that the body has ended with exactly the blob, and that the success has been logged. -/
theorem resolved_of_exchange (parse : Bytes → Option (Json Text Double)) (job : UploadJob)
    (answers : Answers) (startRead : parse job.startPayload = some job.startMessage)
    (endRead : parse job.endPayload = some UploadJob.endMessage) (s : UploadExchange)
    (run : Reaches (step parse job answers) AnswersEnded (start job) s)
    (resolved : s.client.Resolved) :
    s.server.stage = .done ∧ s.server.body.ended = true ∧
      s.server.body.chunks.flatten = job.blob ∧ s.server.start = .resolved job.plan := by
  have both : s.Trusted job := run.keeps ⟨coherent_start job, answered_opened⟩
    fun _ _ _ before meets happens =>
      ⟨before.1.step startRead endRead happens, before.2.step meets happens⟩
  obtain ⟨coherent, answered⟩ := both
  have done := coherent.done (.inr resolved)
  have ended := answered.ended (.inr done)
  obtain ⟨plan, planned⟩ := answered.planned (.inr (.inr done))
  refine ⟨done, ended, (coherent.whole ended).2, ?_⟩
  rw [planned, (coherent.plan plan planned).1]

/-- Two chunks, with an empty one between them. -/
def sampleJob : UploadJob where
  chunks := [[7], [], [8]]
  offset := 0
  total := 2
  prefixHex := []
  startPayload := [0]
  endPayload := [1]

def sampleParse (payload : Bytes) : Option (Json Text Double) :=
  if payload = [0] then some sampleJob.startMessage
  else if payload = [1] then some UploadJob.endMessage
  else none

def sampleMoves : List Move :=
  [.client .opened, .server (.host true), .receive, .deliver, .server .settled, .receive,
    .client .waited, .client .read, .client .waited, .client .read, .server .watch, .client .waited,
    .client .read, .client .waited, .client .read, .deliver, .client .waited, .deliver, .deliver,
    .server (.upload true), .server .recorded, .receive]

theorem body_of_sample :
    ∃ s, Reaches (step sampleParse sampleJob ⟨[], "/a", "a", 2⟩) Unrestricted (start sampleJob) s ∧
      s.server.body.ended = true ∧ s.server.body.chunks.flatten = [7, 8] := by
  have done : ∃ s, exec (step sampleParse sampleJob ⟨[], "/a", "a", 2⟩) (start sampleJob)
      sampleMoves = some s ∧ s.server.body.ended = true := ⟨_, rfl, rfl⟩
  obtain ⟨s, happens, ended⟩ := done
  have run := reaches_of_exec happens
  exact ⟨s, run, ended,
    (body_of_exchange sampleParse sampleJob ⟨[], "/a", "a", 2⟩ rfl rfl s run).2.1 ended⟩

theorem resolved_of_sample_exchange :
    ∃ s, Reaches (step sampleParse sampleJob ⟨[], "/a", "a", 2⟩) AnswersEnded (start sampleJob) s ∧
      s.client.Resolved ∧ s.server.body.chunks.flatten = [7, 8] := by
  have done : ∃ s, exec (guarded (step sampleParse sampleJob ⟨[], "/a", "a", 2⟩) AnswersEnded)
      (start sampleJob) sampleMoves = some s ∧ s.client.Resolved := ⟨_, rfl, _, _, _, rfl⟩
  obtain ⟨s, happens, resolved⟩ := done
  have run := reaches_of_guarded happens
  exact ⟨s, run, resolved,
    (resolved_of_exchange sampleParse sampleJob ⟨[], "/a", "a", 2⟩ rfl rfl s run resolved).2.2.1⟩

end UploadExchange

end Proxora
