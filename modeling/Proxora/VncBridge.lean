import Proxora.Files
import Proxora.Runs
import Proxora.Ecma.Text

/-!
# The bridge of a graphical console

`consumeProxmoxVncHandshake` of `lib/vnc-handshake.ts` and `pipeVnc` of
`server/ws/console-proxy.ts`. A pipe has two readiness flags and three buffers; an event is a
message of either socket, the opening of the upstream one, a timer, or the end of a socket. The
last two fields of a pipe only record what the sockets have said.

`bridged_run` says that neither stream loses, doubles or reorders a byte in a run in which no
chunk tears a line end off the acknowledgement and the browser, once it is ready, sends nothing
before the upstream is.
-/

namespace Proxora

open Ecma Files Runs

/-! ## The handshake -/

def carriageReturn : UInt8 := 0x0d

def lineFeed : UInt8 := 0x0a

/-- `"RFB "`. -/
def rfbBanner : Bytes := [0x52, 0x46, 0x42, 0x20]

/-- The bytes behind an optional line end. -/
def dropLineEnd (rest : Bytes) : Bytes :=
  let behind := if rest.head? = some carriageReturn then rest.tail else rest
  if behind.head? = some lineFeed then behind.tail else behind

/-- What `consumeProxmoxVncHandshake` returns. -/
inductive VncHandshake : Type
  | waiting (rest : Bytes)
  | done (rest : Bytes)
  | error (rest : Bytes)
deriving DecidableEq

def consumeProxmoxVncHandshake (previous chunk : Bytes) : VncHandshake :=
  let buf := previous ++ chunk
  if 4 ≤ buf.length ∧ buf.take 4 = rfbBanner then .done buf
  else if buf.length < 2 then .waiting buf
  else if buf.take 2 = [0x4f, 0x4b] then .done (dropLineEnd (buf.drop 2))
  else if 16 ≤ buf.length then .error buf
  else .waiting buf

/-- The bytes of a whole stream that follow the acknowledgement `OK` with its line end, all of
them where the stream begins with RFB; none before that is known. -/
def acknowledged (stream : Bytes) : Option Bytes :=
  if rfbBanner <+: stream then some stream
  else if [0x4f, 0x4b] <+: stream then some (dropLineEnd (stream.drop 2))
  else none

/-! ## The pipe -/

/-- A frame to Proxmox: the ticket line, or bytes of the browser. -/
inductive RemoteFrame : Type
  | ticket (line : Text)
  | rfb (bytes : Bytes)
deriving DecidableEq

/-- A frame to the browser: `vnc-auth`, or bytes of Proxmox. -/
inductive BrowserFrame : Type
  | auth (password : Text)
  | rfb (bytes : Bytes)
deriving DecidableEq

structure VncPipe where
  handshake : Bytes
  upstreamReady : Bool
  clientReady : Bool
  toRemote : List Bytes
  leftover : Bytes
  remoteOpen : Bool
  ticketTimer : Bool
  handshakeTimer : Bool
  closed : Bool
  remoteFrames : List RemoteFrame
  browserFrames : List BrowserFrame
  upstream : Bytes
  rfb : Bytes
deriving DecidableEq

inductive VncEvent : Type
  | remoteOpen
  | remoteMessage (chunk : Bytes)
  | browserMessage (data : Bytes)
  | ticketTimer
  | handshakeTimer
  | close

namespace VncPipe

/-- The pipe when `pipeVnc` returns. -/
def start : VncPipe where
  handshake := []
  upstreamReady := false
  clientReady := false
  toRemote := []
  leftover := []
  remoteOpen := false
  ticketTimer := false
  handshakeTimer := true
  closed := false
  remoteFrames := []
  browserFrames := []
  upstream := []
  rfb := []

/-- `sendRfb` to Proxmox, which drops the bytes while the socket is not open. -/
def sendRemote (s : VncPipe) (chunks : List Bytes) : VncPipe :=
  if s.remoteOpen then { s with remoteFrames := s.remoteFrames ++ chunks.map .rfb } else s

def sendBrowser (s : VncPipe) (chunk : Bytes) : VncPipe :=
  { s with browserFrames := s.browserFrames ++ [.rfb chunk] }

def flushBrowser (s : VncPipe) : VncPipe :=
  if s.leftover ≠ [] then { s.sendBrowser s.leftover with leftover := [] } else s

def flushRemote (s : VncPipe) : VncPipe :=
  if s.remoteOpen then { s.sendRemote s.toRemote with toRemote := [] } else s

def flush (s : VncPipe) : VncPipe :=
  if s.upstreamReady && s.clientReady then
    ({ s with handshakeTimer := false } : VncPipe).flushBrowser.flushRemote
  else s

/-- A chunk while the upstream is not ready. -/
def awaitUpstream (password : Text) (s : VncPipe) (chunk : Bytes) : VncPipe :=
  match consumeProxmoxVncHandshake s.handshake chunk with
  | .waiting rest => { s with handshake := rest }
  | .error rest => { s with handshake := rest, ticketTimer := false, closed := true }
  | .done rest =>
      ({ s with
        handshake := rest
        ticketTimer := false
        upstreamReady := true
        leftover := rest
        browserFrames := s.browserFrames ++ [.auth password] } : VncPipe).flush

def onRemoteMessage (password : Text) (s : VncPipe) (chunk : Bytes) : VncPipe :=
  if !s.upstreamReady then s.awaitUpstream password chunk
  else if !s.clientReady then { s with leftover := s.leftover ++ chunk }
  else s.sendBrowser chunk

/-- `isReady` says that a message is JSON with the type `vnc-ready`. -/
def onBrowserMessage (isReady : Bytes → Bool) (s : VncPipe) (data : Bytes) : VncPipe :=
  if !s.clientReady then
    if isReady data then ({ s with clientReady := true } : VncPipe).flush
    else ({ s with toRemote := s.toRemote ++ [data] } : VncPipe).flush
  else s.sendRemote [data]

/-- The message is the browser's own bytes. -/
def isRfb (isReady : Bytes → Bool) (s : VncPipe) (data : Bytes) : Bool :=
  s.clientReady || !isReady data

/-- One event; after the end of a socket there is none. -/
def step (isReady : Bytes → Bool) (ticketLine : Option Text) (password : Text) (s : VncPipe)
    (e : VncEvent) : Option VncPipe :=
  if s.closed then none
  else
    match e with
    | .remoteOpen =>
        if s.remoteOpen then none
        else some { s with remoteOpen := true, ticketTimer := ticketLine.isSome }
    | .remoteMessage chunk =>
        if s.remoteOpen then
          some (({ s with upstream := s.upstream ++ chunk } : VncPipe).onRemoteMessage password
            chunk)
        else none
    | .browserMessage data =>
        let rfb := if s.isRfb isReady data then s.rfb ++ data else s.rfb
        some (({ s with rfb := rfb } : VncPipe).onBrowserMessage isReady data)
    | .ticketTimer =>
        match s.ticketTimer, ticketLine with
        | true, some line =>
            if s.upstreamReady || s.handshake ≠ [] then some { s with ticketTimer := false }
            else some { s with
              ticketTimer := false
              remoteFrames := s.remoteFrames ++ [.ticket line] }
        | _, _ => none
    | .handshakeTimer =>
        if s.handshakeTimer then
          some { s with
            handshakeTimer := false
            closed := !s.upstreamReady || !s.clientReady }
        else none
    | .close => some { s with closed := true }

/-- The bytes of the browser that were sent to Proxmox. -/
def sentRemote (s : VncPipe) : Bytes :=
  s.remoteFrames.flatMap fun frame =>
    match frame with
    | .ticket _ => []
    | .rfb bytes => bytes

/-- While the sockets are open: before the acknowledgement neither side has had a byte; then the
browser has `vnc-auth` and, once it is ready, the bytes that follow the acknowledgement, and
Proxmox has the bytes of the browser. -/
def Bridged (password : Text) (s : VncPipe) : Prop :=
  s.closed = false →
    match acknowledged s.upstream with
    | none => s.browserFrames = [] ∧ s.sentRemote = []
    | some following =>
        ∃ chunks : List Bytes, s.browserFrames = .auth password :: chunks.map .rfb ∧
          chunks.flatten = (if s.clientReady then following else []) ∧
          s.sentRemote = if s.clientReady then s.rfb else []

/-- The chunk begins with the rest of the line end of an `OK` that came without it. -/
def TearsLineEnd (stream chunk : Bytes) : Prop :=
  stream = [0x4f, 0x4b] ∧ (chunk.head? = some carriageReturn ∨ chunk.head? = some lineFeed) ∨
    stream = [0x4f, 0x4b, carriageReturn] ∧ chunk.head? = some lineFeed

instance (stream chunk : Bytes) : Decidable (TearsLineEnd stream chunk) :=
  inferInstanceAs (Decidable (_ ∨ _))

/-- No line end is torn off the acknowledgement, and a browser that is ready sends no bytes
before the upstream is. -/
def Orderly (s : VncPipe) : VncEvent → Prop
  | .remoteMessage chunk => ¬TearsLineEnd s.upstream chunk
  | .browserMessage data => s.clientReady = true → s.upstreamReady = false → data = []
  | _ => True

instance (s : VncPipe) : ∀ e, Decidable (s.Orderly e)
  | .remoteMessage _ => inferInstanceAs (Decidable (¬_))
  | .browserMessage _ => inferInstanceAs (Decidable (_ → _))
  | .remoteOpen | .ticketTimer | .handshakeTimer | .close => inferInstanceAs (Decidable True)

end VncPipe

/-! ## The handshake to the code -/

theorem rfbBanner_isPrefix_iff {buf : Bytes} :
    rfbBanner <+: buf ↔ 4 ≤ buf.length ∧ buf.take 4 = rfbBanner := by
  rw [List.prefix_iff_eq_take]
  constructor
  · intro same
    have taken : buf.take 4 = rfbBanner := same.symm
    have long := congrArg List.length taken
    rw [List.length_take] at long
    exact ⟨min_eq_left_iff.mp long, taken⟩
  · exact fun both => both.2.symm

/-- The handshake reads the acknowledgement off what it has; it gives up at 16 bytes. -/
theorem consumeProxmoxVncHandshake_eq (previous chunk : Bytes) :
    consumeProxmoxVncHandshake previous chunk =
      match acknowledged (previous ++ chunk) with
      | some rest => .done rest
      | none =>
          if 16 ≤ (previous ++ chunk).length then .error (previous ++ chunk)
          else .waiting (previous ++ chunk) := by
  unfold consumeProxmoxVncHandshake acknowledged
  dsimp only
  generalize previous ++ chunk = buf
  by_cases banner : rfbBanner <+: buf
  · rw [if_pos banner, if_pos (rfbBanner_isPrefix_iff.mp banner)]
  · rw [if_neg banner, if_neg fun both => banner (rfbBanner_isPrefix_iff.mpr both)]
    by_cases short : buf.length < 2
    · have none : ¬([0x4f, 0x4b] : Bytes) <+: buf := fun inside =>
        absurd inside.length_le (by simpa using short)
      rw [if_pos short, if_neg none, if_neg (by omega)]
    · rw [if_neg short]
      by_cases ok : ([0x4f, 0x4b] : Bytes) <+: buf
      · have two : buf.take 2 = [0x4f, 0x4b] := (List.prefix_iff_eq_take.mp ok).symm
        rw [if_pos ok, if_pos two]
      · rw [if_neg ok, if_neg fun same => ok (List.prefix_iff_eq_take.mpr same.symm)]

theorem dropLineEnd_append {rest chunk : Bytes}
    (whole : rest = [] → chunk.head? ≠ some carriageReturn ∧ chunk.head? ≠ some lineFeed)
    (half : rest = [carriageReturn] → chunk.head? ≠ some lineFeed) :
    dropLineEnd (rest ++ chunk) = dropLineEnd rest ++ chunk := by
  unfold dropLineEnd
  cases rest with
  | nil =>
      obtain ⟨first, second⟩ := whole rfl
      rw [List.nil_append, if_neg first]
      exact if_neg second
  | cons a rest =>
      by_cases first : a = carriageReturn
      · cases rest with
        | nil =>
            have second := half (by rw [first])
            rw [first]
            exact if_neg second
        | cons b rest =>
            rw [first]
            by_cases second : b = lineFeed
            · rw [second]
              rfl
            · have other : some b ≠ some lineFeed := fun same => second (Option.some.inj same)
              exact (if_neg other).trans (congrArg (· ++ chunk) (if_neg other)).symm
      · have other : some a ≠ some carriageReturn := fun same => first (Option.some.inj same)
        rw [if_neg (show ((a :: rest) ++ chunk).head? ≠ _ from other),
          if_neg (show (a :: rest).head? ≠ _ from other)]
        by_cases second : a = lineFeed
        · rw [second]
          rfl
        · have still : some a ≠ some lineFeed := fun same => second (Option.some.inj same)
          exact (if_neg still).trans (congrArg (· ++ chunk) (if_neg still)).symm

/-- What follows the acknowledgement grows with the stream, unless a line end is torn off. -/
theorem acknowledged_append {stream chunk following : Bytes}
    (known : acknowledged stream = some following)
    (intact : ¬VncPipe.TearsLineEnd stream chunk) :
    acknowledged (stream ++ chunk) = some (following ++ chunk) := by
  unfold acknowledged at known ⊢
  by_cases banner : rfbBanner <+: stream
  · rw [if_pos banner] at known
    rw [if_pos (banner.trans (List.prefix_append stream chunk)), Option.some.inj known]
  · rw [if_neg banner] at known
    split at known
    · rename_i ok
      obtain ⟨rest, rfl⟩ := ok
      have other : ¬rfbBanner <+: ([0x4f, 0x4b] ++ rest) ++ chunk := by
        rintro ⟨more, same⟩
        injection same with first _
        revert first
        decide
      have longer : ([0x4f, 0x4b] : Bytes) <+: ([0x4f, 0x4b] ++ rest) ++ chunk := by
        rw [List.append_assoc]
        exact List.prefix_append _ _
      rw [if_neg other, if_pos longer, ← Option.some.inj known]
      refine congrArg some (@dropLineEnd_append rest _ ?_ ?_)
      · rintro rfl
        exact ⟨fun first => intact (Or.inl ⟨rfl, Or.inl first⟩),
          fun first => intact (Or.inl ⟨rfl, Or.inr first⟩)⟩
      · rintro rfl
        exact fun first => intact (Or.inr ⟨rfl, first⟩)
    · cases known

/-! ## The three phases -/

namespace VncPipe

/-- Nothing is known of the upstream yet: what the browser sent is kept, and nothing is out. -/
structure Waiting (s : VncPipe) : Prop where
  flag : s.upstreamReady = false
  unknown : acknowledged s.upstream = none
  handshake : s.handshake = s.upstream
  browserFrames : s.browserFrames = []
  sent : s.sentRemote = []
  kept : s.toRemote.flatten = s.rfb

/-- The upstream is ready, and both streams are still kept. -/
structure Held (password : Text) (s : VncPipe) : Prop where
  flag : s.upstreamReady = true
  remote : s.remoteOpen = true
  following : acknowledged s.upstream = some s.leftover
  browserFrames : s.browserFrames = [.auth password]
  sent : s.sentRemote = []
  kept : s.toRemote.flatten = s.rfb

/-- Both are ready: both streams are out. -/
structure Flowing (password : Text) (s : VncPipe) : Prop where
  flag : s.upstreamReady = true
  client : s.clientReady = true
  remote : s.remoteOpen = true
  frames : ∃ chunks : List Bytes, s.browserFrames = .auth password :: chunks.map .rfb ∧
    acknowledged s.upstream = some chunks.flatten
  sent : s.sentRemote = s.rfb

/-- The pipe is in one of its phases, or its sockets are closed. -/
def Sound (password : Text) (s : VncPipe) : Prop :=
  s.closed = true ∨ s.Waiting ∨ s.clientReady = false ∧ s.Held password ∨ s.Flowing password

variable {password : Text} {ticketLine : Option Text} {isReady : Bytes → Bool} {s t : VncPipe}
  {e : VncEvent}

theorem sound_start : start.Sound password := Or.inr (Or.inl ⟨rfl, rfl, rfl, rfl, rfl, rfl⟩)

theorem Sound.bridged (sound : s.Sound password) : s.Bridged password := by
  intro isOpen
  rcases sound with closed | waiting | ⟨client, held⟩ | flowing
  · rw [closed] at isOpen
    cases isOpen
  · rw [waiting.unknown]
    exact ⟨waiting.browserFrames, waiting.sent⟩
  · rw [held.following, client]
    exact ⟨[], held.browserFrames, rfl, held.sent⟩
  · obtain ⟨chunks, frames, following⟩ := flowing.frames
    rw [following, flowing.client]
    exact ⟨chunks, frames, rfl, flowing.sent⟩

theorem sentRemote_append (frames : List RemoteFrame) (chunks : List Bytes) :
    ({ s with remoteFrames := frames ++ chunks.map .rfb } : VncPipe).sentRemote =
      ({ s with remoteFrames := frames } : VncPipe).sentRemote ++ chunks.flatten := by
  unfold sentRemote
  dsimp only
  rw [List.flatMap_append, List.flatMap_map]
  exact congrArg _ List.flatMap_id'

theorem flush_of_not_ready (waits : s.upstreamReady = false ∨ s.clientReady = false) :
    s.flush = s := by
  unfold flush
  rcases waits with flag | flag <;> simp [flag]

theorem flush_of_ready (flag : s.upstreamReady = true) (client : s.clientReady = true)
    (remote : s.remoteOpen = true) :
    s.flush = { s with
      handshakeTimer := false
      browserFrames := s.browserFrames ++ (if s.leftover = [] then [] else [.rfb s.leftover])
      leftover := []
      remoteFrames := s.remoteFrames ++ s.toRemote.map .rfb
      toRemote := [] } := by
  by_cases nothing : s.leftover = []
  · simp [flush, flushBrowser, flushRemote, sendRemote, flag, client, remote, nothing]
  · simp [flush, flushBrowser, flushRemote, sendRemote, sendBrowser, flag, client, remote, nothing]

/-- What was kept goes out, in order, once the browser is ready, too. -/
theorem Held.flush (held : s.Held password) (client : s.clientReady = true) :
    s.flush.Flowing password := by
  obtain ⟨flag, remote, following, browserFrames, sent, kept⟩ := held
  rw [flush_of_ready flag client remote]
  refine ⟨flag, client, remote, ?_, ?_⟩
  · dsimp only
    by_cases nothing : s.leftover = []
    · refine ⟨[], ?_, ?_⟩
      · rw [if_pos nothing, browserFrames]
        rfl
      · rw [following, nothing]
        rfl
    · refine ⟨[s.leftover], ?_, ?_⟩
      · rw [if_neg nothing, browserFrames]
        rfl
      · rw [following, List.flatten_singleton]
  · have out := sentRemote_append (s := { s with
      handshakeTimer := false
      browserFrames := s.browserFrames ++ (if s.leftover = [] then [] else [.rfb s.leftover])
      leftover := []
      toRemote := [] }) s.remoteFrames s.toRemote
    have before : s.sentRemote = [] := sent
    exact out.trans ((congrArg₂ (· ++ ·) before kept).trans (List.nil_append _))

theorem Held.sound_flush (held : s.Held password) : s.flush.Sound password := by
  cases client : s.clientReady with
  | false =>
      rw [flush_of_not_ready (Or.inr client)]
      exact Or.inr (Or.inr (Or.inl ⟨client, held⟩))
  | true => exact Or.inr (Or.inr (Or.inr (held.flush client)))

theorem Waiting.sound_flush (waiting : s.Waiting) : s.flush.Sound password := by
  rw [flush_of_not_ready (Or.inl waiting.flag)]
  exact Or.inr (Or.inl waiting)

/-- A chunk while nothing is known of the upstream. -/
theorem Waiting.awaitUpstream {chunk : Bytes} (waiting : s.Waiting) (remote : s.remoteOpen = true) :
    (({ s with upstream := s.upstream ++ chunk } : VncPipe).awaitUpstream password chunk).Sound
      password := by
  obtain ⟨flag, unknown, handshake, browserFrames, sent, kept⟩ := waiting
  unfold VncPipe.awaitUpstream
  dsimp only
  rw [handshake, consumeProxmoxVncHandshake_eq]
  cases known : acknowledged (s.upstream ++ chunk) with
  | none =>
      dsimp only
      by_cases long : 16 ≤ (s.upstream ++ chunk).length
      · rw [if_pos long]
        exact Or.inl rfl
      · rw [if_neg long]
        exact Or.inr (Or.inl ⟨flag, known, rfl, browserFrames, sent, kept⟩)
  | some following =>
      refine Held.sound_flush ⟨rfl, remote, known, ?_, sent, kept⟩
      dsimp only
      rw [browserFrames, List.nil_append]

/-- A chunk of the upstream. -/
theorem Sound.remoteMessage {chunk : Bytes} (sound : s.Sound password) (isOpen : s.closed = false)
    (remote : s.remoteOpen = true) (intact : ¬TearsLineEnd s.upstream chunk) :
    (({ s with upstream := s.upstream ++ chunk } : VncPipe).onRemoteMessage password chunk).Sound
      password := by
  unfold onRemoteMessage
  rcases sound with closed | waiting | ⟨client, held⟩ | flowing
  · rw [closed] at isOpen
    cases isOpen
  · have flag : (!s.upstreamReady) = true := by rw [waiting.flag, Bool.not_false]
    rw [if_pos flag]
    exact waiting.awaitUpstream remote
  · obtain ⟨flag, -, following, browserFrames, sent, kept⟩ := held
    simp only [flag, client, Bool.not_true, Bool.false_eq_true, if_false, Bool.not_false, if_true]
    exact Or.inr (Or.inr (Or.inl ⟨rfl, rfl, remote, acknowledged_append following intact,
      browserFrames, sent, kept⟩))
  · obtain ⟨flag, client, -, ⟨chunks, frames, following⟩, sent⟩ := flowing
    simp only [flag, client, Bool.not_true, Bool.false_eq_true, if_false]
    refine Or.inr (Or.inr (Or.inr ⟨rfl, rfl, remote, ⟨chunks ++ [chunk], ?_, ?_⟩, sent⟩))
    · change s.browserFrames ++ [.rfb chunk] = _
      rw [frames, List.map_append]
      rfl
    · rw [List.flatten_append, List.flatten_singleton]
      exact acknowledged_append following intact

theorem sentRemote_sendRemote (chunks : List Bytes) :
    (s.sendRemote chunks).sentRemote =
      s.sentRemote ++ if s.remoteOpen then chunks.flatten else [] := by
  unfold sendRemote
  cases s.remoteOpen with
  | true => exact sentRemote_append s.remoteFrames chunks
  | false => exact (List.append_nil _).symm

/-- Sending to Proxmox touches the frames to Proxmox only. -/
theorem sendRemote_eq (chunks : List Bytes) :
    s.sendRemote chunks = { s with remoteFrames := (s.sendRemote chunks).remoteFrames } := by
  unfold sendRemote
  split <;> rfl

/-- A message of a browser that is not ready. -/
theorem Sound.browserMessage_early {data : Bytes} (sound : s.Sound password)
    (isOpen : s.closed = false) (client : s.clientReady = false) :
    (({ s with rfb := if s.isRfb isReady data then s.rfb ++ data else s.rfb } :
      VncPipe).onBrowserMessage isReady data).Sound password := by
  unfold onBrowserMessage isRfb
  have more (kept : s.toRemote.flatten = s.rfb) :
      (s.toRemote ++ [data]).flatten = s.rfb ++ data := by
    rw [List.flatten_append, kept, List.flatten_singleton]
  cases ready : isReady data with
  | true =>
      simp only [client, Bool.false_or, Bool.not_true, Bool.false_eq_true, if_false,
        Bool.not_false, if_true]
      rcases sound with closed | waiting | ⟨-, held⟩ | flowing
      · rw [closed] at isOpen
        cases isOpen
      · obtain ⟨flag, unknown, handshake, browserFrames, sent, kept⟩ := waiting
        exact Waiting.sound_flush ⟨flag, unknown, handshake, browserFrames, sent, kept⟩
      · obtain ⟨flag, remote, following, browserFrames, sent, kept⟩ := held
        exact Held.sound_flush ⟨flag, remote, following, browserFrames, sent, kept⟩
      · rw [flowing.client] at client
        cases client
  | false =>
      simp only [client, Bool.false_or, Bool.not_false, if_true, Bool.false_eq_true, if_false]
      rw [flush_of_not_ready (Or.inr rfl)]
      rcases sound with closed | waiting | ⟨-, held⟩ | flowing
      · rw [closed] at isOpen
        cases isOpen
      · obtain ⟨flag, unknown, handshake, browserFrames, sent, kept⟩ := waiting
        exact Or.inr (Or.inl ⟨flag, unknown, handshake, browserFrames, sent, more kept⟩)
      · obtain ⟨flag, remote, following, browserFrames, sent, kept⟩ := held
        exact Or.inr (Or.inr (Or.inl ⟨rfl, flag, remote, following, browserFrames, sent,
          more kept⟩))
      · rw [flowing.client] at client
        cases client

/-- A message of a browser that is ready. -/
theorem Sound.browserMessage_ready {data : Bytes} (sound : s.Sound password)
    (isOpen : s.closed = false) (client : s.clientReady = true)
    (inTurn : s.upstreamReady = false → data = []) :
    (({ s with rfb := if s.isRfb isReady data then s.rfb ++ data else s.rfb } :
      VncPipe).onBrowserMessage isReady data).Sound password := by
  unfold onBrowserMessage isRfb
  simp only [client, Bool.true_or, if_true, Bool.not_true, Bool.false_eq_true, if_false]
  have out := sentRemote_sendRemote (s := { s with clientReady := true, rfb := s.rfb ++ data })
    [data]
  rcases sound with closed | waiting | ⟨early, -⟩ | flowing
  · rw [closed] at isOpen
    cases isOpen
  · obtain ⟨flag, unknown, handshake, browserFrames, sent, kept⟩ := waiting
    obtain rfl := inTurn flag
    have still := out.trans (congrArg₂ (· ++ ·) sent (ite_self (List.flatten [[]])))
    rw [sendRemote_eq]
    exact Or.inr (Or.inl ⟨flag, unknown, handshake, browserFrames, still,
      kept.trans (List.append_nil _).symm⟩)
  · rw [early] at client
    cases client
  · obtain ⟨flag, -, remote, frames, sent⟩ := flowing
    have whole := out.trans (congrArg₂ (· ++ ·) sent
      ((if_pos remote).trans (List.flatten_singleton)))
    rw [sendRemote_eq]
    exact Or.inr (Or.inr (Or.inr ⟨flag, rfl, remote, frames, whole⟩))

theorem sentRemote_ticket (line : Text) :
    ({ s with remoteFrames := s.remoteFrames ++ [.ticket line] } : VncPipe).sentRemote =
      s.sentRemote := by
  unfold sentRemote
  dsimp only
  rw [List.flatMap_append]
  exact List.append_nil _

/-- The ticket goes out only while nothing is known of the upstream. -/
theorem Sound.ticketTimer (sound : s.Sound password)
    (happens : VncPipe.step isReady ticketLine password s .ticketTimer = some t) :
    t.Sound password := by
  unfold VncPipe.step at happens
  split at happens
  · cases happens
  · dsimp only at happens
    split at happens
    · rename_i line _
      split at happens
      · cases happens
        rcases sound with closed | waiting | ⟨client, held⟩ | flowing
        · exact Or.inl closed
        · obtain ⟨flag, unknown, handshake, browserFrames, sent, kept⟩ := waiting
          exact Or.inr (Or.inl ⟨flag, unknown, handshake, browserFrames, sent, kept⟩)
        · obtain ⟨flag, remote, following, browserFrames, sent, kept⟩ := held
          exact Or.inr (Or.inr (Or.inl ⟨client, flag, remote, following, browserFrames, sent,
            kept⟩))
        · obtain ⟨flag, client, remote, frames, sent⟩ := flowing
          exact Or.inr (Or.inr (Or.inr ⟨flag, client, remote, frames, sent⟩))
      · rename_i early
        cases happens
        have flag : s.upstreamReady = false := by
          rw [Bool.or_eq_true, not_or] at early
          exact Bool.eq_false_iff.mpr early.1
        rcases sound with closed | waiting | ⟨-, held⟩ | flowing
        · exact Or.inl closed
        · obtain ⟨-, unknown, handshake, browserFrames, sent, kept⟩ := waiting
          exact Or.inr (Or.inl ⟨flag, unknown, handshake, browserFrames,
            (sentRemote_ticket line).trans sent, kept⟩)
        · rw [held.flag] at flag
          cases flag
        · rw [flowing.flag] at flag
          cases flag
    · cases happens

/-- Only a pipe whose both ends are ready survives the handshake timer. -/
theorem Sound.handshakeTimer (sound : s.Sound password)
    (happens : VncPipe.step isReady ticketLine password s .handshakeTimer = some t) :
    t.Sound password := by
  unfold VncPipe.step at happens
  split at happens
  · cases happens
  · rename_i notClosed
    dsimp only at happens
    split at happens
    · cases happens
      rcases sound with closed | waiting | ⟨client, -⟩ | flowing
      · exact absurd closed notClosed
      · exact Or.inl (by rw [waiting.flag]; rfl)
      · exact Or.inl (by rw [client]; exact Bool.or_true _)
      · obtain ⟨flag, client, remote, frames, sent⟩ := flowing
        exact Or.inr (Or.inr (Or.inr ⟨flag, client, remote, frames, sent⟩))
    · cases happens

/-- **Step.** An orderly event keeps the pipe in one of its phases. -/
theorem Sound.step (sound : s.Sound password) (orderly : s.Orderly e)
    (happens : step isReady ticketLine password s e = some t) : t.Sound password := by
  have armed := happens
  unfold VncPipe.step at happens
  split at happens
  · cases happens
  · rename_i notClosed
    have isOpen : s.closed = false := Bool.eq_false_iff.mpr notClosed
    cases e with
    | remoteOpen =>
        dsimp only at happens
        split at happens
        · cases happens
        · rename_i connecting
          cases happens
          rcases sound with closed | waiting | ⟨-, held⟩ | flowing
          · exact absurd closed notClosed
          · obtain ⟨flag, unknown, handshake, browserFrames, sent, kept⟩ := waiting
            exact Or.inr (Or.inl ⟨flag, unknown, handshake, browserFrames, sent, kept⟩)
          · exact absurd held.remote connecting
          · exact absurd flowing.remote connecting
    | remoteMessage chunk =>
        dsimp only at happens
        split at happens
        · rename_i remote
          cases happens
          exact sound.remoteMessage isOpen remote orderly
        · cases happens
    | browserMessage data =>
        cases happens
        by_cases client : s.clientReady = true
        · exact sound.browserMessage_ready isOpen client (orderly client)
        · exact sound.browserMessage_early isOpen (Bool.eq_false_iff.mpr client)
    | ticketTimer => exact sound.ticketTimer armed
    | handshakeTimer => exact sound.handshakeTimer armed
    | close =>
        cases happens
        exact Or.inl rfl

/-- Orderly runs keep both streams. -/
theorem bridged_run (isReady : Bytes → Bool) (ticketLine : Option Text) (password : Text)
    (run : Reaches (step isReady ticketLine password) Orderly start t) : t.Bridged password :=
  Sound.bridged (run.keeps sound_start fun _ _ _ sound orderly happens =>
    sound.step orderly happens)

/-- The UTF-8 bytes of `{"type":"vnc-ready"}`. -/
def readyMessage : Bytes :=
  [0x7b, 0x22, 0x74, 0x79, 0x70, 0x65, 0x22, 0x3a, 0x22, 0x76, 0x6e, 0x63, 0x2d, 0x72, 0x65, 0x61,
    0x64, 0x79, 0x22, 0x7d]

/-- Proxmox is sent the ticket and says `OK` in two chunks; the browser speaks before it is
ready. -/
def attached : List VncEvent :=
  [.remoteOpen, .ticketTimer, .remoteMessage [0x4f], .browserMessage [0x52],
    .remoteMessage [0x4b, lineFeed, 0x52], .browserMessage readyMessage,
    .remoteMessage [0x46, 0x42], .browserMessage [0x46, 0x42]]

theorem attached_happens :
    (exec (guarded (step (· == readyMessage) (some "ticket") "secret") Orderly) start
      attached).isSome = true := by
  decide

theorem bridged_run_attached : (Option.get _ attached_happens).Bridged "secret" :=
  bridged_run (· == readyMessage) (some "ticket") "secret"
    (reaches_of_guarded (Option.some_get attached_happens).symm)

/-- A browser that is ready sends a byte before Proxmox has said anything. -/
def early : List VncEvent :=
  [.remoteOpen, .browserMessage readyMessage, .browserMessage [0x52]]

/-- A line end comes in a chunk of its own behind `OK`. -/
def torn : List VncEvent :=
  [.remoteOpen, .browserMessage readyMessage, .remoteMessage [0x4f, 0x4b],
    .remoteMessage [lineFeed]]

theorem early_happens :
    (exec (step (· == readyMessage) none "secret") start early).isSome = true := by
  decide

theorem torn_happens :
    (exec (step (· == readyMessage) none "secret") start torn).isSome = true := by
  decide

theorem early_not_bridged : ¬(Option.get _ early_happens).Bridged "secret" := by
  intro bridged
  have silent : (Option.get _ early_happens).sentRemote = [] := (bridged rfl).2
  revert silent
  decide

theorem torn_not_bridged : ¬(Option.get _ torn_happens).Bridged "secret" := by
  intro bridged
  obtain ⟨chunks, frames, flattened, -⟩ := bridged rfl
  have received : [BrowserFrame.rfb [lineFeed]] = chunks.map .rfb := (List.cons.inj frames).2
  cases chunks with
  | nil => cases received
  | cons chunk chunks =>
      cases (List.cons.inj received).1
      cases flattened

/-- An early byte is sent before the acknowledgement, and a torn line end reaches the browser
after it. -/
theorem streams_break :
    ∃ t u, Reaches (step (· == readyMessage) none "secret") Unrestricted start t ∧
      Reaches (step (· == readyMessage) none "secret") Unrestricted start u ∧
      (acknowledged t.upstream = none ∧ ¬t.Bridged "secret") ∧
      (acknowledged u.upstream = some [] ∧ u.clientReady = true ∧ ¬u.Bridged "secret") :=
  ⟨_, _, reaches_of_exec (Option.some_get early_happens).symm,
    reaches_of_exec (Option.some_get torn_happens).symm, ⟨by decide, early_not_bridged⟩,
    by decide, by decide, torn_not_bridged⟩

end VncPipe

end Proxora
