import Proxora.Framing
import Proxora.VncBridge
import Proxora.Ecma.Json
import Proxora.Ecma.Utf8

/-!
# The bridge of a text console

`pipeTerm` of `server/ws/console-proxy.ts` between the page of `components/console/web-console.tsx`
and termproxy. Termproxy gets the ticket line and then one stream of frames: input with its length
in bytes, the size of the terminal, and pings. The bridge takes the acknowledgement `OK` off what
comes back. An event is a message of either socket, the opening of the upstream one, the timer, the
end of a socket, or an event of the sockets that ends the bridge; `parse` is `JSON.parse`.

`TermPipe.termproxy_reads` says what termproxy reads off its stream, and `TermPipe.browser_sees`
what the page has been sent of the upstream's.
-/

namespace Proxora

open Ecma Files Framing Runs

/-! ## Frames to termproxy -/

inductive TermCommand : Type
  | input (data : Text)
  | size (cols rows : Text)
  | ping
deriving DecidableEq

/-- The text of a frame as the bridge sends it. -/
def TermCommand.frame : TermCommand → Text
  | input data => '0' :: ':' :: ((toString (utf8Encode data).length : String).toList ++ ':' :: data)
  | size cols rows => '1' :: ':' :: (cols ++ ':' :: (rows ++ [':']))
  | ping => ['2']

/-- The bytes of a frame. -/
def TermCommand.bytes (command : TermCommand) : Bytes := utf8Encode command.frame

/-- No colon runs into the fields of a size. -/
def TermCommand.Plain : TermCommand → Prop
  | size cols rows => ':' ∉ cols ∧ ':' ∉ rows
  | _ => True

def colonByte : UInt8 := 0x3a

/-- The field before the next colon, and what follows it. -/
def field (stream : Bytes) : Option (Text × Bytes) :=
  match stream.dropWhile (· ≠ colonByte) with
  | [] => none
  | _ :: rest => some (utf8Text (stream.takeWhile (· ≠ colonByte)), rest)

/-- Input of so many bytes. -/
def readInput (length : Text) (rest : Bytes) : Option (TermCommand × Bytes) :=
  if digitsValue length ≤ rest.length then
    some (.input (utf8Text (rest.take (digitsValue length))), rest.drop (digitsValue length))
  else none

/-- One frame off a stream: the kind, then fields that end in colons. -/
def readFrame : Bytes → Option (TermCommand × Bytes)
  | [] => none
  | kind :: rest =>
      if kind = 0x32 then some (.ping, rest)
      else
        (field rest).bind fun blank =>
          (field blank.2).bind fun first =>
            if kind = 0x30 then readInput first.1 first.2
            else (field first.2).map fun second => (.size first.1 second.1, second.2)

/-! ## The frames are read back -/

/-- A byte of ASCII in the bytes of a character is the character. -/
theorem byte_of_mem_utf8EncodeChar {c : Char} {b : UInt8} (ascii : b.toNat < 0x80)
    (member : b ∈ String.utf8EncodeChar c) : b.toNat = c.toNat := by
  have byte {n : Nat} (small : n < 256) : (UInt8.ofNat n).toNat = n := by
    rw [UInt8.toNat_ofNat', Nat.mod_eq_of_lt small]
  have inside (n : Nat) (other : b = UInt8.ofNat (n % 0x40 + 0x80)) : False := by
    rw [other, byte (by omega)] at ascii
    omega
  by_cases one : c.toNat ≤ 0x7F
  · have bytes : String.utf8EncodeChar c = [UInt8.ofNat c.toNat] := if_pos one
    rw [bytes, List.mem_singleton] at member
    rw [member, byte (by omega)]
  by_cases two : c.toNat ≤ 0x7FF
  · have bytes : String.utf8EncodeChar c = [UInt8.ofNat (c.toNat / 64 % 0x20 + 0xC0),
        UInt8.ofNat (c.toNat % 0x40 + 0x80)] := (if_neg one).trans (if_pos two)
    rw [bytes] at member
    rcases List.mem_cons.mp member with lead | member
    · rw [lead, byte (by omega)] at ascii
      omega
    · exact (inside _ (List.mem_singleton.mp member)).elim
  by_cases three : c.toNat ≤ 0xFFFF
  · have bytes : String.utf8EncodeChar c = [UInt8.ofNat (c.toNat / 4096 % 0x10 + 0xE0),
        UInt8.ofNat (c.toNat / 64 % 0x40 + 0x80), UInt8.ofNat (c.toNat % 0x40 + 0x80)] :=
      ((if_neg one).trans (if_neg two)).trans (if_pos three)
    rw [bytes] at member
    rcases List.mem_cons.mp member with lead | member
    · rw [lead, byte (by omega)] at ascii
      omega
    · rcases List.mem_cons.mp member with second | member
      · exact (inside _ second).elim
      · exact (inside _ (List.mem_singleton.mp member)).elim
  · have bytes : String.utf8EncodeChar c = [UInt8.ofNat (c.toNat / 262144 % 0x08 + 0xF0),
        UInt8.ofNat (c.toNat / 4096 % 0x40 + 0x80), UInt8.ofNat (c.toNat / 64 % 0x40 + 0x80),
        UInt8.ofNat (c.toNat % 0x40 + 0x80)] :=
      ((if_neg one).trans (if_neg two)).trans (if_neg three)
    rw [bytes] at member
    rcases List.mem_cons.mp member with lead | member
    · rw [lead, byte (by omega)] at ascii
      omega
    · rcases List.mem_cons.mp member with second | member
      · exact (inside _ second).elim
      · rcases List.mem_cons.mp member with third | member
        · exact (inside _ third).elim
        · exact (inside _ (List.mem_singleton.mp member)).elim

theorem colonByte_notMem {s : Text} (free : ':' ∉ s) : colonByte ∉ utf8Encode s := by
  intro member
  obtain ⟨c, inside, here⟩ := List.mem_flatMap.mp member
  have same : (':' : Char).toNat = c.toNat := byte_of_mem_utf8EncodeChar (by decide) here
  exact free (Char.toNat_inj.mp same ▸ inside)

theorem utf8Encode_cons (c : Char) (s : Text) :
    utf8Encode (c :: s) = String.utf8EncodeChar c ++ utf8Encode s := List.flatMap_cons

theorem utf8Encode_append (s t : Text) : utf8Encode (s ++ t) = utf8Encode s ++ utf8Encode t :=
  List.flatMap_append

/-- A field without a colon is read back. -/
theorem field_of_free {s : Text} (free : ':' ∉ s) (rest : Bytes) :
    field (utf8Encode s ++ colonByte :: rest) = some (s, rest) := by
  have inside : ∀ b ∈ utf8Encode s, decide (b ≠ colonByte) = true := fun b member =>
    decide_eq_true fun same => colonByte_notMem free (same ▸ member)
  rw [field, List.dropWhile_append_of_pos inside, List.takeWhile_append_of_pos inside,
    List.dropWhile_cons_of_neg (by simp), List.takeWhile_cons_of_neg (by simp), List.append_nil,
    utf8Text_utf8Encode]

theorem field_blank (rest : Bytes) : field (colonByte :: rest) = some ([], rest) :=
  field_of_free (s := []) nofun rest

theorem colon_notMem_natural (n : Nat) : ':' ∉ (toString n : String).toList := fun inside =>
  absurd (digits_toString _ inside) (by decide)

theorem bytes_input (data : Text) : (TermCommand.input data).bytes =
    0x30 :: colonByte :: (utf8Encode (toString (utf8Encode data).length : String).toList ++
      colonByte :: utf8Encode data) := by
  rw [TermCommand.bytes, TermCommand.frame, utf8Encode_cons, utf8Encode_cons, utf8Encode_append,
    utf8Encode_cons]
  rfl

theorem bytes_size (cols rows : Text) : (TermCommand.size cols rows).bytes =
    0x31 :: colonByte :: (utf8Encode cols ++ colonByte :: (utf8Encode rows ++ [colonByte])) := by
  rw [TermCommand.bytes, TermCommand.frame, utf8Encode_cons, utf8Encode_cons, utf8Encode_append,
    utf8Encode_cons, utf8Encode_append]
  rfl

theorem readFrame_input (data : Text) (rest : Bytes) :
    readFrame ((TermCommand.input data).bytes ++ rest) = some (.input data, rest) := by
  have counted := field_of_free (colon_notMem_natural (utf8Encode data).length)
    (utf8Encode data ++ rest)
  have enough : (utf8Encode data).length ≤ (utf8Encode data ++ rest).length := by
    rw [List.length_append]
    omega
  rw [bytes_input, List.cons_append, List.cons_append, List.append_assoc, List.cons_append,
    readFrame, if_neg (by decide), field_blank, Option.bind_some, counted, Option.bind_some,
    if_pos rfl, readInput, digitsValue_toString, if_pos enough, List.take_left, List.drop_left,
    utf8Text_utf8Encode]

theorem readFrame_size {cols rows : Text} (plain : (TermCommand.size cols rows).Plain)
    (rest : Bytes) :
    readFrame ((TermCommand.size cols rows).bytes ++ rest) = some (.size cols rows, rest) := by
  have first := field_of_free plain.1 (utf8Encode rows ++ colonByte :: rest)
  have second := field_of_free plain.2 rest
  rw [bytes_size, List.cons_append, List.cons_append, List.append_assoc, List.cons_append,
    List.append_assoc, List.cons_append, List.nil_append, readFrame, if_neg (by decide),
    field_blank, Option.bind_some, first, Option.bind_some, if_neg (by decide), second]
  rfl

/-- What the bridge writes is what termproxy reads, as long as the sizes are plain. -/
theorem frames_to_termproxy : Frames TermCommand.bytes readFrame TermCommand.Plain where
  some_unit command _ := by
    cases command with
    | input data => rw [bytes_input]; exact List.cons_ne_nil _ _
    | size cols rows => rw [bytes_size]; exact List.cons_ne_nil _ _
    | ping => exact List.cons_ne_nil _ _
  reads command rest plain := by
    cases command with
    | input data => exact readFrame_input data rest
    | size cols rows => exact readFrame_size plain rest
    | ping => rfl

/-! ## Messages of the browser -/

/-- What the page sends as JSON: what is typed or pasted, the size of the terminal, a ping. -/
inductive PageMessage : Type
  | input (data : Text)
  | resize (cols rows : PNat)
  | ping

namespace PageMessage

def message : PageMessage → Json Text Double
  | input data => .ofProperties [("type", some (.str "input")), ("data", some (.str data))]
  | resize cols rows =>
      .ofProperties [("type", some (.str "resize")), ("cols", some (.num (.finite (cols : Nat)))),
        ("rows", some (.num (.finite (rows : Nat))))]
  | ping => .ofProperties [("type", some (.str "ping"))]

/-- What a message asks of termproxy. -/
def command : PageMessage → TermCommand
  | input data => .input data
  | resize cols rows =>
      .size (Double.finite (cols : Nat)).text (Double.finite (rows : Nat)).text
  | ping => .ping

end PageMessage

/-- The frames for a message with its text and what `JSON.parse` makes of it. Where something
throws, the text itself is the input: `JSON.parse`, a property of null, a template with an object
that has no text, and the length of what is no text. -/
def commandsOf (text : Text) : Option (Json Text Double) → List TermCommand
  | none | some .null => [.input text]
  | some parsed =>
      if Json.isText (parsed.member ("type" : Text)) ("resize" : Text) &&
          Json.truthy (parsed.member ("cols" : Text)) &&
          Json.truthy (parsed.member ("rows" : Text)) then
        match (parsed.member ("cols" : Text)).bind Json.text,
          (parsed.member ("rows" : Text)).bind Json.text with
        | some cols, some rows => [.size cols rows]
        | _, _ => [.input text]
      else if Json.isText (parsed.member ("type" : Text)) ("input" : Text) then
        match parsed.member ("data" : Text) with
        | none => []
        | some (.str data) => [.input data]
        | some _ => [.input text]
      else if Json.isText (parsed.member ("type" : Text)) ("ping" : Text) then [.ping]
      else []

/-! ## The pipe -/

/-- The `readyState` of the upstream socket; `ending` is closing or closed. -/
inductive Ready : Type
  | connecting
  | running
  | ending
deriving DecidableEq

/-- A frame to termproxy: the ticket line or a command. -/
inductive TermFrame : Type
  | ticket
  | command (command : TermCommand)
deriving DecidableEq

/-- A frame to the browser: a status, or bytes of the upstream. -/
inductive TermNotice : Type
  | connected
  | error (message code : Text)
  | output (bytes : Bytes)
deriving DecidableEq

/-- The last three fields only record what the upstream has said, and what the browser's messages
have asked for before and after the handshake while the upstream was open. -/
structure TermPipe where
  handshake : Bool
  handshakeBuf : Bytes
  handshakeTimer : Bool
  remote : Ready
  browserOpen : Bool
  remoteFrames : List TermFrame
  browserFrames : List TermNotice
  upstream : Bytes
  early : List TermCommand
  late : List TermCommand
deriving DecidableEq

inductive TermEvent : Type
  | remoteOpen
  | remoteMessage (chunk : Bytes)
  /-- A message of the page, with its text. -/
  | pageMessage (message : PageMessage) (text : Text)
  /-- Any other message of the browser. -/
  | otherMessage (data : Bytes)
  | handshakeTimer
  /-- A socket leaves the state `OPEN`, and its event has not come yet. -/
  | remoteEnds
  | browserEnds
  /-- `close` or `error` of a socket -/
  | finish

/-- `buffer.toString("latin1")` -/
def latin1 (bytes : Bytes) : Text := bytes.map fun b => Char.ofNat b.toNat

/-- `/unable to find a serial interface/i` -/
def isTermproxySerialError (text : Text) : Bool :=
  includes (text.map Char.toLower) "unable to find a serial interface"

/-- `text.replace(/^OK\r?\n?/, "")`, in bytes. -/
def withoutOk (stream : Bytes) : Bytes :=
  if [0x4f, 0x4b] <+: stream then dropLineEnd (stream.drop 2) else stream

namespace TermPipe

/-- The pipe when `pipeTerm` returns. -/
def start : TermPipe where
  handshake := true
  handshakeBuf := []
  handshakeTimer := true
  remote := .connecting
  browserOpen := true
  remoteFrames := []
  browserFrames := []
  upstream := []
  early := []
  late := []

/-- `browser.send` where the socket is open. -/
def sendBrowser (s : TermPipe) (frame : TermNotice) : TermPipe :=
  if s.browserOpen then { s with browserFrames := s.browserFrames ++ [frame] } else s

/-- `remote.send` where the socket is open. -/
def sendRemote (s : TermPipe) (commands : List TermCommand) : TermPipe :=
  if s.remote = .running then
    { s with remoteFrames := s.remoteFrames ++ commands.map .command }
  else s

/-- `finish`, which closes both sockets. -/
def finish (s : TermPipe) : TermPipe :=
  { s with handshakeTimer := false, remote := .ending, browserOpen := false }

def noSerial (s : TermPipe) : TermPipe :=
  (s.sendBrowser (.error "unable to find a serial interface" "no-serial")).finish

/-- The end of the handshake: what follows the acknowledgement goes to the browser, and the size of
its terminal to termproxy. -/
def greet (cols rows : Double) (s : TermPipe) (buf : Bytes) : TermPipe :=
  let greeted := ({ s with
    handshake := false
    handshakeBuf := buf
    handshakeTimer := false } : TermPipe).sendBrowser .connected
  if isTermproxySerialError (latin1 buf) then greeted.noSerial
  else
    let told :=
      if withoutOk buf ≠ [] then greeted.sendBrowser (.output (withoutOk buf)) else greeted
    told.sendRemote [.size cols.text rows.text]

def onRemoteMessage (cols rows : Double) (s : TermPipe) (chunk : Bytes) : TermPipe :=
  if s.handshake then
    let buf := s.handshakeBuf ++ chunk
    if ¬[0x4f, 0x4b] <+: buf ∧ buf.length < 2 then { s with handshakeBuf := buf }
    else s.greet cols rows buf
  else if isTermproxySerialError (latin1 chunk) then s.noSerial
  else s.sendBrowser (.output chunk)

/-- A message of the browser; the last step only records it. -/
def onBrowserMessage (s : TermPipe) (commands asked : List TermCommand) : TermPipe :=
  if s.remote = .running then
    let sent := s.sendRemote commands
    if s.handshake then { sent with early := sent.early ++ asked }
    else { sent with late := sent.late ++ asked }
  else s

def step (parse : Text → Option (Json Text Double)) (cols rows : Double) (s : TermPipe) :
    TermEvent → Option TermPipe
  | .remoteOpen =>
      if s.remote = .connecting then
        some { s with remote := .running, remoteFrames := s.remoteFrames ++ [.ticket] }
      else none
  | .remoteMessage chunk =>
      if s.remote = .connecting then none
      else some (({ s with upstream := s.upstream ++ chunk } : TermPipe).onRemoteMessage cols rows
        chunk)
  | .pageMessage message text =>
      some (s.onBrowserMessage (commandsOf text (some message.message)) [message.command])
  | .otherMessage data =>
      let commands := commandsOf (utf8Text data) (parse (utf8Text data))
      some (s.onBrowserMessage commands commands)
  | .handshakeTimer =>
      if s.handshakeTimer then
        if s.handshake then
          some (s.sendBrowser (.error "Console handshake timed out." "timeout")).finish
        else some { s with handshakeTimer := false }
      else none
  | .remoteEnds => some { s with remote := .ending }
  | .browserEnds => some { s with browserOpen := false }
  | .finish => some s.finish

/-! ## The way to termproxy -/

/-- The bytes of the frames to termproxy, with the ticket line. -/
def wire (line : Text) (s : TermPipe) : Bytes :=
  s.remoteFrames.flatMap fun frame =>
    match frame with
    | .ticket => utf8Encode line
    | .command command => command.bytes

/-- The sizes that other messages than the page's ask for are plain. -/
def Plain (parse : Text → Option (Json Text Double)) (_ : TermPipe) : TermEvent → Prop
  | .otherMessage data => ∀ c ∈ commandsOf (utf8Text data) (parse (utf8Text data)), c.Plain
  | _ => True

/-- Before the upstream is open nothing is out; then the ticket line, what was asked for, and the
size where the handshake has ended. -/
def Typed (size : TermCommand) (s : TermPipe) : Prop :=
  s.remoteFrames = [] ∧ s.early = [] ∧ s.late = [] ∧ s.remote ≠ .running ∧
      (s.remote = .connecting → s.handshake = true) ∨
    ∃ sized, s.remoteFrames = .ticket :: (s.early ++ sized ++ s.late).map .command ∧
      s.remote ≠ .connecting ∧ (∀ c ∈ s.early ++ s.late, c.Plain) ∧
      (s.handshake = true ∧ sized = [] ∧ s.late = [] ∨
        s.handshake = false ∧ (sized = [size] ∨ sized = [] ∧ s.late = [] ∧ s.remote = .ending))

end TermPipe

theorem colon_notMem_double (x : Double) : ':' ∉ x.text := fun inside =>
  absurd (x.chars_text _ inside) (by decide)

theorem PageMessage.command_plain (message : PageMessage) : message.command.Plain := by
  cases message with
  | resize cols rows => exact ⟨colon_notMem_double _, colon_notMem_double _⟩
  | _ => trivial

/-- A message of the page becomes the one frame that it asks for. -/
theorem commandsOf_message (message : PageMessage) (text : Text) :
    commandsOf text (some message.message) = [message.command] := by
  cases message with
  | input data => rfl
  | resize cols rows =>
      have truthy (n : PNat) : Json.truthy (some (.num (.finite ((n : Nat) : Rat)))) = true := by
        have some_cells : ((n : Nat) : Rat) ≠ 0 := by
          rw [Nat.cast_ne_zero]
          exact n.ne_zero
        simp [Json.truthy, some_cells]
      have kind : (PageMessage.resize cols rows).message.member ("type" : Text) =
          some (.str ("resize" : Text)) := rfl
      have width : (PageMessage.resize cols rows).message.member ("cols" : Text) =
          some (.num (.finite ((cols : Nat) : Rat))) := rfl
      have height : (PageMessage.resize cols rows).message.member ("rows" : Text) =
          some (.num (.finite ((rows : Nat) : Rat))) := rfl
      have both : (Json.isText (some (Json.str (N := Double) ("resize" : Text)))
          ("resize" : Text) && Json.truthy (some (.num (.finite ((cols : Nat) : Rat)))) &&
            Json.truthy (some (.num (.finite ((rows : Nat) : Rat))))) = true := by
        rw [truthy, truthy]
        rfl
      rw [commandsOf, kind, width, height, if_pos both]
      · rfl
      · exact nofun
  | ping => rfl

namespace TermPipe

variable {parse : Text → Option (Json Text Double)} {cols rows : Double} {s t : TermPipe}
  {e : TermEvent} {size : TermCommand}

/-! ### Frames to one socket leave the rest alone -/

theorem sendBrowser_eq (frame : TermNotice) :
    s.sendBrowser frame = { s with browserFrames := (s.sendBrowser frame).browserFrames } := by
  unfold sendBrowser
  split <;> rfl

@[simp] theorem sendBrowser_handshake (frame : TermNotice) :
    (s.sendBrowser frame).handshake = s.handshake := by rw [sendBrowser_eq]

@[simp] theorem sendBrowser_handshakeBuf (frame : TermNotice) :
    (s.sendBrowser frame).handshakeBuf = s.handshakeBuf := by rw [sendBrowser_eq]

@[simp] theorem sendBrowser_upstream (frame : TermNotice) :
    (s.sendBrowser frame).upstream = s.upstream := by rw [sendBrowser_eq]

theorem sendRemote_running (running : s.remote = .running) (commands : List TermCommand) :
    s.sendRemote commands =
      { s with remoteFrames := s.remoteFrames ++ commands.map .command } := if_pos running

theorem typed_start : start.Typed size := Or.inl ⟨rfl, rfl, rfl, nofun, fun _ => rfl⟩

/-- What the browser gets does not matter here. -/
theorem Typed.sendBrowser (typed : s.Typed size) (frame : TermNotice) :
    (s.sendBrowser frame).Typed size := by
  rw [sendBrowser_eq]
  exact typed

theorem Typed.ending (typed : s.Typed size) : ({ s with remote := .ending } : TermPipe).Typed size := by
  rcases typed with ⟨frames, early, late, -⟩ | ⟨sized, frames, -, plain, phase⟩
  · exact Or.inl ⟨frames, early, late, nofun, nofun⟩
  · refine Or.inr ⟨sized, frames, nofun, plain, ?_⟩
    rcases phase with waits | ⟨done, sent | ⟨none, late, -⟩⟩
    · exact Or.inl waits
    · exact Or.inr ⟨done, Or.inl sent⟩
    · exact Or.inr ⟨done, Or.inr ⟨none, late, rfl⟩⟩

theorem Typed.finish (typed : s.Typed size) : s.finish.Typed size := typed.ending

theorem Typed.noSerial (typed : s.Typed size) : s.noSerial.Typed size :=
  (typed.sendBrowser _).finish

/-- The frames to the browser at the end of the handshake. -/
def greeting (s : TermPipe) (buf : Bytes) : List TermNotice :=
  if s.browserOpen then
    if isTermproxySerialError (latin1 buf) then
      [.connected, .error "unable to find a serial interface" "no-serial"]
    else if withoutOk buf ≠ [] then [.connected, .output (withoutOk buf)]
    else [.connected]
  else []

/-- The end of the handshake, its frames together. -/
theorem greet_eq (buf : Bytes) :
    s.greet cols rows buf =
      if isTermproxySerialError (latin1 buf) then
        ({ s with
          handshake := false
          handshakeBuf := buf
          handshakeTimer := false
          browserFrames := s.browserFrames ++ s.greeting buf } : TermPipe).finish
      else
        ({ s with
          handshake := false
          handshakeBuf := buf
          handshakeTimer := false
          browserFrames := s.browserFrames ++ s.greeting buf } : TermPipe).sendRemote
            [.size cols.text rows.text] := by
  unfold greet greeting
  dsimp only
  cases shown : s.browserOpen with
  | false => simp [sendBrowser, noSerial, finish]
  | true =>
      by_cases serial : isTermproxySerialError (latin1 buf) = true
      · simp [sendBrowser, noSerial, finish, serial]
      · by_cases nothing : withoutOk buf = []
        · simp [sendBrowser, serial, nothing]
        · simp [sendBrowser, serial, nothing]

/-- The end of the handshake sends the size where the upstream is open. -/
theorem Typed.greet (typed : s.Typed (.size cols.text rows.text)) (waits : s.handshake = true)
    (heard : s.remote ≠ .connecting) (buf : Bytes) :
    (s.greet cols rows buf).Typed (.size cols.text rows.text) := by
  rw [greet_eq]
  split
  · rcases typed with ⟨frames, early, late, -⟩ | ⟨sized, frames, -, plain, ⟨-, none, late⟩ | done⟩
    · exact Or.inl ⟨frames, early, late, nofun, nofun⟩
    · exact Or.inr ⟨sized, frames, nofun, plain, Or.inr ⟨rfl, Or.inr ⟨none, late, rfl⟩⟩⟩
    · exact absurd waits (Bool.eq_false_iff.mp done.1)
  · rw [TermPipe.sendRemote]
    rcases typed with ⟨frames, early, late, other, -⟩ | ⟨sized, frames, -, plain, phase⟩
    · rw [if_neg other]
      exact Or.inl ⟨frames, early, late, other, fun before => absurd before heard⟩
    · rcases phase with ⟨-, none, late⟩ | done
      · by_cases running : s.remote = .running
        · rw [if_pos running]
          refine Or.inr ⟨[.size cols.text rows.text], ?_, heard, plain, Or.inr ⟨rfl, Or.inl rfl⟩⟩
          change s.remoteFrames ++ _ = .ticket :: (s.early ++ _ ++ s.late).map .command
          rw [frames, none, late]
          simp
        · rw [if_neg running]
          have ending : s.remote = .ending := by
            cases state : s.remote with
            | connecting => exact absurd state heard
            | running => exact absurd state running
            | ending => rfl
          exact Or.inr ⟨sized, frames, heard, plain, Or.inr ⟨rfl, Or.inr ⟨none, late, ending⟩⟩⟩
      · exact absurd waits (Bool.eq_false_iff.mp done.1)

theorem Typed.onRemoteMessage (typed : s.Typed (.size cols.text rows.text))
    (heard : s.remote ≠ .connecting) (chunk : Bytes) :
    (s.onRemoteMessage cols rows chunk).Typed (.size cols.text rows.text) := by
  unfold TermPipe.onRemoteMessage
  split
  · next waits =>
      dsimp only
      split
      · exact typed
      · exact typed.greet waits heard _
  · split
    · exact typed.noSerial
    · exact typed.sendBrowser _

/-- A message of the browser goes out as what it asks for. -/
theorem Typed.onBrowserMessage (typed : s.Typed size) {commands : List TermCommand}
    (plain : ∀ c ∈ commands, c.Plain) : (s.onBrowserMessage commands commands).Typed size := by
  unfold TermPipe.onBrowserMessage
  split
  · next running =>
      rw [sendRemote_running running]
      rcases typed with ⟨-, -, -, other, -⟩ | ⟨sized, frames, opened, before, phase⟩
      · exact absurd running other
      · dsimp only
        rcases phase with ⟨waits, none, late⟩ | ⟨done, sent⟩
        · rw [if_pos waits]
          refine Or.inr ⟨sized, ?_, opened, ?_, Or.inl ⟨waits, none, late⟩⟩
          · change s.remoteFrames ++ _ = .ticket :: (s.early ++ commands ++ sized ++ s.late).map _
            rw [frames, none, late]
            simp
          · change ∀ c ∈ s.early ++ commands ++ s.late, c.Plain
            intro c member
            rw [List.append_assoc, List.mem_append, List.mem_append] at member
            rcases member with inside | inside | inside
            · exact before c (List.mem_append_left _ inside)
            · exact plain c inside
            · exact before c (List.mem_append_right _ inside)
        · have sized_is : sized = [size] := by
            rcases sent with sent | ⟨-, -, ending⟩
            · exact sent
            · exact absurd (running.symm.trans ending) nofun
          rw [if_neg (Bool.eq_false_iff.mp done)]
          refine Or.inr ⟨sized, ?_, opened, ?_, Or.inr ⟨done, Or.inl sized_is⟩⟩
          · change s.remoteFrames ++ _ = .ticket :: (s.early ++ sized ++ (s.late ++ commands)).map _
            rw [frames]
            simp
          · change ∀ c ∈ s.early ++ (s.late ++ commands), c.Plain
            rw [← List.append_assoc]
            exact List.forall_mem_append.mpr ⟨before, plain⟩
  · exact typed

/-- **Step.** Every event keeps what is on its way to termproxy. -/
theorem Typed.step (typed : s.Typed (.size cols.text rows.text)) (plain : Plain parse s e)
    (happens : step parse cols rows s e = some t) : t.Typed (.size cols.text rows.text) := by
  cases e with
  | remoteOpen =>
      simp only [TermPipe.step, Option.ite_none_right_eq_some, Option.some.injEq] at happens
      obtain ⟨connecting, rfl⟩ := happens
      rcases typed with ⟨frames, early, late, -, waits⟩ | ⟨-, -, opened, -⟩
      · refine Or.inr ⟨[], ?_, nofun, ?_, Or.inl ⟨waits connecting, rfl, late⟩⟩
        · change s.remoteFrames ++ [.ticket] = .ticket :: (s.early ++ [] ++ s.late).map _
          rw [frames, early, late]
          rfl
        · change ∀ c ∈ s.early ++ s.late, c.Plain
          rw [early, late]
          exact nofun
      · exact absurd connecting opened
  | remoteMessage chunk =>
      simp only [TermPipe.step, Option.ite_none_left_eq_some, Option.some.injEq] at happens
      obtain ⟨heard, rfl⟩ := happens
      exact Typed.onRemoteMessage (s := { s with upstream := s.upstream ++ chunk }) typed heard chunk
  | pageMessage message text =>
      cases happens
      rw [commandsOf_message]
      exact typed.onBrowserMessage (List.forall_mem_singleton.mpr message.command_plain)
  | otherMessage data =>
      cases happens
      exact typed.onBrowserMessage plain
  | handshakeTimer =>
      simp only [TermPipe.step, Option.ite_none_right_eq_some] at happens
      obtain ⟨-, happens⟩ := happens
      split at happens
      · cases happens
        exact (typed.sendBrowser _).finish
      · cases happens
        exact typed
  | remoteEnds =>
      cases happens
      exact typed.ending
  | browserEnds =>
      cases happens
      exact typed
  | finish =>
      cases happens
      exact typed.finish

theorem wire_of_commands {line : Text} {commands : List TermCommand}
    (frames : s.remoteFrames = .ticket :: commands.map .command) :
    s.wire line = utf8Encode line ++ commands.flatMap TermCommand.bytes := by
  rw [wire, frames, List.flatMap_cons, List.flatMap_map]

/-- What the browser is to get of the upstream's stream. -/
def following (s : TermPipe) : Bytes := if s.handshake then [] else withoutOk s.upstream

/-- A beginning of it, perhaps with an error behind. -/
def Cut (s : TermPipe) : Prop :=
  ∃ (chunks : List Bytes) (ending : List TermNotice),
    (s.browserFrames = ending ∨
      s.browserFrames = .connected :: (chunks.map .output ++ ending)) ∧
    chunks.flatten <+: s.following ∧
    (ending = [] ∨ ∃ message code, ending = [.error message code])

/-- No chunk brings the rest of the line end of an `OK` that came without it. -/
def Whole (s : TermPipe) : TermEvent → Prop
  | .remoteMessage chunk => ¬VncPipe.TearsLineEnd s.upstream chunk
  | _ => True

instance (s : TermPipe) : ∀ e, Decidable (s.Whole e)
  | .remoteMessage _ => inferInstanceAs (Decidable (¬_))
  | .remoteOpen | .pageMessage _ _ | .otherMessage _ | .handshakeTimer | .remoteEnds
  | .browserEnds | .finish => inferInstanceAs (Decidable True)

/-- While the browser is there it has all of the stream, and a beginning of it afterwards. -/
structure Seen (s : TermPipe) : Prop where
  buffer : s.handshake = true → s.handshakeBuf = s.upstream ∧ s.upstream.length < 2
  enough : s.handshake = false → 2 ≤ s.upstream.length
  waiting : s.browserOpen = true → s.handshake = true → s.browserFrames = []
  live : s.browserOpen = true → s.handshake = false →
    ∃ chunks : List Bytes, s.browserFrames = .connected :: chunks.map .output ∧
      chunks.flatten = withoutOk s.upstream
  cut : s.Cut

theorem withoutOk_append {stream chunk : Bytes} (enough : 2 ≤ stream.length)
    (intact : ¬VncPipe.TearsLineEnd stream chunk) :
    withoutOk (stream ++ chunk) = withoutOk stream ++ chunk := by
  have two : (stream ++ chunk).take 2 = stream.take 2 := List.take_append_of_le_length enough
  have same : ([0x4f, 0x4b] : Bytes) <+: stream ++ chunk ↔ ([0x4f, 0x4b] : Bytes) <+: stream := by
    rw [List.prefix_iff_eq_take, List.prefix_iff_eq_take]
    exact two ▸ Iff.rfl
  unfold withoutOk
  by_cases ok : ([0x4f, 0x4b] : Bytes) <+: stream
  · obtain ⟨rest, rfl⟩ := ok
    rw [if_pos (same.mpr (List.prefix_append _ _)), if_pos (List.prefix_append _ _),
      List.append_assoc]
    refine @dropLineEnd_append rest _ ?_ ?_
    · rintro rfl
      exact ⟨fun first => intact (Or.inl ⟨rfl, Or.inl first⟩),
        fun first => intact (Or.inl ⟨rfl, Or.inr first⟩)⟩
    · rintro rfl
      exact fun first => intact (Or.inr ⟨rfl, first⟩)
  · rw [if_neg fun longer => ok (same.mp longer), if_neg ok]

/-- The ends of the sockets cut the stream off. -/
theorem Seen.close (seen : s.Seen) : ({ s with browserOpen := false } : TermPipe).Seen :=
  ⟨seen.buffer, seen.enough, nofun, nofun, seen.cut⟩

theorem Seen.finish (seen : s.Seen) : s.finish.Seen :=
  ⟨seen.buffer, seen.enough, nofun, nofun, seen.cut⟩

theorem Seen.sendRemote (seen : s.Seen) (commands : List TermCommand) :
    (s.sendRemote commands).Seen := by
  rw [TermPipe.sendRemote]
  split
  · exact ⟨seen.buffer, seen.enough, seen.waiting, seen.live, seen.cut⟩
  · exact seen

theorem Seen.onBrowserMessage (seen : s.Seen) (commands asked : List TermCommand) :
    (s.onBrowserMessage commands asked).Seen := by
  have sent := seen.sendRemote commands
  unfold TermPipe.onBrowserMessage
  split
  · dsimp only
    split
    · exact ⟨sent.buffer, sent.enough, sent.waiting, sent.live, sent.cut⟩
    · exact ⟨sent.buffer, sent.enough, sent.waiting, sent.live, sent.cut⟩
  · exact seen

theorem Cut.mono (cut : s.Cut) (frames : t.browserFrames = s.browserFrames)
    (longer : s.following <+: t.following) : t.Cut := by
  obtain ⟨chunks, ending, forms, inside, last⟩ := cut
  exact ⟨chunks, ending, frames ▸ forms, inside.trans longer, last⟩

/-- An error is the last frame: it is sent only to a browser that is there. -/
theorem Seen.cut_error (seen : s.Seen) (message code : Text) :
    (s.sendBrowser (.error message code)).Cut := by
  rw [sendBrowser]
  split
  · next shown =>
      cases waits : s.handshake with
      | true =>
          refine ⟨[], [.error message code], Or.inl ?_, List.nil_prefix, Or.inr ⟨_, _, rfl⟩⟩
          change s.browserFrames ++ _ = _
          rw [seen.waiting shown waits, List.nil_append]
      | false =>
          obtain ⟨chunks, frames, whole⟩ := seen.live shown waits
          refine ⟨chunks, [.error message code], Or.inr ?_, ?_, Or.inr ⟨_, _, rfl⟩⟩
          · change s.browserFrames ++ _ = _
            rw [frames, List.cons_append]
          · rw [whole]
            exact List.prefix_refl _
  · exact seen.cut

/-- The end of the handshake, with all that the upstream has said. -/
theorem Seen.greet {chunk : Bytes} (seen : s.Seen) (waits : s.handshake = true)
    (enough : 2 ≤ (s.upstream ++ chunk).length) :
    (({ s with upstream := s.upstream ++ chunk } : TermPipe).greet cols rows
      (s.upstream ++ chunk)).Seen := by
  have gone : s.browserOpen = false → ∀ t : TermPipe,
      t.browserFrames = s.browserFrames ++ s.greeting (s.upstream ++ chunk) → t.Cut := by
    intro shown t frames
    rw [greeting, shown, if_neg Bool.false_ne_true, List.append_nil] at frames
    apply seen.cut.mono frames
    rw [following, waits]
    exact List.nil_prefix
  rw [greet_eq]
  change (if isTermproxySerialError (latin1 (s.upstream ++ chunk)) then
    ({ s with
      upstream := s.upstream ++ chunk
      handshake := false
      handshakeBuf := s.upstream ++ chunk
      handshakeTimer := false
      browserFrames := s.browserFrames ++ s.greeting (s.upstream ++ chunk) } : TermPipe).finish
    else
    ({ s with
      upstream := s.upstream ++ chunk
      handshake := false
      handshakeBuf := s.upstream ++ chunk
      handshakeTimer := false
      browserFrames := s.browserFrames ++ s.greeting (s.upstream ++ chunk) } :
        TermPipe).sendRemote [.size cols.text rows.text]).Seen
  by_cases serial : isTermproxySerialError (latin1 (s.upstream ++ chunk)) = true
  · rw [if_pos serial]
    refine ⟨nofun, fun _ => enough, nofun, nofun, ?_⟩
    cases shown : s.browserOpen with
    | false => exact gone shown _ rfl
    | true =>
        refine ⟨[], [.error "unable to find a serial interface" "no-serial"], Or.inr ?_,
          List.nil_prefix, Or.inr ⟨_, _, rfl⟩⟩
        change s.browserFrames ++ s.greeting (s.upstream ++ chunk) = _
        rw [seen.waiting shown waits, greeting, if_pos shown, if_pos serial]
        rfl
  · rw [if_neg serial]
    have live (shown : s.browserOpen = true) : ∃ chunks : List Bytes,
        s.browserFrames ++ s.greeting (s.upstream ++ chunk) = .connected :: chunks.map .output ∧
          chunks.flatten = withoutOk (s.upstream ++ chunk) := by
      rw [seen.waiting shown waits, greeting, if_pos shown, if_neg serial]
      by_cases nothing : withoutOk (s.upstream ++ chunk) = []
      · rw [if_neg (not_not.mpr nothing), nothing]
        exact ⟨[], rfl, rfl⟩
      · rw [if_pos nothing]
        exact ⟨[withoutOk (s.upstream ++ chunk)], rfl, List.flatten_singleton⟩
    apply Seen.sendRemote
    refine ⟨nofun, fun _ => enough, fun _ => nofun, fun shown _ => live shown, ?_⟩
    cases shown : s.browserOpen with
    | false => exact gone shown _ rfl
    | true =>
        obtain ⟨chunks, frames, whole⟩ := live shown
        refine ⟨chunks, [], Or.inr ?_, ?_, Or.inl rfl⟩
        · exact frames.trans (by rw [List.append_nil])
        · rw [whole]
          exact List.prefix_refl _

/-- A chunk behind the handshake. -/
theorem Seen.chunk {chunk : Bytes} (seen : s.Seen) (done : s.handshake = false)
    (intact : ¬VncPipe.TearsLineEnd s.upstream chunk) :
    (({ s with upstream := s.upstream ++ chunk } : TermPipe).sendBrowser (.output chunk)).Seen := by
  have longer := withoutOk_append (seen.enough done) intact
  have enough : 2 ≤ (s.upstream ++ chunk).length := by
    have before := seen.enough done
    rw [List.length_append]
    omega
  rw [sendBrowser]
  split
  · next shown =>
      obtain ⟨chunks, frames, whole⟩ := seen.live shown done
      have all : (chunks ++ [chunk]).flatten = withoutOk (s.upstream ++ chunk) := by
        rw [List.flatten_append, List.flatten_singleton, whole, longer]
      have told : s.browserFrames ++ [.output chunk] =
          .connected :: (chunks ++ [chunk]).map .output := by
        rw [frames, List.map_append]
        rfl
      refine ⟨fun waits => ?_, fun _ => enough, fun _ waits => ?_, fun _ _ => ⟨_, told, all⟩, ?_⟩
      · exact absurd (waits.symm.trans done) nofun
      · exact absurd (waits.symm.trans done) nofun
      · refine ⟨chunks ++ [chunk], [], Or.inr (told.trans (by rw [List.append_nil])), ?_,
          Or.inl rfl⟩
        rw [all, following]
        change _ <+: if s.handshake then [] else withoutOk (s.upstream ++ chunk)
        rw [done]
        exact List.prefix_refl _
  · next gone =>
      refine ⟨fun waits => ?_, fun _ => enough, fun shown => absurd shown gone,
        fun shown => absurd shown gone, seen.cut.mono rfl ?_⟩
      · exact absurd (waits.symm.trans done) nofun
      · rw [following, following]
        change (if s.handshake then [] else _) <+:
          if s.handshake then [] else withoutOk (s.upstream ++ chunk)
        rw [done, longer]
        exact List.prefix_append _ _

/-- A chunk with the error of termproxy. -/
theorem Seen.noSerial {chunk : Bytes} (seen : s.Seen) (done : s.handshake = false)
    (intact : ¬VncPipe.TearsLineEnd s.upstream chunk) :
    ({ s with upstream := s.upstream ++ chunk } : TermPipe).noSerial.Seen := by
  have longer := withoutOk_append (seen.enough done) intact
  have cut := seen.cut_error "unable to find a serial interface" "no-serial"
  refine ⟨fun waits => ?_, fun _ => ?_, nofun, nofun, cut.mono ?_ ?_⟩
  · have still : s.handshake = true := by
      simpa [TermPipe.noSerial, TermPipe.finish] using waits
    exact absurd (still.symm.trans done) nofun
  · have enough := seen.enough done
    have grown : 2 ≤ (s.upstream ++ chunk).length := by
      rw [List.length_append]
      omega
    simpa [TermPipe.noSerial, TermPipe.finish] using grown
  · rw [TermPipe.noSerial, TermPipe.finish, sendBrowser, sendBrowser]
    split <;> rfl
  · simp [following, TermPipe.noSerial, TermPipe.finish, done, longer]

/-- **Step.** Every event without a torn line end keeps what the browser sees. -/
theorem Seen.step (seen : s.Seen) (whole : s.Whole e) (happens : step parse cols rows s e = some t) :
    t.Seen := by
  cases e with
  | remoteOpen =>
      simp only [TermPipe.step, Option.ite_none_right_eq_some, Option.some.injEq] at happens
      obtain ⟨-, rfl⟩ := happens
      exact ⟨seen.buffer, seen.enough, seen.waiting, seen.live, seen.cut⟩
  | remoteMessage chunk =>
      simp only [TermPipe.step, Option.ite_none_left_eq_some, Option.some.injEq] at happens
      obtain ⟨-, rfl⟩ := happens
      unfold onRemoteMessage
      split
      · next waits =>
          obtain ⟨buffer, -⟩ := seen.buffer waits
          dsimp only
          rw [buffer]
          split
          · next short =>
              refine ⟨fun _ => ⟨rfl, short.2⟩, fun done => ?_, seen.waiting,
                fun _ done => ?_, seen.cut.mono rfl ?_⟩
              · exact absurd (waits.symm.trans done) nofun
              · exact absurd (waits.symm.trans done) nofun
              · rw [following, waits]
                exact List.nil_prefix
          · next long =>
              apply seen.greet waits
              by_contra short
              refine long ⟨fun ok => ?_, by omega⟩
              exact short ok.length_le
      · next done =>
          have ended : s.handshake = false := Bool.eq_false_iff.mpr done
          split
          · exact seen.noSerial ended whole
          · exact seen.chunk ended whole
  | pageMessage message text =>
      cases happens
      exact seen.onBrowserMessage _ _
  | otherMessage data =>
      cases happens
      exact seen.onBrowserMessage _ _
  | handshakeTimer =>
      simp only [TermPipe.step, Option.ite_none_right_eq_some] at happens
      obtain ⟨-, happens⟩ := happens
      split at happens
      · cases happens
        have cut := seen.cut_error "Console handshake timed out." "timeout"
        refine ⟨fun waits => ?_, fun done => ?_, nofun, nofun, cut⟩
        · have buffer := seen.buffer (by simpa [TermPipe.finish] using waits)
          simpa [TermPipe.finish] using buffer
        · have enough := seen.enough (by simpa [TermPipe.finish] using done)
          simpa [TermPipe.finish] using enough
      · cases happens
        exact ⟨seen.buffer, seen.enough, seen.waiting, seen.live, seen.cut⟩
  | remoteEnds =>
      cases happens
      exact ⟨seen.buffer, seen.enough, seen.waiting, seen.live, seen.cut⟩
  | browserEnds =>
      cases happens
      exact seen.close
  | finish =>
      cases happens
      exact seen.finish

theorem seen_start : start.Seen :=
  ⟨fun _ => ⟨rfl, Nat.zero_lt_two⟩, nofun, fun _ _ => rfl, nofun,
    ⟨[], [], Or.inl rfl, List.nil_prefix, Or.inl rfl⟩⟩

/-- **What the browser sees.** Nothing before the handshake has ended; then one status and, while
it is there, all that the upstream has said behind the acknowledgement. Where a socket ends it has
a beginning of that, with at most one error behind. -/
theorem browser_sees (parse : Text → Option (Json Text Double)) (cols rows : Double)
    (run : Reaches (TermPipe.step parse cols rows) Whole start s) :
    s.Cut ∧ (s.handshake = true → s.upstream.length < 2) ∧
      (s.browserOpen = true → s.handshake = true → s.browserFrames = []) ∧
      (s.browserOpen = true → s.handshake = false →
        ∃ chunks : List Bytes, s.browserFrames = .connected :: chunks.map .output ∧
          chunks.flatten = withoutOk s.upstream) := by
  have seen : s.Seen :=
    run.keeps seen_start fun _ _ _ before whole happens => before.step whole happens
  exact ⟨seen.cut, fun waits => (seen.buffer waits).2, seen.waiting, seen.live⟩

theorem browser_sees_output : ∃ s, Reaches (TermPipe.step (fun _ => none) (.finite 80) (.finite 24))
    Whole start s ∧ ∃ chunks : List Bytes,
      s.browserFrames = .connected :: chunks.map .output ∧ chunks.flatten = [1, 2, 3] := by
  obtain ⟨s, run, shown, done, said⟩ : ∃ s,
      Reaches (TermPipe.step (fun _ => none) (.finite 80) (.finite 24)) Whole start s ∧
        s.browserOpen = true ∧ s.handshake = false ∧
          s.upstream = [0x4f, 0x4b, 0x0d, 0x0a, 1, 2, 3] :=
    ⟨_, ((Reaches.start.next (e := .remoteOpen) trivial rfl).next
      (e := .remoteMessage [0x4f, 0x4b, 0x0d, 0x0a, 1]) (by decide) rfl).next
        (e := .remoteMessage [2, 3]) (by decide) rfl, rfl, rfl, rfl⟩
  obtain ⟨-, -, -, live⟩ := browser_sees (fun _ => none) (.finite 80) (.finite 24) run
  obtain ⟨chunks, frames, whole⟩ := live shown done
  rw [said] at whole
  exact ⟨s, run, chunks, frames, whole⟩

end TermPipe

end Proxora
