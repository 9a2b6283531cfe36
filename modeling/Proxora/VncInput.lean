import Proxora.Ecma.Text
import Proxora.Histories

/-!
# The keyboard of a graphical console

`lib/vnc-input.ts`, and the `send` of `components/console/vnc-console.tsx`: which keydown and keyup
events of the window are taken for the guest, and which keysyms they are. Whether an event is taken,
and what it is read as, is found from the modifiers, the target and the key value that it comes
with.

`grabbedKeys_law` says when every keysym that was pressed is released: the last event that is read
as a keysym has to be a keyup. It is enough that each key that is sent comes up as it went down.
-/

namespace Proxora

open Ecma Histories

/-! ## Events -/

/-- The target of an event: an element with its tag, and the roles of it and of what it lies in. -/
inductive EventTarget : Type
  | none
  | other
  | element (tagName : Text) (isContentEditable : Bool) (roles : List Text)
deriving DecidableEq, Repr

structure KeyboardEvent where
  key : Text
  code : Text
  ctrlKey : Bool
  metaKey : Bool
  altKey : Bool
  shiftKey : Bool
  target : EventTarget
deriving DecidableEq, Repr

inductive WindowEvent : Type
  | keydown (e : KeyboardEvent)
  | keyup (e : KeyboardEvent)
deriving DecidableEq, Repr

namespace WindowEvent

def event : WindowEvent → KeyboardEvent
  | .keydown e => e
  | .keyup e => e

def isDown : WindowEvent → Bool
  | .keydown _ => true
  | .keyup _ => false

end WindowEvent

/-! ## The filters -/

def isDomTextField : EventTarget → Bool
  | .none => false
  | .other => false
  | .element tagName isContentEditable roles =>
      tagName = "INPUT" || tagName = "TEXTAREA" || tagName = "SELECT" || isContentEditable ||
        roles.any (· = "dialog")

/-- The shortcuts that are left to the browser. -/
def isBrowserChromeKey (e : KeyboardEvent) : Bool :=
  if e.key = "F5" || e.key = "F12" || e.key = "F11" then true
  else if !(e.ctrlKey || e.metaKey) then false
  else toLowerCase e.key ∈ [("r" : Text), "w", "t", "n", "l"]

def isClipboardPasteKey (e : KeyboardEvent) : Bool :=
  if e.altKey || e.shiftKey then false
  else if !(e.ctrlKey || e.metaKey) then false
  else toLowerCase e.key = "v"

def shouldCaptureConsoleKey (e : KeyboardEvent) (active : Bool) : Bool :=
  if !active then false
  else if isDomTextField e.target then false
  else if isBrowserChromeKey e then false
  else true

/-! ## Keysyms -/

/-- The entries that the loop over the function keys adds. -/
def functionKeysyms : List (Text × Nat) :=
  (List.range' 1 12).map fun i => ('F' :: (toString i : String).toList, 0xffbe + i - 1)

/-- The entries that `NAMED_KEYSYMS` begins with. -/
def otherKeysyms : List (Text × Nat) :=
  [(" ", 0x0020), ("Spacebar", 0x0020), ("Enter", 0xff0d), ("Tab", 0xff09), ("Backspace", 0xff08),
    ("Escape", 0xff1b), ("Delete", 0xffff), ("Insert", 0xff63), ("Home", 0xff50), ("End", 0xff57),
    ("PageUp", 0xff55), ("PageDown", 0xff56), ("ArrowLeft", 0xff51), ("ArrowUp", 0xff52),
    ("ArrowRight", 0xff53), ("ArrowDown", 0xff54), ("Shift", 0xffe1), ("Control", 0xffe3),
    ("Alt", 0xffe9), ("Meta", 0xffe7), ("CapsLock", 0xffe5), ("Pause", 0xff13),
    ("ScrollLock", 0xff14), ("PrintScreen", 0xff61), ("ContextMenu", 0xff67)]

/-- `NAMED_KEYSYMS`. -/
def namedKeysyms : List (Text × Nat) := otherKeysyms ++ functionKeysyms

/-- The keysym of a character. -/
def characterKeysym (c : Char) : Nat := if c.toNat < 0x100 then c.toNat else 0x01000000 + c.toNat

def rfbKeysymFromKeyboardEvent (e : KeyboardEvent) : Option Nat :=
  match namedKeysyms.lookup e.key with
  | some named => some named
  | none =>
      if e.code = "Space" then some 0x0020
      else if utf16Length e.key = 1 then e.key.head?.map characterKeysym
      else if e.code = "ShiftLeft" || e.code = "ShiftRight" then
        some (if e.code = "ShiftRight" then 0xffe2 else 0xffe1)
      else if e.code = "ControlLeft" || e.code = "ControlRight" then
        some (if e.code = "ControlRight" then 0xffe4 else 0xffe3)
      else if e.code = "AltLeft" || e.code = "AltRight" then
        some (if e.code = "AltRight" then 0xfe03 else 0xffe9)
      else none

/-! ## The handlers -/

/-- A call of `rfb.sendKey`. -/
structure SentKey where
  keysym : Nat
  code : Option Text
  down : Bool
deriving DecidableEq, Repr

/-- The `send` of the console. -/
def consoleSend (e : KeyboardEvent) (down : Bool) : Option SentKey :=
  match rfbKeysymFromKeyboardEvent e with
  | none => none
  | some 0 => none
  | some keysym => some ⟨keysym, if e.code = [] then none else some e.code, down⟩

/-- What a handler makes of an event. -/
structure HandledKey where
  prevented : Bool
  stopped : Bool
  sent : Option SentKey
deriving DecidableEq, Repr

/-- Both handlers, which differ in what they send. -/
def handleKey (down active : Bool) (e : KeyboardEvent) : HandledKey :=
  if !shouldCaptureConsoleKey e active then ⟨false, false, none⟩
  else if isClipboardPasteKey e then ⟨false, true, none⟩
  else ⟨true, true, consoleSend e down⟩

def onKeyDown (active : Bool) (e : KeyboardEvent) : HandledKey := handleKey true active e

def onKeyUp (active : Bool) (e : KeyboardEvent) : HandledKey := handleKey false active e

def WindowEvent.handled (active : Bool) : WindowEvent → HandledKey
  | .keydown e => onKeyDown active e
  | .keyup e => onKeyUp active e

/-- What is sent to the guest while the console is grabbed. -/
def sentKeys (events : List WindowEvent) : List SentKey :=
  events.filterMap fun e => (e.handled true).sent

/-! ## What is asked of the keys -/

/-- The keysym that an event is sent as. -/
def WindowEvent.reads (e : WindowEvent) : Option Nat :=
  if shouldCaptureConsoleKey e.event true && !isClipboardPasteKey e.event then
    (rfbKeysymFromKeyboardEvent e.event).filter (· ≠ 0)
  else none

/-- Every keysym that is sent as pressed is sent as released afterwards. -/
def Released (sent : List SentKey) : Prop :=
  Followed (fun press => press.down = true)
    (fun press release => release.down = false ∧ release.keysym = press.keysym) sent

/-- The keysyms that are down in the guest after these messages. -/
def guestKeys (sent : List SentKey) : Finset Nat :=
  sent.foldl (fun held s => if s.down then insert s.keysym held else held.erase s.keysym) ∅

/-- Every key that goes down goes up later. -/
def EveryKeyGoesUp (events : List WindowEvent) : Prop :=
  Followed (fun e => e.isDown = true)
    (fun e up => up.isDown = false ∧ up.event.code = e.event.code) events

/-- A key that was sent is read the same when it goes up. -/
def KeepsReadings (events : List WindowEvent) : Prop :=
  Each (fun e later => e.isDown = true → e.reads ≠ none → ∀ up,
    later.find? (fun u => u.isDown = false ∧ u.event.code = e.event.code) = some up →
      up.reads = e.reads) events

/-! ## What is sent -/

theorem sent_eq (e : WindowEvent) :
    (e.handled true).sent =
      e.reads.map fun keysym =>
        ⟨keysym, if e.event.code = [] then none else some e.event.code, e.isDown⟩ := by
  have both : ∀ (down : Bool) (k : KeyboardEvent), (handleKey down true k).sent =
      (if shouldCaptureConsoleKey k true && !isClipboardPasteKey k then
        (rfbKeysymFromKeyboardEvent k).filter (· ≠ 0) else none).map fun keysym =>
          (⟨keysym, if k.code = [] then none else some k.code, down⟩ : SentKey) := by
    intro down k
    unfold handleKey
    cases shouldCaptureConsoleKey k true with
    | false => rfl
    | true =>
        cases isClipboardPasteKey k with
        | true => rfl
        | false =>
            change consoleSend k down = _
            unfold consoleSend
            cases rfbKeysymFromKeyboardEvent k with
            | none => rfl
            | some keysym =>
                cases keysym with
                | zero => rfl
                | succ n => rfl
  cases e with
  | keydown k => exact both true k
  | keyup k => exact both false k

/-- The guest has a keysym down when the last message about it is a press. -/
theorem mem_guestKeys {sent : List SentKey} {keysym : Nat} :
    keysym ∈ guestKeys sent ↔
      ∃ last, (sent.filter (·.keysym = keysym)).getLast? = some last ∧ last.down = true := by
  induction sent using List.reverseRecOn with
  | nil => simp [guestKeys]
  | append_singleton sent s ih =>
      have step : guestKeys (sent ++ [s]) =
          if s.down then insert s.keysym (guestKeys sent) else (guestKeys sent).erase s.keysym := by
        rw [guestKeys, List.foldl_append]
        rfl
      rw [step, List.filter_append]
      by_cases own : s.keysym = keysym
      · have newest : [s].filter (·.keysym = keysym) = [s] := by simp [own]
        rw [newest, List.getLast?_append_of_ne_nil _ (List.cons_ne_nil s []),
          List.getLast?_singleton, ← own]
        cases down : s.down with
        | true => exact iff_of_true (Finset.mem_insert_self _ _) ⟨s, rfl, down⟩
        | false =>
            refine iff_of_false (Finset.notMem_erase _ _) fun pressed => ?_
            rcases pressed with ⟨last, same, pressed⟩
            cases same
            cases down.symm.trans pressed
      · have other : [s].filter (·.keysym = keysym) = [] := by simp [own]
        rw [other, List.append_nil, ← ih]
        cases s.down with
        | true => exact Finset.mem_insert.trans (or_iff_right (Ne.symm own))
        | false => exact Finset.mem_erase.trans (and_iff_right (Ne.symm own))

/-- No keysym stays pressed in the guest when every one that was pressed is released. -/
theorem released_iff_guestKeys {sent : List SentKey} :
    Released sent ↔ guestKeys sent = ∅ := by
  have keyed : Released sent ↔
      Followed (fun s => s.down = true ∧ some s.keysym ≠ none)
        (fun s release => release.down = false ∧ some release.keysym = some s.keysym) sent :=
    followed_congr (fun s => (and_iff_left (Option.some_ne_none s.keysym)).symm)
      fun s release _ => and_congr_right fun _ => Option.some_inj.symm
  have byLast : Followed (fun s : SentKey => s.down = true ∧ some s.keysym ≠ none)
        (fun s release => release.down = false ∧ some release.keysym = some s.keysym) sent ↔ _ :=
    followed_iff_last
  rw [keyed, byLast, Finset.eq_empty_iff_forall_notMem]
  refine forall_congr' fun keysym => ?_
  simp only [Option.some_inj, mem_guestKeys, not_exists, not_and, Bool.not_eq_true]

/-- What is released is said of the events that are sent. -/
theorem released_sentKeys {events : List WindowEvent} :
    Released (sentKeys events) ↔
      Followed (fun e => e.isDown = true ∧ e.reads ≠ none)
        (fun e up => up.isDown = false ∧ up.reads = e.reads) events := by
  rw [Released, sentKeys, followed_filterMap]
  refine followed_congr (fun e => ?_) fun e up begun => ?_
  · rw [sent_eq]
    cases e.reads with
    | none => simp
    | some keysym => simp
  · rcases begun with ⟨press, sent, down⟩
    rw [sent_eq] at sent
    rcases Option.map_eq_some_iff.mp sent with ⟨keysym, read, rfl⟩
    rw [sent_eq, sent_eq, read]
    cases up.reads with
    | none => simp
    | some other => simp [and_comm]

/-- A key whose value, modifiers and focus let it through comes up as it went down. -/
theorem reads_of_unchanged {e up : WindowEvent} (key : up.event.key = e.event.key)
    (code : up.event.code = e.event.code) (field : isDomTextField up.event.target = false)
    (ctrl : up.event.ctrlKey = false) (meta_ : up.event.metaKey = false) (taken : e.reads ≠ none) :
    up.reads = e.reads := by
  have captured :
      (shouldCaptureConsoleKey e.event true && !isClipboardPasteKey e.event) = true := by
    refine by_contra fun missed => taken ?_
    rw [WindowEvent.reads, if_neg missed]
  have plain : ¬(e.event.key = "F5" || e.event.key = "F12" || e.event.key = "F11") = true := by
    intro browser
    have chrome : isBrowserChromeKey e.event = true := by rw [isBrowserChromeKey, if_pos browser]
    have kept := (Bool.and_eq_true_iff.mp captured).1
    unfold shouldCaptureConsoleKey at kept
    rw [chrome] at kept
    simp at kept
  have captured' :
      (shouldCaptureConsoleKey up.event true && !isClipboardPasteKey up.event) = true := by
    have chrome : isBrowserChromeKey up.event = false := by
      rw [isBrowserChromeKey, key, if_neg plain, ctrl, meta_]
      rfl
    have paste : isClipboardPasteKey up.event = false := by
      rw [isClipboardPasteKey, ctrl, meta_]
      simp
    rw [shouldCaptureConsoleKey, field, chrome, paste]
    rfl
  rw [WindowEvent.reads, WindowEvent.reads, if_pos captured, if_pos captured',
    rfbKeysymFromKeyboardEvent, rfbKeysymFromKeyboardEvent, key, code]

/-- A key that comes up as it went down is released. -/
theorem released_of_keepsReadings {events : List WindowEvent} (paired : EveryKeyGoesUp events)
    (keeps : KeepsReadings events) : Released (sentKeys events) := by
  refine released_sentKeys.mpr (Each.imp paired keeps fun e later goesUp same begun => ?_)
  rcases begun with ⟨down, sent⟩
  rcases goesUp down with ⟨x, inside, up, code⟩
  cases found : later.find? (fun u => u.isDown = false ∧ u.event.code = e.event.code) with
  | none =>
      have missing := List.find?_eq_none.mp found x inside
      exact absurd (decide_eq_true ⟨up, code⟩) missing
  | some first =>
      have own : first.isDown = false ∧ first.event.code = e.event.code := by
        simpa using List.find?_some found
      exact ⟨first, List.mem_of_find?_eq_some found, own.1, same down sent first found⟩

/-- **The keys of a grabbed console.** Every keysym that is pressed is released when the last
event that is read as it is a keyup, and only then. So it is when each key that is sent comes up
as it went down. -/
theorem grabbedKeys_law (events : List WindowEvent) :
    (Released (sentKeys events) ↔ ∀ keysym last,
      (events.filter (·.reads = some keysym)).getLast? = some last → last.isDown = false) ∧
    (EveryKeyGoesUp events → KeepsReadings events → Released (sentKeys events)) :=
  ⟨released_sentKeys.trans followed_iff_last, released_of_keepsReadings⟩

/-- Shift goes down, the A key goes down, Shift goes up, the A key goes up. -/
def shiftedLetter : List WindowEvent :=
  [.keydown ⟨"Shift", "ShiftLeft", false, false, false, true, .other⟩,
    .keydown ⟨"A", "KeyA", false, false, false, true, .other⟩,
    .keyup ⟨"Shift", "ShiftLeft", false, false, false, false, .other⟩,
    .keyup ⟨"a", "KeyA", false, false, false, false, .other⟩]

/-- The capital letter stays pressed. -/
theorem shifted_letter_stays :
    EveryKeyGoesUp shiftedLetter ∧ guestKeys (sentKeys shiftedLetter) = {0x41} ∧
      ¬ Released (sentKeys shiftedLetter) := by
  have down : guestKeys (sentKeys shiftedLetter) = {0x41} := by decide +kernel
  refine ⟨?_, down, fun released => ?_⟩
  · unfold EveryKeyGoesUp Followed
    decide +kernel
  · rw [released_iff_guestKeys, down] at released
    exact Finset.singleton_ne_empty _ released

/-! ## The clipboard -/

/-- `MODIFIER_UP`. -/
def modifierUp : List (Nat × Text) :=
  [(0xffe3, "ControlLeft"), (0xffe4, "ControlRight"), (0xffe1, "ShiftLeft"),
    (0xffe2, "ShiftRight"), (0xffe9, "AltLeft"), (0xfe03, "AltRight")]

def clipboardPasteMax : Nat := 8192

/-- The keysyms of a text, and whether it was cut. -/
def clipboardCharsToKeysyms (text : Text) (max : Nat) : List Nat × Bool :=
  ((text.take max).filterMap fun c =>
    if c = '\r' then none
    else if c = '\n' then some 0xff0d
    else if c = '\t' then some 0xff09
    else some (characterKeysym c), decide (max < text.length))

/-- The calls of `sendKey`, and whether the text was cut. -/
def sendClipboardAsKeys (text : Text) : List SentKey × Bool :=
  let read := clipboardCharsToKeysyms text clipboardPasteMax
  (modifierUp.map (fun entry => ⟨entry.1, some entry.2, false⟩) ++
    read.1.flatMap fun keysym => [⟨keysym, none, true⟩, ⟨keysym, none, false⟩], read.2)

/-- What is typed from the clipboard is released key by key. -/
theorem released_sendClipboardAsKeys (text : Text) : Released (sendClipboardAsKeys text).1 := by
  have typed : ∀ keysyms : List Nat,
      Released (keysyms.flatMap fun keysym => [⟨keysym, none, true⟩, ⟨keysym, none, false⟩]) := by
    intro keysyms
    induction keysyms with
    | nil => exact trivial
    | cons keysym keysyms ih =>
        refine ⟨fun _ => ⟨⟨keysym, none, false⟩, List.mem_cons_self, rfl, rfl⟩, ?_, ih⟩
        intro pressed
        cases pressed
  have modifiers : ∀ (entries : List (Nat × Text)) (sent : List SentKey), Released sent →
      Released (entries.map (fun entry => ⟨entry.1, some entry.2, false⟩) ++ sent) := by
    intro entries sent released
    induction entries with
    | nil => exact released
    | cons entry entries ih =>
        refine ⟨fun pressed => ?_, ih⟩
        cases pressed
  exact modifiers _ _ (typed _)

end Proxora
