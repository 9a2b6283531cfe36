import Proxora.CrlfLines
import Proxora.Ecma.Base64
import Proxora.Ecma.Json
import Proxora.Ecma.Lines
import Proxora.Ecma.Utf8

/-!
# A mail as the server reads it

`parseSmtpConfig` and `sendSmtpMail` of `server/notifications/smtp.ts`: what is written to a server
that accepts every step, and that text read as a session. `oneMail_iff` says when it is one mail.
-/

namespace Proxora.Smtp

open Ecma Crlf

/-! ## The configuration -/

structure SmtpConfig where
  host : Text
  port : Double
  secure : Bool
  username : Option Text
  password : Option Text
  sender : Text
  recipient : Text

/-- The value of a key, as a record has it. -/
def entry (config : List (Text × Json Text Double)) (key : Text) : Option (Json Text Double) :=
  (Json.obj config).member key

def smtpField (config : List (Text × Json Text Double)) : List Text → Text
  | [] => []
  | key :: keys =>
      match entry config key with
      | some (.str value) => if trim value ≠ [] then trim value else smtpField config keys
      | _ => smtpField config keys

/-- `config.port ?? config.smtpPort ?? 587`. -/
def portValue (config : List (Text × Json Text Double)) : Option (Json Text Double) :=
  match entry config "port", entry config "smtpPort" with
  | none, none | none, some .null | some .null, none | some .null, some .null =>
      some (.num (.finite 587))
  | none, some value | some .null, some value => some value
  | some value, _ => some value

/-- `none` is a `TypeError`. -/
def readPort (config : List (Text × Json Text Double)) : Option Double :=
  (Json.number (portValue config)).map fun port =>
    match port with
    | .finite q => if 0 < q then .finite q else .finite 587
    | _ => .finite 587

def parseSmtpConfig (config : List (Text × Json Text Double)) : Except String SmtpConfig :=
  let host := smtpField config ["host", "smtpHost"]
  let sender := smtpField config ["from", "fromEmail"]
  let recipient := smtpField config ["to", "toEmail"]
  if host = [] ∨ sender = [] ∨ recipient = [] then
    .error "SMTP host, from, and to are required"
  else
    match readPort config with
    | none => .error "Cannot convert object to primitive value"
    | some port =>
        let username := smtpField config ["username", "user"]
        .ok {
          host := host
          port := port
          secure := (match entry config "secure" with
            | some (.bool b) => b
            | some (.num n) => n = .finite 1
            | _ => false) || port = .finite 465
          username := if username = [] then none else some username
          password := match entry config "password" with
            | some (.str password) => some password
            | _ => none
          sender := sender
          recipient := recipient }

/-! ## What is written -/

/-- The text of `/<([^>]+)>/`. -/
def angled : Text → Option Text
  | [] => none
  | c :: rest =>
      let inner := rest.takeWhile (· ≠ '>')
      if c = '<' ∧ inner ≠ [] ∧ inner.length < rest.length then some inner else angled rest

def addr (value : Text) : Text := trim ((angled value).getD value)

def isBreak (c : Char) : Bool := c = '\r' || c = '\n'

/-- `subject.replace(/[\r\n]+/g, " ")`; `inside` a run of breaks the next one gives nothing. -/
def joinBreaks : Bool → Text → Text
  | _, [] => []
  | inside, c :: rest =>
      if isBreak c then if inside then joinBreaks true rest else ' ' :: joinBreaks true rest
      else c :: joinBreaks false rest

/-- What ends a line for `^` with the flag `m`. -/
def endsLine (c : Char) : Bool :=
  c = '\n' || c = '\r' || c = Char.ofNat 0x2028 || c = Char.ofNat 0x2029

/-- `text.replace(/^\./gm, "..")`, at the beginning of a line or not. -/
def stuff : Bool → Text → Text
  | _, [] => []
  | start, c :: rest =>
      if start && c = '.' then '.' :: '.' :: stuff false rest else c :: stuff (endsLine c) rest

def messageText (config : SmtpConfig) (subject text : Text) : Text :=
  Crlf.join
    ["From: ".toList ++ config.sender,
     "To: ".toList ++ config.recipient,
     "Subject: ".toList ++ joinBreaks false subject,
     "MIME-Version: 1.0",
     "Content-Type: text/plain; charset=utf-8",
     [],
     stuff true text,
     "."]

/-- What is written before the mail; `tls` says that the server takes `STARTTLS`. -/
def greetings (config : SmtpConfig) (tls : Bool) : List Text :=
  "EHLO proxora".toList ::
    (if !config.secure && config.port ≠ .finite 465 then
      "STARTTLS".toList :: (if tls then ["EHLO proxora".toList] else [])
    else [])

def login (config : SmtpConfig) : List Text :=
  match config.username with
  | none => []
  | some username =>
      if username = [] then []
      else
        ["AUTH LOGIN", base64Encode (utf8Encode username),
         base64Encode (utf8Encode (config.password.getD []))]

def mailFrom (config : SmtpConfig) : Text := "MAIL FROM:<".toList ++ addr config.sender ++ ['>']

def rcptTo (config : SmtpConfig) : Text := "RCPT TO:<".toList ++ addr config.recipient ++ ['>']

/-- Every text that is written, each followed by a line end. -/
def writes (config : SmtpConfig) (tls : Bool) (subject text : Text) : List Text :=
  greetings config tls ++ login config ++
    [mailFrom config, rcptTo config, "DATA", messageText config subject text, "QUIT"]

def sentBytes (config : SmtpConfig) (tls : Bool) (subject text : Text) : List UInt8 :=
  (writes config tls subject text).flatMap fun line => utf8Encode (line ++ crlf)

/-! ## The session -/

/-- What the server expects: a command, answers to a command, or the lines of a message. -/
inductive Mode : Type
  | command
  | answers (n : Nat)
  | data (lines : List Text)

/-- The commands without their answers, and the messages by their lines. -/
structure Session where
  commands : List Text
  messages : List (List Text)

/-- The dot that hides a dot is taken away. -/
def unstuff : Text → Text
  | '.' :: rest => rest
  | line => line

def afterCommand (line : Text) : Mode :=
  if line = "DATA" then .data [] else if line = "AUTH LOGIN" then .answers 2 else .command

def readSession : Mode → List Text → Session
  | _, [] => ⟨[], []⟩
  | .data message, line :: rest =>
      if line = "." then
        let later := readSession .command rest
        ⟨later.commands, message :: later.messages⟩
      else readSession (.data (message ++ [unstuff line])) rest
  | .answers (n + 1), _ :: rest => readSession (if n = 0 then .command else .answers n) rest
  | .answers 0, line :: rest | .command, line :: rest =>
      let later := readSession (afterCommand line) rest
      ⟨line :: later.commands, later.messages⟩

/-- Bytes as a session: a line that is not ended does not count. -/
def sessionOf (bytes : List UInt8) : Session :=
  readSession .command (Crlf.lines (utf8Text bytes)).dropLast

/-- The first word of a command. -/
def verb (line : Text) : Text := toUpperCase (line.takeWhile (· ≠ ' '))

/-- The fields of a name in the head of a message. -/
def headers (name : Text) (message : List Text) : List Text :=
  (message.takeWhile (· ≠ [])).filter fun line => startsWith (toLowerCase line) (name ++ [':'])

/-- What stands behind the head. -/
def bodyOf (message : List Text) : Text := Crlf.join ((message.dropWhile (· ≠ [])).drop 1)

/-- One mail: one command of each kind for it, and one message, with one field of each name and the
text as its body. -/
structure OneMail (config : SmtpConfig) (subject text : Text) (session : Session) : Prop where
  mail : session.commands.filter (fun line => verb line = "MAIL") = [mailFrom config]
  rcpt : session.commands.filter (fun line => verb line = "RCPT") = [rcptTo config]
  data : session.commands.filter (fun line => verb line = "DATA") = ["DATA".toList]
  message : ∃ lines, session.messages = [lines] ∧
    headers "from" lines = ["From: ".toList ++ config.sender] ∧
    headers "to" lines = ["To: ".toList ++ config.recipient] ∧
    headers "subject" lines = ["Subject: ".toList ++ joinBreaks false subject] ∧
    bodyOf lines = text

/-- A dot behind a character that ends a line for the program but, on its own, not for the
protocol: a line feed or a carriage return alone, U+2028 or U+2029. -/
def GainsDot (text : Text) : Prop :=
  ∃ line ∈ Crlf.lines text, ∃ c, endsLine c = true ∧ [c, '.'] <:+: line

/-! ## Dots -/

variable {text : Text}

@[simp] theorem stuff_nil (start : Bool) : stuff start [] = [] := by
  cases start <;> rfl

theorem stuff_dot (rest : Text) : stuff true ('.' :: rest) = '.' :: '.' :: stuff false rest := rfl

theorem stuff_cons {start : Bool} {c : Char} (other : ¬(start = true ∧ c = '.')) (rest : Text) :
    stuff start (c :: rest) = c :: stuff (endsLine c) rest := by
  have apart : (start && c = '.') = false := by
    rw [Bool.and_eq_false_iff, decide_eq_false_iff_not, ← Bool.not_eq_true]
    exact not_and_or.mp other
  rw [stuff, apart]
  rfl

theorem stuff_head (start : Bool) (text : Text) : (stuff start text).head? = text.head? := by
  cases text with
  | nil => rw [stuff_nil]
  | cons c rest =>
      by_cases dotted : start = true ∧ c = '.'
      · obtain ⟨rfl, rfl⟩ := dotted
        rfl
      · rw [stuff_cons dotted]
        rfl

/-- At the beginning of a text, and at the beginning of each later line. -/
def stuffLines (start : Bool) : List Text → List Text
  | [] => []
  | line :: more => stuff start line :: more.map (stuff true)

theorem extend_stuffLines {start : Bool} {c : Char} (other : ¬(start = true ∧ c = '.'))
    {pieces : List Text} (some : pieces ≠ []) :
    Crlf.extend c (stuffLines (endsLine c) pieces) = stuffLines start (Crlf.extend c pieces) := by
  obtain ⟨line, more, rfl⟩ := List.exists_cons_of_ne_nil some
  rw [stuffLines, Crlf.extend, Crlf.extend, stuffLines, stuff_cons other]

theorem lines_stuff (start : Bool) (text : Text) :
    Crlf.lines (stuff start text) = stuffLines start (Crlf.lines text) := by
  induction text using Crlf.cut_induction generalizing start with
  | empty =>
      rw [stuff_nil]
      exact congrArg (· :: []) (stuff_nil start).symm
  | ended s ih =>
      have first : stuff start ('\r' :: '\n' :: s) = '\r' :: '\n' :: stuff true s := by
        rw [stuff_cons (fun both => absurd both.2 (by decide)),
          stuff_cons (fun both => absurd both.2 (by decide))]
        rfl
      have rest : stuffLines true (Crlf.lines s) = (Crlf.lines s).map (stuff true) := by
        obtain ⟨line, more, pieces⟩ := List.exists_cons_of_ne_nil (Crlf.lines_ne_nil s)
        rw [pieces]
        rfl
      rw [first, Crlf.lines_crlf, Crlf.lines_crlf, ih, rest, stuffLines, stuff_nil]
  | other c s apart ih =>
      have still (start : Bool) : ¬(c = '\r' ∧ (stuff start s).head? = some '\n') := by
        rw [stuff_head]
        exact apart
      by_cases dotted : start = true ∧ c = '.'
      · obtain ⟨rfl, rfl⟩ := dotted
        have second : ¬(('.' : Char) = '\r' ∧ ('.' :: stuff false s).head? = some '\n') :=
          fun both => absurd both.1 (by decide)
        obtain ⟨line, more, pieces⟩ := List.exists_cons_of_ne_nil (Crlf.lines_ne_nil s)
        rw [stuff_dot, Crlf.lines_cons second, Crlf.lines_cons (still false), ih,
          Crlf.lines_cons apart, pieces]
        rfl
      · rw [stuff_cons dotted, Crlf.lines_cons (still _), ih, Crlf.lines_cons apart,
          extend_stuffLines dotted (Crlf.lines_ne_nil s)]

/-- On one line the dot in front is taken away again. -/
theorem unstuff_stuff (line : Text) : unstuff (stuff true line) = stuff false line := by
  cases line with
  | nil => rfl
  | cons c rest =>
      by_cases dot : c = '.'
      · subst dot
        rfl
      · rw [stuff_cons (fun both => dot both.2), stuff_cons (fun both => dot both.2), unstuff]
        rintro more ⟨⟩
        exact dot rfl

/-- No stuffed line ends the message. -/
theorem stuff_ne_dot (line : Text) : stuff true line ≠ ("." : Text) := by
  intro same
  cases line with
  | nil => cases same
  | cons c rest =>
      by_cases dot : c = '.'
      · subst dot
        cases (List.cons.inj same).2
      · rw [stuff_cons (fun both => dot both.2)] at same
        exact dot (List.cons.inj same).1

theorem length_le_stuff (start : Bool) (text : Text) :
    text.length ≤ (stuff start text).length := by
  induction text generalizing start with
  | nil => exact Nat.zero_le _
  | cons c rest ih =>
      by_cases dotted : start = true ∧ c = '.'
      · obtain ⟨rfl, rfl⟩ := dotted
        rw [stuff_dot, List.length_cons, List.length_cons, List.length_cons]
        exact Nat.succ_le_succ ((ih false).trans (Nat.le_succ _))
      · rw [stuff_cons dotted, List.length_cons, List.length_cons]
        exact Nat.succ_le_succ (ih _)

/-- A text stays when no dot stands at its beginning or behind what ends a line. -/
theorem stuff_eq_iff {start : Bool} : stuff start text = text ↔
    (start = true → text.head? ≠ some '.') ∧ ∀ c, endsLine c = true → ¬[c, '.'] <:+: text := by
  induction text generalizing start with
  | nil =>
      rw [stuff_nil]
      refine iff_of_true rfl ⟨fun _ => nofun, fun c _ inside => ?_⟩
      cases List.infix_nil.mp inside
  | cons c rest ih =>
      by_cases dotted : start = true ∧ c = '.'
      · obtain ⟨rfl, rfl⟩ := dotted
        refine iff_of_false ?_ (fun both => both.1 rfl rfl)
        intro same
        have longer := length_le_stuff false rest
        have lengths := congrArg List.length same
        rw [stuff_dot, List.length_cons, List.length_cons, List.length_cons] at lengths
        omega
      · have first : start = true → (c :: rest).head? ≠ some '.' :=
          fun begins dot => dotted ⟨begins, Option.some.inj dot⟩
        have behind (d : Char) : [d, '.'] <:+: c :: rest ↔
            (d = c ∧ rest.head? = some '.') ∨ [d, '.'] <:+: rest := by
          rw [List.infix_cons_iff, List.cons_prefix_cons]
          cases rest with
          | nil => simp
          | cons e rest =>
              rw [List.cons_prefix_cons]
              simp [eq_comm]
        rw [stuff_cons dotted, List.cons_eq_cons, ih]
        constructor
        · rintro ⟨-, here, later⟩
          refine ⟨first, fun d ends inside => ?_⟩
          rcases (behind d).mp inside with ⟨rfl, dot⟩ | inside
          · exact here ends dot
          · exact later d ends inside
        · rintro ⟨-, nowhere⟩
          refine ⟨rfl, fun ends dot => ?_, fun d ends inside => ?_⟩
          · exact nowhere c ends ((behind c).mpr (Or.inl ⟨rfl, dot⟩))
          · exact nowhere d ends ((behind d).mpr (Or.inr inside))

/-- The text of a message, its dots taken away line by line. -/
theorem join_unstuffed_iff :
    Crlf.join ((Crlf.lines text).map (stuff false)) = text ↔ ¬GainsDot text := by
  have whole : ∀ line ∈ (Crlf.lines text).map (stuff false), Whole line := by
    intro stuffed member
    obtain ⟨line, listed, rfl⟩ := List.mem_map.mp member
    have pieces : Crlf.lines (stuff false line) = [stuff false line] := by
      rw [lines_stuff, Crlf.lines_of_whole (Crlf.whole_of_mem_lines listed)]
      rfl
    apply Crlf.whole_of_mem_lines (s := stuff false line)
    rw [pieces]
    exact List.mem_cons_self
  have some : (Crlf.lines text).map (stuff false) ≠ [] :=
    fun nothing => Crlf.lines_ne_nil text (List.map_eq_nil_iff.mp nothing)
  have still : (Crlf.lines text).map (stuff false) = Crlf.lines text ↔
      ∀ line ∈ Crlf.lines text, stuff false line = line := by
    conv_lhs => rhs; rw [← List.map_id (Crlf.lines text)]
    exact List.map_inj_left
  have each : Crlf.join ((Crlf.lines text).map (stuff false)) = text ↔
      ∀ line ∈ Crlf.lines text, stuff false line = line := by
    rw [← still]
    constructor
    · intro same
      have pieces := Crlf.lines_join some whole
      rw [same] at pieces
      exact pieces.symm
    · intro same
      rw [same, Crlf.join_lines]
  rw [each, GainsDot]
  push Not
  refine forall₂_congr fun line _ => ?_
  rw [stuff_eq_iff]
  exact ⟨fun both => both.2, fun nowhere => ⟨nofun, nowhere⟩⟩

/-! ## Lines of a session -/

variable {config : SmtpConfig} {subject : Text}

theorem readSession_command {line : Text} (plain : afterCommand line = .command)
    (rest : List Text) : readSession .command (line :: rest) =
      ⟨line :: (readSession .command rest).commands, (readSession .command rest).messages⟩ := by
  rw [readSession, plain]

theorem readSession_commands {commands : List Text}
    (plain : ∀ line ∈ commands, afterCommand line = .command) (rest : List Text) :
    readSession .command (commands ++ rest) =
      ⟨commands ++ (readSession .command rest).commands, (readSession .command rest).messages⟩ := by
  induction commands with
  | nil => rfl
  | cons line commands ih =>
      rw [List.forall_mem_cons] at plain
      rw [List.cons_append, readSession_command plain.1, ih plain.2, List.cons_append]

/-- The lines of a message up to the dot. -/
theorem readSession_data {lines : List Text} (hidden : ∀ line ∈ lines, line ≠ ("." : Text))
    (message rest : List Text) :
    readSession (.data message) (lines ++ ("." : Text) :: rest) =
      ⟨(readSession .command rest).commands,
        (message ++ lines.map unstuff) :: (readSession .command rest).messages⟩ := by
  induction lines generalizing message with
  | nil =>
      rw [List.nil_append, readSession, if_pos rfl, List.map_nil, List.append_nil]
  | cons line lines ih =>
      rw [List.forall_mem_cons] at hidden
      rw [List.cons_append, readSession, if_neg hidden.1, ih hidden.2, List.map_cons,
        List.append_assoc, List.singleton_append]

theorem whole_unstuff {line : Text} (whole : Whole line) : Whole (unstuff line) := by
  apply whole.of_isInfix
  rw [unstuff.eq_def]
  split
  · exact (List.suffix_cons _ _).isInfix
  · exact List.infix_rfl

/-- No line of a message holds a line end, whatever is sent. -/
theorem whole_of_message {mode : Mode} {lines : List Text} (whole : ∀ line ∈ lines, Whole line)
    (begun : ∀ message, mode = .data message → ∀ line ∈ message, Whole line) :
    ∀ message ∈ (readSession mode lines).messages, ∀ line ∈ message, Whole line := by
  have closed {mode : Mode} (other : ∀ message, mode ≠ .data message) :
      ∀ message, mode = .data message → ∀ line ∈ message, Whole line :=
    fun message same => absurd same (other message)
  have after (line : Text) : ∀ message, afterCommand line = .data message →
      ∀ line ∈ message, Whole line := by
    intro message same
    rw [afterCommand] at same
    split at same
    · cases same
      exact nofun
    split at same
    · cases same
    · cases same
  induction mode, lines using readSession.induct with
  | case1 mode =>
      cases mode <;> exact nofun
  | case2 message rest ih =>
      rw [List.forall_mem_cons] at whole
      rw [readSession, if_pos rfl]
      exact List.forall_mem_cons.mpr ⟨begun message rfl, ih whole.2 (closed nofun)⟩
  | case3 message line rest more ih =>
      rw [List.forall_mem_cons] at whole
      rw [readSession, if_neg more]
      refine ih whole.2 ?_
      rintro longer ⟨⟩ line member
      rcases List.mem_append.mp member with before | here
      · exact begun message rfl line before
      · rw [List.mem_singleton.mp here]
        exact whole_unstuff whole.1
  | case4 n line rest ih =>
      rw [List.forall_mem_cons] at whole
      rw [readSession]
      refine ih whole.2 (closed ?_)
      intro message
      split <;> exact nofun
  | case5 line rest ih =>
      rw [List.forall_mem_cons] at whole
      rw [readSession]
      exact ih whole.2 (after line)
  | case6 line rest ih =>
      rw [List.forall_mem_cons] at whole
      rw [readSession]
      exact ih whole.2 (after line)

/-! ## What the server reads -/

theorem utf8Text_sentBytes (config : SmtpConfig) (tls : Bool) (subject text : Text) :
    utf8Text (sentBytes config tls subject text) =
      (writes config tls subject text).flatMap (· ++ Crlf.crlf) := by
  have whole : sentBytes config tls subject text =
      utf8Encode ((writes config tls subject text).flatMap (· ++ Crlf.crlf)) := by
    rw [sentBytes, utf8Encode, List.flatMap_assoc]
    rfl
  rw [whole, utf8Text_utf8Encode]

theorem sessionOf_sentBytes (config : SmtpConfig) (tls : Bool) (subject text : Text) :
    sessionOf (sentBytes config tls subject text) =
      readSession .command ((writes config tls subject text).flatMap Crlf.lines) := by
  rw [sessionOf, utf8Text_sentBytes, Crlf.lines_flatMap, List.dropLast_concat]

/-- The head of the message. -/
def headOf (config : SmtpConfig) (subject : Text) : List Text :=
  ["From: ".toList ++ config.sender, "To: ".toList ++ config.recipient,
    "Subject: ".toList ++ joinBreaks false subject, "MIME-Version: 1.0",
    "Content-Type: text/plain; charset=utf-8"]

theorem whole_joinBreaks (inside : Bool) (subject : Text) : '\n' ∉ joinBreaks inside subject := by
  induction subject generalizing inside with
  | nil => cases inside <;> exact List.not_mem_nil
  | cons c subject ih =>
      rw [joinBreaks]
      split
      · split
        · exact ih true
        · rw [List.mem_cons, not_or]
          exact ⟨by decide, ih true⟩
      · next other =>
          rw [List.mem_cons, not_or]
          refine ⟨?_, ih false⟩
          rintro rfl
          exact other rfl

theorem whole_base64Encode (bytes : List UInt8) : Whole (base64Encode bytes) := by
  refine Crlf.whole_of_notMem '\n' (by decide) fun member => ?_
  have space := isSpace_base64Encode bytes '\n' member
  cases space

theorem angled_isInfix {value inner : Text} (found : angled value = some inner) :
    inner <:+: value := by
  induction value with
  | nil => cases found
  | cons c rest ih =>
      rw [angled] at found
      split at found
      · cases found
        exact (List.takeWhile_prefix _).isInfix.trans (List.suffix_cons c rest).isInfix
      · exact (ih found).trans (List.suffix_cons c rest).isInfix

theorem addr_isInfix (value : Text) : addr value <:+: value := by
  refine (trim_isInfix _).trans ?_
  cases found : angled value with
  | none => exact List.infix_rfl
  | some inner => exact angled_isInfix found

theorem lines_messageText (sender : Whole config.sender) (recipient : Whole config.recipient) :
    Crlf.lines (messageText config subject text) =
      headOf config subject ++ [] :: (Crlf.lines text).map (stuff true) ++ [".".toList] := by
  have fromLine : Whole ("From: ".toList ++ config.sender) := sender.append_left (by decide)
  have toLine : Whole ("To: ".toList ++ config.recipient) := recipient.append_left (by decide)
  have subjectLine : Whole ("Subject: ".toList ++ joinBreaks false subject) :=
    Whole.append_left (Crlf.whole_of_notMem '\n' (by decide) (whole_joinBreaks false subject))
      (by decide)
  have version : Whole ("MIME-Version: 1.0" : Text) := by decide
  have type : Whole ("Content-Type: text/plain; charset=utf-8" : Text) := by decide
  have empty : Whole [] := by decide
  have dot : Whole ("." : Text) := by decide
  have stuffed : Crlf.lines (stuff true text) = (Crlf.lines text).map (stuff true) := by
    rw [lines_stuff]
    cases Crlf.lines text <;> rfl
  rw [messageText, Crlf.lines_join_flatMap (List.cons_ne_nil _ _)]
  simp only [List.flatMap_cons, List.flatMap_nil, Crlf.lines_of_whole fromLine,
    Crlf.lines_of_whole toLine, Crlf.lines_of_whole subjectLine, Crlf.lines_of_whole version,
    Crlf.lines_of_whole type, Crlf.lines_of_whole empty, Crlf.lines_of_whole dot, stuffed]
  rfl

theorem mem_greetings {line : Text} {tls : Bool} (member : line ∈ greetings config tls) :
    line ∈ [("EHLO proxora" : Text), "STARTTLS"] := by
  have hello : ("EHLO proxora" : Text) ∈ [("EHLO proxora" : Text), "STARTTLS"] :=
    List.mem_cons_self
  have start : ("STARTTLS" : Text) ∈ [("EHLO proxora" : Text), "STARTTLS"] :=
    List.mem_cons_of_mem _ List.mem_cons_self
  rw [greetings] at member
  rcases List.mem_cons.mp member with rfl | more
  · exact hello
  split at more
  · rcases List.mem_cons.mp more with rfl | again
    · exact start
    · cases tls with
      | false => cases again
      | true =>
          rw [List.mem_singleton.mp again]
          exact hello
  · cases more

theorem lines_greetings (config : SmtpConfig) (tls : Bool) :
    (greetings config tls).flatMap Crlf.lines = greetings config tls := by
  have whole : ∀ line ∈ [("EHLO proxora" : Text), "STARTTLS"], Whole line := by decide
  have each : (greetings config tls).flatMap Crlf.lines =
      (greetings config tls).flatMap fun line => [line] :=
    List.flatMap_congr fun line member => Crlf.lines_of_whole (whole line (mem_greetings member))
  rw [each, List.flatMap_singleton']

/-- The commands before the addresses. -/
def opening (config : SmtpConfig) (tls : Bool) : List Text :=
  greetings config tls ++ (login config).take 1

theorem opening_plain {line : Text} {tls : Bool} (member : line ∈ opening config tls) :
    verb line ≠ ("MAIL" : Text) ∧ verb line ≠ ("RCPT" : Text) ∧ verb line ≠ ("DATA" : Text) := by
  have each : ∀ line ∈ [("EHLO proxora" : Text), "STARTTLS", "AUTH LOGIN"],
      verb line ≠ ("MAIL" : Text) ∧ verb line ≠ ("RCPT" : Text) ∧ verb line ≠ ("DATA" : Text) := by
    decide
  apply each
  rcases List.mem_append.mp member with greets | logs
  · exact List.mem_append_left [("AUTH LOGIN" : Text)] (mem_greetings greets)
  · rw [login] at logs
    split at logs
    · cases logs
    split at logs
    · cases logs
    · rw [List.mem_singleton.mp logs]
      exact List.mem_append_right [("EHLO proxora" : Text), "STARTTLS"] List.mem_cons_self

theorem readSession_greetings (config : SmtpConfig) (tls : Bool) (rest : List Text) :
    readSession .command (greetings config tls ++ rest) =
      ⟨greetings config tls ++ (readSession .command rest).commands,
        (readSession .command rest).messages⟩ := by
  have plain : ∀ line ∈ [("EHLO proxora" : Text), "STARTTLS"],
      line ≠ ("DATA" : Text) ∧ line ≠ ("AUTH LOGIN" : Text) := by decide
  apply readSession_commands
  intro line member
  obtain ⟨other, others⟩ := plain line (mem_greetings member)
  rw [afterCommand, if_neg other, if_neg others]

theorem readSession_login (config : SmtpConfig) (rest : List Text) :
    readSession .command ((login config).flatMap Crlf.lines ++ rest) =
      ⟨(login config).take 1 ++ (readSession .command rest).commands,
        (readSession .command rest).messages⟩ := by
  rw [login]
  cases config.username with
  | none => rfl
  | some username =>
      by_cases nobody : username = []
      · simp only [nobody, if_true]
        rfl
      have auth : Crlf.lines ("AUTH LOGIN" : Text) = [("AUTH LOGIN" : Text)] := by decide
      have other : ("AUTH LOGIN" : Text) ≠ ("DATA" : Text) := by decide
      have answers : afterCommand ("AUTH LOGIN" : Text) = .answers 2 := by
        rw [afterCommand, if_neg other, if_pos rfl]
      simp only [nobody, if_false, List.flatMap_cons, List.flatMap_nil, List.append_nil, auth,
        Crlf.lines_of_whole (whole_base64Encode _), List.cons_append, List.nil_append]
      rw [readSession, answers]
      rfl

theorem afterCommand_of_head {line : Text} (data : line.head? ≠ some 'D')
    (auth : line.head? ≠ some 'A') : afterCommand line = .command := by
  rw [afterCommand, if_neg, if_neg]
  · rintro rfl
    exact auth rfl
  · rintro rfl
    exact data rfl

/-- The session when neither address holds a line end. -/
theorem sessionOf_of_whole (sender : Whole config.sender) (recipient : Whole config.recipient)
    (tls : Bool) (subject text : Text) :
    sessionOf (sentBytes config tls subject text) =
      ⟨opening config tls ++ [mailFrom config, rcptTo config, ("DATA" : Text), ("QUIT" : Text)],
        [headOf config subject ++ [] :: (Crlf.lines text).map (stuff false)]⟩ := by
  have mail : Whole (mailFrom config) :=
    ((sender.of_isInfix (addr_isInfix _)).append_left (by decide)).concat (by decide)
  have rcpt : Whole (rcptTo config) :=
    ((recipient.of_isInfix (addr_isInfix _)).append_left (by decide)).concat (by decide)
  have mails : (mailFrom config).head? ≠ some 'D' ∧ (mailFrom config).head? ≠ some 'A' :=
    (by decide : some 'M' ≠ some 'D' ∧ some 'M' ≠ some 'A')
  have rcpts : (rcptTo config).head? ≠ some 'D' ∧ (rcptTo config).head? ≠ some 'A' :=
    (by decide : some 'R' ≠ some 'D' ∧ some 'R' ≠ some 'A')
  have data : Whole ("DATA" : Text) := by decide
  have quit : Whole ("QUIT" : Text) := by decide
  have hidden : ∀ line ∈ headOf config subject ++ [] :: (Crlf.lines text).map (stuff true),
      line ≠ ("." : Text) := by
    intro line member
    rcases List.mem_append.mp member with head | body
    · rw [headOf] at head
      rintro rfl
      simp at head
    · rcases List.mem_cons.mp body with rfl | stuffed
      · exact (List.cons_ne_nil _ _).symm
      · obtain ⟨line, -, rfl⟩ := List.mem_map.mp stuffed
        exact stuff_ne_dot line
  have shown : (headOf config subject ++ [] :: (Crlf.lines text).map (stuff true)).map unstuff =
      headOf config subject ++ [] :: (Crlf.lines text).map (stuff false) := by
    have each : unstuff ∘ stuff true = stuff false := funext unstuff_stuff
    rw [List.map_append, List.map_cons, List.map_map, each]
    rfl
  have lines : (writes config tls subject text).flatMap Crlf.lines =
      greetings config tls ++ ((login config).flatMap Crlf.lines ++ (mailFrom config ::
        rcptTo config :: ("DATA" : Text) ::
          ((headOf config subject ++ [] :: (Crlf.lines text).map (stuff true)) ++
            ("." : Text) :: [("QUIT" : Text)]))) := by
    rw [writes, List.flatMap_append, List.flatMap_append, lines_greetings]
    simp only [List.flatMap_cons, List.flatMap_nil, Crlf.lines_of_whole mail,
      Crlf.lines_of_whole rcpt, Crlf.lines_of_whole data, Crlf.lines_of_whole quit,
      lines_messageText sender recipient]
    simp only [List.append_assoc, List.singleton_append, List.append_nil]
  rw [sessionOf_sentBytes, lines, readSession_greetings, readSession_login,
    readSession_command (afterCommand_of_head mails.1 mails.2),
    readSession_command (afterCommand_of_head rcpts.1 rcpts.2)]
  have quits : readSession .command [("QUIT" : Text)] = ⟨[("QUIT" : Text)], []⟩ := by
    rw [readSession_command (afterCommand_of_head (by decide) (by decide)), readSession]
  have reads : readSession .command (("DATA" : Text) ::
      ((headOf config subject ++ [] :: (Crlf.lines text).map (stuff true)) ++
        ("." : Text) :: [("QUIT" : Text)])) =
      ⟨[("DATA" : Text), ("QUIT" : Text)],
        [headOf config subject ++ [] :: (Crlf.lines text).map (stuff false)]⟩ := by
    rw [readSession, afterCommand, if_pos rfl, readSession_data hidden, shown, quits,
      List.nil_append]
  rw [reads, opening, List.append_assoc]

/-! ## One mail -/

/-- The head of a message has each field once. -/
theorem headers_headOf (config : SmtpConfig) (subject : Text) (body : List Text) :
    headers "from" (headOf config subject ++ [] :: body) = ["From: ".toList ++ config.sender] ∧
      headers "to" (headOf config subject ++ [] :: body) = ["To: ".toList ++ config.recipient] ∧
      headers "subject" (headOf config subject ++ [] :: body) =
        ["Subject: ".toList ++ joinBreaks false subject] :=
  ⟨rfl, rfl, rfl⟩

theorem bodyOf_headOf (config : SmtpConfig) (subject : Text) (body : List Text) :
    bodyOf (headOf config subject ++ [] :: body) = Crlf.join body := rfl

/-- Whole addresses leave the body only. -/
theorem oneMail_of_whole (sender : Whole config.sender) (recipient : Whole config.recipient)
    (tls : Bool) (subject text : Text) :
    OneMail config subject text (sessionOf (sentBytes config tls subject text)) ↔
      ¬GainsDot text := by
  have before (name : Text) (other : ∀ line ∈ opening config tls, verb line ≠ name) :
      (opening config tls).filter (fun line => verb line = name) = [] := by
    rw [List.filter_eq_nil_iff]
    exact fun line member same => other line member (of_decide_eq_true same)
  have fields := headers_headOf config subject ((Crlf.lines text).map (stuff false))
  rw [sessionOf_of_whole sender recipient]
  constructor
  · intro one
    obtain ⟨lines, messages, -, -, -, body⟩ := one.message
    rw [← (List.cons.inj messages).1, bodyOf_headOf] at body
    exact join_unstuffed_iff.mp body
  · intro plain
    refine ⟨?_, ?_, ?_, _, rfl, fields.1, fields.2.1, fields.2.2, join_unstuffed_iff.mpr plain⟩
    · rw [List.filter_append, before _ fun line member => (opening_plain member).1]
      rfl
    · rw [List.filter_append, before _ fun line member => (opening_plain member).2.1]
      rfl
    · rw [List.filter_append, before _ fun line member => (opening_plain member).2.2]
      rfl

theorem whole_of_field {name front value : Text} {message : List Text}
    (whole : ∀ line ∈ message, Whole line) (field : headers name message = [front ++ value]) :
    Whole value := by
  have listed : front ++ value ∈ headers name message := by
    rw [field]
    exact List.mem_cons_self
  have inside := (List.takeWhile_prefix _).subset (List.mem_filter.mp listed).1
  exact (whole _ inside).of_isInfix (List.suffix_append front value).isInfix

/-- A line end in an address is the end of its field. -/
theorem whole_of_oneMail {tls : Bool}
    (one : OneMail config subject text (sessionOf (sentBytes config tls subject text))) :
    Whole config.sender ∧ Whole config.recipient := by
  obtain ⟨lines, messages, sender, recipient, -, -⟩ := one.message
  have whole : ∀ line ∈ lines, Whole line := by
    have sent : ∀ line ∈ (Crlf.lines (utf8Text (sentBytes config tls subject text))).dropLast,
        Whole line :=
      fun line member => Crlf.whole_of_mem_lines (List.mem_of_mem_dropLast member)
    have all := @whole_of_message .command _ sent nofun
    apply all
    rw [sessionOf] at messages
    rw [messages]
    exact List.mem_cons_self
  exact ⟨whole_of_field whole sender, whole_of_field whole recipient⟩

theorem sender_of_parseSmtpConfig {raw : List (Text × Json Text Double)}
    (accepted : parseSmtpConfig raw = .ok config) :
    config.sender = smtpField raw ["from", "fromEmail"] ∧
      config.recipient = smtpField raw ["to", "toEmail"] := by
  simp only [parseSmtpConfig] at accepted
  split at accepted
  · cases accepted
  split at accepted
  · cases accepted
  · cases accepted
    exact ⟨rfl, rfl⟩

/-- A mail is read as this one mail exactly when neither address, as it is configured, holds a line
end and no dot of the text stands behind what ends a line for the program only. -/
theorem oneMail_iff {raw : List (Text × Json Text Double)}
    (accepted : parseSmtpConfig raw = .ok config) (tls : Bool) (subject text : Text) :
    OneMail config subject text (sessionOf (sentBytes config tls subject text)) ↔
      Whole (smtpField raw ["from", "fromEmail"]) ∧ Whole (smtpField raw ["to", "toEmail"]) ∧
        ¬GainsDot text := by
  obtain ⟨sender, recipient⟩ := sender_of_parseSmtpConfig accepted
  rw [← sender, ← recipient]
  constructor
  · intro one
    obtain ⟨fromWhole, toWhole⟩ := whole_of_oneMail one
    exact ⟨fromWhole, toWhole, (oneMail_of_whole fromWhole toWhole tls subject text).mp one⟩
  · rintro ⟨fromWhole, toWhole, plain⟩
    exact (oneMail_of_whole fromWhole toWhole tls subject text).mpr plain

/-- A server and two addresses. -/
def addressed (sender : Text) : List (Text × Json Text Double) :=
  [("host", .str "mail"), ("from", .str sender), ("to", .str "Ops <ops@b>")]

def addressedConfig (sender : Text) : SmtpConfig :=
  ⟨"mail", .finite 587, false, none, none, sender, "Ops <ops@b>"⟩

theorem parseSmtpConfig_addressed {sender : Text} (given : sender ≠ [])
    (trimmed : trim sender = sender) :
    parseSmtpConfig (addressed sender) = .ok (addressedConfig sender) := by
  have hosts : smtpField (addressed sender) ["host", "smtpHost"] = ("mail" : Text) := by
    have trims : trim ("mail" : Text) = ("mail" : Text) := by decide
    change (if trim ("mail" : Text) ≠ [] then trim ("mail" : Text) else
      smtpField (addressed sender) ["smtpHost"]) = _
    rw [trims, if_pos (by decide)]
  have senders : smtpField (addressed sender) ["from", "fromEmail"] = sender := by
    change (if trim sender ≠ [] then trim sender else
      smtpField (addressed sender) ["fromEmail"]) = _
    rw [trimmed, if_pos given]
  have recipients : smtpField (addressed sender) ["to", "toEmail"] = ("Ops <ops@b>" : Text) := by
    have trims : trim ("Ops <ops@b>" : Text) = ("Ops <ops@b>" : Text) := by decide
    change (if trim ("Ops <ops@b>" : Text) ≠ [] then trim ("Ops <ops@b>" : Text) else
      smtpField (addressed sender) ["toEmail"]) = _
    rw [trims, if_pos (by decide)]
  have users : smtpField (addressed sender) ["username", "user"] = [] := rfl
  have port : readPort (addressed sender) = some (.finite 587) := rfl
  simp only [parseSmtpConfig, hosts, senders, recipients, users, port]
  rw [if_neg]
  · rfl
  · simp [given]

theorem oneMail_plain : parseSmtpConfig (addressed "a@b") = .ok (addressedConfig "a@b") ∧
    ∀ tls, OneMail (addressedConfig "a@b") "Down" "node\r\n.off"
      (sessionOf (sentBytes (addressedConfig "a@b") tls "Down" "node\r\n.off")) := by
  have accepted : parseSmtpConfig (addressed "a@b") = .ok (addressedConfig "a@b") :=
    parseSmtpConfig_addressed (by decide) (by decide)
  have pieces : Crlf.lines ("node\r\n.off" : Text) = [("node" : Text), ".off"] := by
    decide
  refine ⟨accepted, fun tls => (oneMail_iff accepted tls _ _).mpr ⟨?_, ?_, ?_⟩⟩
  · decide
  · decide
  · rintro ⟨line, member, c, -, inside⟩
    rw [pieces] at member
    rcases List.mem_cons.mp member with rfl | later
    · exact absurd (inside.subset (List.mem_cons_of_mem c List.mem_cons_self)) (by decide)
    · rw [List.mem_singleton.mp later] at inside
      rcases List.infix_cons_iff.mp inside with begins | behind
      · exact absurd (List.cons_prefix_cons.mp begins).2 (by decide)
      · exact absurd (behind.subset (List.mem_cons_of_mem c List.mem_cons_self)) (by decide)

/-- An address with a line end in it, and a dot behind a lone line feed. -/
theorem not_oneMail :
    (parseSmtpConfig (addressed "a@b\r\nBcc: c@d") = .ok (addressedConfig "a@b\r\nBcc: c@d") ∧
      ∀ tls, ¬OneMail (addressedConfig "a@b\r\nBcc: c@d") "Down" "off"
        (sessionOf (sentBytes (addressedConfig "a@b\r\nBcc: c@d") tls "Down" "off"))) ∧
    (parseSmtpConfig (addressed "a@b") = .ok (addressedConfig "a@b") ∧
      ∀ tls, ¬OneMail (addressedConfig "a@b") "Down" "node\n.off"
        (sessionOf (sentBytes (addressedConfig "a@b") tls "Down" "node\n.off"))) := by
  have broken : ¬Whole ("a@b\r\nBcc: c@d" : Text) := by decide
  have pieces : Crlf.lines ("node\n.off" : Text) = [("node\n.off" : Text)] := by decide
  have sender : Whole ("a@b" : Text) := by decide
  have recipient : Whole ("Ops <ops@b>" : Text) := by decide
  have gains : GainsDot ("node\n.off" : Text) := by
    refine ⟨("node\n.off" : Text), ?_, '\n', rfl, by decide⟩
    rw [pieces]
    exact List.mem_cons_self
  refine ⟨⟨?_, fun tls one => broken (whole_of_oneMail one).1⟩, ?_, fun tls one => ?_⟩
  · exact parseSmtpConfig_addressed (by decide) (by decide)
  · exact parseSmtpConfig_addressed (by decide) (by decide)
  · exact (oneMail_of_whole sender recipient tls _ _).mp one gains

end Proxora.Smtp
