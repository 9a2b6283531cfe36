import Proxora.CrlfLines
import Proxora.Ecma.LineBreaks
import Proxora.Ecma.Utf8

/-!
# Replies of a mail server

`readReply` and `parseReply` of `server/notifications/smtp.ts`, called again and again while chunks
come in. Each call has a buffer of its own and ends as soon as the last line of the buffer looks
like the last one of a reply. `readsAll_iff` says for which chunks the replies come out right.
-/

namespace Proxora.Smtp

open Ecma
open Crlf (crlf)

/-! ## The reader -/

structure SmtpReply where
  code : Nat
  lines : List Text
deriving DecidableEq

/-- `/^\d{3} /.test(line)`. -/
def endsReply : Text → Bool
  | a :: b :: c :: d :: _ => a.isDigit && b.isDigit && c.isDigit && d = ' '
  | _ => false

def parseReply (buf : Text) : Option SmtpReply :=
  match ((splitLines buf).filter (· ≠ [])).getLast? with
  | none => none
  | some last =>
      if endsReply last then
        some ⟨digitsValue (last.take 3), (splitLines buf).filter (· ≠ [])⟩
      else none

/-- Chunks that come while a reply is awaited: each reply with the number of bytes so far. -/
def readReplies : Nat → Text → List (List UInt8) → List (SmtpReply × Nat)
  | _, _, [] => []
  | n, buf, chunk :: rest =>
      match parseReply (buf ++ utf8Text chunk) with
      | some reply => (reply, n + chunk.length) :: readReplies (n + chunk.length) [] rest
      | none => readReplies (n + chunk.length) (buf ++ utf8Text chunk) rest

/-! ## Replies -/

structure ReplyCode where
  digits : Text
  three : digits.length = 3
  decimal : ∀ c ∈ digits, c.isDigit = true

/-- The code and the text of a line, which ends with the first carriage return and line feed. -/
structure ReplyLine where
  code : ReplyCode
  text : Text
  whole : ¬['\r', '\n'] <:+: text

/-- A reply: lines that say that there is more, and the last line. -/
structure Reply where
  more : List ReplyLine
  last : ReplyLine

def ReplyLine.shown (mark : Char) (line : ReplyLine) : Text := line.code.digits ++ mark :: line.text

namespace Reply

def lines (r : Reply) : List Text := r.more.map (ReplyLine.shown '-') ++ [r.last.shown ' ']

/-- Everything before the blank of the last line. -/
def front (r : Reply) : Text :=
  (r.more.map (ReplyLine.shown '-')).flatMap (· ++ crlf) ++ r.last.code.digits

def text (r : Reply) : Text := r.lines.flatMap (· ++ crlf)

def bytes (r : Reply) : List UInt8 := utf8Encode r.text

/-- What is to be read for it. -/
def read (r : Reply) : SmtpReply := ⟨digitsValue r.last.code.digits, r.lines⟩

end Reply

/-- What is due, each reply with the number of bytes up to its end. -/
def due : Nat → List Reply → List (SmtpReply × Nat)
  | _, [] => []
  | n, r :: rest => (r.read, n + r.bytes.length) :: due (n + r.bytes.length) rest

/-- The replies come out in order, none before its last line is complete. -/
def ReadsAll (replies : List Reply) (chunks : List (List UInt8)) : Prop :=
  List.Forall₂ (fun got due => got.1 = due.1 ∧ due.2 ≤ got.2) (readReplies 0 [] chunks)
    (due 0 replies)

/-- Chunks that make up one reply: none begins inside a character, and only the last one reaches
behind the code of the last line. -/
structure ReadsAlone (r : Reply) (chunks : List (List UInt8)) : Prop where
  unbroken : ∀ line ∈ r.lines, '\n' ∉ line
  bytes : chunks.flatten = r.bytes
  starts : ∀ chunk ∈ chunks, ∀ b ∈ chunk.head?, isUtf8Start b = true
  late : chunks.dropLast.flatten.length ≤ (utf8Encode r.front).length

/-! ## Texts of replies -/

variable {r : Reply} {t : Text} {line : ReplyLine}

theorem ReplyCode.form (code : ReplyCode) : ∃ a b c, code.digits = [a, b, c] ∧
    a.isDigit = true ∧ b.isDigit = true ∧ c.isDigit = true := by
  obtain ⟨digits, three, decimal⟩ := code
  match digits, three with
  | [a, b, c], _ =>
      exact ⟨a, b, c, rfl, decimal a (by simp), decimal b (by simp), decimal c (by simp)⟩

theorem endsReply_shown (line : ReplyLine) (u : Text) :
    endsReply (line.code.digits ++ ' ' :: u) = true := by
  obtain ⟨a, b, c, form, first, second, third⟩ := line.code.form
  rw [form]
  simp [endsReply, first, second, third]

/-- What begins like a line with more to come, or stops within its code, is no last line. -/
theorem endsReply_of_more {u q : Text} (begins : q <+: line.code.digits ++ '-' :: u) :
    endsReply q = false := by
  obtain ⟨a, b, c, form, -⟩ := line.code.form
  rw [form] at begins
  match q with
  | [] | [_] | [_, _] | [_, _, _] => rfl
  | w :: x :: y :: z :: rest =>
      simp only [List.cons_append, List.nil_append, List.cons_prefix_cons] at begins
      obtain ⟨-, -, -, rfl, -⟩ := begins
      simp [endsReply]

theorem Reply.text_eq (r : Reply) : r.text = r.front ++ ' ' :: (r.last.text ++ crlf) := by
  rw [text, lines, List.flatMap_append, front, ReplyLine.shown]
  simp

/-- A beginning stops before a character or goes beyond it. -/
theorem stops_or_goesOn {α : Type} {a b t : List α} {c : α} (begins : t <+: a ++ c :: b) :
    t <+: a ∨ ∃ u, t = a ++ c :: u ∧ u <+: b := by
  obtain ⟨z, whole⟩ := begins
  rcases List.append_eq_append_iff.mp whole with ⟨more, rfl, -⟩ | ⟨more, rfl, later⟩
  · exact .inl (List.prefix_append t more)
  · cases more with
    | nil => exact .inl (by rw [List.append_nil])
    | cons d more =>
        obtain ⟨rfl, rfl⟩ := List.cons.inj later
        exact .inr ⟨more, rfl, List.prefix_append more z⟩

/-- Whole lines before a text. -/
theorem splitLines_append {lines : List Text} (whole : ∀ line ∈ lines, '\n' ∉ line) (t : Text) :
    splitLines (lines.flatMap (· ++ crlf) ++ t) = lines ++ splitLines t := by
  induction lines with
  | nil => rfl
  | cons line rest ih =>
      rw [List.forall_mem_cons] at whole
      have form : (line :: rest).flatMap (· ++ crlf) ++ t =
          (line ++ ['\r']) ++ '\n' :: (rest.flatMap (· ++ crlf) ++ t) := by
        simp [crlf]
      have clean : '\n' ∉ line ++ ['\r'] := by
        simp [whole.1]
      have kept : dropCr (line ++ ['\r']) = line := by
        rw [dropCr, List.getLast?_concat, if_pos rfl, List.dropLast_concat]
      rw [form, splitLines_cons clean, ih whole.2, kept]
      rfl

/-- The lines of a text that stops before the blank of the last line end no reply. -/
theorem endsReply_of_front {more : List ReplyLine} {last : ReplyLine}
    (unbroken : ∀ line ∈ more, '\n' ∉ line.shown '-')
    (stops : t <+: (more.map (ReplyLine.shown '-')).flatMap (· ++ crlf) ++ last.code.digits) :
    ∀ piece ∈ splitLines t, endsReply piece = false := by
  induction more generalizing t with
  | nil =>
      have clean : '\n' ∉ t := by
        intro inside
        have digit := last.code.decimal _ (stops.subset inside)
        revert digit
        decide
      rw [splitLines_of_notMem clean]
      intro piece listed
      rw [List.mem_singleton.mp listed]
      exact endsReply_of_more (u := []) (stops.trans (List.prefix_append _ _))
  | cons line more ih =>
      rw [List.forall_mem_cons] at unbroken
      have form : ((line :: more).map (ReplyLine.shown '-')).flatMap (· ++ crlf) ++
          last.code.digits = (line.shown '-' ++ ['\r']) ++
            '\n' :: ((more.map (ReplyLine.shown '-')).flatMap (· ++ crlf) ++ last.code.digits) := by
        simp [crlf]
      have clean : '\n' ∉ line.shown '-' ++ ['\r'] := by
        simp [unbroken.1]
      have shown : line.shown '-' ++ ['\r'] = line.code.digits ++ '-' :: (line.text ++ ['\r']) := by
        simp [ReplyLine.shown]
      rw [form] at stops
      rcases stops_or_goesOn stops with short | ⟨later, rfl, below⟩
      · rw [splitLines_of_notMem fun inside => clean (short.subset inside)]
        intro piece listed
        rw [List.mem_singleton.mp listed]
        exact endsReply_of_more (shown ▸ short)
      · rw [splitLines_cons clean]
        refine List.forall_mem_cons.mpr ⟨?_, ih unbroken.2 below⟩
        refine @endsReply_of_more line (line.text ++ ['\r']) _ ?_
        rw [← shown]
        exact dropCr_isPrefix _

/-- A text that stops before the blank of the last line is no reply. -/
theorem parseReply_of_front (unbroken : ∀ line ∈ r.lines, '\n' ∉ line) (stops : t <+: r.front) :
    parseReply t = none := by
  have none := endsReply_of_front (fun line member => unbroken _ (List.mem_append_left _
    (List.mem_map_of_mem member))) stops
  rw [parseReply]
  split
  · rfl
  · next last found =>
      have listed := List.mem_of_mem_filter (List.mem_of_getLast? found)
      rw [none last listed]
      rfl

theorem Reply.lines_ne_nil (r : Reply) : ∀ line ∈ r.lines, line ≠ [] := by
  have given {mark : Char} (line : ReplyLine) : line.shown mark ≠ [] := by
    rw [ReplyLine.shown]
    exact List.append_ne_nil_of_right_ne_nil _ (List.cons_ne_nil _ _)
  intro line listed
  rcases List.mem_append.mp listed with more | last
  · obtain ⟨before, -, rfl⟩ := List.mem_map.mp more
    exact given before
  · rw [List.mem_singleton.mp last]
    exact given r.last

/-- Whole lines before a text, as a reader sees them. -/
theorem filter_splitLines_append {lines : List Text} (whole : ∀ line ∈ lines, '\n' ∉ line)
    (given : ∀ line ∈ lines, line ≠ []) (t : Text) :
    (splitLines (lines.flatMap (· ++ crlf) ++ t)).filter (· ≠ []) =
      lines ++ (splitLines t).filter (· ≠ []) := by
  rw [splitLines_append whole, List.filter_append, List.filter_eq_self.mpr]
  exact fun line member => decide_eq_true (given line member)

/-- A whole reply is read as such. -/
theorem parseReply_text (unbroken : ∀ line ∈ r.lines, '\n' ∉ line) :
    parseReply r.text = some r.read := by
  have lines : (splitLines r.text).filter (· ≠ []) = r.lines := by
    have whole := filter_splitLines_append unbroken r.lines_ne_nil []
    rw [List.append_nil] at whole
    rw [Reply.text, whole]
    exact List.append_nil _
  have last : r.lines.getLast? = some (r.last.shown ' ') := List.getLast?_concat
  have code : (r.last.shown ' ').take 3 = r.last.code.digits := by
    rw [ReplyLine.shown, ← r.last.code.three, List.take_left]
  rw [parseReply, lines, last]
  dsimp only
  rw [ReplyLine.shown, endsReply_shown, if_pos rfl, ← ReplyLine.shown, code]
  rfl

/-- Beyond the blank of the last line any beginning is taken for a reply. -/
theorem parseReply_of_beyond (unbroken : ∀ line ∈ r.lines, '\n' ∉ line) (begins : t <+: r.text)
    (beyond : ¬t <+: r.front) : parseReply t ≠ none := by
  rw [Reply.text_eq] at begins
  obtain ⟨u, rfl, below⟩ := (stops_or_goesOn begins).resolve_left beyond
  have earlier : ∀ line ∈ r.more.map (ReplyLine.shown '-'), '\n' ∉ line :=
    fun line member => unbroken line (List.mem_append_left _ member)
  have lastClean : '\n' ∉ r.last.text := by
    intro inside
    refine unbroken (r.last.shown ' ') (List.mem_append_right _ List.mem_cons_self) ?_
    exact List.mem_append_right _ (List.mem_cons_of_mem _ inside)
  have given : ∀ line ∈ r.more.map (ReplyLine.shown '-'), line ≠ [] :=
    fun line member => r.lines_ne_nil line (List.mem_append_left _ member)
  have lines : ∃ v, (splitLines (r.front ++ ' ' :: u)).filter (· ≠ []) =
      r.more.map (ReplyLine.shown '-') ++ [r.last.code.digits ++ ' ' :: v] := by
    rw [Reply.front, List.append_assoc, filter_splitLines_append earlier given]
    have digits : '\n' ∉ r.last.code.digits := by
      intro inside
      exact absurd (r.last.code.decimal _ inside) (by decide)
    have kept (v : Text) : [r.last.code.digits ++ ' ' :: v].filter (· ≠ []) =
        [r.last.code.digits ++ ' ' :: v] := by
      simp
    have ended : '\n' ∉ r.last.text ++ ['\r'] := by
      simp [lastClean]
    have form : r.last.text ++ crlf = (r.last.text ++ ['\r']) ++ '\n' :: [] := by
      simp [crlf]
    rw [form] at below
    rcases stops_or_goesOn below with short | ⟨rest, rfl, nothing⟩
    · have clean : '\n' ∉ r.last.code.digits ++ ' ' :: u := by
        rw [List.mem_append, List.mem_cons, not_or, not_or]
        exact ⟨digits, by decide, fun inside => ended (short.subset inside)⟩
      exact ⟨u, by rw [splitLines_of_notMem clean, kept]⟩
    · have clean : '\n' ∉ (r.last.code.digits ++ ' ' :: r.last.text) ++ ['\r'] := by
        rw [List.append_assoc, List.mem_append, List.cons_append, List.mem_cons, not_or, not_or]
        exact ⟨digits, by decide, ended⟩
      have cut : dropCr ((r.last.code.digits ++ ' ' :: r.last.text) ++ ['\r']) =
          r.last.code.digits ++ ' ' :: r.last.text := by
        rw [dropCr, List.getLast?_concat, if_pos rfl, List.dropLast_concat]
      have whole : r.last.code.digits ++ ' ' :: (r.last.text ++ ['\r'] ++ '\n' :: rest) =
          ((r.last.code.digits ++ ' ' :: r.last.text) ++ ['\r']) ++ '\n' :: rest := by
        simp
      rw [List.prefix_nil.mp nothing] at whole ⊢
      refine ⟨r.last.text, ?_⟩
      rw [whole, splitLines_cons clean, cut, splitLines_of_notMem List.not_mem_nil,
        List.filter_cons_of_pos (by simp)]
      rfl
  obtain ⟨v, lines⟩ := lines
  rw [parseReply, lines, List.getLast?_concat]
  dsimp only
  rw [endsReply_shown, if_pos rfl]
  exact Option.some_ne_none _

theorem lines_of_parseReply {reply : SmtpReply} (read : parseReply t = some reply) :
    (splitLines t).filter (· ≠ []) = reply.lines := by
  rw [parseReply] at read
  split at read
  · cases read
  · split at read
    · exact congrArg SmtpReply.lines (Option.some.inj read)
    · cases read

/-! ## Lines in chunks -/

variable {chunks : List (List UInt8)}

/-- However they are cut, encoded lines are read as lines, and as many. -/
theorem piecesText_lines {lines : List Text} {rest : List UInt8}
    (whole : ∀ line ∈ lines, '\n' ∉ line) (given : ∀ line ∈ lines, line ≠ [])
    (sent : chunks.flatten = utf8Encode (lines.flatMap (· ++ crlf)) ++ rest) :
    ∃ (shown : List Text) (after : List (List UInt8)),
      piecesText chunks = shown.flatMap (· ++ crlf) ++ piecesText after ∧
      after.flatten = rest ∧ shown.length = lines.length ∧ (∀ line ∈ shown, '\n' ∉ line) ∧
      ∀ line ∈ shown, line ≠ [] := by
  induction lines generalizing chunks with
  | nil => exact ⟨[], chunks, rfl, sent, rfl, nofun, nofun⟩
  | cons line lines ih =>
      rw [List.forall_mem_cons] at whole given
      have form : utf8Encode ((line :: lines).flatMap (· ++ crlf)) ++ rest =
          utf8Encode line ++ 13 :: (10 :: (utf8Encode (lines.flatMap (· ++ crlf)) ++ rest)) := by
        have ends : utf8Encode crlf = [13, 10] := by decide
        rw [List.flatMap_cons, utf8Encode, List.flatMap_append, List.flatMap_append]
        change utf8Encode line ++ utf8Encode crlf ++ utf8Encode _ ++ rest = _
        rw [ends]
        simp
      rw [form] at sent
      obtain ⟨here, behind, lineSent, behindSent, text⟩ := piecesText_cut sent (by decide)
      have next : behind.flatten = [] ++ 10 :: (utf8Encode (lines.flatMap (· ++ crlf)) ++ rest) :=
        behindSent
      obtain ⟨gap, after, nothing, afterSent, more⟩ := piecesText_cut next (by decide)
      obtain ⟨shown, last, rest, lastSent, many, clean, some⟩ := ih whole.2 given.2 afterSent
      refine ⟨piecesText here :: shown, last, ?_, lastSent, by rw [List.length_cons, many]; rfl,
        List.forall_mem_cons.mpr ⟨?_, clean⟩, List.forall_mem_cons.mpr ⟨?_, some⟩⟩
      · rw [text, more, piecesText_of_empty nothing, rest]
        simp only [List.flatMap_cons, List.append_assoc]
        rfl
      · exact fun inside => whole.1 (break_mem_of_mem_piecesText lineSent inside)
      · have long := (length_piecesText here).1
        have positive := List.length_pos_of_ne_nil given.1
        rw [lineSent, countP_utf8Encode] at long
        exact List.ne_nil_of_length_pos (by omega)

/-- When a reply is read as it should be from chunks that go at least as far as its end, then they
go no further, and their text is that of the reply. -/
theorem piecesText_of_read {rest : List UInt8} (unbroken : ∀ line ∈ r.lines, '\n' ∉ line)
    (sent : chunks.flatten = r.bytes ++ rest)
    (next : ∀ b ∈ rest.head?, b.toNat < 0x80 ∧ b ≠ 10 ∧ b ≠ 13)
    (read : parseReply (piecesText chunks) = some r.read) :
    rest = [] ∧ piecesText chunks = r.text := by
  obtain ⟨shown, after, text, afterSent, many, clean, some⟩ :=
    piecesText_lines unbroken r.lines_ne_nil sent
  have lines : (splitLines (piecesText chunks)).filter (· ≠ []) = r.lines :=
    lines_of_parseReply read
  rw [text, filter_splitLines_append clean some] at lines
  have none : (splitLines (piecesText after)).filter (· ≠ []) = [] := by
    apply List.eq_nil_of_length_eq_zero
    have together := congrArg List.length lines
    rw [List.length_append] at together
    omega
  rw [none, List.append_nil] at lines
  have ended : rest = [] := by
    cases rest with
    | nil => rfl
    | cons b rest =>
        exfalso
        obtain ⟨ascii, noBreak, noReturn⟩ := next b rfl
        have begins : after.flatten = [] ++ b :: rest := afterSent
        obtain ⟨gap, later, nothing, -, more⟩ := piecesText_cut begins ascii
        rw [piecesText_of_empty nothing, List.nil_append] at more
        have value : (Char.ofNat b.toNat).toNat = b.toNat := by
          rw [Char.toNat_ofNat, if_pos (Or.inl (by omega))]
        have other {n : Nat} (differs : b.toNat ≠ n) (small : n < 0x80) :
            Char.ofNat b.toNat ≠ Char.ofNat n := by
          intro same
          have values := congrArg Char.toNat same
          rw [value, Char.toNat_ofNat, if_pos (Or.inl (by omega))] at values
          exact differs values
        obtain ⟨line, listed, given⟩ := exists_line
          (other (n := 10) (fun same => noBreak (UInt8.toNat_inj.mp same)) (by decide))
          (other (n := 13) (fun same => noReturn (UInt8.toNat_inj.mp same)) (by decide))
          (piecesText later)
        rw [← more] at listed
        have kept : line ∈ (splitLines (piecesText after)).filter (· ≠ []) :=
          List.mem_filter.mpr ⟨listed, decide_eq_true given⟩
        rw [none] at kept
        cases kept
  subst ended
  rw [piecesText_of_empty afterSent, List.append_nil, lines] at text
  exact ⟨rfl, text⟩

/-! ## Calls -/

variable {n : Nat} {buf : Text}

/-- The call goes on after each of these chunks. -/
def Waits (buf : Text) (chunks : List (List UInt8)) : Prop :=
  ∀ front back, chunks = front ++ back → front ≠ [] →
    parseReply (buf ++ piecesText front) = none

theorem waits_cons {chunk : List UInt8} :
    Waits buf (chunk :: chunks) ↔
      parseReply (buf ++ utf8Text chunk) = none ∧ Waits (buf ++ utf8Text chunk) chunks := by
  have single : piecesText [chunk] = utf8Text chunk := List.append_nil _
  constructor
  · intro waits
    refine ⟨?_, ?_⟩
    · rw [← single]
      exact waits [chunk] chunks rfl (List.cons_ne_nil _ _)
    · rintro front back rfl -
      have later := waits (chunk :: front) back rfl (List.cons_ne_nil _ _)
      rw [piecesText_cons, ← List.append_assoc] at later
      exact later
  · rintro ⟨here, later⟩ front back form some
    obtain ⟨first, front, rfl⟩ := List.exists_cons_of_ne_nil some
    obtain ⟨rfl, rfl⟩ := List.cons.inj form
    cases front with
    | nil => rw [single]; exact here
    | cons next front =>
        rw [piecesText_cons, ← List.append_assoc]
        exact later (next :: front) back rfl (List.cons_ne_nil _ _)

/-- A call ends with the first chunk behind which the buffer is a reply. -/
theorem readReplies_of_waits {chunk : List UInt8} {rest : List (List UInt8)} {reply : SmtpReply}
    (waits : Waits buf chunks)
    (read : parseReply (buf ++ piecesText (chunks ++ [chunk])) = some reply) :
    readReplies n buf (chunks ++ chunk :: rest) =
      (reply, n + (chunks ++ [chunk]).flatten.length) ::
        readReplies (n + (chunks ++ [chunk]).flatten.length) [] rest := by
  induction chunks generalizing n buf with
  | nil =>
      have single : piecesText ([] ++ [chunk]) = utf8Text chunk := List.append_nil _
      have bytes : ([] ++ [chunk] : List (List UInt8)).flatten = chunk := List.append_nil _
      rw [single] at read
      rw [List.nil_append, readReplies, read, bytes]
  | cons first chunks ih =>
      obtain ⟨here, later⟩ := waits_cons.mp waits
      rw [List.cons_append, piecesText_cons, ← List.append_assoc] at read
      rw [List.cons_append, readReplies, here]
      dsimp only
      rw [ih later read, List.cons_append, List.flatten_cons, List.length_append, Nat.add_assoc]

/-- What a call that ends has waited for. -/
theorem waits_of_readReplies {got : SmtpReply × Nat} {more : List (SmtpReply × Nat)}
    (run : readReplies n buf chunks = got :: more) :
    ∃ front chunk rest, chunks = front ++ chunk :: rest ∧ Waits buf front ∧
      parseReply (buf ++ piecesText (front ++ [chunk])) = some got.1 ∧
      got.2 = n + (front ++ [chunk]).flatten.length ∧ more = readReplies got.2 [] rest := by
  induction chunks generalizing n buf with
  | nil => cases run
  | cons first chunks ih =>
      have single : piecesText ([] ++ [first]) = utf8Text first := List.append_nil _
      have bytes : ([] ++ [first] : List (List UInt8)).flatten = first := List.append_nil _
      rw [readReplies] at run
      cases read : parseReply (buf ++ utf8Text first) with
      | some reply =>
          rw [read] at run
          obtain ⟨rfl, rfl⟩ := List.cons.inj run
          refine ⟨[], first, chunks, rfl, ?_, ?_, ?_, rfl⟩
          · intro front back form some
            exact absurd (List.append_eq_nil_iff.mp form.symm).1 some
          · rw [single]
            exact read
          · rw [bytes]
      | none =>
          rw [read] at run
          obtain ⟨front, chunk, rest, rfl, waits, ends, count, later⟩ := ih run
          refine ⟨first :: front, chunk, rest, rfl, waits_cons.mpr ⟨read, waits⟩, ?_, ?_, later⟩
          · rw [List.cons_append, piecesText_cons, ← List.append_assoc]
            exact ends
          · rw [count, List.cons_append, List.flatten_cons, List.length_append, Nat.add_assoc]

/-! ## Which chunks are read well -/

/-- Some chunks of a reply that begin between its characters are a beginning of its text. -/
theorem exists_text_of_starts {s : Text} {front back : List (List UInt8)}
    (bytes : (front ++ back).flatten = utf8Encode s)
    (starts : ∀ chunk ∈ front ++ back, ∀ b ∈ chunk.head?, isUtf8Start b = true) :
    ∃ t, t <+: s ∧ utf8Encode t = front.flatten ∧ piecesText front = t := by
  have next : ∀ b ∈ back.flatten.head?, isUtf8Start b = true := by
    intro b first
    rw [List.head?_flatten] at first
    obtain ⟨chunk, member, here⟩ := List.exists_of_findSome?_eq_some first
    exact starts chunk (List.mem_append_right _ member) b here
  rw [List.flatten_append] at bytes
  obtain ⟨t, u, rfl, here, -⟩ := utf8Encode_cut bytes.symm next
  refine ⟨t, List.prefix_append t u, here, piecesText_of_starts here.symm ?_⟩
  exact fun chunk member => starts chunk (List.mem_append_left _ member)

/-- Of two beginnings the one with fewer bytes is the shorter one. -/
theorem beginning_of_length {s front : Text} (first : t <+: s) (second : front <+: s)
    (short : (utf8Encode t).length ≤ (utf8Encode front).length) : t <+: front := by
  rcases List.prefix_or_prefix_of_prefix first second with here | ⟨more, rfl⟩
  · exact here
  · rw [length_utf8Encode_append] at short
    have long := length_le_utf8Encode more
    have none : more = [] := List.eq_nil_of_length_eq_zero (by omega)
    rw [none, List.append_nil]

theorem Reply.front_isPrefix (r : Reply) : r.front <+: r.text := by
  rw [text_eq]
  exact List.prefix_append _ _

/-- A reply begins with a digit. -/
theorem Reply.text_form (r : Reply) : ∃ a rest, r.text = a :: rest ∧ a.isDigit = true := by
  have begins {mark : Char} (line : ReplyLine) (rest : Text) :
      ∃ a more, line.shown mark ++ rest = a :: more ∧ a.isDigit = true := by
    obtain ⟨a, b, c, form, digit, -⟩ := line.code.form
    exact ⟨a, _, by rw [ReplyLine.shown, form]; rfl, digit⟩
  rw [text, lines]
  cases r.more with
  | nil =>
      rw [List.map_nil, List.nil_append, List.flatMap_cons, List.append_assoc]
      exact begins r.last _
  | cons line more =>
      rw [List.map_cons, List.cons_append, List.flatMap_cons, List.append_assoc]
      exact begins line _

theorem Reply.bytes_ne_nil (r : Reply) : r.bytes ≠ [] := by
  have some : r.text ≠ [] := by
    rw [text_eq]
    exact List.append_ne_nil_of_right_ne_nil _ (List.cons_ne_nil _ _)
  have long := length_le_utf8Encode r.text
  have positive := List.length_pos_of_ne_nil some
  exact List.ne_nil_of_length_pos (by rw [bytes]; omega)

/-- The chunks of a reply are read as this reply. -/
theorem ReadsAlone.run (alone : ReadsAlone r chunks) (rest : List (List UInt8)) :
    readReplies n [] (chunks ++ rest) =
      (r.read, n + r.bytes.length) :: readReplies (n + r.bytes.length) [] rest := by
  obtain ⟨unbroken, bytes, starts, late⟩ := alone
  have given : chunks ≠ [] := by
    rintro rfl
    exact r.bytes_ne_nil bytes.symm
  obtain ⟨front, chunk, rfl⟩ := (List.eq_nil_or_concat chunks).resolve_left given
  rw [List.concat_eq_append] at bytes starts late ⊢
  rw [List.dropLast_concat] at late
  have waits : Waits [] front := by
    rintro before behind rfl -
    rw [List.append_assoc] at bytes starts
    obtain ⟨t, begins, sent, text⟩ := exists_text_of_starts bytes starts
    rw [List.nil_append, text]
    refine parseReply_of_front unbroken (beginning_of_length begins r.front_isPrefix ?_)
    rw [List.flatten_append, List.length_append] at late
    rw [sent]
    omega
  have read : parseReply ([] ++ piecesText (front ++ [chunk])) = some r.read := by
    rw [List.nil_append, piecesText_of_starts bytes starts]
    exact parseReply_text unbroken
  rw [List.append_assoc, List.singleton_append, readReplies_of_waits waits read, bytes]

/-- A reply that is read well is read from its own chunks. -/
theorem readsAlone_of_run {got : SmtpReply × Nat} {more : List (SmtpReply × Nat)}
    {rest : List UInt8} (sent : chunks.flatten = r.bytes ++ rest)
    (next : ∀ b ∈ rest.head?, b.toNat < 0x80 ∧ b ≠ 10 ∧ b ≠ 13)
    (run : readReplies n [] chunks = got :: more) (read : got.1 = r.read)
    (late : n + r.bytes.length ≤ got.2) :
    ∃ here behind, chunks = here ++ behind ∧ ReadsAlone r here ∧ behind.flatten = rest ∧
      more = readReplies (n + r.bytes.length) [] behind := by
  obtain ⟨front, chunk, behind, rfl, waits, ends, count, later⟩ := waits_of_readReplies run
  rw [List.nil_append, read] at ends
  have unbroken : ∀ line ∈ r.lines, '\n' ∉ line := by
    intro line listed
    have lines : (splitLines (piecesText (front ++ [chunk]))).filter (· ≠ []) = r.lines :=
      lines_of_parseReply ends
    rw [← lines] at listed
    exact break_notMem_of_mem_splitLines (List.mem_of_mem_filter listed)
  have form : front ++ chunk :: behind = (front ++ [chunk]) ++ behind := by
    rw [List.append_assoc, List.singleton_append]
  rw [form, List.flatten_append] at sent
  obtain ⟨extra, here, rfl⟩ : ∃ extra, (front ++ [chunk]).flatten = r.bytes ++ extra ∧
      rest = extra ++ behind.flatten := by
    rcases List.append_eq_append_iff.mp sent with ⟨missing, bytes, there⟩ | ⟨extra, bytes, there⟩
    · have whole : missing = [] := by
        apply List.eq_nil_of_length_eq_zero
        have lengths := congrArg List.length bytes
        rw [List.length_append] at lengths
        omega
      subst whole
      exact ⟨[], by rw [bytes, List.append_nil, List.append_nil], there.symm⟩
    · exact ⟨extra, bytes, there⟩
  have digit : ∀ b ∈ extra.head?, b.toNat < 0x80 ∧ b ≠ 10 ∧ b ≠ 13 := by
    intro b first
    refine next b ?_
    rw [List.head?_append, first]
    rfl
  obtain ⟨rfl, text⟩ := piecesText_of_read unbroken here digit ends
  rw [List.append_nil] at here
  have starts : ∀ piece ∈ front ++ [chunk], ∀ b ∈ piece.head?, isUtf8Start b = true := by
    refine (length_piecesText (front ++ [chunk])).2 ?_
    rw [here, text, Reply.bytes, countP_utf8Encode]
  refine ⟨front ++ [chunk], behind, form, ⟨unbroken, here, starts, ?_⟩, rfl, ?_⟩
  · rw [List.dropLast_concat]
    obtain ⟨t, begins, sent, shown⟩ := exists_text_of_starts here starts
    by_cases none : front = []
    · rw [none]
      exact Nat.zero_le _
    · have silent := waits front [] (List.append_nil _).symm none
      rw [List.nil_append, shown] at silent
      have short : t <+: r.front := by
        by_contra beyond
        exact parseReply_of_beyond unbroken begins beyond silent
      obtain ⟨more, whole⟩ := short
      rw [← sent, ← whole, length_utf8Encode_append]
      omega
  · rw [later, count, here]

/-- The bytes of replies begin with a digit. -/
theorem digit_of_bytes (replies : List Reply) :
    ∀ b ∈ (replies.flatMap Reply.bytes).head?, b.toNat < 0x80 ∧ b ≠ 10 ∧ b ≠ 13 := by
  cases replies with
  | nil => exact nofun
  | cons r rest =>
      obtain ⟨a, tail, form, digit⟩ := r.text_form
      have range : 48 ≤ a.toNat ∧ a.toNat ≤ 57 := by
        simpa [Char.isDigit, UInt32.le_iff_toNat_le] using digit
      have byte : String.utf8EncodeChar a = [UInt8.ofNat a.toNat] :=
        if_pos (by have := range.2; exact le_trans this (by decide))
      have value : (UInt8.ofNat a.toNat).toNat = a.toNat := by
        rw [UInt8.toNat_ofNat', Nat.mod_eq_of_lt (by omega)]
      intro b first
      rw [List.flatMap_cons, Reply.bytes, form, utf8Encode, List.flatMap_cons, byte] at first
      obtain rfl : UInt8.ofNat a.toNat = b := Option.some.inj first
      rw [value]
      refine ⟨by omega, ?_, ?_⟩
      · intro same
        rw [same] at value
        exact absurd value (by rw [show (10 : UInt8).toNat = 10 from rfl]; omega)
      · intro same
        rw [same] at value
        exact absurd value (by rw [show (13 : UInt8).toNat = 13 from rfl]; omega)

theorem readsAll_iff_from (replies : List Reply) (n : Nat) (given : ∀ chunk ∈ chunks, chunk ≠ [])
    (sent : chunks.flatten = replies.flatMap Reply.bytes) :
    List.Forall₂ (fun got due => got.1 = due.1 ∧ due.2 ≤ got.2) (readReplies n [] chunks)
        (due n replies) ↔
      ∃ groups : List (List (List UInt8)), groups.flatten = chunks ∧
        List.Forall₂ ReadsAlone replies groups := by
  induction replies generalizing n chunks with
  | nil =>
      have none : chunks = [] := by
        cases chunks with
        | nil => rfl
        | cons chunk rest =>
            exact absurd (List.append_eq_nil_iff.mp sent).1 (given chunk List.mem_cons_self)
      subst none
      exact iff_of_true List.Forall₂.nil ⟨[], rfl, List.Forall₂.nil⟩
  | cons r replies ih =>
      rw [List.flatMap_cons] at sent
      constructor
      · intro all
        rw [due] at all
        cases run : readReplies n [] chunks with
        | nil =>
            rw [run] at all
            cases all
        | cons got more =>
            rw [run] at all
            obtain ⟨⟨read, late⟩, rest⟩ := List.forall₂_cons.mp all
            obtain ⟨here, behind, rfl, alone, bytes, rfl⟩ :=
              readsAlone_of_run sent (digit_of_bytes replies) run read late
            obtain ⟨groups, rfl, others⟩ := (ih (n + r.bytes.length)
              (fun chunk member => given chunk (List.mem_append_right _ member)) bytes).mp rest
            exact ⟨here :: groups, rfl, List.Forall₂.cons alone others⟩
      · rintro ⟨groups, rfl, all⟩
        cases all with
        | cons alone others =>
            rw [List.flatten_cons, alone.run, due]
            refine List.Forall₂.cons ⟨rfl, le_rfl⟩ ((ih _ ?_ ?_).mpr ⟨_, rfl, others⟩)
            · intro chunk member
              exact given chunk (List.mem_append_right _ member)
            · rw [List.flatten_cons, List.flatten_append, alone.bytes] at sent
              exact List.append_cancel_left sent

/-- Replies that are sent in chunks are read well just where the chunks can be grouped into those
of one reply each. -/
theorem readsAll_iff (replies : List Reply) (chunks : List (List UInt8))
    (given : ∀ chunk ∈ chunks, chunk ≠ []) (sent : chunks.flatten = replies.flatMap Reply.bytes) :
    ReadsAll replies chunks ↔
      ∃ groups : List (List (List UInt8)), groups.flatten = chunks ∧
        List.Forall₂ ReadsAlone replies groups :=
  readsAll_iff_from replies 0 given sent

/-- `250 ok`. -/
def okReply : Reply :=
  ⟨[], ⟨⟨['2', '5', '0'], rfl, by simp⟩, ['o', 'k'], by decide⟩⟩

/-- A cut in the code is no matter. -/
theorem readsAll_okReply :
    ReadsAll [okReply] [[50, 53], [48, 32, 111, 107, 13, 10]] :=
  (readsAll_iff [okReply] [[50, 53], [48, 32, 111, 107, 13, 10]] (by decide) (by decide)).mpr
    ⟨[[[50, 53], [48, 32, 111, 107, 13, 10]]], rfl,
      List.Forall₂.cons ⟨by decide, by decide, by simp [isUtf8Start], by decide⟩ List.Forall₂.nil⟩

/-- A cut in the text of the last line ends the reply. -/
theorem okReply_cut_short : ¬ReadsAll [okReply] [[50, 53, 48, 32, 111], [107, 13, 10]] := by
  intro all
  have run : readReplies 0 [] [[50, 53, 48, 32, 111], [107, 13, 10]] =
      [(⟨250, [['2', '5', '0', ' ', 'o']]⟩, 5)] := by
    decide
  rw [ReadsAll, run] at all
  have first := (List.forall₂_cons.mp all).1.1
  revert first
  decide

end Proxora.Smtp
