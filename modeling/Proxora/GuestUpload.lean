import Proxora.Files
import Proxora.GuestPaths

/-!
# Uploads to a guest

`sftpUploadFromStream` of `server/services/guest-files.ts` with
`sshCatUpload`, `sftpPipelineWrite` and `finalizeGuestUploadPart`.  An upload is
a stage and what it has open; a step is one answer of the guest, one turn of the
loop that sends the body, or one effect of what was sent.  What an upload has
sent can still take effect after it has been rejected.

The metadata sidecar is held as what `readUploadMeta` makes of it.
-/

namespace Proxora

open Ecma Files

structure GuestUploadIdentity where
  size : Int
  prefixHex : Text
deriving DecidableEq, Repr

/-- The disk of the guest: its files and the sidecar of the destination. -/
structure Guest where
  files : FileSystem Text
  identity : Option GuestUploadIdentity

/-- What `sftpUploadFromStream` is called with, and `_maxWriteLen` of its session.
No body is an empty one. -/
structure UploadRequest where
  offset : Nat
  expectedSize : Option Int
  prefixHex : Option Text
  body : List Bytes
  maxWriteLen : Option Nat
deriving DecidableEq, Repr

inductive UploadStage : Type
  | statPart
  | readMeta (size : Nat)
  | clearPart
  | clearMeta
  | writeMeta
  | probe
  | drain
  | openCat
  | cat
  | openPart
  | pipe
  | statAfter
  | statFinal (checkSize : Int)
  | unlinkDest (size : Nat)
  | rename (size : Nat)
  | unlinkMeta (size : Nat)
  | done (size : Nat) (dest : Option Bytes)
  | rejected
deriving DecidableEq, Repr

/-- The size check is passed. -/
def UploadStage.passed : UploadStage → Bool
  | .unlinkDest _ | .rename _ | .unlinkMeta _ | .done _ _ => true
  | _ => false

/-- The remote `cat`, and what of the body it has not written. -/
structure RemoteCat where
  file : Nat
  append : Bool
  pos : Nat
  left : Bytes
deriving DecidableEq, Repr

/-- The variables of `sftpPipelineWrite`, with the writes on their way and what
failed ones have left out. -/
structure UploadPipe where
  file : Nat
  body : List Bytes
  rest : Bytes
  pos : Nat
  ended : Bool
  failed : Bool
  pending : List Write
  lost : List Write
deriving DecidableEq, Repr

/-- An upload under way.  `base` is the part file as it found it; `cut` says that
the write step ended before all of the body was written. -/
structure Upload where
  request : UploadRequest
  stage : UploadStage
  base : Bytes
  cat : Option RemoteCat
  pipe : Option UploadPipe
  cut : Bool
deriving DecidableEq, Repr

/-- How a request to the guest ends: done, done but answered with an error, or
refused. -/
inductive GuestReply : Type
  | ok | lost | failed
deriving DecidableEq, Repr

/-- `write i k ok` is the effect of the write at place `i`, of which the first `k`
bytes arrive.  `gone` is the end of what a rejected upload has left running. -/
inductive UploadEvent : Type
  | answer (reply : GuestReply)
  | pump
  | write (i k : Nat) (ok : Bool)
  | catWrite (k : Nat)
  | catClosed
  | abort
  | gone
deriving DecidableEq, Repr

namespace UploadRequest

def hash (r : UploadRequest) : Text :=
  match r.prefixHex with
  | some hex => toLowerCase (trim hex)
  | none => []

def skipWrite (r : UploadRequest) : Bool :=
  match r.expectedSize with
  | some expected => 0 < expected && (r.offset : Int) = expected
  | none => false

/-- `sftpChunkSize`. -/
def chunkSize (r : UploadRequest) : Nat :=
  match r.maxWriteLen with
  | some raw => if raw < 16 * 1024 then 32 * 1024 else min (224 * 1024) raw
  | none => 32 * 1024

/-- What `readUploadMeta` makes of the sidecar that `writeUploadMeta` writes. -/
def identity (r : UploadRequest) : Option GuestUploadIdentity :=
  match r.expectedSize with
  | some expected =>
      if 0 ≤ expected ∧ r.hash.length = 64 ∧ ∀ c ∈ r.hash, c ∈ ("0123456789abcdef" : Text) then
        some ⟨expected, r.hash⟩
      else none
  | none => none

/-- The stored identity is one of another file. -/
def differs (r : UploadRequest) (stored : Option GuestUploadIdentity) : Bool :=
  match stored with
  | some stored =>
      r.hash ≠ [] && stored.prefixHex ≠ [] &&
        (stored.prefixHex ≠ r.hash ||
          match r.expectedSize with
          | some expected => stored.size ≠ expected
          | none => false)
  | none => false

def offsetBeyond (r : UploadRequest) : Bool :=
  match r.expectedSize with
  | some expected => (r.offset : Int) > expected
  | none => false

def writeStage (r : UploadRequest) : UploadStage := if r.skipWrite then .drain else .probe

/-- The checks before anything is changed. -/
def checked (r : UploadRequest) (size : Nat) (stored : Option GuestUploadIdentity) :
    UploadStage :=
  if r.offsetBeyond then .rejected
  else if r.offset = 0 then .clearPart
  else if size ≠ r.offset then .rejected
  else if r.differs stored then .rejected
  else r.writeStage

end UploadRequest

namespace Guest

def unlink (g : Guest) (path : Text) : Guest := { g with files := g.files.unlink path }

/-- `(await statSize(sftp, path)) ?? 0`. -/
def size (g : Guest) (path : Text) : Nat := ((g.files.read path).getD []).length

end Guest

def sftpInFlight : Nat := 64

namespace UploadPipe

/-- The condition of the loop in `flushRest`. -/
def flushes (p : UploadPipe) (chunkSize : Nat) : Bool :=
  chunkSize ≤ p.rest.length || p.ended && p.rest ≠ []

/-- `launch`. -/
def launch (p : UploadPipe) (chunkSize : Nat) : UploadPipe :=
  { p with
    rest := p.rest.drop chunkSize
    pos := p.pos + (p.rest.take chunkSize).length
    pending := p.pending ++ [⟨p.pos, p.rest.take chunkSize⟩] }

/-- The write at place `i` is answered, with its first `k` bytes in the file. -/
def settle (p : UploadPipe) (i k : Nat) (w : Write) (ok : Bool) : UploadPipe :=
  { p with
    pending := p.pending.eraseIdx i
    lost := if ok then p.lost else w.rest k :: p.lost
    failed := p.failed || !ok }

end UploadPipe

namespace Upload

def start (request : UploadRequest) : Upload where
  request := request
  stage := .statPart
  base := []
  cat := none
  pipe := none
  cut := false

def goto (u : Upload) (stage : UploadStage) : Upload := { u with stage := stage }

/-- The answer to what the upload is waiting for. -/
def answer (dest : GuestPath) (g : Guest) (u : Upload) (reply : GuestReply) :
    Option (Guest × Upload) :=
  match u.stage with
  | .statPart =>
      if reply = .ok then
        some (g, { u with
          stage := .readMeta (g.size dest.partPath)
          base := (g.files.read dest.partPath).getD [] })
      else some (g, u.goto .rejected)
  | .readMeta size =>
      some (g, u.goto (u.request.checked size (if reply = .ok then g.identity else none)))
  | .clearPart =>
      some (if reply = .failed then g else g.unlink dest.partPath, u.goto .clearMeta)
  | .clearMeta =>
      some (if reply = .failed then g else { g with identity := none },
        u.goto (if u.request.expectedSize ≠ none ∧ u.request.hash ≠ [] then .writeMeta
          else u.request.writeStage))
  | .writeMeta =>
      some (if reply = .failed then g else { g with identity := u.request.identity },
        u.goto (if reply = .ok then u.request.writeStage else .rejected))
  | .probe => some (g, u.goto (if reply = .ok then .openCat else .openPart))
  | .drain =>
      if reply = .ok then
        some (g, { u with stage := .statAfter, cut := u.request.body.flatten ≠ [] })
      else some (g, u.goto .rejected)
  | .openCat =>
      let opened := g.files.openFile dest.partPath (u.request.offset = 0)
      match reply with
      | .ok =>
          some ({ g with files := opened.1 }, { u with
            stage := .cat
            cat := some ⟨opened.2, u.request.offset ≠ 0, 0, u.request.body.flatten⟩ })
      | .lost => some ({ g with files := opened.1 }, u.goto .rejected)
      | .failed => some (g, u.goto .rejected)
  | .openPart =>
      let opened := g.files.openFile dest.partPath (u.request.offset = 0)
      if u.request.offset ≠ 0 ∧ g.files.entry dest.partPath = none then
        some (g, u.goto .rejected)
      else
        match reply with
        | .ok =>
            some ({ g with files := opened.1 }, { u with
              stage := .pipe
              pipe := some
                ⟨opened.2, u.request.body, [], u.request.offset, false, false, [], []⟩ })
        | .lost => some ({ g with files := opened.1 }, u.goto .rejected)
        | .failed => some (g, u.goto .rejected)
  | .statAfter =>
      if reply = .ok then
        some (g, u.goto (.statFinal (u.request.expectedSize.getD (g.size dest.partPath))))
      else some (g, u.goto .rejected)
  | .statFinal checkSize =>
      let size := g.size dest.partPath
      if reply = .ok ∧ (size : Int) = checkSize then
        some (g, u.goto (if dest.isPart then .unlinkMeta size else .unlinkDest size))
      else some (g, u.goto .rejected)
  | .unlinkDest size =>
      some (if reply = .failed then g else g.unlink dest.text, u.goto (.rename size))
  | .rename size =>
      if reply = .failed ∨ g.files.entry dest.partPath = none then some (g, u.goto .rejected)
      else
        some ({ g with files := g.files.rename dest.partPath dest.text },
          u.goto (if reply = .ok then .unlinkMeta size else .rejected))
  | .unlinkMeta size =>
      some (if reply = .failed then g else { g with identity := none },
        u.goto (.done size (g.files.read dest.text)))
  | .cat | .pipe | .done _ _ | .rejected => none

/-- One turn of the loop of `sftpPipelineWrite`; it waits when there is nothing
to do. -/
def pump (u : Upload) (p : UploadPipe) : Option Upload :=
  if p.flushes u.request.chunkSize then
    if p.pending.length < sftpInFlight then
      some { u with pipe := some (p.launch u.request.chunkSize) }
    else none
  else
    match p.body with
    | chunk :: body =>
        if p.failed then none
        else some { u with pipe := some { p with body := body, rest := p.rest ++ chunk } }
    | [] =>
        if !p.ended then some { u with pipe := some { p with ended := true } }
        else if p.pending = [] ∧ p.failed = false then
          some { u with stage := .statAfter, pipe := none }
        else none

/-- Where the remote `cat` writes next. -/
def catStart (g : Guest) (c : RemoteCat) : Nat := if c.append then g.files.size c.file else c.pos

def step (dest : GuestPath) (g : Guest) (u : Upload) : UploadEvent → Option (Guest × Upload)
  | .answer reply => u.answer dest g reply
  | .pump =>
      match u.stage, u.pipe with
      | .pipe, some p => (u.pump p).map fun after => (g, after)
      | _, _ => none
  | .write i k ok =>
      match u.pipe with
      | some p =>
          match p.pending[i]? with
          | some w =>
              if k ≤ w.bytes.length ∧ (ok → k = w.bytes.length) then
                some ({ g with files := g.files.write p.file w.start (w.bytes.take k) },
                  { u with pipe := some (p.settle i k w ok) })
              else none
          | none => none
      | none => none
  | .catWrite k =>
      match u.cat with
      | some c =>
          if 0 < k ∧ k ≤ c.left.length then
            some ({ g with files := g.files.write c.file (catStart g c) (c.left.take k) },
              { u with cat := some { c with pos := c.pos + k, left := c.left.drop k } })
          else none
      | none => none
  | .catClosed =>
      match u.stage, u.cat with
      | .cat, some c => some (g, { u with stage := .statAfter, cat := none, cut := c.left ≠ [] })
      | _, _ => none
  | .abort =>
      match u.stage with
      | .done _ _ | .rejected => none
      | _ => some (g, u.goto .rejected)
  | .gone =>
      match u.stage with
      | .rejected => some (g, { u with cat := none, pipe := none })
      | _ => none

end Upload

/-! ## What a step can do -/

namespace UploadRequest

variable {r : UploadRequest}

theorem skipWrite_iff : r.skipWrite = true ↔ r.offset ≠ 0 ∧ r.expectedSize = some (r.offset : Int) := by
  unfold skipWrite
  cases r.expectedSize with
  | none => simp
  | some expected =>
      simp only [Bool.and_eq_true, decide_eq_true_eq, Option.some.injEq]
      omega

@[simp] theorem writeStage_passed : r.writeStage.passed = false := by
  unfold writeStage
  split <;> rfl

/-- What the checks lead to. -/
theorem checked_cases (r : UploadRequest) (size : Nat) (stored : Option GuestUploadIdentity) :
    r.checked size stored = .rejected ∨
      r.offset = 0 ∧ r.checked size stored = .clearPart ∨
      r.offset ≠ 0 ∧ size = r.offset ∧ r.checked size stored = r.writeStage := by
  unfold checked
  split
  · exact .inl rfl
  · split
    · next zero => exact .inr (.inl ⟨zero, rfl⟩)
    · next resumed =>
        split
        · exact .inl rfl
        · next fits =>
            split
            · exact .inl rfl
            · exact .inr (.inr ⟨resumed, not_not.mp fits, rfl⟩)

end UploadRequest

namespace Upload

variable {dest : GuestPath} {g h : Guest} {u v : Upload} {i k : Nat} {ok : Bool}

theorem step_pump (happens : u.step dest g .pump = some (h, v)) :
    ∃ p, u.stage = .pipe ∧ u.pipe = some p ∧ u.pump p = some v ∧ h = g := by
  simp only [step] at happens
  split at happens
  · next p stage held =>
      obtain ⟨after, turned, same⟩ := Option.map_eq_some_iff.mp happens
      cases same
      exact ⟨p, stage, held, turned, rfl⟩
  · cases happens

theorem step_write (happens : u.step dest g (.write i k ok) = some (h, v)) :
    ∃ p w, u.pipe = some p ∧ p.pending[i]? = some w ∧ k ≤ w.bytes.length ∧
      (ok = true → k = w.bytes.length) ∧
      h = { g with files := g.files.write p.file w.start (w.bytes.take k) } ∧
      v = { u with pipe := some (p.settle i k w ok) } := by
  simp only [step] at happens
  split at happens
  · next p held =>
      split at happens
      · next w sent =>
          split at happens
          · next whole =>
              cases happens
              exact ⟨p, w, held, sent, whole.1, whole.2, rfl, rfl⟩
          · cases happens
      · cases happens
  · cases happens

theorem step_catWrite (happens : u.step dest g (.catWrite k) = some (h, v)) :
    ∃ c, u.cat = some c ∧ 0 < k ∧ k ≤ c.left.length ∧
      h = { g with files := g.files.write c.file (catStart g c) (c.left.take k) } ∧
      v = { u with cat := some { c with pos := c.pos + k, left := c.left.drop k } } := by
  simp only [step] at happens
  split at happens
  · next c held =>
      split at happens
      · next inside =>
          cases happens
          exact ⟨c, held, inside.1, inside.2, rfl, rfl⟩
      · cases happens
  · cases happens

theorem step_catClosed (happens : u.step dest g .catClosed = some (h, v)) :
    ∃ c, u.stage = .cat ∧ u.cat = some c ∧ h = g ∧
      v = { u with stage := .statAfter, cat := none, cut := c.left ≠ [] } := by
  simp only [step] at happens
  split at happens
  · next c stage held =>
      cases happens
      exact ⟨c, stage, held, rfl, rfl⟩
  · cases happens

/-- The upload has ended. -/
def hasEnded (u : Upload) : Bool :=
  match u.stage with
  | .done _ _ | .rejected => true
  | _ => false

theorem step_abort (happens : u.step dest g .abort = some (h, v)) :
    u.hasEnded = false ∧ h = g ∧ v = u.goto .rejected := by
  simp only [step] at happens
  cases stage : u.stage <;> rw [stage] at happens <;> dsimp only at happens <;> cases happens <;>
    exact ⟨by rw [hasEnded, stage], rfl, rfl⟩

theorem step_gone (happens : u.step dest g .gone = some (h, v)) :
    u.stage = .rejected ∧ h = g ∧ v = { u with cat := none, pipe := none } := by
  simp only [step] at happens
  split at happens
  · next stage =>
      cases happens
      exact ⟨stage, rfl, rfl⟩
  · cases happens

/-- What a turn of the loop does: it sends a piece, takes a chunk of the body,
notes its end, or is through. -/
theorem pump_cases {p : UploadPipe} (turned : u.pump p = some v) :
    v = { u with pipe := some (p.launch u.request.chunkSize) } ∨
    (∃ chunk body, p.body = chunk :: body ∧
      v = { u with pipe := some { p with body := body, rest := p.rest ++ chunk } }) ∨
    v = { u with pipe := some { p with ended := true } } ∨
    (p.rest = [] ∧ p.body = [] ∧ p.pending = [] ∧ p.failed = false ∧
      v = { u with stage := .statAfter, pipe := none }) := by
  unfold pump at turned
  split at turned
  · split at turned
    · cases turned
      exact .inl rfl
    · cases turned
  · next waits =>
      split at turned
      · next chunk body queue =>
          split at turned
          · cases turned
          · cases turned
            exact .inr (.inl ⟨chunk, body, queue, rfl⟩)
      · next queue =>
          split at turned
          · cases turned
            exact .inr (.inr (.inl rfl))
          · next ended =>
              split at turned
              · next done =>
                  cases turned
                  have sent : p.rest = [] := by
                    simp only [UploadPipe.flushes] at waits
                    simp_all
                  exact .inr (.inr (.inr ⟨sent, queue, done.1, done.2, rfl⟩))
              · cases turned

/-- A step keeps what the upload was called with, and, once the upload has looked
at the part file, what it has found. -/
theorem step_fixed {e : UploadEvent} (happens : u.step dest g e = some (h, v)) :
    v.request = u.request ∧ (v.base = u.base ∨
      u.stage = .statPart ∧ v.base = (g.files.read dest.partPath).getD []) := by
  cases e with
  | answer reply =>
      simp only [Upload.step] at happens
      unfold Upload.answer at happens
      cases stage : u.stage <;> rw [stage] at happens <;> dsimp only at happens
      case statPart =>
        split at happens
        · cases happens
          exact ⟨rfl, .inr ⟨rfl, rfl⟩⟩
        · cases happens
          exact ⟨rfl, .inl rfl⟩
      case openCat => cases reply <;> cases happens <;> exact ⟨rfl, .inl rfl⟩
      case openPart =>
        split at happens
        · cases happens
          exact ⟨rfl, .inl rfl⟩
        · cases reply <;> cases happens <;> exact ⟨rfl, .inl rfl⟩
      case readMeta | clearPart | clearMeta | writeMeta | probe | unlinkDest | unlinkMeta =>
        cases happens
        exact ⟨rfl, .inl rfl⟩
      case drain | statAfter | statFinal | rename =>
        split at happens <;> cases happens <;> exact ⟨rfl, .inl rfl⟩
      case cat | pipe | done | rejected => cases happens
  | pump =>
      obtain ⟨p, -, -, turned, -⟩ := step_pump happens
      rcases pump_cases turned with rfl | ⟨chunk, body, -, rfl⟩ | rfl | ⟨-, -, -, -, rfl⟩ <;>
        exact ⟨rfl, .inl rfl⟩
  | write i k ok =>
      obtain ⟨p, w, -, -, -, -, -, rfl⟩ := step_write happens
      exact ⟨rfl, .inl rfl⟩
  | catWrite k =>
      obtain ⟨c, -, -, -, -, rfl⟩ := step_catWrite happens
      exact ⟨rfl, .inl rfl⟩
  | catClosed =>
      obtain ⟨c, -, -, -, rfl⟩ := step_catClosed happens
      exact ⟨rfl, .inl rfl⟩
  | abort =>
      obtain ⟨-, -, rfl⟩ := step_abort happens
      exact ⟨rfl, .inl rfl⟩
  | gone =>
      obtain ⟨-, -, rfl⟩ := step_gone happens
      exact ⟨rfl, .inl rfl⟩

/-- An answer opens nothing but what the write step opens. -/
theorem answer_opens {reply : GuestReply} (happens : u.answer dest g reply = some (h, v)) :
    (v.cat = u.cat ∨ v.stage = .cat) ∧ (v.pipe = u.pipe ∨ v.stage = .pipe) := by
  unfold answer at happens
  cases stage : u.stage <;> rw [stage] at happens <;> dsimp only at happens
  case openCat => cases reply <;> cases happens <;> simp [goto]
  case openPart =>
    split at happens
    · cases happens
      exact ⟨.inl rfl, .inl rfl⟩
    · cases reply <;> cases happens <;> simp [goto]
  case readMeta | clearPart | clearMeta | writeMeta | probe | unlinkDest | unlinkMeta =>
    cases happens
    exact ⟨.inl rfl, .inl rfl⟩
  case statPart | drain | statAfter | statFinal | rename =>
    split at happens <;> cases happens <;> exact ⟨.inl rfl, .inl rfl⟩
  case cat | pipe | done | rejected => cases happens

/-- Answers come to an upload that is not writing and has not ended. -/
theorem answer_stage {reply : GuestReply} (happens : u.answer dest g reply = some (h, v)) :
    u.stage ≠ .cat ∧ u.stage ≠ .pipe ∧ u.stage ≠ .rejected := by
  refine ⟨?_, ?_, ?_⟩ <;>
  · intro stage
    rw [answer, stage] at happens
    cases happens

/-- Only the size check leads past it, and nothing is cut after it. -/
theorem step_passed {e : UploadEvent} (happens : u.step dest g e = some (h, v))
    (passed : v.stage.passed = true) : v.cut = u.cut ∧ (u.stage.passed = true ∨
      e = .answer .ok ∧ ∃ checkSize, u.stage = .statFinal checkSize ∧
        (g.size dest.partPath : Int) = checkSize) := by
  cases e with
  | answer reply =>
      simp only [step] at happens
      unfold answer at happens
      cases stage : u.stage <;> rw [stage] at happens <;> dsimp only at happens
      case statPart | drain | statAfter => split at happens <;> cases happens <;> cases passed
      case readMeta size =>
        cases happens
        rcases UploadRequest.checked_cases u.request size
          (if reply = .ok then g.identity else none) with next | ⟨-, next⟩ | ⟨-, -, next⟩
        · rw [goto, next] at passed
          cases passed
        · rw [goto, next] at passed
          cases passed
        · rw [goto, next, UploadRequest.writeStage_passed] at passed
          cases passed
      case clearPart => cases happens; cases passed
      case clearMeta =>
        cases happens
        simp only [goto, apply_ite UploadStage.passed, UploadRequest.writeStage_passed] at passed
        split at passed <;> cases passed
      case writeMeta =>
        cases happens
        simp only [goto, apply_ite UploadStage.passed, UploadRequest.writeStage_passed] at passed
        split at passed <;> cases passed
      case probe => cases happens; cases reply <;> cases passed
      case openCat => cases reply <;> cases happens <;> cases passed
      case openPart =>
        split at happens
        · cases happens; cases passed
        · cases reply <;> cases happens <;> cases passed
      case statFinal checkSize =>
        split at happens
        · next same =>
            cases happens
            exact ⟨rfl, .inr ⟨by rw [same.1], checkSize, rfl, same.2⟩⟩
        · cases happens
          cases passed
      case unlinkDest | unlinkMeta => cases happens; exact ⟨rfl, .inl rfl⟩
      case rename => split at happens <;> cases happens <;> exact ⟨rfl, .inl rfl⟩
      case cat | pipe | done | rejected => cases happens
  | pump =>
      obtain ⟨p, -, -, turned, -⟩ := step_pump happens
      rcases pump_cases turned with rfl | ⟨chunk, body, -, rfl⟩ | rfl | ⟨-, -, -, -, rfl⟩
      · exact ⟨rfl, .inl passed⟩
      · exact ⟨rfl, .inl passed⟩
      · exact ⟨rfl, .inl passed⟩
      · cases passed
  | write i k ok =>
      obtain ⟨p, w, -, -, -, -, -, rfl⟩ := step_write happens
      exact ⟨rfl, .inl passed⟩
  | catWrite k =>
      obtain ⟨c, -, -, -, -, rfl⟩ := step_catWrite happens
      exact ⟨rfl, .inl passed⟩
  | catClosed =>
      obtain ⟨c, -, -, -, rfl⟩ := step_catClosed happens
      cases passed
  | abort =>
      obtain ⟨-, -, rfl⟩ := step_abort happens
      cases passed
  | gone =>
      obtain ⟨-, -, rfl⟩ := step_gone happens
      exact ⟨rfl, .inl passed⟩

/-- The upload has the file open for writing. -/
def Opens (u : Upload) (f : Nat) : Prop :=
  (∃ c, u.cat = some c ∧ c.file = f) ∨ ∃ p, u.pipe = some p ∧ p.file = f

/-- A step opens at most the part file. -/
theorem step_opens {e : UploadEvent} {f : Nat} (happens : u.step dest g e = some (h, v))
    (opens : v.Opens f) :
    u.Opens f ∨ ∃ truncate, f = (g.files.openFile dest.partPath truncate).2 := by
  cases e with
  | answer reply =>
      simp only [step] at happens
      unfold answer at happens
      cases stage : u.stage <;> rw [stage] at happens <;> dsimp only at happens
      case openCat =>
        cases reply with
        | ok =>
            cases happens
            rcases opens with ⟨c, held, rfl⟩ | piping
            · cases held
              exact .inr ⟨_, rfl⟩
            · exact .inl (.inr piping)
        | lost | failed => cases happens; exact .inl opens
      case openPart =>
        split at happens
        · cases happens; exact .inl opens
        · cases reply with
          | ok =>
              cases happens
              rcases opens with copying | ⟨p, held, rfl⟩
              · exact .inl (.inl copying)
              · cases held
                exact .inr ⟨_, rfl⟩
          | lost | failed => cases happens; exact .inl opens
      case readMeta | clearPart | clearMeta | writeMeta | probe | unlinkDest | unlinkMeta =>
        cases happens; exact .inl opens
      case statPart | drain | statAfter | statFinal | rename =>
        split at happens <;> cases happens <;> exact .inl opens
      case cat | pipe | done | rejected => cases happens
  | pump =>
      obtain ⟨p, -, held, turned, -⟩ := step_pump happens
      rcases opens with copying | ⟨q, piping, rfl⟩
      · rcases pump_cases turned with rfl | ⟨chunk, body, -, rfl⟩ | rfl | ⟨-, -, -, -, rfl⟩ <;>
          exact .inl (.inl copying)
      · rcases pump_cases turned with rfl | ⟨chunk, body, -, rfl⟩ | rfl | ⟨-, -, -, -, rfl⟩ <;>
        · cases piping
          try exact .inl (.inr ⟨p, held, rfl⟩)
  | write i k ok =>
      obtain ⟨p, w, held, -, -, -, -, rfl⟩ := step_write happens
      rcases opens with copying | ⟨q, piping, rfl⟩
      · exact .inl (.inl copying)
      · cases piping
        exact .inl (.inr ⟨p, held, rfl⟩)
  | catWrite k =>
      obtain ⟨c, held, -, -, -, rfl⟩ := step_catWrite happens
      rcases opens with ⟨d, copying, rfl⟩ | piping
      · cases copying
        exact .inl (.inl ⟨c, held, rfl⟩)
      · exact .inl (.inr piping)
  | catClosed =>
      obtain ⟨c, -, -, -, rfl⟩ := step_catClosed happens
      rcases opens with ⟨d, copying, -⟩ | piping
      · cases copying
      · exact .inl (.inr piping)
  | abort =>
      obtain ⟨-, -, rfl⟩ := step_abort happens
      exact .inl opens
  | gone =>
      obtain ⟨-, -, rfl⟩ := step_gone happens
      rcases opens with ⟨c, copying, -⟩ | ⟨p, piping, -⟩
      · cases copying
      · cases piping

end Upload

end Proxora
