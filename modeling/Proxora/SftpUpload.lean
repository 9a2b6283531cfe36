import Proxora.GuestUpload
import Proxora.Tilings

/-!
# Pipelined writes

`sftpPipelineWrite` of `server/services/guest-files.ts` with `writeAt`, from one `await` to the
next: the values of the body, the loop of `flushRest`, the race for a slot and the wait for the
rest. Its variables are those of `UploadPipe`; writes are answered in any order.
-/

namespace Proxora

open Files Runs

/-- What `sftpPipelineWrite` is called with, and the chunk size of the session. -/
structure SftpWrite where
  start : Nat
  body : Option (List Bytes)
  chunkSize : Nat
  positive : 0 < chunkSize

/-- All bytes of the body. -/
def SftpWrite.bytes (u : SftpWrite) : Bytes := (u.body.getD []).flatten

/-- Where it is: at the next value of the body, in the loop of `flushRest`, waiting for one of
`pending` writes or for all of them, or at its end. -/
inductive WriteStage : Type
  | value
  | flush
  | race (pending : Nat)
  | join
  | resolved (n : Nat)
  | rejected
deriving DecidableEq

/-- The variables, and what has become of the writes. -/
structure PipelineWrite where
  pipe : UploadPipe
  stage : WriteStage
  issued : List Write
  succeeded : List Write
  failures : List Write
  broken : Bool
deriving DecidableEq

/-- `value`, `ended` and `breaks` come from the body; `turn` is one turn of the loop; `answer` is
the answer to the write at place `i`, of which `k` bytes have arrived. -/
inductive WriteEvent : Type
  | value
  | ended
  | breaks
  | turn
  | woken
  | answer (i k : Nat) (ok : Bool)
  | joined

namespace PipelineWrite

/-- `if (firstError) throw firstError; return pos - startPos`. -/
def conclude (u : SftpWrite) (s : PipelineWrite) : PipelineWrite :=
  { s with stage := if s.pipe.failed then .rejected else .resolved (s.pipe.pos - u.start) }

/-- The next value of the body. -/
def take (s : PipelineWrite) (value : Bytes) (more : List Bytes) : PipelineWrite :=
  if s.pipe.failed then { s with stage := .rejected }
  else if value = [] then { s with pipe := { s.pipe with body := more } }
  else
    { s with
      pipe := { s.pipe with body := more, rest := s.pipe.rest ++ value }
      stage := .flush }

def launch (u : SftpWrite) (s : PipelineWrite) : PipelineWrite :=
  { s with
    pipe := s.pipe.launch u.chunkSize
    issued := s.issued ++ [⟨s.pipe.pos, s.pipe.rest.take u.chunkSize⟩] }

/-- One turn of the loop of `flushRest`, and what stands behind the loop. -/
def turn (u : SftpWrite) (s : PipelineWrite) : PipelineWrite :=
  if s.pipe.flushes u.chunkSize then
    if sftpInFlight ≤ s.pipe.pending.length then
      { s with stage := .race s.pipe.pending.length }
    else s.launch u
  else if s.pipe.ended then
    if s.pipe.pending = [] then s.conclude u else { s with stage := .join }
  else { s with stage := .value }

def answer (s : PipelineWrite) (i k : Nat) (w : Write) (ok : Bool) : PipelineWrite :=
  { s with
    pipe := s.pipe.settle i k w ok
    succeeded := if ok then w :: s.succeeded else s.succeeded
    failures := if ok then s.failures else w :: s.failures }

def step (u : SftpWrite) (s : PipelineWrite) : WriteEvent → Option PipelineWrite
  | .value =>
      match s.stage, s.pipe.body with
      | .value, value :: more => some (s.take value more)
      | _, _ => none
  | .ended =>
      if s.stage = .value ∧ s.pipe.body = [] then
        some { s with pipe := { s.pipe with ended := true }, stage := .flush }
      else none
  | .breaks =>
      if s.stage = .value then some { s with stage := .rejected, broken := true } else none
  | .turn => if s.stage = .flush then some (s.turn u) else none
  | .woken =>
      match s.stage with
      | .race pending =>
          if s.pipe.pending.length < pending then
            some { s with stage := if s.pipe.failed then .rejected else .flush }
          else none
      | _ => none
  | .answer i k ok =>
      match s.pipe.pending[i]? with
      | some w =>
          if k ≤ w.bytes.length ∧ (ok → k = w.bytes.length) then some (s.answer i k w ok)
          else none
      | none => none
  | .joined =>
      if s.stage = .join ∧ s.pipe.pending = [] then some (s.conclude u) else none

/-- The variables at the beginning; without a body there is nothing to do. -/
def start (u : SftpWrite) (file : Nat) : PipelineWrite where
  pipe := {
    file := file
    body := u.body.getD []
    rest := []
    pos := u.start
    ended := false
    failed := false
    pending := []
    lost := [] }
  stage := if u.body = none then .resolved 0 else .value
  issued := []
  succeeded := []
  failures := []
  broken := false

/-! ## The invariant -/

/-- The write step is past its last `launch`. -/
def Over (s : PipelineWrite) : Prop :=
  s.stage = .join ∨ ∃ n, s.stage = .resolved n

structure Inv (u : SftpWrite) (s : PipelineWrite) : Prop where
  tiles : Tiles u.start s.issued s.pipe.pos
  carries : ∀ w ∈ s.issued, w.bytes <+: u.bytes.drop (w.start - u.start)
  left : s.pipe.rest ++ s.pipe.body.flatten = u.bytes.drop (s.pipe.pos - u.start)
  inside : s.pipe.pos ≤ u.start + u.bytes.length
  bounded : s.pipe.pending.length ≤ sftpInFlight
  known : s.issued.Perm (s.pipe.pending ++ s.succeeded ++ s.failures)
  failed : s.pipe.failed = true ↔ s.failures ≠ []
  drained : s.pipe.ended = true → s.pipe.body = []
  gone : s.Over → s.pipe.rest = [] ∧ s.pipe.body = []
  resolved : ∀ n, s.stage = .resolved n →
    n = s.pipe.pos - u.start ∧ s.pipe.pending = [] ∧ s.failures = []
  rejected : s.stage = .rejected → s.failures ≠ [] ∨ s.broken = true

variable {u : SftpWrite} {s t : PipelineWrite}

theorem inv_start (u : SftpWrite) (file : Nat) : (start u file).Inv u := by
  exact {
    tiles := rfl
    carries := nofun
    left := by
      rw [show (start u file).pipe.pos = u.start from rfl, Nat.sub_self, List.drop_zero]
      rfl
    inside := Nat.le_add_right _ _
    bounded := Nat.zero_le _
    known := .refl []
    failed := by simp [start]
    drained := nofun
    gone := by
      intro finished
      cases empty : u.body with
      | none => exact ⟨rfl, by rw [start, empty]; rfl⟩
      | some values =>
          rcases finished with joins | ⟨n, ends⟩
          · rw [start, empty] at joins
            cases joins
          · rw [start, empty] at ends
            cases ends
    resolved := by
      intro n ends
      rw [start] at ends
      dsimp only at ends
      split at ends
      · obtain rfl := WriteStage.resolved.inj ends
        exact ⟨(Nat.sub_self u.start).symm, rfl, rfl⟩
      · cases ends
    rejected := by
      intro ends
      rw [start] at ends
      dsimp only at ends
      split at ends
      · cases ends
      · cases ends }

/-- Another stage, before the end, leaves everything else. -/
theorem Inv.goto (inv : s.Inv u) {stage : WriteStage} (before : stage = .flush ∨ stage = .value ∨
    ∃ pending, stage = .race pending) : Inv u { s with stage := stage } := by
  have apart : stage ≠ .join ∧ (∀ n, stage ≠ .resolved n) ∧ stage ≠ .rejected := by
    rcases before with rfl | rfl | ⟨pending, rfl⟩
    · exact ⟨nofun, nofun, nofun⟩
    · exact ⟨nofun, nofun, nofun⟩
    · exact ⟨nofun, nofun, nofun⟩
  exact {
    tiles := inv.tiles
    carries := inv.carries
    left := inv.left
    inside := inv.inside
    bounded := inv.bounded
    known := inv.known
    failed := inv.failed
    drained := inv.drained
    gone := fun finished =>
      (finished.elim apart.1 fun ⟨n, ends⟩ => apart.2.1 n ends).elim
    resolved := fun n ends => (apart.2.1 n ends).elim
    rejected := fun ends => (apart.2.2 ends).elim }

/-- Nothing is left, and some writes are still to be answered. -/
theorem Inv.wait (inv : s.Inv u) (gone : s.pipe.rest = [] ∧ s.pipe.body = []) :
    Inv u { s with stage := .join } := by
  exact {
    tiles := inv.tiles
    carries := inv.carries
    left := inv.left
    inside := inv.inside
    bounded := inv.bounded
    known := inv.known
    failed := inv.failed
    drained := inv.drained
    gone := fun _ => gone
    resolved := nofun
    rejected := nofun }

/-- An end by an error. -/
theorem Inv.reject (inv : s.Inv u) (broken : Bool)
    (why : s.failures ≠ [] ∨ broken = true) :
    Inv u { s with stage := .rejected, broken := broken } := by
  exact {
    tiles := inv.tiles
    carries := inv.carries
    left := inv.left
    inside := inv.inside
    bounded := inv.bounded
    known := inv.known
    failed := inv.failed
    drained := inv.drained
    gone := fun finished => by rcases finished with ends | ⟨n, ends⟩ <;> cases ends
    resolved := nofun
    rejected := fun _ => why }

/-- Nothing is left and all writes are answered. -/
theorem Inv.conclude (inv : s.Inv u) (gone : s.pipe.rest = [] ∧ s.pipe.body = [])
    (answered : s.pipe.pending = []) : (s.conclude u).Inv u := by
  rw [PipelineWrite.conclude]
  split
  · next failed => exact inv.reject s.broken (.inl (inv.failed.mp failed))
  · next sound =>
      exact {
        tiles := inv.tiles
        carries := inv.carries
        left := inv.left
        inside := inv.inside
        bounded := inv.bounded
        known := inv.known
        failed := inv.failed
        drained := inv.drained
        gone := fun _ => gone
        resolved := by
          intro n ends
          obtain rfl := WriteStage.resolved.inj ends
          exact ⟨rfl, answered, not_not.mp (mt inv.failed.mpr sound)⟩
        rejected := nofun }

/-- A value of the body joins the rest. -/
theorem Inv.take (inv : s.Inv u) (reads : s.stage = .value) {value : Bytes} {more : List Bytes}
    (next : s.pipe.body = value :: more) : (s.take value more).Inv u := by
  have left : s.pipe.rest ++ value ++ more.flatten = u.bytes.drop (s.pipe.pos - u.start) := by
    rw [← inv.left, next, List.flatten_cons, List.append_assoc]
  have early {P : Prop} (ended : s.pipe.ended = true) : P := by
    have nothing := inv.drained ended
    rw [next] at nothing
    cases nothing
  rw [PipelineWrite.take]
  split
  · next failed => exact inv.reject s.broken (.inl (inv.failed.mp failed))
  split
  · next empty =>
      exact {
        tiles := inv.tiles
        carries := inv.carries
        left := by
          rw [empty, List.append_nil] at left
          exact left
        inside := inv.inside
        bounded := inv.bounded
        known := inv.known
        failed := inv.failed
        drained := early
        gone := by
          rintro (joins | ⟨n, ends⟩)
          · exact absurd (reads.symm.trans joins) nofun
          · exact absurd (reads.symm.trans ends) nofun
        resolved := fun n ends => absurd (reads.symm.trans ends) nofun
        rejected := fun ends => absurd (reads.symm.trans ends) nofun }
  · exact {
      tiles := inv.tiles
      carries := inv.carries
      left := left
      inside := inv.inside
      bounded := inv.bounded
      known := inv.known
      failed := inv.failed
      drained := early
      gone := fun finished => by rcases finished with ends | ⟨n, ends⟩ <;> cases ends
      resolved := nofun
      rejected := nofun }

/-- A write is issued. -/
theorem Inv.launch (inv : s.Inv u) (flushing : s.stage = .flush)
    (room : s.pipe.pending.length < sftpInFlight) : (s.launch u).Inv u := by
  have low := inv.tiles.le
  have total := congrArg List.length inv.left
  rw [List.length_append, List.length_drop] at total
  have piece : (s.pipe.rest.take u.chunkSize).length ≤ s.pipe.rest.length := by
    rw [List.length_take]
    exact min_le_right _ _
  have behind : s.pipe.pos + (s.pipe.rest.take u.chunkSize).length - u.start =
      s.pipe.pos - u.start + (s.pipe.rest.take u.chunkSize).length := by
    omega
  have rest : s.pipe.rest.drop u.chunkSize =
      s.pipe.rest.drop (s.pipe.rest.take u.chunkSize).length := by
    rw [List.length_take]
    rcases Nat.le_total u.chunkSize s.pipe.rest.length with fits | short
    · rw [min_eq_left fits]
    · rw [min_eq_right short, List.drop_length, List.drop_of_length_le short]
  exact {
    tiles := inv.tiles.concat rfl
    carries := by
      intro w member
      rcases List.mem_append.mp member with before | new
      · exact inv.carries w before
      · rw [List.mem_singleton.mp new, ← inv.left]
        exact (List.take_prefix _ _).trans (List.prefix_append _ _)
    left := by
      change s.pipe.rest.drop u.chunkSize ++ s.pipe.body.flatten =
        u.bytes.drop (s.pipe.pos + (s.pipe.rest.take u.chunkSize).length - u.start)
      rw [behind, ← List.drop_drop, ← inv.left, rest, List.drop_append_of_le_length piece]
    inside := by
      change s.pipe.pos + (s.pipe.rest.take u.chunkSize).length ≤ u.start + u.bytes.length
      have bound := inv.inside
      omega
    bounded := by
      change (s.pipe.pending ++ [_]).length ≤ sftpInFlight
      rw [List.length_append]
      exact room
    known := by
      change (s.issued ++ [_]).Perm (s.pipe.pending ++ [_] ++ s.succeeded ++ s.failures)
      have known : s.issued.Perm (s.pipe.pending ++ (s.succeeded ++ s.failures)) := by
        rw [← List.append_assoc]
        exact inv.known
      rw [List.append_assoc, List.append_assoc, List.singleton_append]
      exact (List.perm_append_singleton _ _).trans ((known.cons _).trans List.perm_middle.symm)
    failed := inv.failed
    drained := inv.drained
    gone := by
      rintro (joins | ⟨n, ends⟩)
      · exact absurd (flushing.symm.trans joins) nofun
      · exact absurd (flushing.symm.trans ends) nofun
    resolved := fun n ends => absurd (flushing.symm.trans ends) nofun
    rejected := fun ends => absurd (flushing.symm.trans ends) nofun }

/-- A write is answered. -/
theorem Inv.answer (inv : s.Inv u) {i k : Nat} {w : Write} (waits : s.pipe.pending[i]? = some w)
    (ok : Bool) : (s.answer i k w ok).Inv u := by
  obtain ⟨inside, same⟩ := List.getElem?_eq_some_iff.mp waits
  have taken : (w :: s.pipe.pending.eraseIdx i).Perm s.pipe.pending := by
    rw [← same]
    exact List.getElem_cons_eraseIdx_perm inside
  exact {
    tiles := inv.tiles
    carries := inv.carries
    left := inv.left
    inside := inv.inside
    bounded := by
      have fewer : (s.pipe.pending.eraseIdx i).length ≤ s.pipe.pending.length :=
        (List.eraseIdx_sublist _ _).length_le
      exact fewer.trans inv.bounded
    known := by
      refine inv.known.trans ?_
      cases ok with
      | true =>
          change List.Perm _ (s.pipe.pending.eraseIdx i ++ w :: s.succeeded ++ s.failures)
          refine List.Perm.append_right _ ?_
          exact ((taken.symm.append_right _).trans List.perm_middle.symm)
      | false =>
          change List.Perm _ (s.pipe.pending.eraseIdx i ++ s.succeeded ++ w :: s.failures)
          rw [List.append_assoc, List.append_assoc]
          refine ((taken.symm.append_right _).trans ?_)
          rw [List.cons_append, ← List.append_assoc, ← List.append_assoc]
          exact List.perm_middle.symm
    failed := by
      cases ok with
      | true =>
          change (s.pipe.failed || false) = true ↔ s.failures ≠ []
          rw [Bool.or_false]
          exact inv.failed
      | false =>
          refine iff_of_true ?_ (List.cons_ne_nil _ _)
          exact Bool.or_true _
    drained := inv.drained
    gone := inv.gone
    resolved := by
      intro n ends
      have none := (inv.resolved n ends).2.1
      rw [none] at inside
      cases inside
    rejected := by
      intro ends
      rcases inv.rejected ends with failed | broken
      · refine .inl ?_
        cases ok with
        | true => exact failed
        | false => exact List.cons_ne_nil _ _
      · exact .inr broken }

theorem Inv.turn (inv : s.Inv u) (flushing : s.stage = .flush) : (s.turn u).Inv u := by
  rw [PipelineWrite.turn]
  split
  · split
    · exact inv.goto (.inr (.inr ⟨_, rfl⟩))
    · next room => exact inv.launch flushing (Nat.lt_of_not_le room)
  · next small =>
      split
      · next ended =>
          have gone : s.pipe.rest = [] ∧ s.pipe.body = [] := by
            rw [UploadPipe.flushes, ended, Bool.true_and, Bool.or_eq_true, not_or,
              decide_eq_true_eq, decide_eq_true_eq, not_not] at small
            exact ⟨small.2, inv.drained ended⟩
          split
          · next answered => exact inv.conclude gone answered
          · exact inv.wait gone
      · exact inv.goto (.inr (.inl rfl))

/-- **Step lemma.** -/
theorem Inv.step (inv : s.Inv u) {e : WriteEvent} (happens : s.step u e = some t) : t.Inv u := by
  cases e with
  | value =>
      rw [PipelineWrite.step] at happens
      split at happens
      · next reads next =>
          obtain rfl := Option.some.inj happens
          exact inv.take reads next
      · cases happens
  | ended =>
      rw [PipelineWrite.step] at happens
      split at happens
      · next last =>
          obtain rfl := Option.some.inj happens
          exact {
            tiles := inv.tiles
            carries := inv.carries
            left := inv.left
            inside := inv.inside
            bounded := inv.bounded
            known := inv.known
            failed := inv.failed
            drained := fun _ => last.2
            gone := fun finished => by rcases finished with ends | ⟨n, ends⟩ <;> cases ends
            resolved := nofun
            rejected := nofun }
      · cases happens
  | breaks =>
      rw [PipelineWrite.step] at happens
      split at happens
      · obtain rfl := Option.some.inj happens
        exact inv.reject true (.inr rfl)
      · cases happens
  | turn =>
      rw [PipelineWrite.step] at happens
      split at happens
      · next flushing =>
          obtain rfl := Option.some.inj happens
          exact inv.turn flushing
      · cases happens
  | woken =>
      rw [PipelineWrite.step] at happens
      split at happens
      · split at happens
        · obtain rfl := Option.some.inj happens
          split
          · next failed => exact inv.reject s.broken (.inl (inv.failed.mp failed))
          · exact inv.goto (.inl rfl)
        · cases happens
      · cases happens
  | answer i k ok =>
      rw [PipelineWrite.step] at happens
      split at happens
      · next waits =>
          split at happens
          · obtain rfl := Option.some.inj happens
            exact inv.answer waits ok
          · cases happens
      · cases happens
  | joined =>
      rw [PipelineWrite.step] at happens
      split at happens
      · next all =>
          obtain rfl := Option.some.inj happens
          exact inv.conclude (inv.gone (.inl all.1)) all.2
      · cases happens

/-! ## Every run -/

/-- What the caller relies on. -/
structure Tiled (u : SftpWrite) (s : PipelineWrite) : Prop where
  /-- Each write has the bytes of its range. -/
  content : ∀ w ∈ s.issued, u.start ≤ w.start ∧
    w.bytes = (u.bytes.drop (w.start - u.start)).take w.bytes.length
  /-- No two writes overlap, -/
  apart : s.issued.Pairwise fun v w => v.start + v.bytes.length ≤ w.start
  /-- and they leave no gap. -/
  covered : ∀ i, Covers s.issued i ↔ u.start ≤ i ∧ i < s.pipe.pos
  inside : s.pipe.pos ≤ u.start + u.bytes.length
  /-- When nothing more is issued, they reach to the end of the body. -/
  all : s.Over → s.pipe.pos = u.start + u.bytes.length
  bounded : s.pipe.pending.length ≤ sftpInFlight
  resolved : ∀ n, s.stage = .resolved n → n = u.bytes.length ∧ s.issued.Perm s.succeeded
  /-- It stops early for an error only. -/
  rejected : s.stage = .rejected → s.failures ≠ [] ∨ s.broken = true

theorem Inv.tiled (inv : s.Inv u) : s.Tiled u := by
  have all (finished : s.Over) : s.pipe.pos = u.start + u.bytes.length := by
    obtain ⟨rest, body⟩ := inv.gone finished
    have low := inv.tiles.le
    have high := inv.inside
    have left := congrArg List.length inv.left
    rw [rest, body, List.length_drop] at left
    change 0 = _ at left
    omega
  refine {
    content := fun w member => ⟨inv.tiles.start_ge member, ?_⟩
    apart := inv.tiles.apart
    covered := inv.tiles.covers_iff
    inside := inv.inside
    all := all
    bounded := inv.bounded
    resolved := fun n ends => ?_
    rejected := inv.rejected }
  · exact List.prefix_iff_eq_take.mp (inv.carries w member)
  · obtain ⟨value, answered, sound⟩ := inv.resolved n ends
    have known := inv.known
    rw [answered, sound, List.append_nil, List.nil_append] at known
    refine ⟨?_, known⟩
    rw [value, all (.inr ⟨n, ends⟩)]
    omega

end PipelineWrite

/-- **The writes tile the range of the body**, whatever the order of the answers. -/
theorem sftpPipelineWrite_tiled (u : SftpWrite) (file : Nat) {s : PipelineWrite}
    (run : Reaches (PipelineWrite.step u) Unrestricted (PipelineWrite.start u file) s) :
    s.Tiled u := by
  have inv : s.Inv u :=
    run.keeps (PipelineWrite.inv_start u file) fun _ _ _ before _ happens => before.step happens
  exact inv.tiled

/-- Four bytes behind the first five, in chunks of two. -/
def fourBytes : SftpWrite := ⟨5, some [[1, 2, 3], [], [4]], 2, Nat.zero_lt_two⟩

/-- Both writes are answered, the second one first. -/
def fourWritten : PipelineWrite where
  pipe := {
    file := 0
    body := []
    rest := []
    pos := 9
    ended := true
    failed := false
    pending := []
    lost := [] }
  stage := .resolved 4
  issued := [⟨5, [1, 2]⟩, ⟨7, [3, 4]⟩]
  succeeded := [⟨5, [1, 2]⟩, ⟨7, [3, 4]⟩]
  failures := []
  broken := false

theorem fourWritten_tiled : fourWritten.Tiled fourBytes := by
  have done : exec (PipelineWrite.step fourBytes) (PipelineWrite.start fourBytes 0)
      [.value, .turn, .turn, .value, .value, .turn, .turn, .ended, .turn, .answer 1 2 true,
        .answer 0 2 true, .joined] = some fourWritten := by
    decide
  exact sftpPipelineWrite_tiled fourBytes 0 (reaches_of_exec done)

end Proxora
