import Proxora.UploadFailures
import Proxora.UploadRaces

/-!
# Uploads that are resumed

Attempts to upload one source to one destination, each begun when nothing of the
last is on its way any more.  The part file that a stopped attempt leaves behind
is a prefix of the source when no write that has arrived leaves a hole before
it; then an attempt that resumes at its size and succeeds puts the source in
place (`resumes_safely`).
-/

namespace Proxora

open Ecma Files Runs

/-- `guestUploadResumeOffset`. -/
def guestUploadResumeOffset (partSize fileSize : Int) : Option Int :=
  if partSize ≤ 0 ∨ fileSize < 0 ∨ partSize > fileSize then none else some partSize

/-- The request uploads what follows its offset in the source. -/
def UploadRequest.IsAttempt (source : Bytes) (r : UploadRequest) : Prop :=
  r.body.flatten = source.drop r.offset ∧ ∀ expected ∈ r.expectedSize, expected = source.length

instance (source : Bytes) (r : UploadRequest) : Decidable (r.IsAttempt source) :=
  inferInstanceAs (Decidable (r.body.flatten = source.drop r.offset ∧
    ∀ expected ∈ r.expectedSize, expected = source.length))

namespace Upload

/-- The upload has ended, and nothing of it is on its way. -/
def isOver (u : Upload) : Bool :=
  u.hasEnded &&
  (match u.cat with
    | some c => c.left = []
    | none => true) &&
  (match u.pipe with
    | some p => p.pending = []
    | none => true)

/-- The part file holds nothing but a prefix of the source. -/
def Front (dest : GuestPath) (source : Bytes) (g : Guest) : Prop :=
  ∀ bytes, g.files.read dest.partPath = some bytes → bytes <+: source

/-- The step does not stop the upload with a hole in the part file, and leaves
none when the upload has stopped. -/
def LeavesNoHole (source : Bytes) (g : Guest) (u : Upload) : UploadEvent → Prop
  | .abort => ∀ p ∈ u.pipe, NoHole (g.files.content p.file) (p.pending ++ p.lost)
  | .write i k _ => u.stage = .rejected → ∀ p ∈ u.pipe, ∀ w ∈ p.pending[i]?,
      k = 0 ∨ ZeroGap source (g.files.size p.file) w.start
  | _ => True

instance (source : Bytes) (g : Guest) (u : Upload) : ∀ e, Decidable (u.LeavesNoHole source g e)
  | .abort =>
      inferInstanceAs (Decidable (∀ p ∈ u.pipe, NoHole (g.files.content p.file)
        (p.pending ++ p.lost)))
  | .write i k _ =>
      inferInstanceAs (Decidable (u.stage = .rejected → ∀ p ∈ u.pipe, ∀ w ∈ p.pending[i]?,
        k = 0 ∨ ZeroGap source (g.files.size p.file) w.start))
  | .answer _ | .pump | .catWrite _ | .catClosed | .gone => inferInstanceAs (Decidable True)

variable {dest : GuestPath} {source : Bytes} {g h : Guest} {u v : Upload}

/-- A front of the source is resumed at its size. -/
theorem resumeOffset_of_front {bytes : Bytes} (piece : bytes <+: source) (some : bytes ≠ []) :
    guestUploadResumeOffset bytes.length source.length = .some (bytes.length : Int) := by
  have fits := piece.length_le
  have long := List.length_pos_iff.mpr some
  unfold guestUploadResumeOffset
  rw [if_neg (by omega)]

/-- An attempt that fits a front of the source is to deliver the source. -/
theorem target_eq (attempt : u.request.IsAttempt source) (front : u.base <+: source)
    (fits : u.Fits) : u.target = source := by
  by_cases zero : u.request.offset = 0
  · rw [target_of_zero zero, attempt.1, zero, List.drop_zero]
  · have length := fits.resolve_left zero
    rw [target_of_resumed zero, attempt.1, ← length]
    obtain ⟨rest, rfl⟩ := front
    rw [List.drop_left]

theorem isOver_iff : u.isOver = true ↔ u.hasEnded = true ∧
    (∀ c, u.cat = some c → c.left = []) ∧ ∀ p, u.pipe = some p → p.pending = [] := by
  unfold isOver
  cases u.cat <;> cases u.pipe <;> simp [and_assoc]

theorem relies_of_ended (ended : u.hasEnded = true) : u.relies dest = none := by
  unfold hasEnded at ended
  unfold relies
  split at ended
  · next stage => rw [stage]
  · next stage => rw [stage]
  · cases ended

theorem stage_of_ended (ended : u.hasEnded = true) : u.stage ≠ .pipe ∧ u.stage ≠ .statPart := by
  constructor <;>
  · intro stage
    rw [hasEnded, stage] at ended
    cases ended

/-- What is over only goes. -/
theorem step_of_over {e : UploadEvent} (quiet : u.isOver = true)
    (happens : u.step dest g e = some (h, v)) : e = .gone := by
  obtain ⟨ended, cats, pipes⟩ := isOver_iff.mp quiet
  cases e with
  | gone => rfl
  | answer reply =>
      simp only [step, answer] at happens
      unfold hasEnded at ended
      split at ended
      · next stage =>
          rw [stage] at happens
          cases happens
      · next stage =>
          rw [stage] at happens
          cases happens
      · cases ended
  | pump =>
      obtain ⟨p, stage, -⟩ := step_pump happens
      rw [hasEnded, stage] at ended
      cases ended
  | write i k ok =>
      obtain ⟨p, w, held, sent, -⟩ := step_write happens
      rw [pipes p held] at sent
      cases sent
  | catWrite k =>
      obtain ⟨c, held, some, inside, -⟩ := step_catWrite happens
      rw [cats c held, List.length_nil] at inside
      omega
  | catClosed =>
      obtain ⟨c, stage, -⟩ := step_catClosed happens
      rw [hasEnded, stage] at ended
      cases ended
  | abort =>
      obtain ⟨going, -⟩ := step_abort happens
      rw [ended] at going
      cases going

/-- What is over stays over. -/
theorem over_of_over {e : UploadEvent} (quiet : u.isOver = true)
    (happens : u.step dest g e = some (h, v)) : v.isOver = true := by
  cases step_of_over quiet happens
  obtain ⟨stage, -, rfl⟩ := step_gone happens
  simp [isOver, hasEnded, stage]

/-- What the attempts keep of one of them. -/
structure Attempt (dest : GuestPath) (source : Bytes) (g : Guest) (u : Upload) : Prop where
  request : u.request.IsAttempt source
  base : u.base <+: source
  pieces : ∀ p, u.pipe = some p → ∀ w ∈ p.pending, w.bytes <+: source.drop w.start
  copying : ∀ c, u.cat = some c → c.left ≠ [] → u.target = source ∧ ∃ bytes, u.Copies dest g c bytes

theorem attempt_start {request : UploadRequest} (attempt : request.IsAttempt source) :
    (start request).Attempt dest source g where
  request := attempt
  base := List.nil_prefix
  pieces := fun p piping => by cases piping
  copying := fun c copying => by cases copying

/-- Nothing of an upload that is over depends on the guest. -/
theorem Attempt.frame (attempt : u.Attempt dest source g) (quiet : u.isOver = true) :
    u.Attempt dest source h where
  request := attempt.request
  base := attempt.base
  pieces := attempt.pieces
  copying := fun c held some => absurd ((isOver_iff.mp quiet).2.1 c held) some

/-- While the pipeline runs, what it has sent are pieces of the source. -/
theorem pieces_of_pipe (keeps : u.Keeps dest g) (request : u.request.IsAttempt source)
    (base : u.base <+: source) (stage : u.stage = .pipe) {p : UploadPipe} (held : u.pipe = some p) :
    ∀ w ∈ p.pending, w.bytes <+: source.drop w.start := by
  obtain ⟨bytes, fits, -, filling, -⟩ := keeps.2.pipes stage held
  intro w member
  rw [← target_eq request base fits]
  exact (filling.piece w (List.mem_append_left _ member)).1

/-- While it runs, `cat` has written a front of the source. -/
theorem copying_of_cat (keeps : u.Keeps dest g) (request : u.request.IsAttempt source)
    (base : u.base <+: source) (stage : u.stage = .cat) {c : RemoteCat} (held : u.cat = some c) :
    u.target = source ∧ ∃ bytes, u.Copies dest g c bytes := by
  obtain ⟨fits, copies⟩ := keeps.2.copies stage held
  exact ⟨target_eq request base fits, copies⟩

theorem Attempt.step {e : UploadEvent} (attempt : u.Attempt dest source g)
    (keeps : u.Keeps dest g) (front : u.stage = .statPart → Front dest source g)
    (happens : u.step dest g e = some (h, v)) : v.Attempt dest source h := by
  have after := keeps.step happens
  obtain ⟨sameRequest, sameBase⟩ := step_fixed happens
  have request : v.request.IsAttempt source := by
    rw [sameRequest]
    exact attempt.request
  have base : v.base <+: source := by
    rcases sameBase with same | ⟨stage, found⟩
    · rw [same]
      exact attempt.base
    · rw [found]
      cases part : g.files.read dest.partPath with
      | none => exact List.nil_prefix
      | some bytes => exact front stage bytes part
  refine ⟨request, base, ?_, ?_⟩
  · intro p held
    by_cases stage : v.stage = .pipe
    · exact pieces_of_pipe after request base stage held
    cases e with
    | answer reply =>
        rcases (answer_opens happens).2 with same | other
        · rw [same, (keeps.1.closed (answer_stage happens)).1] at held
          cases held
        · exact absurd other stage
    | pump =>
        obtain ⟨q, running, -, turned, -⟩ := step_pump happens
        rcases pump_cases turned with rfl | ⟨chunk, body, -, rfl⟩ | rfl | ⟨-, -, -, -, rfl⟩
        · exact absurd running stage
        · exact absurd running stage
        · exact absurd running stage
        · cases held
    | write i k ok =>
        obtain ⟨q, w, piped, -, -, -, -, rfl⟩ := step_write happens
        cases held
        exact fun w member => attempt.pieces q piped w (List.mem_of_mem_eraseIdx member)
    | catWrite k =>
        obtain ⟨c, -, -, -, -, rfl⟩ := step_catWrite happens
        exact attempt.pieces p held
    | catClosed =>
        obtain ⟨c, -, -, -, rfl⟩ := step_catClosed happens
        exact attempt.pieces p held
    | abort =>
        obtain ⟨-, -, rfl⟩ := step_abort happens
        exact attempt.pieces p held
    | gone =>
        obtain ⟨-, -, rfl⟩ := step_gone happens
        cases held
  · intro c held some
    by_cases stage : v.stage = .cat
    · exact copying_of_cat after request base stage held
    cases e with
    | answer reply =>
        rcases (answer_opens happens).1 with same | other
        · rw [same, (keeps.1.closed (answer_stage happens)).2] at held
          cases held
        · exact absurd other stage
    | pump =>
        obtain ⟨q, -, piped, turned, -⟩ := step_pump happens
        have none : u.cat = none := keeps.1.one.resolve_left (by rw [piped]; exact Option.some_ne_none q)
        rcases pump_cases turned with rfl | ⟨chunk, body, -, rfl⟩ | rfl | ⟨-, -, -, -, rfl⟩ <;>
        · rw [none] at held
          cases held
    | write i k ok =>
        obtain ⟨q, w, piped, -, -, -, -, rfl⟩ := step_write happens
        have none : u.cat = none := keeps.1.one.resolve_left (by rw [piped]; exact Option.some_ne_none q)
        rw [none] at held
        cases held
    | catWrite k =>
        obtain ⟨d, copied, -, inside, rfl, rfl⟩ := step_catWrite happens
        cases held
        have more : d.left ≠ [] := by
          intro empty
          rw [empty] at some
          exact some List.drop_nil
        obtain ⟨same, bytes, copies⟩ := attempt.copying d copied more
        exact ⟨same, _, copies.write k inside⟩
    | catClosed =>
        obtain ⟨d, -, -, -, rfl⟩ := step_catClosed happens
        cases held
    | abort =>
        obtain ⟨-, rfl, rfl⟩ := step_abort happens
        exact attempt.copying c held some
    | gone =>
        obtain ⟨-, -, rfl⟩ := step_gone happens
        cases held

theorem Front.of_look (front : Front dest source g)
    (same : h.files.look dest.partPath = g.files.look dest.partPath) : Front dest source h := by
  intro bytes held
  rw [FileSystem.read, same] at held
  exact front bytes held

theorem front_of_look {f : Nat} {bytes : Bytes}
    (seen : g.files.look dest.partPath = some (f, bytes)) (piece : bytes <+: source) :
    Front dest source g := by
  intro found held
  rw [FileSystem.read_of_look seen] at held
  cases held
  exact piece

theorem front_of_missing (missing : g.files.look dest.partPath = none) :
    Front dest source g := by
  intro bytes held
  rw [FileSystem.read, missing] at held
  cases held

/-- Opening the part file empties it or leaves it. -/
theorem Front.openFile (front : Front dest source g) (truncate : Bool) :
    Front dest source { g with files := (g.files.openFile dest.partPath truncate).1 } := by
  refine front_of_look FileSystem.look_openFile_self ?_
  cases truncate with
  | true => exact List.nil_prefix
  | false =>
      cases part : g.files.read dest.partPath with
      | none => exact List.nil_prefix
      | some bytes => exact front bytes part

/-- An answer leaves the part file, empties it or takes it away. -/
theorem front_answer {reply : GuestReply} (keeps : u.Keeps dest g) (front : Front dest source g)
    (happens : u.answer dest g reply = some (h, v)) : Front dest source h := by
  by_cases touched : u.touches dest g (.answer reply) dest.partPath = true
  · unfold touches at touched
    unfold answer at happens
    obtain ⟨-, sound⟩ := keeps
    unfold SoundOn Sound at sound
    cases stage : u.stage <;> rw [stage] at happens touched sound <;>
      dsimp only at happens touched sound
    case clearPart =>
      cases happens
      split
      · exact front
      · exact front_of_missing FileSystem.look_unlink_self
    case openCat =>
      cases reply <;> cases happens
      · exact front.openFile _
      · exact front.openFile _
      · exact front
    case openPart =>
      split at happens
      · cases happens
        exact front
      · cases reply <;> cases happens
        · exact front.openFile _
        · exact front.openFile _
        · exact front
    case unlinkDest size =>
      obtain ⟨-, other, -⟩ := sound
      simp only [Bool.and_eq_true, decide_eq_true_eq] at touched
      exact absurd touched.2.symm (GuestPath.text_ne_partPath other)
    case rename size =>
      obtain ⟨-, other, f, bytes, seen, -⟩ := sound
      split at happens
      · cases happens
        exact front
      · cases happens
        exact front_of_missing
          (FileSystem.look_rename_source seen (GuestPath.text_ne_partPath other).symm)
    all_goals cases touched
  · exact front.of_look (answer_spares happens (by simpa using touched))

/-- The front that an attempt leaves behind. -/
theorem front_step {e : UploadEvent} (attempt : u.Attempt dest source g) (keeps : u.Keeps dest g)
    (front : u.stage ≠ .pipe → Front dest source g) (noHole : u.LeavesNoHole source g e)
    (happens : u.step dest g e = some (h, v)) (stopped : v.stage ≠ .pipe) :
    Front dest source h := by
  cases e with
  | answer reply => exact front_answer keeps (front (answer_stage happens).2.1) happens
  | pump =>
      obtain ⟨p, stage, held, turned, rfl⟩ := step_pump happens
      obtain ⟨bytes, pipes⟩ := keeps.2.pipes stage held
      rcases pump_cases turned with rfl | ⟨chunk, body, -, rfl⟩ | rfl |
        ⟨sent, empty, written, succeeded, rfl⟩
      · exact absurd stage stopped
      · exact absurd stage stopped
      · exact absurd stage stopped
      · refine front_of_look pipes.2.1 ?_
        rw [pipes.whole sent empty written succeeded, target_eq attempt.request attempt.base pipes.1]
  | write i k ok =>
      obtain ⟨p, w, held, sent, -, -, rfl, rfl⟩ := step_write happens
      have before : Front dest source g := front stopped
      have rejected : u.stage = .rejected :=
        (keeps.1.pipe (by rw [held]; exact Option.some_ne_none p)).resolve_left stopped
      by_cases part : g.files.entry dest.partPath = some p.file
      · have seen : g.files.look dest.partPath = some (p.file, g.files.content p.file) :=
          FileSystem.look_eq_some.mpr ⟨part, rfl⟩
        refine front_of_look (FileSystem.look_write_self seen _ _) ?_
        have content := before _ (FileSystem.read_of_look seen)
        rcases noHole rejected p held w sent with nothing | gap
        · rw [nothing, List.take_zero, overwrite, if_pos rfl]
          exact content
        · have piece := attempt.pieces p held w (List.mem_of_getElem? sent)
          exact overwrite_prefix content ((List.take_prefix k _).trans piece) gap
      · exact before.of_look (FileSystem.look_write_other part)
  | catWrite k =>
      obtain ⟨c, held, some, inside, rfl, rfl⟩ := step_catWrite happens
      have more : c.left ≠ [] := by
        intro empty
        rw [empty, List.length_nil] at inside
        omega
      obtain ⟨same, bytes, copies⟩ := attempt.copying c held more
      have written := copies.write k inside
      exact front_of_look written.1 ⟨_, written.2.1.trans same⟩
  | catClosed =>
      obtain ⟨c, stage, held, rfl, rfl⟩ := step_catClosed happens
      exact front (by rw [stage]; exact fun same => by cases same)
  | abort =>
      obtain ⟨-, rfl, rfl⟩ := step_abort happens
      by_cases stage : u.stage = .pipe
      · obtain ⟨p, held⟩ := keeps.2.exists_pipe stage
        obtain ⟨bytes, fits, seen, filling, -⟩ := keeps.2.pipes stage held
        refine front_of_look seen ?_
        rw [← target_eq attempt.request attempt.base fits]
        refine filling.is_prefix ?_
        rw [← (FileSystem.look_eq_some.mp seen).2]
        exact noHole p held
      · exact front stage
  | gone =>
      obtain ⟨stage, rfl, rfl⟩ := step_gone happens
      exact front stopped

end Upload

namespace UploadSystem

/-- Every upload that begins is an attempt to upload the source. -/
def Attempts (source : Bytes) : UploadSystemEvent → Prop
  | .begin request => request.IsAttempt source
  | .act _ _ => True

/-- An attempt begins when the others are over, none that was cut short passes
the size check, and none leaves a hole. -/
def InOrder (dest : GuestPath) (source : Bytes) (s : UploadSystem) : UploadSystemEvent → Prop
  | .begin _ => ∀ m, m < s.begun → ∀ u ∈ s.uploads m, u.isOver = true
  | .act n e => ∀ u ∈ s.uploads n, u.passesCut dest s.guest e = false ∧
      u.LeavesNoHole source s.guest e

instance (source : Bytes) : ∀ e, Decidable (Attempts source e)
  | .begin request => inferInstanceAs (Decidable (request.IsAttempt source))
  | .act _ _ => inferInstanceAs (Decidable True)

instance (dest : GuestPath) (source : Bytes) :
    ∀ (s : UploadSystem) e, Decidable (InOrder dest source s e)
  | s, .begin _ =>
      inferInstanceAs (Decidable (∀ m, m < s.begun → ∀ u ∈ s.uploads m, u.isOver = true))
  | s, .act n e =>
      inferInstanceAs (Decidable (∀ u ∈ s.uploads n, u.passesCut dest s.guest e = false ∧
        u.LeavesNoHole source s.guest e))

/-- Once the attempts have ended, the part file is a prefix of the source; one
that has succeeded found the source in the destination when it did. -/
structure ResumesSafely (dest : GuestPath) (source : Bytes) (s : UploadSystem) : Prop where
  front : (∀ n u, s.uploads n = some u → u.hasEnded = true) →
    ∀ bytes, s.guest.files.read dest.partPath = some bytes → bytes <+: source
  done : ∀ n u size held, s.uploads n = some u → u.stage = .done size held → held = some source

/-- The invariant. -/
structure Resumable (dest : GuestPath) (source : Bytes) (s : UploadSystem) : Prop where
  sound : s.Sound dest
  attempt : ∀ n u, s.uploads n = some u → u.Attempt dest source s.guest
  alone : ∀ m n u v, s.uploads m = some u → s.uploads n = some v → u.isOver = false →
    v.isOver = false → m = n
  front : (∀ n u, s.uploads n = some u → u.stage ≠ .pipe) →
    Upload.Front dest source s.guest

variable {dest : GuestPath} {source : Bytes} {s t : UploadSystem}

theorem resumable_idle {g : Guest} (front : Upload.Front dest source g) :
    (idle g).Resumable dest source where
  sound := sound_idle g
  attempt := fun n u held => by cases held
  alone := fun m n u v held => by cases held
  front := fun _ => front

theorem Resumable.begin (resumable : s.Resumable dest source) {request : UploadRequest}
    (attempt : request.IsAttempt source)
    (quiet : ∀ m, m < s.begun → ∀ u ∈ s.uploads m, u.isOver = true) :
    Resumable dest source { s with
      uploads := Function.update s.uploads s.begun (some (.start request))
      begun := s.begun + 1 } where
  sound := resumable.sound.begin
  attempt := by
    intro n u held
    rcases update_eq_some held with ⟨-, rfl⟩ | ⟨-, held⟩
    · exact Upload.attempt_start attempt
    · exact resumable.attempt n u held
  alone := by
    have ended : ∀ n u, s.uploads n = some u → u.isOver = true :=
      fun n u held => quiet n (resumable.sound.bound n u held) u held
    intro m n u v first second running also
    rcases update_eq_some first with ⟨rfl, -⟩ | ⟨-, first⟩
    · rcases update_eq_some second with ⟨rfl, -⟩ | ⟨-, second⟩
      · rfl
      · rw [ended n v second] at also
        cases also
    · rw [ended m u first] at running
      cases running
  front := by
    intro stopped
    refine resumable.front fun n u held => stopped n u ?_
    have other : n ≠ s.begun := Nat.ne_of_lt (resumable.sound.bound n u held)
    exact (Function.update_of_ne other ..).trans held

/-- While an upload runs the others are over. -/
theorem Resumable.others (resumable : s.Resumable dest source) {n m : Nat} {u v : Upload}
    (held : s.uploads n = some u) (running : u.isOver = false) (also : s.uploads m = some v)
    (other : m ≠ n) : v.isOver = true := by
  by_contra active
  rw [Bool.not_eq_true] at active
  exact other (resumable.alone m n v u also held active running)

theorem Resumable.apart (resumable : s.Resumable dest source) {n : Nat} {e : UploadEvent}
    {u v : Upload} {g : Guest} (held : s.uploads n = some u)
    (happens : u.step dest s.guest e = some (g, v))
    (checked : u.passesCut dest s.guest e = false) : s.Apart dest (.act n e) := by
  intro w found
  rw [held] at found
  cases found
  refine ⟨checked, ?_⟩
  intro m _ other v also path relied
  cases running : u.isOver with
  | true =>
      rw [Upload.step_of_over running happens]
      rfl
  | false =>
      have ended := (Upload.isOver_iff.mp (resumable.others held running also other)).1
      rw [Upload.relies_of_ended ended] at relied
      cases relied

theorem Resumable.act (resumable : s.Resumable dest source) {n : Nat} {e : UploadEvent}
    {u v : Upload} {g : Guest} (held : s.uploads n = some u)
    (happens : u.step dest s.guest e = some (g, v))
    (checked : u.passesCut dest s.guest e = false)
    (noHole : u.LeavesNoHole source s.guest e) :
    Resumable dest source
      { s with guest := g, uploads := Function.update s.uploads n (some v) } := by
  have keeps := resumable.sound.keeps n u held
  have attempt := resumable.attempt n u held
  have front : (∀ m w, s.uploads m = some w → m ≠ n → w.stage ≠ .pipe) → u.stage ≠ .pipe →
      Upload.Front dest source s.guest := by
    intro others own
    refine resumable.front fun m w found => ?_
    by_cases same : m = n
    · rw [same, held] at found
      cases found
      exact own
    · exact others m w found same
  refine ⟨resumable.sound.act held happens (resumable.apart held happens checked), ?_, ?_, ?_⟩
  · intro m w found
    rcases update_eq_some found with ⟨-, rfl⟩ | ⟨other, found⟩
    · refine attempt.step keeps ?_ happens
      intro stage
      have running : u.isOver = false := by
        rw [Upload.isOver, Upload.hasEnded, stage]
        rfl
      refine front (fun m w found other => ?_) (by rw [stage]; exact fun same => by cases same)
      exact (Upload.stage_of_ended
        (Upload.isOver_iff.mp (resumable.others held running found other)).1).1
    · have earlier := resumable.attempt m w found
      cases running : u.isOver with
      | true =>
          cases Upload.step_of_over running happens
          obtain ⟨-, same, -⟩ := Upload.step_gone happens
          rw [same]
          exact earlier
      | false => exact earlier.frame (resumable.others held running found other)
  · -- What runs after the step ran before it.
    have still : v.isOver = false → u.isOver = false := by
      intro after
      by_contra quiet
      rw [Bool.not_eq_false] at quiet
      rw [Upload.over_of_over quiet happens] at after
      cases after
    intro m l w x first second running also
    rcases update_eq_some first with ⟨rfl, rfl⟩ | ⟨-, one⟩
    · rcases update_eq_some second with ⟨rfl, -⟩ | ⟨-, other⟩
      · rfl
      · exact resumable.alone m l u x held other (still running) also
    · rcases update_eq_some second with ⟨rfl, rfl⟩ | ⟨-, other⟩
      · exact resumable.alone m l w u one held running (still also)
      · exact resumable.alone m l w x one other running also
  · intro stopped
    have own : v.stage ≠ .pipe := stopped n v (Function.update_self ..)
    refine Upload.front_step attempt keeps (front fun m w found other => ?_) noHole happens own
    exact stopped m w ((Function.update_of_ne other ..).trans found)

theorem Resumable.step (resumable : s.Resumable dest source) {e : UploadSystemEvent}
    (attempts : Attempts source e) (order : s.InOrder dest source e)
    (happens : step dest s e = some t) : t.Resumable dest source := by
  cases e with
  | begin request =>
      cases happens
      exact resumable.begin attempts order
  | act n e =>
      simp only [UploadSystem.step] at happens
      split at happens
      · next u held =>
          split at happens
          · next g v stepped =>
              cases happens
              obtain ⟨checked, noHole⟩ := order u held
              exact resumable.act held stepped checked noHole
          · cases happens
      · cases happens

/-- An attempt that is done has delivered the source. -/
theorem Resumable.resumesSafely (resumable : s.Resumable dest source) :
    s.ResumesSafely dest source where
  front := by
    intro ended
    exact resumable.front fun n u held => (Upload.stage_of_ended (ended n u held)).1
  done := by
    intro n u size held found stage
    have attempt := resumable.attempt n u found
    have own := resumable.sound.deliversOwn n u size held found stage
    have sound := (resumable.sound.keeps n u found).2
    unfold Upload.SoundOn Upload.Sound at sound
    rw [stage] at sound
    rw [own, Upload.target_eq attempt.request attempt.base sound.1]

/-- **Resuming is safe** when the attempts follow one another, none that was cut
short passes the size check, and none leaves a hole in the part file. -/
theorem resumes_safely {g : Guest} (front : Upload.Front dest source g)
    (run : Reaches (step dest) (fun s e => Attempts source e ∧ s.InOrder dest source e) (idle g) s) :
    s.ResumesSafely dest source :=
  Resumable.resumesSafely (run.keeps (resumable_idle front) fun _ _ _ resumable meets happens =>
    resumable.step meets.1 meets.2 happens)

/-! Attempts that are interrupted. -/

/-- An attempt that declares the size of the source. -/
def attempt (source : Bytes) (offset : Nat) : UploadRequest :=
  ⟨offset, some source.length, none, [source.drop offset], none⟩

/-- `cat` writes a byte, the attempt stops, and another one resumes there. -/
theorem resumes_safely_stopped :
    ∃ s, Reaches (step note) (fun s e => Attempts [1, 2] e ∧ s.InOrder note [1, 2] e)
        (idle emptyGuest) s ∧
      s.stages = (some .rejected, some (.done 2 (some [1, 2]))) ∧ s.ResumesSafely note [1, 2] := by
  have ends : (exec (guarded (step note) fun s e => Attempts [1, 2] e ∧ s.InOrder note [1, 2] e)
      (idle emptyGuest)
      ([.begin (attempt [1, 2] 0)] ++ opens 0 ++ [.act 0 (.catWrite 1), .act 0 .abort, .act 0 .gone] ++
        [.begin (attempt [1, 2] 1)] ++ (opens 1).drop 2 ++ writes 1 1 ++ finishes 1)).map stages =
          some (some .rejected, some (.done 2 (some [1, 2]))) := by
    decide
  obtain ⟨s, done, reported⟩ := Option.map_eq_some_iff.mp ends
  have run := reaches_of_guarded done
  exact ⟨s, run, reported, resumes_safely (fun bytes held => by cases held) run⟩

/-- One upload on a guest. -/
def single (s : Guest × Upload) : UploadSystem where
  guest := s.1
  uploads := Function.update (fun _ => none) 0 (some s.2)
  begun := 1

theorem single_step {dest : GuestPath} {s t : Guest × Upload} {e : UploadEvent}
    (happens : Upload.turn dest s e = some t) :
    step dest (single s) (.act 0 e) = some (single t) := by
  have held : (single s).uploads 0 = some s.2 := by simp [single]
  rw [step, held]
  dsimp only
  rw [show (single s).guest = s.1 from rfl, show s.2.step dest s.1 e = some t from happens]
  simp [single]

/-- A run of one upload is a run of the system. -/
theorem reaches_single {dest : GuestPath} {source : Bytes} {s t : Guest × Upload}
    (run : Upload.Leads dest s t) :
    Reaches (step dest) (fun _ e => Attempts source e) (single s) (single t) := by
  induction run with
  | start => exact .start
  | next _ _ happens ih => exact ih.next (by trivial) (single_step happens)

/-- A body of two chunks. -/
def pipelined (first : Bytes) : UploadRequest := ⟨0, none, none, [first, [2]], some (16 * 1024)⟩

/-- The part file is opened for the pipeline. -/
theorem pipelined_opens (first : Bytes) :
    exec (Upload.turn note) (emptyGuest, .start (pipelined first))
        [.answer .ok, .answer .ok, .answer .failed, .answer .failed, .answer .failed, .answer .ok] =
      some (⟨emptyGuest.files.create note.partPath, none⟩,
        { Upload.start (pipelined first) with
          stage := .pipe
          pipe := some ⟨0, [first, [2]], [], 0, false, false, [], []⟩ }) := rfl

/-- The pipeline sends both chunks. -/
theorem pipelined_sends {first : Bytes} (long : first.length = 16 * 1024) (g : Guest) :
    exec (Upload.turn note) (g, { Upload.start (pipelined first) with
          stage := .pipe
          pipe := some ⟨0, [first, [2]], [], 0, false, false, [], []⟩ })
        [.pump, .pump, .pump, .pump, .pump] =
      some (g, { Upload.start (pipelined first) with
          stage := .pipe
          pipe := some ⟨0, [], [], 16 * 1024 + 1, true, false,
            [⟨0, first⟩, ⟨16 * 1024, [2]⟩], []⟩ }) := by
  have size : (pipelined first).chunkSize = 16 * 1024 := rfl
  have rest : first.drop (16 * 1024) = [] := List.drop_eq_nil_of_le long.le
  have taken : first.take (16 * 1024) = first := List.take_of_length_le long.le
  simp [exec, Upload.turn, Upload.step, Upload.pump, Upload.start, size, UploadPipe.flushes,
    UploadPipe.launch, long, rest, taken, sftpInFlight]

theorem eq_of_single {s : Guest × Upload} {n : Nat} {u : Upload}
    (found : (single s).uploads n = some u) : u = s.2 := by
  dsimp only [single] at found
  rcases update_eq_some found with ⟨-, same⟩ | ⟨-, found⟩
  · exact same
  · cases found

/-- The second write arrives, the first does not, and the attempt stops. -/
theorem pipelined_leaves_hole {first : Bytes} (long : first.length = 16 * 1024)
    (one : first[0]? = some 1) :
    ∃ s, Reaches (step note) (fun _ e => Attempts (first ++ [2]) e) (idle emptyGuest) s ∧
      ¬s.ResumesSafely note (first ++ [2]) := by
  let opened : Guest := ⟨emptyGuest.files.create note.partPath, none⟩
  let left : Guest := { opened with files := opened.files.write 0 (16 * 1024) [2] }
  let stopped : Upload := { Upload.start (pipelined first) with
    stage := .rejected
    pipe := some ⟨0, [], [], 16 * 1024 + 1, true, false, [⟨0, first⟩], []⟩ }
  have leaves : exec (Upload.turn note) (opened, { Upload.start (pipelined first) with
      stage := .pipe
      pipe := some ⟨0, [], [], 16 * 1024 + 1, true, false, [⟨0, first⟩, ⟨16 * 1024, [2]⟩], []⟩ })
      [.write 1 1 true, .abort] = some (left, stopped) := rfl
  have leads : Upload.Leads note (emptyGuest, .start (pipelined first)) (left, stopped) :=
    ((reaches_of_exec (pipelined_opens first)).trans
      (reaches_of_exec (pipelined_sends long opened))).trans (reaches_of_exec leaves)
  have begins : step note (idle emptyGuest) (.begin (pipelined first)) =
      some (single (emptyGuest, .start (pipelined first))) := rfl
  have declares : Attempts (first ++ [2]) (.begin (pipelined first)) :=
    ⟨rfl, fun expected declared => by cases declared⟩
  have begun : Reaches (step note) (fun _ e => Attempts (first ++ [2]) e) (idle emptyGuest)
      (single (emptyGuest, .start (pipelined first))) := Reaches.start.next declares begins
  refine ⟨_, begun.trans (reaches_single leads), fun safe => ?_⟩
  have seen : opened.files.look note.partPath = some (0, []) := by
    rw [FileSystem.look_eq_some]
    exact ⟨rfl, rfl⟩
  have held : left.files.read note.partPath = some (overwrite [] (16 * 1024) [2]) :=
    FileSystem.read_of_look (FileSystem.look_write_self seen _ _)
  have piece : overwrite [] (16 * 1024) [2] <+: first ++ [2] := by
    refine safe.front (fun n u found => ?_) _ held
    rw [eq_of_single found]
    rfl
  have zero : (overwrite [] (16 * 1024) [2])[0]? = some 0 :=
    getElem?_overwrite_gap (by decide) (Nat.zero_le _) (by omega)
  have inside : 0 < (overwrite [] (16 * 1024) [2]).length := by
    rw [length_overwrite (by decide)]
    simp
  have start := List.prefix_iff_getElem?.mp piece 0 inside
  rw [← List.getElem?_eq_getElem, zero, List.getElem?_append_left (by omega), one] at start
  cases start

/-- A write that overtakes another one leaves zeros in the part file. -/
theorem overtaking_write_leaves_hole :
    ∃ source s, Reaches (step note) (fun _ e => Attempts source e) (idle emptyGuest) s ∧
      ¬s.ResumesSafely note source :=
  ⟨_, pipelined_leaves_hole (List.length_replicate (a := (1 : UInt8)))
    (by rw [List.getElem?_replicate, if_pos (by omega)])⟩

end UploadSystem

end Proxora
