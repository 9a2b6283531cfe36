import Proxora.GuestUpload

/-!
# What an upload has delivered

`Sound` says, stage by stage, what an upload knows about the file it relies on:
the part file from the moment it has looked at it, the destination after the
rename.  Its own steps keep it (`Sound.step`) whatever fails; a step of another
upload keeps it when it leaves that file alone (`Sound.frame`, `step_spares`).
-/

namespace Proxora

open Ecma Files

namespace Guest

theorem size_of_look {g : Guest} {path : Text} {f : Nat} {bytes : Bytes}
    (seen : g.files.look path = some (f, bytes)) : g.size path = bytes.length := by
  rw [size, FileSystem.read_of_look seen, Option.getD_some]

end Guest

namespace Upload

/-- What the upload makes of the part file it has found. -/
def target (u : Upload) : Bytes :=
  (if u.request.offset = 0 then [] else u.base) ++ u.request.body.flatten

/-- The upload resumes where the part file ends, or starts over. -/
def Fits (u : Upload) : Prop := u.request.offset = 0 ∨ u.base.length = u.request.offset

/-- The bytes are what the upload was to deliver, or its front when it was cut. -/
def Delivers (u : Upload) (bytes : Bytes) : Prop :=
  bytes <+: u.target ∧ (u.cut = false → bytes = u.target)

/-- The size is the one the upload expects. -/
def Expects (u : Upload) (size : Nat) : Prop :=
  ∀ expected, u.request.expectedSize = some expected → (size : Int) = expected

/-- What holds of the part file and of the destination at each stage. -/
def Sound (dest : GuestPath) (u : Upload) (part held : Option (Nat × Bytes)) : Prop :=
  match u.stage with
  | .statPart | .rejected => True
  | .readMeta size =>
      size = u.base.length ∧ (u.request.offset ≠ 0 → (part.map (·.2)).getD [] = u.base)
  | .clearPart | .clearMeta | .writeMeta => u.request.offset = 0
  | .probe | .openCat | .openPart =>
      u.Fits ∧ (u.request.offset ≠ 0 → ∃ f, part = some (f, u.base))
  | .drain => u.Fits ∧ u.request.offset ≠ 0 ∧ ∃ f, part = some (f, u.base)
  | .cat =>
      u.Fits ∧ ∃ c bytes, u.cat = some c ∧ part = some (c.file, bytes) ∧
        bytes ++ c.left = u.target ∧ (c.append = false → c.pos = bytes.length)
  | .pipe =>
      u.Fits ∧ ∃ p bytes, u.pipe = some p ∧ part = some (p.file, bytes) ∧
        Filling u.target p.pos bytes (p.pending ++ p.lost) ∧
        p.rest ++ p.body.flatten = u.target.drop p.pos ∧ (p.lost ≠ [] → p.failed = true)
  | .statAfter => u.Fits ∧ ∃ f bytes, part = some (f, bytes) ∧ u.Delivers bytes
  | .statFinal checkSize =>
      u.Fits ∧ ∃ f bytes, part = some (f, bytes) ∧ u.Delivers bytes ∧
        checkSize = u.request.expectedSize.getD bytes.length
  | .unlinkDest size | .rename size =>
      u.Fits ∧ dest.isPart = false ∧
        ∃ f bytes, part = some (f, bytes) ∧ u.Delivers bytes ∧ size = bytes.length ∧ u.Expects size
  | .unlinkMeta size =>
      u.Fits ∧
        ∃ f bytes, held = some (f, bytes) ∧ u.Delivers bytes ∧ size = bytes.length ∧ u.Expects size
  | .done size after =>
      u.Fits ∧ ∃ bytes, after = some bytes ∧ u.Delivers bytes ∧ size = bytes.length ∧ u.Expects size

/-- What holds of an upload on the guest. -/
def SoundOn (dest : GuestPath) (g : Guest) (u : Upload) : Prop :=
  u.Sound dest (g.files.look dest.partPath) (g.files.look dest.text)

/-- The file that the upload relies on. -/
def relies (dest : GuestPath) (u : Upload) : Option Text :=
  match u.stage with
  | .statPart | .clearPart | .clearMeta | .writeMeta | .done _ _ | .rejected => none
  | .readMeta _ | .probe | .openCat | .openPart | .drain =>
      if u.request.offset = 0 then none else some dest.partPath
  | .cat | .pipe | .statAfter | .statFinal _ | .unlinkDest _ | .rename _ => some dest.partPath
  | .unlinkMeta _ => some dest.text

variable {dest : GuestPath} {g h : Guest} {u v : Upload}

/-- Changes elsewhere do not matter. -/
theorem SoundOn.frame (sound : u.SoundOn dest g)
    (same : ∀ path, u.relies dest = some path → h.files.look path = g.files.look path) :
    u.SoundOn dest h := by
  unfold SoundOn Sound at sound ⊢
  unfold relies at same
  cases stage : u.stage <;> rw [stage] at sound same
  case statPart | rejected | clearPart | clearMeta | writeMeta | done => exact sound
  case readMeta size =>
    refine ⟨sound.1, fun resumed => ?_⟩
    rw [same dest.partPath (if_neg resumed)]
    exact sound.2 resumed
  case probe | openCat | openPart =>
    refine ⟨sound.1, fun resumed => ?_⟩
    rw [same dest.partPath (if_neg resumed)]
    exact sound.2 resumed
  case drain =>
    rw [same dest.partPath (if_neg sound.2.1)]
    exact sound
  case cat | pipe | statAfter | statFinal | unlinkDest | rename =>
    rw [same dest.partPath rfl]
    exact sound
  case unlinkMeta =>
    rw [same dest.text rfl]
    exact sound

/-- Whether the step can change the file of a path. -/
def touches (dest : GuestPath) (g : Guest) (u : Upload) (e : UploadEvent) (path : Text) : Bool :=
  match e with
  | .answer reply =>
      match u.stage with
      | .clearPart | .openCat | .openPart => reply ≠ .failed && path = dest.partPath
      | .unlinkDest _ => reply ≠ .failed && path = dest.text
      | .rename _ => reply ≠ .failed && (path = dest.partPath || path = dest.text)
      | _ => false
  | .write _ _ _ =>
      match u.pipe with
      | some p => g.files.entry path = some p.file
      | none => false
  | .catWrite _ =>
      match u.cat with
      | some c => g.files.entry path = some c.file
      | none => false
  | .pump | .catClosed | .abort | .gone => false

/-- A step touches the part file, what the upload has open, or, once the size
check is passed, the destination. -/
theorem touches_cases {e : UploadEvent} {path : Text} (touched : u.touches dest g e path = true) :
    (∃ f, u.Opens f ∧ g.files.entry path = some f) ∨ path = dest.partPath ∨
      u.stage.passed = true := by
  cases e with
  | answer reply =>
      simp only [touches] at touched
      cases stage : u.stage <;> rw [stage] at touched <;> dsimp only at touched
      case clearPart | openCat | openPart =>
        simp only [Bool.and_eq_true, decide_eq_true_eq] at touched
        exact .inr (.inl touched.2)
      case unlinkDest | rename => exact .inr (.inr rfl)
      all_goals cases touched
  | write i k ok =>
      simp only [touches] at touched
      split at touched
      · next p held => exact .inl ⟨p.file, .inr ⟨p, held, rfl⟩, of_decide_eq_true touched⟩
      · cases touched
  | catWrite k =>
      simp only [touches] at touched
      split at touched
      · next c held => exact .inl ⟨c.file, .inl ⟨c, held, rfl⟩, of_decide_eq_true touched⟩
      · cases touched
  | pump | catClosed | abort | gone => cases touched

theorem answer_spares {reply : GuestReply} {path : Text}
    (happens : u.answer dest g reply = some (h, v))
    (spared : u.touches dest g (.answer reply) path = false) :
    h.files.look path = g.files.look path := by
  unfold answer at happens
  unfold touches at spared
  cases stage : u.stage <;> rw [stage] at happens spared <;> dsimp only at happens spared
  case statPart | drain | statAfter | statFinal =>
    split at happens <;> cases happens <;> rfl
  case readMeta | probe => cases happens; rfl
  case clearMeta | writeMeta | unlinkMeta =>
    cases happens
    split <;> rfl
  case clearPart =>
    cases happens
    split
    · rfl
    · next did =>
        refine FileSystem.look_unlink_other ?_
        rintro rfl
        simp [did] at spared
  case openCat =>
    cases reply with
    | failed => cases happens; rfl
    | ok | lost =>
        cases happens
        refine FileSystem.look_openFile_other ?_
        rintro rfl
        simp at spared
  case openPart =>
    split at happens
    · cases happens; rfl
    · cases reply with
      | failed => cases happens; rfl
      | ok | lost =>
          cases happens
          refine FileSystem.look_openFile_other ?_
          rintro rfl
          simp at spared
  case unlinkDest =>
    cases happens
    split
    · rfl
    · next did =>
        refine FileSystem.look_unlink_other ?_
        rintro rfl
        simp [did] at spared
  case rename =>
    split at happens
    · cases happens; rfl
    · next did =>
        cases happens
        have other : path ≠ dest.partPath ∧ path ≠ dest.text := by
          simpa [not_or.mp did] using spared
        exact FileSystem.look_rename_other other.1 other.2
  case cat | pipe | done | rejected => cases happens

/-- A step leaves the file of a path alone that it does not touch. -/
theorem step_spares {e : UploadEvent} {path : Text} (happens : u.step dest g e = some (h, v))
    (spared : u.touches dest g e path = false) : h.files.look path = g.files.look path := by
  cases e with
  | answer reply => exact answer_spares happens spared
  | pump =>
      obtain ⟨p, -, -, -, rfl⟩ := step_pump happens
      rfl
  | write i k ok =>
      obtain ⟨p, w, held, -, -, -, rfl, -⟩ := step_write happens
      refine FileSystem.look_write_other ?_
      simpa [touches, held] using spared
  | catWrite k =>
      obtain ⟨c, held, -, -, rfl, -⟩ := step_catWrite happens
      refine FileSystem.look_write_other ?_
      simpa [touches, held] using spared
  | catClosed =>
      obtain ⟨c, -, -, rfl, -⟩ := step_catClosed happens
      rfl
  | abort =>
      obtain ⟨-, rfl, -⟩ := step_abort happens
      rfl
  | gone =>
      obtain ⟨-, rfl, -⟩ := step_gone happens
      rfl

theorem target_of_zero (zero : u.request.offset = 0) : u.target = u.request.body.flatten := by
  rw [target, if_pos zero, List.nil_append]

theorem target_of_resumed (resumed : u.request.offset ≠ 0) :
    u.target = u.base ++ u.request.body.flatten := by
  rw [target, if_neg resumed]

theorem length_target (fits : u.Fits) :
    u.target.length = u.request.offset + u.request.body.flatten.length := by
  rcases fits with zero | resumed
  · rw [target_of_zero zero, zero, Nat.zero_add]
  · by_cases zero : u.request.offset = 0
    · rw [target_of_zero zero, zero, Nat.zero_add]
    · rw [target_of_resumed zero, List.length_append, resumed]

/-- What the part file holds once it is open for writing. -/
theorem look_opened {opened : FileSystem Text × Nat}
    (same : opened = g.files.openFile dest.partPath (u.request.offset = 0))
    (ready : u.request.offset ≠ 0 → ∃ f, g.files.look dest.partPath = some (f, u.base)) :
    ∃ bytes, opened.1.look dest.partPath = some (opened.2, bytes) ∧
      bytes ++ u.request.body.flatten = u.target ∧
      (u.Fits → bytes.length = u.request.offset) := by
  rw [same, FileSystem.look_openFile_self]
  refine ⟨_, rfl, ?_⟩
  by_cases zero : u.request.offset = 0
  · rw [if_pos (decide_eq_true zero), target_of_zero zero, zero]
    exact ⟨rfl, fun _ => rfl⟩
  · obtain ⟨f, seen⟩ := ready zero
    rw [if_neg (by simpa using zero), FileSystem.read_of_look seen, Option.getD_some,
      target_of_resumed zero]
    exact ⟨rfl, fun fits => fits.resolve_left zero⟩

/-- The checks are passed. -/
theorem soundOn_writeStage (fits : u.Fits)
    (ready : u.request.offset ≠ 0 → ∃ f, g.files.look dest.partPath = some (f, u.base)) :
    (u.goto u.request.writeStage).SoundOn dest g := by
  unfold UploadRequest.writeStage
  split
  · next skip =>
      have resumed := (UploadRequest.skipWrite_iff.mp skip).1
      exact ⟨fits, resumed, ready resumed⟩
  · exact ⟨fits, ready⟩

/-- An upload that starts over knows nothing of the files. -/
theorem soundOn_writeStage_of_zero (zero : u.request.offset = 0) :
    (u.goto u.request.writeStage).SoundOn dest g :=
  soundOn_writeStage (.inl zero) fun resumed => absurd zero resumed

theorem SoundOn.answer {reply : GuestReply} (sound : u.SoundOn dest g)
    (happens : u.answer dest g reply = some (h, v)) : v.SoundOn dest h := by
  unfold SoundOn Sound at sound
  unfold Upload.answer at happens
  cases stage : u.stage <;> rw [stage] at happens sound <;> dsimp only at happens sound
  case statPart =>
    split at happens
    · cases happens
      refine ⟨rfl, fun resumed => ?_⟩
      rfl
    · cases happens
      trivial
  case readMeta size =>
    cases happens
    obtain ⟨found, kept⟩ := sound
    rcases UploadRequest.checked_cases u.request size (if reply = .ok then g.identity else none)
      with refused | ⟨zero, next⟩ | ⟨resumed, fits, next⟩
    · rw [refused]
      trivial
    · rw [next]
      exact zero
    · rw [next]
      have base := kept resumed
      refine soundOn_writeStage (.inr (found.symm.trans fits)) fun _ => ?_
      cases seen : g.files.look dest.partPath with
      | none =>
          rw [seen, Option.map_none, Option.getD_none] at base
          rw [← base] at found
          exact absurd (fits.symm.trans found) resumed
      | some part =>
          rw [seen, Option.map_some, Option.getD_some] at base
          exact ⟨part.1, by rw [← base]⟩
  case clearPart =>
    cases happens
    exact sound
  case clearMeta =>
    cases happens
    generalize (if reply = .failed then g else { g with identity := none }) = after
    split
    · exact sound
    · exact soundOn_writeStage_of_zero sound
  case writeMeta =>
    cases happens
    generalize (if reply = .failed then g else { g with identity := u.request.identity }) = after
    split
    · exact soundOn_writeStage_of_zero sound
    · trivial
  case probe =>
    cases happens
    split
    · exact sound
    · exact sound
  case drain =>
    split at happens
    · cases happens
      obtain ⟨fits, resumed, f, seen⟩ := sound
      refine ⟨fits, f, u.base, seen, ?_, ?_⟩
      · show u.base <+: u.target
        rw [target_of_resumed resumed]
        exact List.prefix_append _ _
      · intro whole
        have none : u.request.body.flatten = [] := by simpa using whole
        show u.base = u.target
        rw [target_of_resumed resumed, none, List.append_nil]
    · cases happens
      trivial
  case openCat =>
    obtain ⟨fits, ready⟩ := sound
    obtain ⟨bytes, seen, all, length⟩ := look_opened rfl ready
    cases reply with
    | failed => cases happens; trivial
    | lost => cases happens; trivial
    | ok =>
        cases happens
        refine ⟨fits, _, bytes, rfl, seen, all, fun overwrites => ?_⟩
        have zero : u.request.offset = 0 := by simpa using overwrites
        exact (length fits).trans zero |>.symm
  case openPart =>
    obtain ⟨fits, ready⟩ := sound
    obtain ⟨bytes, seen, all, length⟩ := look_opened rfl ready
    split at happens
    · cases happens; trivial
    · cases reply with
      | failed => cases happens; trivial
      | lost => cases happens; trivial
      | ok =>
          cases happens
          have front : bytes = u.target.take u.request.offset := by
            rw [← all, ← length fits, List.take_left]
          have inside : u.request.offset ≤ u.target.length := by
            rw [length_target fits]
            exact Nat.le_add_right _ _
          refine ⟨fits, _, bytes, rfl, seen, Filling.front inside front, ?_,
            fun lost => absurd rfl lost⟩
          show [] ++ u.request.body.flatten = u.target.drop u.request.offset
          rw [List.nil_append, ← all, ← length fits, List.drop_left]
  case statAfter =>
    split at happens
    · cases happens
      obtain ⟨fits, f, bytes, seen, delivers⟩ := sound
      refine ⟨fits, f, bytes, seen, delivers, ?_⟩
      rw [Guest.size_of_look seen]
      rfl
    · cases happens
      trivial
  case statFinal checkSize =>
    split at happens
    · next passed =>
        cases happens
        obtain ⟨fits, f, bytes, seen, delivers, check⟩ := sound
        obtain ⟨-, same⟩ := passed
        rw [check, Guest.size_of_look seen] at same
        have expects : u.Expects bytes.length := by
          intro expected declared
          rw [declared, Option.getD_some] at same
          exact same
        rw [Guest.size_of_look seen]
        split
        · next named =>
            rw [dest.partPath_eq_iff.mpr named] at seen
            exact ⟨fits, f, bytes, seen, delivers, rfl, expects⟩
        · next other =>
            exact ⟨fits, by simpa using other, f, bytes, seen, delivers, rfl, expects⟩
    · cases happens
      trivial
  case unlinkDest size =>
    cases happens
    obtain ⟨fits, other, f, bytes, seen, rest⟩ := sound
    refine ⟨fits, other, f, bytes, ?_, rest⟩
    split
    · exact seen
    · have different : dest.partPath ≠ dest.text := by
        intro same
        rw [dest.partPath_eq_iff.mp same] at other
        cases other
      exact (FileSystem.look_unlink_other different).trans seen
  case rename size =>
    split at happens
    · cases happens; trivial
    · cases happens
      obtain ⟨fits, other, f, bytes, seen, rest⟩ := sound
      split
      · exact ⟨fits, f, bytes, FileSystem.look_rename_self seen, rest⟩
      · trivial
  case unlinkMeta size =>
    cases happens
    obtain ⟨fits, f, bytes, seen, rest⟩ := sound
    exact ⟨fits, bytes, FileSystem.read_of_look seen, rest⟩
  case cat | pipe | done | rejected => cases happens

/-- What the pipeline keeps. -/
def Pipes (dest : GuestPath) (g : Guest) (u : Upload) (p : UploadPipe) (bytes : Bytes) : Prop :=
  u.Fits ∧ g.files.look dest.partPath = some (p.file, bytes) ∧
    Filling u.target p.pos bytes (p.pending ++ p.lost) ∧
    p.rest ++ p.body.flatten = u.target.drop p.pos ∧ (p.lost ≠ [] → p.failed = true)

theorem soundOn_pipe {p : UploadPipe} {bytes : Bytes} (stage : u.stage = .pipe)
    (held : u.pipe = some p) (pipes : u.Pipes dest g p bytes) : u.SoundOn dest g := by
  obtain ⟨fits, rest⟩ := pipes
  unfold SoundOn Sound
  rw [stage]
  exact ⟨fits, p, bytes, held, rest⟩

theorem SoundOn.pipes {p : UploadPipe} (sound : u.SoundOn dest g) (stage : u.stage = .pipe)
    (held : u.pipe = some p) : ∃ bytes, u.Pipes dest g p bytes := by
  unfold SoundOn Sound at sound
  rw [stage] at sound
  obtain ⟨fits, other, bytes, same, rest⟩ := sound
  rw [held] at same
  cases same
  exact ⟨bytes, fits, rest⟩

theorem SoundOn.exists_pipe (sound : u.SoundOn dest g) (stage : u.stage = .pipe) :
    ∃ p, u.pipe = some p := by
  unfold SoundOn Sound at sound
  rw [stage] at sound
  obtain ⟨-, p, -, held, -⟩ := sound
  exact ⟨p, held⟩

/-- The next piece of the body is sent. -/
theorem Pipes.launch {p : UploadPipe} {bytes : Bytes} (pipes : u.Pipes dest g p bytes)
    (chunkSize : Nat) : u.Pipes dest g (p.launch chunkSize) bytes := by
  obtain ⟨fits, seen, filling, rest, failed⟩ := pipes
  have piece : p.rest.take chunkSize <+: u.target.drop p.pos := by
    rw [← rest]
    exact (List.take_prefix _ _).trans (List.prefix_append _ _)
  refine ⟨fits, seen, filling.launch piece ?_ ?_ ?_, ?_, failed⟩
  · intro w member
    rcases List.mem_append.mp member with pending | lost
    · exact List.mem_append_left _ (List.mem_append_left _ pending)
    · exact List.mem_append_right _ lost
  · exact List.mem_append_left _ (List.mem_append_right _ (List.mem_singleton.mpr rfl))
  · intro w member
    rcases List.mem_append.mp member with sent | lost
    · rcases List.mem_append.mp sent with pending | new
      · exact .inl (List.mem_append_left _ pending)
      · exact .inr (List.mem_singleton.mp new)
    · exact .inl (List.mem_append_right _ lost)
  · show p.rest.drop chunkSize ++ p.body.flatten =
      u.target.drop (p.pos + (p.rest.take chunkSize).length)
    have whole : p.rest.take chunkSize ++ (p.rest.drop chunkSize ++ p.body.flatten) =
        u.target.drop p.pos := by
      rw [← List.append_assoc, List.take_append_drop, rest]
    rw [← List.drop_drop, ← whole, List.drop_left]

/-- The file is the target once all is written. -/
theorem Pipes.whole {p : UploadPipe} {bytes : Bytes} (pipes : u.Pipes dest g p bytes)
    (sent : p.rest = []) (empty : p.body = []) (written : p.pending = [])
    (succeeded : p.failed = false) : bytes = u.target := by
  obtain ⟨fits, seen, filling, rest, failed⟩ := pipes
  have none : p.lost = [] := by
    by_contra lost
    rw [failed lost] at succeeded
    cases succeeded
  rw [sent, empty] at rest
  have all : p.pos = u.target.length :=
    Nat.le_antisymm filling.bound (List.drop_eq_nil_iff.mp rest.symm)
  rw [written, none, all] at filling
  exact filling.whole

theorem SoundOn.pump {p : UploadPipe} (sound : u.SoundOn dest g) (stage : u.stage = .pipe)
    (held : u.pipe = some p) (turned : u.pump p = some v) : v.SoundOn dest g := by
  obtain ⟨bytes, pipes⟩ := sound.pipes stage held
  rcases pump_cases turned with rfl | ⟨chunk, body, queue, rfl⟩ | rfl |
    ⟨sent, empty, written, succeeded, rfl⟩
  · exact soundOn_pipe stage rfl (pipes.launch _)
  · obtain ⟨fits, seen, filling, rest, failed⟩ := pipes
    refine soundOn_pipe stage rfl ⟨fits, seen, filling, ?_, failed⟩
    rw [queue, List.flatten_cons, ← List.append_assoc] at rest
    exact rest
  · exact soundOn_pipe stage rfl pipes
  · have all := pipes.whole sent empty written succeeded
    exact ⟨pipes.1, p.file, bytes, pipes.2.1, all ▸ List.prefix_rfl, fun _ => all⟩

/-- A write of the pipeline arrives, in whole or in part. -/
theorem Pipes.settle {p : UploadPipe} {bytes : Bytes} {i k : Nat} {w : Write} {ok : Bool}
    (pipes : u.Pipes dest g p bytes) (sent : p.pending[i]? = some w)
    (inside : k ≤ w.bytes.length) (all : ok = true → k = w.bytes.length) :
    u.Pipes dest { g with files := g.files.write p.file w.start (w.bytes.take k) }
      (p.settle i k w ok) (overwrite bytes w.start (w.bytes.take k)) := by
  obtain ⟨fits, seen, filling, rest, failed⟩ := pipes
  refine ⟨fits, FileSystem.look_write_self seen _ _, ?_, rest, ?_⟩
  · have member : w ∈ p.pending := List.mem_of_getElem? sent
    refine filling.land (List.mem_append_left _ member) inside ?_ ?_ ?_
    · intro v held
      rcases List.mem_append.mp held with pending | lost
      · obtain ⟨j, found⟩ := List.mem_iff_getElem?.mp pending
        by_cases same : j = i
        · rw [same, sent] at found
          exact .inl (Option.some.inj found).symm
        · exact .inr (List.mem_append_left _ (List.mem_eraseIdx_iff_getElem?.mpr ⟨j, same, found⟩))
      · refine .inr (List.mem_append_right _ ?_)
        cases ok with
        | true => exact lost
        | false => exact List.mem_cons_of_mem _ lost
    · intro short
      have partly : ok = false := by
        by_contra done
        have whole := all (by simpa using done)
        omega
      refine List.mem_append_right _ ?_
      rw [UploadPipe.settle, partly]
      exact List.mem_cons_self
    · intro v held
      rcases List.mem_append.mp held with pending | lost
      · exact .inl (List.mem_append_left _ (List.mem_of_mem_eraseIdx pending))
      · cases ok with
        | true => exact .inl (List.mem_append_right _ lost)
        | false =>
            rcases List.mem_cons.mp lost with rfl | lost
            · exact .inr rfl
            · exact .inl (List.mem_append_right _ lost)
  · intro lost
    cases ok with
    | true =>
        show (p.failed || false) = true
        rw [failed lost, Bool.true_or]
    | false => exact Bool.or_true _

/-- What the remote `cat` keeps. -/
def Copies (dest : GuestPath) (g : Guest) (u : Upload) (c : RemoteCat) (bytes : Bytes) : Prop :=
  g.files.look dest.partPath = some (c.file, bytes) ∧ bytes ++ c.left = u.target ∧
    (c.append = false → c.pos = bytes.length)

/-- The remote `cat` writes at the end of the file. -/
theorem Copies.write {c : RemoteCat} {bytes : Bytes} (copies : u.Copies dest g c bytes) (k : Nat)
    (inside : k ≤ c.left.length) :
    u.Copies dest { g with files := g.files.write c.file (catStart g c) (c.left.take k) }
      { c with pos := c.pos + k, left := c.left.drop k } (bytes ++ c.left.take k) := by
  obtain ⟨seen, all, pos⟩ := copies
  have start : catStart g c = bytes.length := by
    unfold catStart
    split
    · rw [FileSystem.size, (FileSystem.look_eq_some.mp seen).2]
    · next overwrites => exact pos (by simpa using overwrites)
  refine ⟨?_, ?_, ?_⟩
  · rw [start, ← overwrite_length]
    exact FileSystem.look_write_self seen _ _
  · rw [List.append_assoc, List.take_append_drop, all]
  · intro overwrites
    rw [List.length_append, List.length_take_of_le inside, ← pos overwrites]

theorem soundOn_cat {c : RemoteCat} {bytes : Bytes} (stage : u.stage = .cat)
    (held : u.cat = some c) (fits : u.Fits) (copies : u.Copies dest g c bytes) :
    u.SoundOn dest g := by
  unfold SoundOn Sound
  rw [stage]
  exact ⟨fits, c, bytes, held, copies⟩

theorem SoundOn.copies {c : RemoteCat} (sound : u.SoundOn dest g) (stage : u.stage = .cat)
    (held : u.cat = some c) : u.Fits ∧ ∃ bytes, u.Copies dest g c bytes := by
  unfold SoundOn Sound at sound
  rw [stage] at sound
  obtain ⟨fits, other, bytes, same, copies⟩ := sound
  rw [held] at same
  cases same
  exact ⟨fits, bytes, copies⟩

/-- Only the write step, and what it leaves behind, has anything open. -/
structure Tidy (u : Upload) : Prop where
  pipe : u.pipe ≠ none → u.stage = .pipe ∨ u.stage = .rejected
  cat : u.cat ≠ none → u.stage = .cat ∨ u.stage = .rejected
  one : u.pipe = none ∨ u.cat = none

theorem Tidy.rejected (tidy : u.Tidy) : (u.goto .rejected).Tidy :=
  ⟨fun _ => .inr rfl, fun _ => .inr rfl, tidy.one⟩

/-- Outside the write step nothing is open. -/
theorem Tidy.closed (tidy : u.Tidy)
    (stage : u.stage ≠ .cat ∧ u.stage ≠ .pipe ∧ u.stage ≠ .rejected) :
    u.pipe = none ∧ u.cat = none := by
  obtain ⟨cat, pipe, rejected⟩ := stage
  constructor
  · by_contra held
    exact (tidy.pipe held).elim pipe rejected
  · by_contra held
    exact (tidy.cat held).elim cat rejected

theorem tidy_of_closed {u : Upload} (pipe : u.pipe = none) (cat : u.cat = none) : u.Tidy :=
  ⟨fun held => absurd pipe held, fun held => absurd cat held, .inl pipe⟩

theorem tidy_start (request : UploadRequest) : (start request).Tidy := tidy_of_closed rfl rfl

theorem Tidy.answer {reply : GuestReply} (tidy : u.Tidy)
    (happens : u.answer dest g reply = some (h, v)) : v.Tidy := by
  obtain ⟨pipe, cat⟩ := tidy.closed (answer_stage happens)
  unfold Upload.answer at happens
  cases stage : u.stage <;> rw [stage] at happens <;> dsimp only at happens
  case statPart | drain | statAfter | statFinal =>
    split at happens <;> cases happens <;> exact tidy_of_closed pipe cat
  case readMeta | clearPart | clearMeta | writeMeta | probe | unlinkDest | unlinkMeta =>
    cases happens
    exact tidy_of_closed pipe cat
  case rename => split at happens <;> cases happens <;> exact tidy_of_closed pipe cat
  case openCat =>
    cases reply with
    | ok =>
        cases happens
        exact ⟨fun held => absurd pipe held, fun _ => .inl rfl, .inl pipe⟩
    | lost | failed =>
        cases happens
        exact tidy_of_closed pipe cat
  case openPart =>
    split at happens
    · cases happens
      exact tidy_of_closed pipe cat
    · cases reply with
      | ok =>
          cases happens
          exact ⟨fun _ => .inl rfl, fun held => absurd cat held, .inr cat⟩
      | lost | failed =>
          cases happens
          exact tidy_of_closed pipe cat
  case cat | pipe | done | rejected => cases happens

theorem Tidy.pump {p : UploadPipe} (tidy : u.Tidy) (stage : u.stage = .pipe)
    (turned : u.pump p = some v) : v.Tidy := by
  have cat : u.cat = none := by
    by_contra held
    rcases tidy.cat held with other | other
    · rw [stage] at other
      cases other
    · rw [stage] at other
      cases other
  have piping : ∀ after : Option UploadPipe, Tidy { u with pipe := after } :=
    fun _ => ⟨fun _ => .inl stage, fun held => absurd cat held, .inr cat⟩
  rcases pump_cases turned with rfl | ⟨chunk, body, -, rfl⟩ | rfl | ⟨-, -, -, -, rfl⟩
  · exact piping _
  · exact piping _
  · exact piping _
  · exact tidy_of_closed rfl cat

theorem soundOn_rejected (stage : u.stage = .rejected) : u.SoundOn dest g := by
  unfold SoundOn Sound
  rw [stage]
  trivial

/-- What the own steps of an upload keep. -/
def Keeps (dest : GuestPath) (g : Guest) (u : Upload) : Prop := u.Tidy ∧ u.SoundOn dest g

theorem Keeps.step {e : UploadEvent} (keeps : u.Keeps dest g)
    (happens : u.step dest g e = some (h, v)) : v.Keeps dest h := by
  obtain ⟨tidy, sound⟩ := keeps
  cases e with
  | answer reply => exact ⟨tidy.answer happens, sound.answer happens⟩
  | pump =>
      obtain ⟨p, stage, held, turned, rfl⟩ := step_pump happens
      exact ⟨tidy.pump stage turned, sound.pump stage held turned⟩
  | write i k ok =>
      obtain ⟨p, w, held, sent, inside, whole, rfl, rfl⟩ := step_write happens
      have piping := tidy.pipe (by rw [held]; exact Option.some_ne_none p)
      have cat : u.cat = none := by
        refine tidy.one.resolve_left ?_
        rw [held]
        exact Option.some_ne_none p
      refine ⟨⟨fun _ => piping, tidy.cat, .inr cat⟩, ?_⟩
      rcases piping with stage | stage
      · obtain ⟨bytes, pipes⟩ := sound.pipes stage held
        exact soundOn_pipe stage rfl (pipes.settle sent inside whole)
      · exact soundOn_rejected stage
  | catWrite k =>
      obtain ⟨c, held, -, inside, rfl, rfl⟩ := step_catWrite happens
      have copying := tidy.cat (by rw [held]; exact Option.some_ne_none c)
      have pipe : u.pipe = none := by
        refine tidy.one.resolve_right ?_
        rw [held]
        exact Option.some_ne_none c
      refine ⟨⟨tidy.pipe, fun _ => copying, .inl pipe⟩, ?_⟩
      rcases copying with stage | stage
      · obtain ⟨fits, bytes, copies⟩ := sound.copies stage held
        exact soundOn_cat stage rfl fits (copies.write k inside)
      · exact soundOn_rejected stage
  | catClosed =>
      obtain ⟨c, stage, held, rfl, rfl⟩ := step_catClosed happens
      obtain ⟨fits, bytes, seen, all, -⟩ := sound.copies stage held
      have pipe : u.pipe = none := by
        refine tidy.one.resolve_right ?_
        rw [held]
        exact Option.some_ne_none c
      refine ⟨tidy_of_closed pipe rfl, ?_⟩
      · refine ⟨fits, c.file, bytes, seen, ⟨c.left, all⟩, fun whole => ?_⟩
        have none : c.left = [] := by simpa using whole
        rw [none, List.append_nil] at all
        exact all
  | abort =>
      obtain ⟨-, rfl, rfl⟩ := step_abort happens
      exact ⟨tidy.rejected, soundOn_rejected rfl⟩
  | gone =>
      obtain ⟨stage, rfl, rfl⟩ := step_gone happens
      exact ⟨tidy_of_closed rfl rfl, soundOn_rejected stage⟩

/-- A step of something else keeps it too when it spares the file relied on. -/
theorem Keeps.frame (keeps : u.Keeps dest g)
    (same : ∀ path, u.relies dest = some path → h.files.look path = g.files.look path) :
    u.Keeps dest h :=
  ⟨keeps.1, keeps.2.frame same⟩

theorem keeps_start (request : UploadRequest) : (start request).Keeps dest g :=
  ⟨tidy_start request, trivial⟩

end Upload

end Proxora
