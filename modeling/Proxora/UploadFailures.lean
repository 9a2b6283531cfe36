import Proxora.Runs
import Proxora.UploadSound

/-!
# Uploads that fail

When a rejected upload leaves the destination as it was: exactly when it is
refused before it changes anything, when it writes to the destination itself but
has nothing to write, or when it can never pass the size check
(`keepsDestination_iff`).  In every other case some request to the guest can
fail at a point where the former content is gone.
-/

namespace Proxora

open Ecma Files Runs

namespace UploadRequest

/-- The checks refuse the upload, whatever the sidecar says. -/
def Refused (r : UploadRequest) (partSize : Nat) : Prop :=
  r.offsetBeyond = true ∨ r.offset ≠ 0 ∧ partSize ≠ r.offset

/-- The upload resumes, and has nothing to write. -/
def WritesNothing (r : UploadRequest) : Prop :=
  r.offset ≠ 0 ∧ (r.skipWrite = true ∨ r.body.flatten = [])

/-- The body ends before the declared size. -/
def FallsShort (r : UploadRequest) : Prop :=
  ∃ expected, r.expectedSize = some expected ∧
    ((r.offset + r.body.flatten.length : Nat) : Int) < expected

variable {r : UploadRequest} {size : Nat} {stored : Option GuestUploadIdentity}

theorem checked_of_refused (refused : r.Refused size) : r.checked size stored = .rejected := by
  unfold checked
  rcases refused with beyond | ⟨resumed, other⟩
  · exact if_pos beyond
  · rw [if_neg resumed, if_pos other, ite_self]

theorem checked_of_accepted (accepted : ¬r.Refused size) :
    r.checked size none = if r.offset = 0 then .clearPart else r.writeStage := by
  obtain ⟨within, fits⟩ := not_or.mp accepted
  unfold checked
  rw [if_neg within]
  split
  · rfl
  · next resumed =>
      rw [if_neg fun other => fits ⟨resumed, other⟩, differs]
      rfl

end UploadRequest

namespace Upload

/-- The system of one upload. -/
def turn (dest : GuestPath) (s : Guest × Upload) (e : UploadEvent) : Option (Guest × Upload) :=
  s.2.step dest s.1 e

/-- In every run of the upload, with any failures, the destination is as before
once the upload is rejected. -/
def KeepsDestination (dest : GuestPath) (g : Guest) (request : UploadRequest) : Prop :=
  ∀ s, Reaches (turn dest) Unrestricted (g, start request) s → s.2.stage = .rejected →
    s.1.files.read dest.text = g.files.read dest.text

variable {dest : GuestPath} {g h : Guest} {u v : Upload} {r : UploadRequest}

/-! ## Uploads that cannot do harm -/

/-- A refused upload changes nothing. -/
structure Idle (dest : GuestPath) (g : Guest) (r : UploadRequest) (s : Guest × Upload) : Prop where
  same : s.1 = g
  request : s.2.request = r
  pipe : s.2.pipe = none
  cat : s.2.cat = none
  stage : s.2.stage = .statPart ∨ s.2.stage = .readMeta (g.size dest.partPath) ∨
    s.2.stage = .rejected

theorem Idle.step {e : UploadEvent} (idle : Idle dest g r (h, u))
    (refused : r.Refused (g.size dest.partPath)) {after : Guest}
    (happens : u.step dest h e = some (after, v)) : Idle dest g r (after, v) := by
  obtain ⟨same, request, pipe, cat, stages⟩ := idle
  cases same
  cases e with
  | answer reply =>
      simp only [Upload.step, Upload.answer] at happens
      rcases stages with stage | stage | stage <;> rw [stage] at happens <;> dsimp only at happens
      · split at happens
        · cases happens
          exact ⟨rfl, request, pipe, cat, .inr (.inl rfl)⟩
        · cases happens
          exact ⟨rfl, request, pipe, cat, .inr (.inr rfl)⟩
      · cases happens
        refine ⟨rfl, request, pipe, cat, .inr (.inr ?_)⟩
        show u.request.checked _ _ = _
        rw [request]
        exact UploadRequest.checked_of_refused refused
      · cases happens
  | pump =>
      obtain ⟨p, -, held, -⟩ := step_pump happens
      rw [pipe] at held
      cases held
  | write i k ok =>
      obtain ⟨p, w, held, -⟩ := step_write happens
      rw [pipe] at held
      cases held
  | catWrite k =>
      obtain ⟨c, held, -⟩ := step_catWrite happens
      rw [cat] at held
      cases held
  | catClosed =>
      obtain ⟨c, -, held, -⟩ := step_catClosed happens
      rw [cat] at held
      cases held
  | abort =>
      obtain ⟨-, rfl, rfl⟩ := step_abort happens
      exact ⟨rfl, request, pipe, cat, .inr (.inr rfl)⟩
  | gone =>
      obtain ⟨stage, rfl, rfl⟩ := step_gone happens
      exact ⟨rfl, request, rfl, rfl, .inr (.inr stage)⟩

/-- An upload that resumes the destination itself, with nothing to write. -/
structure Still (dest : GuestPath) (r : UploadRequest) (found : Nat × Bytes)
    (s : Guest × Upload) : Prop where
  held : s.1.files.look dest.text = some found
  request : s.2.request = r
  stage : match s.2.stage with
    | .clearPart | .clearMeta | .writeMeta | .unlinkDest _ | .rename _ => False
    | .probe | .openCat | .openPart => r.body.flatten = []
    | _ => True
  cat : ∀ c, s.2.cat = some c → c.left = []
  pipe : ∀ p, s.2.pipe = some p →
    p.rest = [] ∧ p.body.flatten = [] ∧ ∀ w ∈ p.pending, w.bytes = []

theorem Still.step {e : UploadEvent} {found : Nat × Bytes} (still : Still dest r found (g, u))
    (named : dest.isPart = true) (nothing : r.WritesNothing)
    (happens : u.step dest g e = some (h, v)) : Still dest r found (h, v) := by
  obtain ⟨held, request, harmless, cats, pipes⟩ := still
  dsimp only at held request harmless cats pipes
  have resumed : u.request.offset ≠ 0 := by
    rw [request]
    exact nothing.1
  have opened : g.files.openFile dest.partPath (u.request.offset = 0) = (g.files, found.1) := by
    rw [decide_eq_false resumed, dest.partPath_eq_iff.mpr named]
    exact FileSystem.openFile_of_entry (FileSystem.look_eq_some.mp held).1
  cases e with
  | answer reply =>
      simp only [Upload.step] at happens
      unfold Upload.answer at happens
      cases stage : u.stage <;> rw [stage] at happens harmless <;> dsimp only at happens harmless
      case statPart | drain | statAfter =>
        split at happens <;> cases happens <;> exact ⟨held, request, trivial, cats, pipes⟩
      case readMeta size =>
        cases happens
        refine ⟨held, request, ?_, cats, pipes⟩
        rcases UploadRequest.checked_cases u.request size
          (if reply = .ok then g.identity else none) with next | ⟨zero, -⟩ | ⟨-, -, next⟩
        · rw [goto, next]
          trivial
        · exact absurd zero resumed
        · rw [goto, next, UploadRequest.writeStage, request]
          by_cases skip : r.skipWrite = true
          · rw [if_pos skip]
            trivial
          · rw [if_neg skip]
            exact nothing.2.resolve_left skip
      case probe =>
        cases happens
        refine ⟨held, request, ?_, cats, pipes⟩
        cases reply <;> exact harmless
      case openCat =>
        rw [opened] at happens
        cases reply with
        | ok =>
            cases happens
            refine ⟨held, request, trivial, ?_, pipes⟩
            intro c copied
            cases copied
            show u.request.body.flatten = []
            rw [request]
            exact harmless
        | lost | failed =>
            cases happens
            exact ⟨held, request, trivial, cats, pipes⟩
      case openPart =>
        rw [opened] at happens
        split at happens
        · cases happens
          exact ⟨held, request, trivial, cats, pipes⟩
        · cases reply with
          | ok =>
              cases happens
              refine ⟨held, request, trivial, cats, ?_⟩
              intro p piped
              cases piped
              refine ⟨rfl, ?_, fun w member => by cases member⟩
              show u.request.body.flatten = []
              rw [request]
              exact harmless
          | lost | failed =>
              cases happens
              exact ⟨held, request, trivial, cats, pipes⟩
      case statFinal =>
        split at happens
        · cases happens
          exact ⟨held, request, trivial, cats, pipes⟩
        · cases happens
          exact ⟨held, request, trivial, cats, pipes⟩
      case unlinkMeta =>
        cases happens
        refine ⟨?_, request, trivial, cats, pipes⟩
        split <;> exact held
      case cat | pipe | done | rejected => cases happens
  | pump =>
      obtain ⟨p, stage, piped, turned, rfl⟩ := step_pump happens
      obtain ⟨rest, body, pending⟩ := pipes p piped
      rw [stage] at harmless
      have piping : ∀ after : UploadPipe, (after.rest = [] ∧ after.body.flatten = [] ∧
          ∀ w ∈ after.pending, w.bytes = []) →
          Still dest r found (h, { u with pipe := some after }) := by
        intro after empty
        refine ⟨held, request, ?_, cats, ?_⟩
        · rw [stage]
          trivial
        · intro p same
          cases same
          exact empty
      rcases pump_cases turned with rfl | ⟨chunk, more, queue, rfl⟩ | rfl | ⟨-, -, -, -, rfl⟩
      · refine piping _ ⟨?_, body, ?_⟩
        · show p.rest.drop _ = []
          rw [rest, List.drop_nil]
        · intro w member
          rcases List.mem_append.mp member with old | new
          · exact pending w old
          · rw [List.mem_singleton.mp new, rest]
            exact List.take_nil
      · rw [queue, List.flatten_cons, List.append_eq_nil_iff] at body
        refine piping { p with body := more, rest := p.rest ++ chunk } ⟨?_, body.2, pending⟩
        show p.rest ++ chunk = []
        rw [rest, body.1, List.append_nil]
      · exact piping _ ⟨rest, body, pending⟩
      · exact ⟨held, request, trivial, cats, fun p piped => by cases piped⟩
  | write i k ok =>
      obtain ⟨p, w, piped, sent, inside, whole, rfl, rfl⟩ := step_write happens
      obtain ⟨rest, body, pending⟩ := pipes p piped
      refine ⟨?_, request, harmless, cats, ?_⟩
      · rw [pending w (List.mem_of_getElem? sent), List.take_nil]
        exact FileSystem.look_write_nil.trans held
      · intro after same
        cases same
        exact ⟨rest, body, fun v member => pending v (List.mem_of_mem_eraseIdx member)⟩
  | catWrite k =>
      obtain ⟨c, copied, some, inside, -⟩ := step_catWrite happens
      rw [cats c copied, List.length_nil] at inside
      omega
  | catClosed =>
      obtain ⟨c, stage, copied, rfl, rfl⟩ := step_catClosed happens
      exact ⟨held, request, trivial, fun c copied => (by cases copied), pipes⟩
  | abort =>
      obtain ⟨-, rfl, rfl⟩ := step_abort happens
      exact ⟨held, request, trivial, cats, pipes⟩
  | gone =>
      obtain ⟨stage, rfl, rfl⟩ := step_gone happens
      exact ⟨held, request, harmless, fun c copied => (by cases copied),
        fun p piped => (by cases piped)⟩

/-- An upload beside the destination that never gets to replace it. -/
structure Aside (dest : GuestPath) (r : UploadRequest) (found : Nat × Bytes)
    (s : Guest × Upload) : Prop where
  keeps : s.2.Keeps dest s.1
  held : s.1.files.look dest.text = some found
  request : s.2.request = r
  stage : s.2.stage.passed = false
  opens : ¬s.2.Opens found.1

/-- The file opened is not the one of the destination. -/
theorem opened_ne {files : FileSystem Text} {found : Nat × Bytes} (truncate : Bool)
    (other : dest.isPart = false) (held : files.look dest.text = some found) :
    (files.openFile dest.partPath truncate).2 ≠ found.1 := by
  intro same
  have different := GuestPath.text_ne_partPath other
  have beside : (files.openFile dest.partPath truncate).1.look dest.text = some found :=
    (FileSystem.look_openFile_other different).trans held
  have opened : (files.openFile dest.partPath truncate).1.look dest.partPath = some (_, _) :=
    FileSystem.look_openFile_self
  rw [same] at opened
  exact different (FileSystem.look_distinct beside opened)

/-- The part file is shorter than the size that was declared. -/
theorem SoundOn.refuses {checkSize : Int} (sound : u.SoundOn dest g)
    (stage : u.stage = .statFinal checkSize) (short : u.request.FallsShort) :
    (g.size dest.partPath : Int) ≠ checkSize := by
  unfold SoundOn Sound at sound
  rw [stage] at sound
  obtain ⟨fits, f, bytes, seen, delivers, check⟩ := sound
  obtain ⟨expected, declared, less⟩ := short
  have length := delivers.1.length_le
  rw [length_target fits] at length
  rw [Guest.size_of_look seen, check, declared, Option.getD_some]
  omega

theorem Aside.step {e : UploadEvent} {found : Nat × Bytes} (aside : Aside dest r found (g, u))
    (other : dest.isPart = false) (short : r.FallsShort)
    (happens : u.step dest g e = some (h, v)) : Aside dest r found (h, v) := by
  obtain ⟨keeps, held, request, stage, opens⟩ := aside
  dsimp only at keeps held request stage opens
  have spared : u.touches dest g e dest.text = false := by
    by_contra touched
    rw [Bool.not_eq_false] at touched
    rcases touches_cases touched with ⟨f, opened, entry⟩ | same | passed
    · rw [FileSystem.entry_eq_look, held, Option.map_some, Option.some.injEq] at entry
      exact opens (entry ▸ opened)
    · exact GuestPath.text_ne_partPath other same
    · rw [stage] at passed
      cases passed
  refine ⟨keeps.step happens, (step_spares happens spared).trans held,
    (step_fixed happens).1.trans request, ?_, ?_⟩
  · by_contra passed
    rw [Bool.not_eq_false] at passed
    obtain ⟨-, before | ⟨-, checkSize, checking, same⟩⟩ := step_passed happens passed
    · rw [stage] at before
      cases before
    · exact keeps.2.refuses checking (request ▸ short) same
  · intro opened
    rcases step_opens happens opened with before | ⟨truncate, same⟩
    · exact opens before
    · exact opened_ne truncate other held same.symm

/-- The three cases in which nothing happens to the destination. -/
theorem keepsDestination_of {content : Bytes} (held : g.files.read dest.text = some content)
    (safe : r.Refused (g.size dest.partPath) ∨ dest.isPart = true ∧ r.WritesNothing ∨
      dest.isPart = false ∧ r.FallsShort) : KeepsDestination dest g r := by
  obtain ⟨f, found⟩ := FileSystem.look_of_read held
  intro s run _
  rcases safe with refused | ⟨named, nothing⟩ | ⟨other, short⟩
  · have idle : Idle dest g r s :=
      run.keeps ⟨rfl, rfl, rfl, rfl, .inl rfl⟩ fun _ _ _ idle _ happens => idle.step refused happens
    rw [idle.same]
  · have still : Still dest r (f, content) s := by
      refine run.keeps ⟨found, rfl, trivial, ?_, ?_⟩ fun _ _ _ still _ happens =>
        still.step named nothing happens
      · intro c copying
        cases copying
      · intro p piping
        cases piping
    rw [held]
    exact FileSystem.read_of_look still.held
  · have aside : Aside dest r (f, content) s := by
      refine run.keeps ⟨keeps_start r, found, rfl, rfl, ?_⟩ fun _ _ _ aside _ happens =>
        aside.step other short happens
      rintro (⟨c, copying, -⟩ | ⟨p, piping, -⟩)
      · cases copying
      · cases piping
    rw [held]
    exact FileSystem.read_of_look aside.held

/-! ## Runs that fail too late -/

/-- Some run leads from the one to the other. -/
def Leads (dest : GuestPath) : Guest × Upload → Guest × Upload → Prop :=
  Reaches (turn dest) Unrestricted

theorem leads_step {s t : Guest × Upload} {e : UploadEvent} (happens : turn dest s e = some t) :
    Leads dest s t :=
  Reaches.start.next trivial happens

/-- The upload when it has looked at the part file. -/
def looked (dest : GuestPath) (g : Guest) (r : UploadRequest) (stage : UploadStage) : Upload :=
  { start r with
    stage := stage
    base := (g.files.read dest.partPath).getD [] }

/-- The sidecar cannot be read. -/
theorem leads_checked : Leads dest (g, start r)
    (g, looked dest g r (r.checked (g.size dest.partPath) none)) := by
  have stat : turn dest (g, start r) (.answer .ok) =
      some (g, looked dest g r (.readMeta (g.size dest.partPath))) := rfl
  have read : turn dest (g, looked dest g r (.readMeta (g.size dest.partPath)))
      (.answer .failed) =
        some (g, looked dest g r (r.checked (g.size dest.partPath) none)) := rfl
  exact (leads_step stat).trans (leads_step read)

/-- The sidecars cannot be deleted. -/
theorem leads_probe (accepted : ¬r.Refused (g.size dest.partPath)) (writes : r.skipWrite = false) :
    ∃ h, h.files = g.files ∧ Leads dest (g, start r) (h, looked dest g r .probe) := by
  have next : r.writeStage = .probe := by
    rw [UploadRequest.writeStage, writes]
    rfl
  have first : Leads dest (g, start r) _ := leads_checked
  rw [UploadRequest.checked_of_accepted accepted, next] at first
  by_cases zero : r.offset = 0
  · rw [if_pos zero] at first
    have clearPart : turn dest (g, looked dest g r .clearPart) (.answer .failed) =
        some (g, looked dest g r .clearMeta) := rfl
    have clearMeta : turn dest (g, looked dest g r .clearMeta) (.answer .failed) =
        some (g, looked dest g r
          (if r.expectedSize ≠ none ∧ r.hash ≠ [] then .writeMeta else r.writeStage)) := rfl
    have cleared := (first.trans (leads_step clearPart)).trans (leads_step clearMeta)
    rw [next] at cleared
    split at cleared
    · have writeMeta : turn dest (g, looked dest g r .writeMeta) (.answer .ok) =
          some ({ g with identity := r.identity }, looked dest g r r.writeStage) := rfl
      rw [next] at writeMeta
      exact ⟨{ g with identity := r.identity }, rfl, cleared.trans (leads_step writeMeta)⟩
    · exact ⟨g, rfl, cleared⟩
  · rw [if_neg zero] at first
    exact ⟨g, rfl, first⟩

/-- The guest has a shell, and its `cat` is fed. -/
theorem leads_cat (stage : u.stage = .probe) :
    ∃ h c, Leads dest (g, u) (h, { u with stage := .cat, cat := some c }) ∧
      c.left = u.request.body.flatten := by
  have probe : turn dest (g, u) (.answer .ok) = some (g, u.goto .openCat) := by
    simp only [turn, step, answer, stage, if_true]
  have opened : turn dest (g, u.goto .openCat) (.answer .ok) = some (_, _) := rfl
  exact ⟨_, _, (leads_step probe).trans (leads_step opened), rfl⟩

/-- `cat` has written some of the body. -/
theorem leads_copied {c : RemoteCat} {bytes : Bytes} {k : Nat} (held : u.cat = some c)
    (copies : u.Copies dest g c bytes) (inside : k ≤ c.left.length) :
    ∃ h d, Leads dest (g, u) (h, { u with cat := some d }) ∧
      u.Copies dest h d (bytes ++ c.left.take k) := by
  by_cases none : k = 0
  · subst none
    rw [List.take_zero, List.append_nil]
    refine ⟨g, c, ?_, copies⟩
    rw [← held]
    exact .start
  · have write : turn dest (g, u) (.catWrite k) =
        some ({ g with files := g.files.write c.file (catStart g c) (c.left.take k) },
          { u with cat := some { c with pos := c.pos + k, left := c.left.drop k } }) := by
      simp only [turn, step, held]
      rw [if_pos ⟨Nat.pos_of_ne_zero none, inside⟩]
    exact ⟨_, _, leads_step write, copies.write k inside⟩

/-- The size check is passed, the destination deleted, and the rename refused. -/
theorem leads_lost {f : Nat} {bytes : Bytes} (stage : u.stage = .statAfter)
    (other : dest.isPart = false) (seen : g.files.look dest.partPath = some (f, bytes))
    (expects : u.Expects bytes.length) :
    ∃ h, Leads dest (g, u) (h, u.goto .rejected) ∧ h.files.read dest.text = none := by
  have size := Guest.size_of_look seen
  have check : u.request.expectedSize.getD (bytes.length : Int) = (bytes.length : Int) := by
    cases declared : u.request.expectedSize with
    | none => rfl
    | some expected => exact (expects expected declared).symm
  have statAfter : turn dest (g, u) (.answer .ok) =
      some (g, u.goto (.statFinal bytes.length)) := by
    simp only [turn, step, answer, stage, size, check, if_true]
  have statFinal : turn dest (g, u.goto (.statFinal bytes.length)) (.answer .ok) =
      some (g, u.goto (.unlinkDest bytes.length)) := by
    simp [turn, step, answer, goto, size, other]
  have unlinkDest : turn dest (g, u.goto (.unlinkDest bytes.length)) (.answer .ok) =
      some (g.unlink dest.text, u.goto (.rename bytes.length)) := rfl
  have rename : turn dest (g.unlink dest.text, u.goto (.rename bytes.length))
      (.answer .failed) = some (g.unlink dest.text, u.goto .rejected) := by
    simp [turn, step, answer, goto]
  refine ⟨_, (((leads_step statAfter).trans (leads_step statFinal)).trans
    (leads_step unlinkDest)).trans (leads_step rename), ?_⟩
  show ((g.files.unlink dest.text).look dest.text).map _ = none
  rw [FileSystem.look_unlink_self, Option.map_none]

/-- A run leads to what the own steps keep. -/
theorem Leads.keeps (run : Leads dest (g, start r) (h, u)) : u.Keeps dest h :=
  @Reaches.keeps _ _ _ _ _ _ (fun s => s.2.Keeps dest s.1) run (keeps_start r)
    fun _ _ _ keeps _ happens => keeps.step happens

/-- An upload with a body to write gets any front of it into the part file. -/
theorem leads_written {k : Nat} (accepted : ¬r.Refused (g.size dest.partPath))
    (writes : r.skipWrite = false) (inside : k ≤ r.body.flatten.length) :
    ∃ h u c bytes, Leads dest (g, start r) (h, u) ∧ u.stage = .cat ∧ u.request = r ∧
      u.cat = some c ∧ u.Copies dest h c bytes ∧ bytes.length = r.offset + k := by
  obtain ⟨h, -, probed⟩ := leads_probe accepted writes
  obtain ⟨h, c, opened, left⟩ := leads_cat (g := h) (u := looked dest g r .probe) rfl
  have run := probed.trans opened
  obtain ⟨fits, bytes, copies⟩ := (Leads.keeps run).2.copies rfl rfl
  have length : bytes.length = r.offset := by
    have all := congrArg List.length copies.2.1
    rw [List.length_append, length_target fits, left] at all
    exact Nat.add_right_cancel all
  rw [← (congrArg List.length left : c.left.length = r.body.flatten.length)] at inside
  obtain ⟨h, d, copied, more⟩ := leads_copied rfl copies inside
  refine ⟨h, _, d, _, run.trans copied, rfl, rfl, rfl, more, ?_⟩
  rw [List.length_append, length, List.length_take_of_le inside]

/-- How much of the body makes the size that is expected. -/
theorem exists_expected (accepted : ¬r.Refused (g.size dest.partPath)) (long : ¬r.FallsShort) :
    ∃ k, k ≤ r.body.flatten.length ∧
      ∀ expected, r.expectedSize = some expected → ((r.offset + k : Nat) : Int) = expected := by
  cases declared : r.expectedSize with
  | none =>
      refine ⟨0, Nat.zero_le _, ?_⟩
      intro expected same
      cases same
  | some expected =>
      have within : (r.offset : Int) ≤ expected := by
        have beyond := (not_or.mp accepted).1
        rw [UploadRequest.offsetBeyond, declared] at beyond
        exact Int.not_lt.mp fun less => beyond (decide_eq_true less)
      have enough : expected ≤ ((r.offset + r.body.flatten.length : Nat) : Int) :=
        Int.not_lt.mp fun less => long ⟨expected, declared, less⟩
      refine ⟨(expected - r.offset).toNat, by omega, ?_⟩
      intro other same
      cases same
      omega

/-- An upload beside the destination that can pass the size check. -/
theorem leads_replaced (accepted : ¬r.Refused (g.size dest.partPath)) (long : ¬r.FallsShort)
    (other : dest.isPart = false) :
    ∃ s, Leads dest (g, start r) s ∧ s.2.stage = .rejected ∧ s.1.files.read dest.text = none := by
  cases skip : r.skipWrite with
  | true =>
      obtain ⟨resumed, declared⟩ := UploadRequest.skipWrite_iff.mp skip
      have first : Leads dest (g, start r) _ := leads_checked
      rw [UploadRequest.checked_of_accepted accepted, if_neg resumed, UploadRequest.writeStage,
        skip, if_pos rfl] at first
      have drain : turn dest (g, looked dest g r .drain) (.answer .ok) = some (g,
          { looked dest g r .drain with stage := .statAfter, cut := r.body.flatten ≠ [] }) := rfl
      obtain ⟨fits, -, f, seen⟩ := (Leads.keeps first).2
      have expects : Expects { looked dest g r .drain with
          stage := .statAfter, cut := r.body.flatten ≠ [] } (looked dest g r .drain).base.length := by
        intro expected same
        have size : (looked dest g r .drain).base.length = r.offset := fits.resolve_left resumed
        rw [show r.expectedSize = some expected from same, Option.some.injEq] at declared
        rw [size, declared]
      obtain ⟨h, lost, gone⟩ := leads_lost rfl other seen expects
      exact ⟨_, (first.trans (leads_step drain)).trans lost, rfl, gone⟩
  | false =>
      obtain ⟨k, inside, expected⟩ := exists_expected accepted long
      obtain ⟨h, u, c, bytes, run, stage, request, held, copies, length⟩ :=
        leads_written accepted skip inside
      have closed : turn dest (h, u) .catClosed =
          some (h, { u with stage := .statAfter, cat := none, cut := c.left ≠ [] }) := by
        simp only [turn, step, stage, held]
      have expects : Expects { u with stage := .statAfter, cat := none, cut := c.left ≠ [] }
          bytes.length := by
        intro size same
        rw [length]
        exact expected size (request ▸ same)
      obtain ⟨h, lost, gone⟩ := leads_lost rfl other copies.1 expects
      exact ⟨_, (run.trans (leads_step closed)).trans lost, rfl, gone⟩

theorem not_keepsDestination {content : Bytes} (held : g.files.read dest.text = some content)
    (harmful : ¬(r.Refused (g.size dest.partPath) ∨ dest.isPart = true ∧ r.WritesNothing ∨
      dest.isPart = false ∧ r.FallsShort)) : ¬KeepsDestination dest g r := by
  obtain ⟨accepted, rest⟩ := not_or.mp harmful
  obtain ⟨writing, long⟩ := not_or.mp rest
  intro keeps
  cases named : dest.isPart with
  | false =>
      obtain ⟨s, run, rejected, gone⟩ :=
        leads_replaced accepted (fun short => long ⟨named, short⟩) named
      rw [keeps s run rejected, held] at gone
      cases gone
  | true =>
      have same := dest.partPath_eq_iff.mpr named
      by_cases zero : r.offset = 0
      · -- The part file that is cleared away is the destination.
        have first : Leads dest (g, start r) _ := leads_checked
        rw [UploadRequest.checked_of_accepted accepted, if_pos zero] at first
        have clearPart : turn dest (g, looked dest g r .clearPart) (.answer .ok) =
            some (g.unlink dest.partPath, looked dest g r .clearMeta) := rfl
        have abort : turn dest (g.unlink dest.partPath, looked dest g r .clearMeta) .abort =
            some (g.unlink dest.partPath, looked dest g r .rejected) := rfl
        have kept := keeps _ ((first.trans (leads_step clearPart)).trans (leads_step abort)) rfl
        rw [held, same] at kept
        have gone : (g.unlink dest.text).files.read dest.text = none := by
          show ((g.files.unlink dest.text).look dest.text).map _ = none
          rw [FileSystem.look_unlink_self, Option.map_none]
        rw [gone] at kept
        cases kept
      · -- What is written to the part file is written to the destination.
        have skip : r.skipWrite = false := by
          by_contra skip
          rw [Bool.not_eq_false] at skip
          exact writing ⟨named, zero, .inl skip⟩
        have some : r.body.flatten ≠ [] := fun none => writing ⟨named, zero, .inr none⟩
        obtain ⟨h, u, c, bytes, run, stage, request, copying, copies, length⟩ :=
          leads_written accepted skip (Nat.le_refl _)
        have abort : turn dest (h, u) .abort = Option.some (h, u.goto .rejected) := by
          simp only [turn, step, stage]
        have kept := keeps _ (run.trans (leads_step abort)) rfl
        have seen := copies.1
        rw [same] at seen
        rw [held, FileSystem.read_of_look seen, Option.some.injEq] at kept
        have size : g.size dest.partPath = r.offset :=
          not_not.mp fun other => (not_or.mp accepted).2 ⟨zero, other⟩
        rw [Guest.size, same, held, Option.getD_some, ← kept, length] at size
        exact some (List.length_eq_zero_iff.mp (by omega))

def noteGuest : Guest where
  files :=
    { entry := fun path => if path = note.text then some 0 else none
      content := fun _ => [110]
      next := 1
      bound := by
        intro path f held
        split at held
        · cases held
          exact Nat.one_pos
        · cases held
      distinct := by
        intro path other f held also
        split at held
        · next same =>
            split at also
            · next too => exact same.trans too.symm
            · cases also
        · cases held }
  identity := none

end Upload

end Proxora
