import Proxora.Runs
import Proxora.UploadSound

/-!
# Uploads to one path

Any number of uploads to one destination, whose steps interleave.  Each has its
own session; what they share is the guest.  `delivers_own` says that an upload
that reports success has put its own bytes in place when no other upload touched
the file it relied on and the size check caught what was cut short.
-/

namespace Proxora

open Ecma Files Runs

structure UploadSystem where
  guest : Guest
  uploads : Nat → Option Upload
  begun : Nat

inductive UploadSystemEvent : Type
  | begin (request : UploadRequest)
  | act (upload : Nat) (e : UploadEvent)

/-- A size check that an upload passes although some of its body was not written. -/
def Upload.passesCut (dest : GuestPath) (g : Guest) (u : Upload) (e : UploadEvent) : Bool :=
  match e, u.stage with
  | .answer .ok, .statFinal checkSize => u.cut && (g.size dest.partPath : Int) = checkSize
  | _, _ => false

namespace UploadSystem

/-- No upload yet. -/
def idle (g : Guest) : UploadSystem where
  guest := g
  uploads := fun _ => none
  begun := 0

def step (dest : GuestPath) (s : UploadSystem) : UploadSystemEvent → Option UploadSystem
  | .begin request =>
      some { s with
        uploads := Function.update s.uploads s.begun (some (.start request))
        begun := s.begun + 1 }
  | .act n e =>
      match s.uploads n with
      | some u =>
          match u.step dest s.guest e with
          | some (g, v) =>
              some { s with guest := g, uploads := Function.update s.uploads n (some v) }
          | none => none
      | none => none

/-- An upload that has reported success found its own bytes in the destination
when it did. -/
def DeliversOwn (s : UploadSystem) : Prop :=
  ∀ n u size held, s.uploads n = some u → u.stage = .done size held → held = some u.target

/-- No step touches the file that another upload relies on, and no upload that
was cut short passes the size check. -/
def Apart (dest : GuestPath) (s : UploadSystem) : UploadSystemEvent → Prop
  | .begin _ => True
  | .act n e => ∀ u ∈ s.uploads n, u.passesCut dest s.guest e = false ∧
      ∀ m, m < s.begun → m ≠ n → ∀ v ∈ s.uploads m, ∀ path ∈ v.relies dest,
        u.touches dest s.guest e path = false

instance (dest : GuestPath) : ∀ (s : UploadSystem) e, Decidable (Apart dest s e)
  | _, .begin _ => inferInstanceAs (Decidable True)
  | s, .act n e =>
      inferInstanceAs (Decidable (∀ u ∈ s.uploads n, u.passesCut dest s.guest e = false ∧
        ∀ m, m < s.begun → m ≠ n → ∀ v ∈ s.uploads m, ∀ path ∈ v.relies dest,
          u.touches dest s.guest e path = false))

/-- The invariant. -/
structure Sound (dest : GuestPath) (s : UploadSystem) : Prop where
  bound : ∀ n u, s.uploads n = some u → n < s.begun
  keeps : ∀ n u, s.uploads n = some u → u.Keeps dest s.guest
  whole : ∀ n u, s.uploads n = some u → u.stage.passed = true → u.cut = false

variable {dest : GuestPath} {s t : UploadSystem}

theorem sound_idle (g : Guest) : (idle g).Sound dest where
  bound := fun n u held => by cases held
  keeps := fun n u held => by cases held
  whole := fun n u held => by cases held

theorem Sound.begin (sound : s.Sound dest) {request : UploadRequest} :
    Sound dest { s with
      uploads := Function.update s.uploads s.begun (some (.start request))
      begun := s.begun + 1 } where
  bound := by
    intro n u held
    rcases update_eq_some held with ⟨rfl, -⟩ | ⟨-, held⟩
    · exact Nat.lt_succ_self _
    · exact Nat.lt_succ_of_lt (sound.bound n u held)
  keeps := by
    intro n u held
    rcases update_eq_some held with ⟨-, rfl⟩ | ⟨-, held⟩
    · exact Upload.keeps_start request
    · exact sound.keeps n u held
  whole := by
    intro n u held passed
    rcases update_eq_some held with ⟨-, rfl⟩ | ⟨-, held⟩
    · cases passed
    · exact sound.whole n u held passed

/-- The upload acting keeps what it has, and the others are left alone. -/
theorem Sound.act (sound : s.Sound dest) {n : Nat} {e : UploadEvent} {u v : Upload} {g : Guest}
    (held : s.uploads n = some u) (happens : u.step dest s.guest e = some (g, v))
    (apart : s.Apart dest (.act n e)) :
    Sound dest { s with guest := g, uploads := Function.update s.uploads n (some v) } := by
  obtain ⟨checked, spared⟩ := apart u held
  refine ⟨?_, ?_, ?_⟩
  · intro m w found
    rcases update_eq_some found with ⟨rfl, -⟩ | ⟨-, found⟩
    · exact sound.bound m u held
    · exact sound.bound m w found
  · intro m w found
    rcases update_eq_some found with ⟨-, rfl⟩ | ⟨other, found⟩
    · exact (sound.keeps n u held).step happens
    · refine (sound.keeps m w found).frame fun path relied => ?_
      exact Upload.step_spares happens
        (spared m (sound.bound m w found) other w found path relied)
  · intro m w found passed
    rcases update_eq_some found with ⟨-, rfl⟩ | ⟨-, found⟩
    · obtain ⟨same, before | ⟨rfl, checkSize, stage, size⟩⟩ := Upload.step_passed happens passed
      · exact same.trans (sound.whole n u held before)
      · refine same.trans ?_
        simpa [Upload.passesCut, stage, size] using checked
    · exact sound.whole m w found passed

theorem Sound.step (sound : s.Sound dest) {e : UploadSystemEvent} (apart : s.Apart dest e)
    (happens : step dest s e = some t) : t.Sound dest := by
  cases e with
  | begin request =>
      cases happens
      exact sound.begin
  | act n e =>
      simp only [UploadSystem.step] at happens
      split at happens
      · next u held =>
          split at happens
          · next g v stepped =>
              cases happens
              exact sound.act held stepped apart
          · cases happens
      · cases happens

/-- A sound upload that is done delivered what it was to deliver. -/
theorem Sound.deliversOwn (sound : s.Sound dest) : s.DeliversOwn := by
  intro n u size held found stage
  have kept := (sound.keeps n u found).2
  unfold Upload.SoundOn Upload.Sound at kept
  rw [stage] at kept
  obtain ⟨-, bytes, rfl, delivers, -⟩ := kept
  have whole := sound.whole n u found (by rw [stage]; rfl)
  rw [delivers.2 whole]

/-- **Uploads that keep apart deliver their own bytes.** -/
theorem delivers_own (g : Guest) (run : Reaches (step dest) (Apart dest) (idle g) s) :
    s.DeliversOwn :=
  Sound.deliversOwn (run.keeps (sound_idle g) fun _ _ _ sound apart happens =>
    sound.step apart happens)

/-! Two uploads to one path. -/

def emptyGuest : Guest where
  files :=
    { entry := fun _ => none
      content := fun _ => []
      next := 0
      bound := fun _ _ held => by cases held
      distinct := fun _ _ _ held => by cases held }
  identity := none

def upload (bytes : Bytes) : UploadRequest := ⟨0, some bytes.length, none, [bytes], none⟩

/-- The answers up to a running `cat`. -/
def opens (n : Nat) : List UploadSystemEvent :=
  List.replicate 6 (.act n (.answer .ok))

/-- `cat` writes `k` bytes and ends. -/
def writes (n k : Nat) : List UploadSystemEvent :=
  [.act n (.catWrite k), .act n .catClosed]

/-- The answers from there to the end. -/
def finishes (n : Nat) : List UploadSystemEvent :=
  List.replicate 5 (.act n (.answer .ok))

def stages (s : UploadSystem) : Option UploadStage × Option UploadStage :=
  ((s.uploads 0).map (·.stage), (s.uploads 1).map (·.stage))

/-- The second upload looks at the part file while the first one writes it. -/
theorem delivers_own_in_turn :
    ∃ s, Reaches (step note) (Apart note) (idle emptyGuest) s ∧
      s.stages = (some (.done 2 (some [1, 2])), some (.done 2 (some [3, 4]))) ∧
      s.DeliversOwn := by
  have ends : (exec (guarded (step note) (Apart note)) (idle emptyGuest)
      ([.begin (upload [1, 2]), .begin (upload [3, 4])] ++ opens 0 ++
        [.act 1 (.answer .ok), .act 1 (.answer .ok)] ++ writes 0 2 ++ finishes 0 ++
        (opens 1).drop 2 ++ writes 1 2 ++ finishes 1)).map stages =
          some (some (.done 2 (some [1, 2])), some (.done 2 (some [3, 4]))) := by
    decide
  obtain ⟨s, done, reported⟩ := Option.map_eq_some_iff.mp ends
  have run := reaches_of_guarded done
  exact ⟨s, run, reported, delivers_own emptyGuest run⟩

/-- The first upload finds the part file of the second to be of the right size. -/
theorem overlapping_upload_delivers_other :
    ∃ s, Reaches (step note) Unrestricted (idle emptyGuest) s ∧ ¬s.DeliversOwn := by
  have ends : (exec (step note) (idle emptyGuest)
      ([.begin (upload [1, 2]), .begin (upload [3, 4])] ++ opens 0 ++ opens 1 ++ writes 0 2 ++
        writes 1 2 ++ finishes 0)).map (fun s => (s.uploads 0).map fun u => (u.stage, u.target)) =
          some (some (.done 2 (some [3, 4]), [1, 2])) := by
    decide
  obtain ⟨s, done, reported⟩ := Option.map_eq_some_iff.mp ends
  obtain ⟨u, found, reported⟩ := Option.map_eq_some_iff.mp reported
  obtain ⟨stage, target⟩ := Prod.mk.inj reported
  refine ⟨s, reaches_of_exec done, fun delivers => ?_⟩
  have own := delivers 0 u 2 (some [3, 4]) found stage
  rw [target] at own
  revert own
  decide

end UploadSystem

end Proxora
