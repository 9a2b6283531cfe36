import Proxora.Runs

/-!
# Calls that load a document and save it again

Any number of calls share one row. A call loads the document of the row and later saves it with
its own change; nothing keeps another call from saving in between. `apply job` is the change of a
job, and `skips job` says which documents it leaves without saving.

`Serial` says that the row holds what the jobs of the log make of the first document, one after
the other. `Serial.step` keeps it over every step whose save is the same as if its document had
been loaded just now.
-/

namespace ReadModifyWrite

open Runs

variable {Row Doc Job : Type}

inductive Stage (Doc : Type) : Type
  | loading
  | saving (loaded : Doc)
  | finished

/-- The row, the calls by number, and the jobs done so far: each stands where it was saved, or
where it was found that there is nothing to save. -/
structure System (Row Doc Job : Type) where
  row : Row
  calls : Nat → Option (Job × Stage Doc)
  begun : Nat
  log : List Job

/-- `fail` is a load or a save that throws. -/
inductive Event (Job : Type) : Type
  | begin (job : Job)
  | load (call : Nat)
  | save (call : Nat)
  | fail (call : Nat)

/-- No call yet. -/
def idle (row : Row) : System Row Doc Job where
  row := row
  calls := fun _ => none
  begun := 0
  log := []

namespace System

def goto (s : System Row Doc Job) (call : Nat) (job : Job) (stage : Stage Doc) :
    System Row Doc Job :=
  { s with calls := Function.update s.calls call (some (job, stage)) }

variable (read : Row → Doc) (write : Doc → Row) (apply : Job → Doc → Doc)
  (skips : Job → Doc → Bool)

def step (s : System Row Doc Job) : Event Job → Option (System Row Doc Job)
  | .begin job => some { s.goto s.begun job .loading with begun := s.begun + 1 }
  | .load call =>
      match s.calls call with
      | some (job, .loading) =>
          if skips job (read s.row) then
            some { s.goto call job .finished with log := s.log ++ [job] }
          else some (s.goto call job (.saving (read s.row)))
      | _ => none
  | .save call =>
      match s.calls call with
      | some (job, .saving loaded) =>
          some { s.goto call job .finished with
            row := write (apply job loaded)
            log := s.log ++ [job] }
      | _ => none
  | .fail call =>
      match s.calls call with
      | some (job, .loading) | some (job, .saving _) => some (s.goto call job .finished)
      | _ => none

/-- The row holds what the logged jobs make of the first document. -/
def Serial (first : Doc) (s : System Row Doc Job) : Prop :=
  read s.row = s.log.foldl (fun doc job => apply job doc) first

/-- What is saved is what the job would make of the document that is stored now. -/
def Fresh (s : System Row Doc Job) : Event Job → Prop
  | .save call => ∀ job loaded, s.calls call = some (job, .saving loaded) →
      apply job loaded = apply job (read s.row)
  | _ => True

variable {read : Row → Doc} {write : Doc → Row} {apply : Job → Doc → Doc}
  {skips : Job → Doc → Bool} {first : Doc} {s t : System Row Doc Job} {e : Event Job}

theorem Serial.done (serial : s.Serial read apply first) (job : Job) :
    apply job (read s.row) = (s.log ++ [job]).foldl (fun doc job => apply job doc) first := by
  rw [List.foldl_append, ← serial]
  rfl

/-- **Step rule.** A fresh save extends the serial order. -/
theorem Serial.step (roundTrip : ∀ doc, read (write doc) = doc)
    (noChange : ∀ job doc, skips job doc = true → apply job doc = doc)
    (serial : s.Serial read apply first) (fresh : s.Fresh read apply e)
    (happens : step read write apply skips s e = some t) : t.Serial read apply first := by
  cases e with
  | begin job =>
      cases happens
      exact serial
  | load call =>
      simp only [System.step] at happens
      split at happens
      · rename_i job held
        split at happens
        · rename_i skipped
          cases happens
          exact (noChange job _ skipped).symm.trans (serial.done job)
        · cases happens
          exact serial
      · cases happens
  | save call =>
      simp only [System.step] at happens
      split at happens
      · rename_i job loaded held
        cases happens
        refine (roundTrip _).trans ?_
        rw [fresh job loaded held]
        exact serial.done job
      · cases happens
  | fail call =>
      simp only [System.step] at happens
      split at happens
      · cases happens
        exact serial
      · cases happens
        exact serial
      · cases happens

end System

end ReadModifyWrite
