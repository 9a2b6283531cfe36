import Proxora.Ecma.Text
import Proxora.Runs

/-!
# Recovery codes

The second step of a login, `POST` of `app/api/auth/login/route.ts`, with
`lib/recovery-codes.ts`.  A login reads the row of its user, decides on it, and
writes the hashes that are left; between the two any other login can do either.
`sha256` is a parameter.

`single_use` says when a code logs in at most once: a login that writes must find
the hashes that it has read.
-/

namespace Proxora

open Ecma Runs

/-! ## Codes -/

def codeLen : Nat := 8

/-- `/[^A-Z0-9]/`, the other way round. -/
def isCodeChar (c : Char) : Bool := c.isUpper || c.isDigit

def normalizeRecoveryCode (value : Text) : Text := (toUpperCase value).filter isCodeChar

def looksLikeRecoveryCode (value : Text) : Bool :=
  let normalized := normalizeRecoveryCode value
  normalized.length = codeLen && normalized ≠ [] && normalized.all isCodeChar

section Hashes

variable (sha256 : Text → Text)

def hashRecoveryCode (code : Text) : Text := sha256 (normalizeRecoveryCode code)

/-- The hashes without the first one that the code has. -/
def consumeRecoveryCode (hashes : List Text) (code : Text) : Option (List Text) :=
  match hashes.idxOf? (hashRecoveryCode sha256 code) with
  | some index => some (hashes.eraseIdx index)
  | none => none

end Hashes

/-! ## Logins -/

/-- The columns of a `User` row that the second step reads. -/
structure LoginUser where
  active : Bool
  totpEnabled : Bool
  totpSecret : Option Text
  totpRecoveryHashes : List Text
deriving DecidableEq, Repr

/-- What `decryptSecret` and `verifyTotp` make of the secret and the code. -/
inductive TotpCheck : Type
  | undecryptable | wrong | right
deriving DecidableEq, Repr

/-- A login is to read the row of its user, to write the hashes `next` having
read `read`, or is answered. -/
inductive LoginStage : Type
  | reading
  | writing (read next : List Text)
  | answered (authorised : Bool)
deriving DecidableEq, Repr

/-- What the login has read is what is stored, if it is to write. -/
def LoginStage.HasRead (stored : List Text) : LoginStage → Prop
  | .writing read _ => read = stored
  | .reading | .answered _ => True

instance (stored : List Text) : ∀ stage : LoginStage, Decidable (stage.HasRead stored)
  | .writing read _ => inferInstanceAs (Decidable (read = stored))
  | .reading | .answered _ => inferInstanceAs (Decidable True)

structure LoginRequest where
  userId : String
  totp : Text
  stage : LoginStage
deriving DecidableEq, Repr

/-- The users, the logins, and the recovery codes that have logged in: the user
and the hash of each. -/
structure LoginSystem where
  users : String → Option LoginUser
  requests : Nat → Option LoginRequest
  begun : Nat
  consumed : List (String × Text)

/-- `begin` is a request whose ticket is one of the user.  `written false` is an
update that fails. -/
inductive LoginEvent : Type
  | begin (userId : String) (totp : Text)
  | read (n : Nat) (check : TotpCheck)
  | written (n : Nat) (ok : Bool)
deriving DecidableEq, Repr

section Logins

variable (sha256 : Text → Text)

/-- What a login does once it has the row. -/
def LoginRequest.decide (r : LoginRequest) (user : Option LoginUser) (check : TotpCheck) :
    LoginStage :=
  match user with
  | none => .answered false
  | some user =>
      if !user.active || !user.totpEnabled || user.totpSecret.getD [] = [] then .answered false
      else
        match check with
        | .undecryptable => .answered false
        | .right => .answered true
        | .wrong =>
            if !looksLikeRecoveryCode r.totp then .answered false
            else
              match consumeRecoveryCode sha256 user.totpRecoveryHashes r.totp with
              | none => .answered false
              | some next => .writing user.totpRecoveryHashes next

namespace LoginSystem

def idle (users : String → Option LoginUser) : LoginSystem where
  users := users
  requests := fun _ => none
  begun := 0
  consumed := []

def put (s : LoginSystem) (n : Nat) (r : LoginRequest) : LoginSystem :=
  { s with requests := Function.update s.requests n (some r) }

/-- The login is authorised with the hashes `next` left to its user. -/
def consume (s : LoginSystem) (n : Nat) (r : LoginRequest) (user : LoginUser) (next : List Text) :
    LoginSystem :=
  { s with
    users := Function.update s.users r.userId (some { user with totpRecoveryHashes := next })
    requests := Function.update s.requests n (some { r with stage := .answered true })
    consumed := (r.userId, hashRecoveryCode sha256 r.totp) :: s.consumed }

def step (s : LoginSystem) : LoginEvent → Option LoginSystem
  | .begin userId totp =>
      some { s with
        requests := Function.update s.requests s.begun (some ⟨userId, totp, .reading⟩)
        begun := s.begun + 1 }
  | .read n check =>
      match s.requests n with
      | some r =>
          if r.stage = .reading then
            some (s.put n { r with stage := r.decide sha256 (s.users r.userId) check })
          else none
      | none => none
  | .written n ok =>
      match s.requests n with
      | some r =>
          match r.stage with
          | .writing _ next =>
              match s.users r.userId with
              | some user =>
                  if ok then some (s.consume sha256 n r user next)
                  else some (s.put n { r with stage := .answered false })
              | none => some (s.put n { r with stage := .answered false })
          | _ => none
      | none => none

/-- A code has logged in at most once, and its hash is gone for good. -/
structure SingleUse (s : LoginSystem) : Prop where
  once : s.consumed.Nodup
  gone : ∀ userId hash, (userId, hash) ∈ s.consumed → ∀ user, s.users userId = some user →
    hash ∉ user.totpRecoveryHashes

end LoginSystem

end Logins

namespace LoginSystem

/-- A login that writes finds the hashes that it has read. -/
def Unchanged (s : LoginSystem) : LoginEvent → Prop
  | .written n true => ∀ r ∈ s.requests n, ∀ user ∈ s.users r.userId,
      r.stage.HasRead user.totpRecoveryHashes
  | .begin _ _ | .read _ _ | .written _ false => True

instance (s : LoginSystem) : ∀ e, Decidable (s.Unchanged e)
  | .written n true =>
      inferInstanceAs (Decidable (∀ r ∈ s.requests n, ∀ user ∈ s.users r.userId,
        r.stage.HasRead user.totpRecoveryHashes))
  | .begin _ _ | .read _ _ | .written _ false => inferInstanceAs (Decidable True)

end LoginSystem

/-! ## What a code takes away -/

section Proofs

variable {sha256 : Text → Text} {hashes next : List Text} {code : Text}

/-- A code that is accepted takes one hash away, its own. -/
theorem consumeRecoveryCode_eq_some (taken : consumeRecoveryCode sha256 hashes code = some next) :
    hashRecoveryCode sha256 code ∈ hashes ∧ next = hashes.erase (hashRecoveryCode sha256 code) := by
  have erased := List.erase_eq_eraseIdx hashes (hashRecoveryCode sha256 code)
  unfold consumeRecoveryCode at taken
  cases found : hashes.idxOf? (hashRecoveryCode sha256 code) with
  | none =>
      rw [found] at taken
      cases taken
  | some index =>
      rw [found] at taken erased
      cases taken
      refine ⟨?_, erased.symm⟩
      by_contra absent
      rw [List.idxOf?_eq_none_iff.mpr absent] at found
      cases found

namespace LoginSystem

variable {s t : LoginSystem}

/-- The invariant.  A login that is to write takes one of the hashes that it has
read away. -/
structure Sound (sha256 : Text → Text) (s : LoginSystem) : Prop where
  once : s.consumed.Nodup
  gone : ∀ userId hash, (userId, hash) ∈ s.consumed → ∀ user, s.users userId = some user →
    hash ∉ user.totpRecoveryHashes
  distinct : ∀ userId user, s.users userId = some user → user.totpRecoveryHashes.Nodup
  writes : ∀ n r read next, s.requests n = some r → r.stage = .writing read next →
    hashRecoveryCode sha256 r.totp ∈ read ∧ next = read.erase (hashRecoveryCode sha256 r.totp)

theorem sound_idle {users : String → Option LoginUser}
    (sets : ∀ userId user, users userId = some user → user.totpRecoveryHashes.Nodup) :
    (idle users).Sound sha256 where
  once := List.nodup_nil
  gone := fun userId hash member => by cases member
  distinct := sets
  writes := fun n r read next held => by cases held

/-- A login that goes on without a write. -/
theorem Sound.put (sound : s.Sound sha256) {n : Nat} {r : LoginRequest}
    (writes : ∀ read next, r.stage = .writing read next →
      hashRecoveryCode sha256 r.totp ∈ read ∧ next = read.erase (hashRecoveryCode sha256 r.totp)) :
    (s.put n r).Sound sha256 where
  once := sound.once
  gone := sound.gone
  distinct := sound.distinct
  writes := by
    intro m other read next held
    rcases update_eq_some held with ⟨-, rfl⟩ | ⟨-, earlier⟩
    · exact writes read next
    · exact sound.writes m other read next earlier

/-- What a login that writes has read. -/
theorem writes_of_decide {r : LoginRequest} {user : Option LoginUser} {check : TotpCheck}
    {read next : List Text} (decided : r.decide sha256 user check = .writing read next) :
    consumeRecoveryCode sha256 read r.totp = some next := by
  unfold LoginRequest.decide at decided
  split at decided
  · cases decided
  · split at decided
    · cases decided
    · split at decided
      · cases decided
      · cases decided
      · split at decided
        · cases decided
        · split at decided
          · cases decided
          · next left taken =>
              cases decided
              exact taken

/-- A login takes its hash away and is the first that does. -/
theorem Sound.consume (sound : s.Sound sha256) {n : Nat} {r : LoginRequest} {user : LoginUser}
    {next : List Text} (held : s.requests n = some r) (found : s.users r.userId = some user)
    (writing : r.stage = .writing user.totpRecoveryHashes next) :
    (s.consume sha256 n r user next).Sound sha256 := by
  obtain ⟨member, rfl⟩ := sound.writes n r _ next held writing
  have distinct := sound.distinct r.userId user found
  refine ⟨?_, ?_, ?_, ?_⟩
  · refine List.nodup_cons.mpr ⟨?_, sound.once⟩
    intro before
    exact sound.gone r.userId _ before user found member
  · intro userId hash taken other stored
    rcases update_eq_some stored with ⟨rfl, rfl⟩ | ⟨different, stored⟩
    · dsimp only
      rw [distinct.mem_erase_iff]
      rintro ⟨another, still⟩
      rcases List.mem_cons.mp taken with same | before
      · exact another (congrArg Prod.snd same)
      · exact sound.gone _ hash before user found still
    · rcases List.mem_cons.mp taken with same | before
      · exact absurd (congrArg Prod.fst same) different
      · exact sound.gone userId hash before other stored
  · intro userId other stored
    rcases update_eq_some stored with ⟨-, rfl⟩ | ⟨-, stored⟩
    · exact distinct.erase _
    · exact sound.distinct userId other stored
  · intro m other read next waits writes
    rcases update_eq_some waits with ⟨-, rfl⟩ | ⟨-, earlier⟩
    · cases writes
    · exact sound.writes m other read next earlier writes

theorem Sound.step (sound : s.Sound sha256) {e : LoginEvent} (unchanged : s.Unchanged e)
    (happens : s.step sha256 e = some t) : t.Sound sha256 := by
  cases e with
  | begin userId totp =>
      cases happens
      have waits : (s.put s.begun ⟨userId, totp, .reading⟩).Sound sha256 :=
        sound.put fun _ _ writes => by cases writes
      exact ⟨waits.once, waits.gone, waits.distinct, waits.writes⟩
  | read n check =>
      simp only [LoginSystem.step] at happens
      split at happens
      · next r held =>
          split at happens
          · cases happens
            apply sound.put
            intro read next decided
            exact consumeRecoveryCode_eq_some (writes_of_decide decided)
          · cases happens
      · cases happens
  | written n ok =>
      simp only [LoginSystem.step] at happens
      split at happens
      · next r held =>
          split at happens
          · next read next writing =>
              split at happens
              · next user found =>
                  split at happens
                  · next done =>
                      cases happens
                      subst done
                      have same : read = user.totpRecoveryHashes := by
                        have kept := unchanged r held user found
                        rw [writing] at kept
                        exact kept
                      rw [same] at writing
                      exact sound.consume held found writing
                  · cases happens
                    exact sound.put fun _ _ writes => by cases writes
              · cases happens
                exact sound.put fun _ _ writes => by cases writes
          · cases happens
      · cases happens

/-- **A recovery code logs in at most once**, and its hash does not come back. -/
theorem single_use {users : String → Option LoginUser}
    (sets : ∀ userId user, users userId = some user → user.totpRecoveryHashes.Nodup)
    (run : Reaches (step sha256) Unchanged (idle users) s) : s.SingleUse := by
  have sound : s.Sound sha256 := run.keeps (sound_idle sets) fun _ _ _ sound unchanged happens =>
    sound.step unchanged happens
  exact ⟨sound.once, sound.gone⟩

/-! A user with two codes. -/

/-- `sha256` of the two codes. -/
def knownHash (value : Text) : Text :=
  if value = "ABCD2345" then "a00d76646eba91b057841554d5c8334f498dc592ed744bce404f21fe271cd36e"
  else if value = "EFGH6789" then
    "869c142d04198ab93a8cf189dc88a4545a25e4ef875d41d4a8d0b13e96cbf264"
  else []

def ada : LoginUser where
  active := true
  totpEnabled := true
  totpSecret := some "secret"
  totpRecoveryHashes := ["ABCD2345", "EFGH6789"].map knownHash

def adaOnly (userId : String) : Option LoginUser := if userId = "ada" then some ada else none

theorem nodup_adaOnly : ∀ userId user, adaOnly userId = some user →
    user.totpRecoveryHashes.Nodup := by
  intro userId user found
  unfold adaOnly at found
  split at found
  · cases found
    decide
  · cases found

/-- The hashes that are left, and how many codes have logged in. -/
def report (s : LoginSystem) : Option (List Text) × Nat :=
  ((s.users "ada").map (·.totpRecoveryHashes), s.consumed.length)

/-- Both codes, one after the other, and one of them again. -/
theorem single_use_in_turn :
    ∃ s, Reaches (step knownHash) Unchanged (idle adaOnly) s ∧ s.report = (some [], 2) ∧
      s.SingleUse := by
  have ends : (exec (guarded (step knownHash) Unchanged) (idle adaOnly)
      [.begin "ada" "abcd-2345", .read 0 .wrong, .written 0 true,
        .begin "ada" "EFGH-6789", .read 1 .wrong, .written 1 true,
        .begin "ada" "ABCD-2345", .read 2 .wrong]).map report = some (some [], 2) := by
    decide
  obtain ⟨s, done, reported⟩ := Option.map_eq_some_iff.mp ends
  have run := reaches_of_guarded done
  exact ⟨s, run, reported, single_use nodup_adaOnly run⟩

/-- Two logins with one code read before either writes; and the second of two
codes brings the hash of the first one back. -/
theorem code_logs_in_twice :
    (∃ s, Reaches (step knownHash) Unrestricted (idle adaOnly) s ∧ ¬s.consumed.Nodup) ∧
    ∃ s, Reaches (step knownHash) Unrestricted (idle adaOnly) s ∧
      ¬∀ userId hash, (userId, hash) ∈ s.consumed → ∀ user, s.users userId = some user →
        hash ∉ user.totpRecoveryHashes := by
  constructor
  · have ends : (exec (step knownHash) (idle adaOnly)
        [.begin "ada" "ABCD-2345", .begin "ada" "ABCD-2345", .read 0 .wrong, .read 1 .wrong,
          .written 0 true, .written 1 true]).map (·.consumed) =
        some [("ada", knownHash "ABCD2345"), ("ada", knownHash "ABCD2345")] := by
      decide
    obtain ⟨s, done, consumed⟩ := Option.map_eq_some_iff.mp ends
    refine ⟨s, reaches_of_exec done, ?_⟩
    rw [consumed]
    decide
  · have ends : (exec (step knownHash) (idle adaOnly)
        [.begin "ada" "ABCD-2345", .begin "ada" "EFGH-6789", .read 0 .wrong, .read 1 .wrong,
          .written 0 true, .written 1 true]).map (fun s => (s.consumed, s.users "ada")) =
        some ([("ada", knownHash "EFGH6789"), ("ada", knownHash "ABCD2345")],
          some { ada with totpRecoveryHashes := [knownHash "ABCD2345"] }) := by
      decide
    obtain ⟨s, done, left⟩ := Option.map_eq_some_iff.mp ends
    obtain ⟨consumed, stored⟩ := Prod.mk.inj left
    refine ⟨s, reaches_of_exec done, fun gone => ?_⟩
    have member : ("ada", knownHash "ABCD2345") ∈ s.consumed := by
      rw [consumed]
      exact List.mem_cons_of_mem _ List.mem_cons_self
    exact gone _ _ member _ stored List.mem_cons_self

end LoginSystem

end Proofs

end Proxora
