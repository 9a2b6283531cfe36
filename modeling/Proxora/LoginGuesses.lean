import Proxora.KeyedRows
import Proxora.RateLimit
import Proxora.RecoveryCodes

/-!
# Guessing at logins

`POST` of `app/api/auth/login/route.ts` with its two limits, one for the address and
one for the name in the body, as a function on the desk: the buckets of the limiter,
the users, and a log of the users whose credential was checked.  What the code checks
a credential with is a parameter.

`guesses_bounded` says when the checks of one user are bounded: as long as the calls
with a ticket of the user have the user's name in the body.  `guesses_grow` counts
what happens otherwise.
-/

namespace Proxora

open Ecma

/-! ## Requests -/

/-- The fields of `loginSchema`. -/
structure LoginBody where
  username : Option Text
  password : Option Text
  ticket : Option Text
  totp : Option Text
deriving DecidableEq, Repr

/-- `z.string().min(n).optional()`. -/
def longEnough (n : Nat) (field : Option Text) : Bool :=
  field.all fun text => n ≤ utf16Length text

/-- `loginSchema.parse`. -/
def LoginBody.parse (body : LoginBody) : Option LoginBody :=
  if longEnough 1 body.username && longEnough 1 body.password && longEnough 1 body.ticket &&
      longEnough 6 body.totp then some body
  else none

/-- A request; its body is `none` where it is no object with texts. -/
structure LoginCall where
  now : Nat
  sameOrigin : Bool
  ip : Option Text
  body : Option LoginBody
deriving DecidableEq, Repr

inductive LoginAnswer : Type
  | csrf | rateLimited | invalidBody | unauthorized | invalidCredentials | invalidTotp
  | totpRequired (userId : String)
  | loggedIn (userId : String)
deriving DecidableEq, Repr

/-- The columns of a `User` row that a login reads. -/
structure LoginAccount extends LoginUser where
  id : String
  username : Text
  passwordHash : Text
deriving DecidableEq, Repr

/-- `verifyPassword`, `readTotpTicket`, `decryptSecret`, `verifyTotp` and the hash of the
recovery codes. -/
structure LoginChecks where
  verifyPassword : Text → Text → Bool
  readTotpTicket : Text → Nat → Option String
  decryptSecret : Text → Option Text
  verifyTotp : Text → Text → Nat → Bool
  sha256 : Text → Text

/-! ## The desk -/

/-- The buckets, the users, and the users whose credential was checked, the latest one
first. -/
structure LoginDesk where
  buckets : Buckets
  accounts : KeyedRows LoginAccount (·.id)
  checked : List String

def loginWindowMs : Nat := 15 * 60 * 1000

/-- The name of a bucket for an address. -/
def ipBucket (ip : Option Text) : Text := ("login:" : Text) ++ ip.getD "unknown"

/-- The name of a bucket for a name. -/
def userBucket (key : Text) : Text := ("login-user:" : Text) ++ key

/-- `body.username?.trim().toLowerCase()`. -/
def usernameKey (username : Text) : Text := toLowerCase (trim username)

namespace LoginDesk

/-- A credential of the user is checked.  A code is one credential, whether it is only tried
as a TOTP code or as a recovery code too. -/
def check (s : LoginDesk) (userId : String) : LoginDesk := { s with checked := userId :: s.checked }

/-- `prisma.user.update` of the recovery hashes. -/
def setHashes (s : LoginDesk) (userId : String) (hashes : List Text) : LoginDesk :=
  { s with
    accounts := s.accounts.update userId (fun row => { row with totpRecoveryHashes := hashes })
      fun _ => rfl }

variable (c : LoginChecks)

/-- The second phase, with the ticket of the first one. -/
def secondPhase (s : LoginDesk) (now : Nat) (ticket totp : Text) : LoginDesk × LoginAnswer :=
  match c.readTotpTicket ticket now with
  | none => (s, .unauthorized)
  | some userId =>
      match s.accounts.find userId with
      | none => (s, .invalidCredentials)
      | some user =>
          if !user.active || !user.totpEnabled || user.totpSecret.getD [] = [] then
            (s, .invalidCredentials)
          else
            match c.decryptSecret (user.totpSecret.getD []) with
            | none => (s, .invalidTotp)
            | some secret =>
                if c.verifyTotp secret totp now then (s.check userId, .loggedIn userId)
                else if !looksLikeRecoveryCode totp then (s.check userId, .invalidTotp)
                else
                  match consumeRecoveryCode c.sha256 user.totpRecoveryHashes totp with
                  | none => (s.check userId, .invalidTotp)
                  | some next => ((s.check userId).setHashes userId next, .loggedIn userId)

/-- The first phase. -/
def firstPhase (s : LoginDesk) (username password : Text) : LoginDesk × LoginAnswer :=
  match s.accounts.rows.find? fun row => row.username = username with
  | none => (s, .invalidCredentials)
  | some user =>
      let valid := c.verifyPassword password user.passwordHash
      if !valid || !user.active then (s.check user.id, .invalidCredentials)
      else if user.totpEnabled then (s.check user.id, .totpRequired user.id)
      else (s.check user.id, .loggedIn user.id)

/-- What follows the limits. -/
def authenticate (s : LoginDesk) (now : Nat) (body : LoginBody) : LoginDesk × LoginAnswer :=
  match body.ticket, body.totp with
  | some ticket, some totp => s.secondPhase c now ticket totp
  | _, _ =>
      match body.username, body.password with
      | some username, some password => s.firstPhase c username password
      | _, _ => (s, .invalidBody)

/-- The limit of the name that the body has, if it has one. -/
def limitUser (s : LoginDesk) (now : Nat) (username : Option Text) : Bool × LoginDesk :=
  match (username.map usernameKey).filter (· ≠ []) with
  | none => (true, s)
  | some key =>
      let limited := rateLimit s.buckets (userBucket key) 12 loginWindowMs now
      (limited.1, { s with buckets := limited.2 })

/-- The limit of the address. -/
def limitIp (s : LoginDesk) (now : Nat) (ip : Option Text) : Bool × LoginDesk :=
  let limited := rateLimit s.buckets (ipBucket ip) 8 loginWindowMs now
  (limited.1, { s with buckets := limited.2 })

/-- `POST`. -/
def post (s : LoginDesk) (call : LoginCall) : LoginDesk × LoginAnswer :=
  if !call.sameOrigin then (s, .csrf)
  else
    let ofIp := s.limitIp call.now call.ip
    if !ofIp.1 then (ofIp.2, .rateLimited)
    else
      match call.body.bind LoginBody.parse with
      | none => (ofIp.2, .invalidBody)
      | some body =>
          let ofUser := ofIp.2.limitUser call.now body.username
          if !ofUser.1 then (ofUser.2, .rateLimited)
          else ofUser.2.authenticate c call.now body

/-- The desk after the calls. -/
def postAll (s : LoginDesk) (calls : List LoginCall) : LoginDesk :=
  calls.foldl (fun s call => (s.post c call).1) s

end LoginDesk

/-- Where the call has a ticket of the user and a code, it has the user's name. -/
def LoginCall.NamesUser (c : LoginChecks) (user : LoginAccount) (call : LoginCall) : Prop :=
  ∀ body ∈ call.body, ∀ ticket ∈ body.ticket, body.totp ≠ none →
    c.readTotpTicket ticket call.now = some user.id →
      body.username.map usernameKey = some (usernameKey user.username)

/-! ## What a call does -/

namespace LoginDesk

variable {c : LoginChecks} {s t : LoginDesk} {now : Nat} {body : LoginBody} {user : LoginAccount}

/-- The user is known by this name only. -/
def KnownAs (s : LoginDesk) (userId : String) (name : Text) : Prop :=
  ∀ row ∈ s.accounts.rows, row.id = userId → row.username = name

theorem knownAs_of_mem (member : user ∈ s.accounts.rows) : s.KnownAs user.id user.username := by
  intro row inRows sameId
  have found := KeyedRows.find_of_mem member
  rw [← sameId, KeyedRows.find_of_mem inRows] at found
  exact congrArg LoginAccount.username (Option.some.inj found)

/-- Up to the buckets nothing changed, but for at most so many checks of the user, and the
user's name is what it was. -/
structure ChecksAtMost (s t : LoginDesk) (userId : String) (checks : Nat) : Prop where
  buckets : t.buckets = s.buckets
  log : t.checked.count userId ≤ s.checked.count userId + checks
  names : ∀ name, s.KnownAs userId name → t.KnownAs userId name

section Phases

variable {userId other : String} {checks : Nat}

theorem ChecksAtMost.refl : ChecksAtMost s s userId checks :=
  ⟨rfl, Nat.le_add_right _ checks, fun _ known => known⟩

theorem checksAtMost_check (counts : other = userId → 0 < checks) :
    ChecksAtMost s (s.check other) userId checks := by
  refine ⟨rfl, ?_, fun _ known => known⟩
  change (other :: s.checked).count userId ≤ _
  by_cases same : other = userId
  · have positive := counts same
    rw [same, List.count_cons_self]
    omega
  · rw [List.count_cons_of_ne same]
    exact Nat.le_add_right _ checks

theorem ChecksAtMost.setHashes {hashes : List Text} (before : ChecksAtMost s t userId checks) :
    ChecksAtMost s (t.setHashes other hashes) userId checks := by
  refine ⟨before.buckets, before.log, fun name known row member sameId => ?_⟩
  obtain ⟨old, inRows, rfl⟩ := List.mem_map.mp member
  have kept := before.names name known old inRows
  by_cases changed : old.id = other
  · rw [if_pos changed] at sameId ⊢
    exact kept sameId
  · rw [if_neg changed] at sameId ⊢
    exact kept sameId

theorem checksAtMost_secondPhase {ticket totp : Text}
    (counts : c.readTotpTicket ticket now = some userId → 0 < checks) :
    ChecksAtMost s (s.secondPhase c now ticket totp).1 userId checks := by
  unfold secondPhase
  cases read : c.readTotpTicket ticket now with
  | none => exact .refl
  | some holder =>
      have checked : ChecksAtMost s (s.check holder) userId checks :=
        checksAtMost_check fun same => counts (same ▸ read)
      dsimp only
      split
      · exact .refl
      · split
        · exact .refl
        · split
          · exact .refl
          · split
            · exact checked
            · split
              · exact checked
              · split
                · exact checked
                · exact checked.setHashes

theorem checksAtMost_firstPhase {username password : Text}
    (counts : ∀ row ∈ s.accounts.rows, row.username = username → row.id = userId → 0 < checks) :
    ChecksAtMost s (s.firstPhase c username password).1 userId checks := by
  unfold firstPhase
  cases found : s.accounts.rows.find? fun row => row.username = username with
  | none => exact .refl
  | some row =>
      have named : row.username = username := by simpa using List.find?_some found
      have checked : ChecksAtMost s (s.check row.id) userId checks :=
        checksAtMost_check (counts row (List.mem_of_find?_eq_some found) named)
      dsimp only
      split
      · exact checked
      · split
        · exact checked
        · exact checked

/-- What follows the limits checks the user at most once, and not at all where the call
is about somebody else. -/
theorem checksAtMost_authenticate
    (ticket : ∀ ticket ∈ body.ticket, body.totp ≠ none →
      c.readTotpTicket ticket now = some userId → 0 < checks)
    (name : ∀ username ∈ body.username, ∀ row ∈ s.accounts.rows, row.username = username →
      row.id = userId → 0 < checks) :
    ChecksAtMost s (s.authenticate c now body).1 userId checks := by
  unfold authenticate
  split
  · next ticketText totp hasTicket hasTotp =>
    refine checksAtMost_secondPhase (ticket ticketText hasTicket ?_)
    rw [hasTotp]
    exact Option.some_ne_none totp
  · split
    · next username password hasName hasPassword =>
      exact checksAtMost_firstPhase (name username hasName)
    · exact .refl

end Phases

/-! ## What a user has left -/

/-- The checks of the user so far, and the calls that its name has left. -/
def spent (s : LoginDesk) (user : LoginAccount) (start : Nat) : Nat :=
  s.checked.count user.id +
    callsLeft s.buckets (userBucket (usernameKey user.username)) 12 loginWindowMs start

theorem userBucket_ne_ipBucket (key : Text) (ip : Option Text) : userBucket key ≠ ipBucket ip := by
  have fifth : ('-' : Char) ≠ ':' := by decide
  intro same
  have heads : (userBucket key)[5]? = (ipBucket ip)[5]? := by rw [same]
  exact fifth (Option.some.inj heads)

theorem userBucket_injective : Function.Injective userBucket := fun _ _ same =>
  List.append_cancel_left same

variable {start : Nat} {call : LoginCall}

/-- A check takes at most one call away, which pays for it. -/
theorem ChecksAtMost.spent_le {checks : Nat} (checked : ChecksAtMost s t user.id checks) :
    t.spent user start ≤ s.spent user start + checks := by
  have log := checked.log
  unfold spent
  rw [checked.buckets]
  omega

theorem spent_limitIp {ip : Option Text} (inTime : now ≤ start + loginWindowMs) :
    (s.limitIp now ip).2.spent user start ≤ s.spent user start :=
  Nat.add_le_add_left (callsLeft_rateLimit_other (userBucket_ne_ipBucket _ ip) inTime) _

/-- The limit of the name pays for one check if it allows the call and the name is the
user's. -/
theorem spent_limitUser {username : Option Text} {paid : Nat} (begun : start ≤ now)
    (inTime : now ≤ start + loginWindowMs) (named : usernameKey user.username ≠ [])
    (users : 0 < paid → username.map usernameKey = some (usernameKey user.username))
    (allowed : paid ≤ (s.limitUser now username).1.toNat) :
    (s.limitUser now username).2.spent user start + paid ≤ s.spent user start := by
  have counted (pays : paid ≠ 0) : (username.map usernameKey).filter (· ≠ []) =
      some (usernameKey user.username) := by
    rw [users (Nat.pos_of_ne_zero pays)]
    exact Option.filter_some_pos (decide_eq_true named)
  unfold limitUser at allowed ⊢
  cases ofName : (username.map usernameKey).filter (· ≠ []) with
  | none =>
      have unpaid : paid = 0 := by
        by_contra pays
        rw [counted pays] at ofName
        cases ofName
      rw [unpaid]
      exact Nat.le_refl _
  | some key =>
      rw [ofName] at allowed
      dsimp only at allowed ⊢
      by_cases own : key = usernameKey user.username
      · subst own
        have positive : 0 < 12 := by decide
        have left := callsLeft_rateLimit s.buckets (userBucket (usernameKey user.username))
          positive begun inTime
        unfold spent
        dsimp only
        omega
      · have unpaid : paid = 0 := by
          by_contra pays
          rw [counted pays] at ofName
          exact own (Option.some.inj ofName).symm
        rw [unpaid]
        exact Nat.add_le_add_left
          (callsLeft_rateLimit_other (fun same => own (userBucket_injective same).symm) inTime) _

theorem knownAs_limitUser {username : Option Text} {userId : String} {name : Text} :
    (s.limitUser now username).2.KnownAs userId name ↔ s.KnownAs userId name := by
  unfold limitUser
  split <;> rfl

/-- **Step lemma.** A call that names the user where it has a ticket of the user checks no
more than it takes away. -/
theorem spent_post (known : s.KnownAs user.id user.username)
    (named : usernameKey user.username ≠ []) (begun : start ≤ call.now)
    (inTime : call.now ≤ start + loginWindowMs) (identified : call.NamesUser c user) :
    (s.post c call).1.spent user start ≤ s.spent user start ∧
      (s.post c call).1.KnownAs user.id user.username := by
  unfold post
  split
  · exact ⟨Nat.le_refl _, known⟩
  have afterIp : (s.limitIp call.now call.ip).2.spent user start ≤ s.spent user start :=
    spent_limitIp inTime
  have knownIp : (s.limitIp call.now call.ip).2.KnownAs user.id user.username := known
  dsimp only
  split
  · exact ⟨afterIp, knownIp⟩
  split
  · exact ⟨afterIp, knownIp⟩
  · next body parsed =>
    obtain ⟨sent, inCall, accepted⟩ := Option.bind_eq_some_iff.mp parsed
    have same : sent = body := by
      unfold LoginBody.parse at accepted
      split at accepted
      · exact Option.some.inj accepted
      · cases accepted
    subst same
    generalize (s.limitIp call.now call.ip).2 = u at afterIp knownIp ⊢
    have knownUser : (u.limitUser call.now sent.username).2.KnownAs user.id user.username :=
      knownAs_limitUser.mpr knownIp
    split
    · have unpaid : (u.limitUser call.now sent.username).2.spent user start + 0 ≤
          u.spent user start :=
        spent_limitUser begun inTime named (fun none => absurd none (Nat.lt_irrefl 0))
          (Nat.zero_le _)
      exact ⟨unpaid.trans afterIp, knownUser⟩
    · next allowed =>
      -- the call pays for a check exactly where its name is the user's
      have price : ∃ paid ≤ 1, (0 < paid ↔
          sent.username.map usernameKey = some (usernameKey user.username)) := by
        by_cases own : sent.username.map usernameKey = some (usernameKey user.username)
        · exact ⟨1, Nat.le_refl 1, iff_of_true Nat.one_pos own⟩
        · exact ⟨0, Nat.zero_le 1, iff_of_false (Nat.lt_irrefl 0) own⟩
      obtain ⟨paid, one, own⟩ := price
      rw [Bool.not_eq_true, Bool.not_eq_false'] at allowed
      have taken : (u.limitUser call.now sent.username).2.spent user start + paid ≤
          u.spent user start :=
        spent_limitUser begun inTime named own.mp (by rw [allowed]; exact one)
      have checked : ChecksAtMost (u.limitUser call.now sent.username).2
          ((u.limitUser call.now sent.username).2.authenticate c call.now sent).1 user.id paid := by
        refine checksAtMost_authenticate (fun ticket held code read => ?_)
          fun username held row member sameName sameId => ?_
        · exact own.mpr (identified sent inCall ticket held code read)
        · refine own.mpr ?_
          rw [held, ← sameName, knownUser row member sameId]
          rfl
      exact ⟨(checked.spent_le.trans taken).trans afterIp, checked.names _ knownUser⟩

/-- **Run lemma.** -/
theorem spent_postAll {calls : List LoginCall} (known : s.KnownAs user.id user.username)
    (named : usernameKey user.username ≠ [])
    (within : ∀ call ∈ calls, start ≤ call.now ∧ call.now ≤ start + loginWindowMs)
    (identified : ∀ call ∈ calls, call.NamesUser c user) :
    (s.postAll c calls).spent user start ≤ s.spent user start := by
  induction calls generalizing s with
  | nil => exact Nat.le_refl _
  | cons call rest ih =>
      have first := within call List.mem_cons_self
      obtain ⟨less, stillKnown⟩ :=
        spent_post known named first.1 first.2 (identified call List.mem_cons_self)
      have others := ih stillKnown
        (fun other member => within other (List.mem_cons_of_mem call member))
        fun other member => identified other (List.mem_cons_of_mem call member)
      exact others.trans less

/-- **When guessing is bounded.** Within one window length, however many addresses there
are, two limits of the user's name bound the checks. -/
theorem guesses_bounded {calls : List LoginCall} (known : user ∈ s.accounts.rows)
    (named : usernameKey user.username ≠ [])
    (within : ∀ call ∈ calls, start ≤ call.now ∧ call.now ≤ start + loginWindowMs)
    (identified : ∀ call ∈ calls, call.NamesUser c user) :
    (s.postAll c calls).checked.count user.id ≤ s.checked.count user.id + 2 * 12 := by
  have run := spent_postAll (knownAs_of_mem known) named within identified
  have most := callsLeft_le s.buckets (userBucket (usernameKey user.username)) 12 loginWindowMs
    start
  unfold spent at run
  omega

/-! ## Calls without the name -/

/-- A key without a bucket gets one. -/
theorem rateLimit_of_absent {buckets : Buckets} {key : Text} {limit windowMs : Nat}
    (absent : buckets.get? key = none) :
    rateLimit buckets key limit windowMs now =
      (true, (prune buckets now).set key ⟨1, now + windowMs⟩) := by
  have stillAbsent : (prune buckets now).get? key = none := by
    rcases get?_prune buckets key now with kept | dropped
    · rw [kept, absent]
    · exact dropped.1
  unfold rateLimit
  dsimp only
  rw [stillAbsent]

/-- The same body sent from an address. -/
def guessFrom (now : Nat) (body : LoginBody) (ip : Text) : LoginCall :=
  ⟨now, true, some ip, some body⟩

/-- A wrong code without a name, from an address that has not called before. -/
theorem post_guessFrom {userId : String} {ip : Text} (nameless : body.username = none)
    (valid : body.parse = some body) (wrong : ∀ u : LoginDesk, u.accounts = s.accounts →
      (u.authenticate c now body).1 = u.check userId)
    (new : s.buckets.get? (ipBucket (some ip)) = none) :
    (s.post c (guessFrom now body ip)).1 =
      { s with
        buckets := (prune s.buckets now).set (ipBucket (some ip)) ⟨1, now + loginWindowMs⟩
        checked := userId :: s.checked } := by
  unfold post guessFrom
  dsimp only
  rw [limitIp, rateLimit_of_absent new]
  dsimp only
  rw [Option.bind_some, valid]
  dsimp only
  rw [limitUser, nameless]
  exact wrong _ rfl

/-- **As many checks as addresses.** -/
theorem guesses_grow {userId : String} {ips : List Text} (nameless : body.username = none)
    (valid : body.parse = some body) (distinct : ips.Nodup)
    (wrong : ∀ u : LoginDesk, u.accounts = s.accounts →
      (u.authenticate c now body).1 = u.check userId)
    (new : ∀ ip ∈ ips, s.buckets.get? (ipBucket (some ip)) = none) :
    (s.postAll c (ips.map (guessFrom now body))).checked.count userId =
      s.checked.count userId + ips.length := by
  induction ips generalizing s with
  | nil => rfl
  | cons ip rest ih =>
      obtain ⟨apart, others⟩ := List.nodup_cons.mp distinct
      rw [List.map_cons, postAll, List.foldl_cons, ← postAll,
        post_guessFrom nameless valid wrong (new ip List.mem_cons_self)]
      refine (ih others ?_ ?_).trans ?_
      · exact wrong
      · intro other member
        have different : ipBucket (some other) ≠ ipBucket (some ip) := by
          intro same
          have sameIp : other = ip := List.append_cancel_left same
          exact apart (sameIp ▸ member)
        dsimp only
        rw [Record.get?_set, if_neg different]
        rcases get?_prune s.buckets (ipBucket (some other)) now with
          kept | dropped
        · rw [kept]
          exact new other (List.mem_cons_of_mem ip member)
        · exact dropped.1
      · dsimp only
        rw [List.count_cons_self, List.length_cons]
        omega

/-! ## One user, many addresses -/

/-- A user with a second factor. -/
def admin : LoginAccount where
  active := true
  totpEnabled := true
  totpSecret := some "secret"
  totpRecoveryHashes := []
  id := "user"
  username := "admin"
  passwordHash := "hash"

/-- The desk of a fresh process. -/
def adminDesk : LoginDesk where
  buckets := .empty
  accounts := ⟨[admin], List.nodup_singleton _⟩
  checked := []

/-- One ticket, which is the admin's, and no right code. -/
def guesser : LoginChecks where
  verifyPassword := fun _ _ => false
  readTotpTicket := fun ticket _ => if ticket = "ticket" then some "user" else none
  decryptSecret := some
  verifyTotp := fun _ _ _ => false
  sha256 := id

def guess (username : Option Text) : LoginBody := ⟨username, none, some "ticket", some "000000"⟩

theorem guess_wrong (u : LoginDesk) (accounts : u.accounts = adminDesk.accounts) :
    (u.authenticate guesser 0 (guess none)).1 = u.check "user" := by
  obtain ⟨buckets, rows, checked⟩ := u
  cases accounts
  rfl

def addresses : List Text := (List.range 25).map fun n => ("10.0.0." ++ toString n : String).toList

/-- Twenty-five addresses with the same ticket: twenty-five checks at one time. -/
theorem guesses_past_the_limit :
    2 * 12 < (adminDesk.postAll guesser (addresses.map (guessFrom 0 (guess none)))).checked.count
      "user" := by
  have distinct : addresses.Nodup := by decide +kernel
  rw [guesses_grow rfl rfl distinct guess_wrong fun ip _ => rfl]
  decide

theorem guesses_bounded_named :
    (adminDesk.postAll guesser
      [guessFrom 0 (guess (some "Admin ")) "10.0.0.1",
        guessFrom 1 (guess (some "admin")) "10.0.0.2"]).checked.count "user" ≤ 0 + 2 * 12 := by
  have known : admin ∈ adminDesk.accounts.rows := List.mem_cons_self
  have inTime : ∀ call ∈ [guessFrom 0 (guess (some "Admin ")) "10.0.0.1",
      guessFrom 1 (guess (some "admin")) "10.0.0.2"],
      0 ≤ call.now ∧ call.now ≤ 0 + loginWindowMs := by
    decide
  refine guesses_bounded known (by decide) inTime ?_
  unfold LoginCall.NamesUser
  decide

end LoginDesk

end Proxora
