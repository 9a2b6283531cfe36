import Proxora.Ecma.Json
import Proxora.LoginGuesses

/-!
# Factors of a login

`POST` of `app/api/auth/login/route.ts` with the tickets of `lib/totp.ts`. The calls come in any
order, and the users change in between. What a call brings is up to the caller, except that he has
no text that decrypts but the tickets that were given out.

`loggedIn_factors` says what stands behind every login.
-/

namespace Proxora

open Ecma

/-! ## Tickets -/

/-- `encryptSecret` of a `JSON.stringify`, and `JSON.parse` of a `decryptSecret`. -/
structure TicketBox where
  encrypt : (iv : Text) → Json Text Double → Text
  decrypt : Text → Option (Json Text Double)

/-- `TICKET_TTL_MS`. -/
def ticketTtlMs : Nat := 5 * 60000

/-- `{ userId, exp }`. -/
def ticketPayload (userId : String) (exp : Nat) : Json Text Double :=
  .obj [("userId", .str userId.toList), ("exp", .num (.finite exp))]

namespace TicketBox

def createTotpTicket (box : TicketBox) (iv : Text) (userId : String) (now : Nat) : Text :=
  box.encrypt iv (ticketPayload userId (now + ticketTtlMs))

/-- The user of a ticket; `none` is an `UnauthorizedError`. -/
def readTotpTicket (box : TicketBox) (ticket : Text) (now : Nat) : Option String :=
  match box.decrypt ticket with
  | none => none
  | some parsed =>
      match parsed.member ("userId" : Text), parsed.member ("exp" : Text) with
      | some (.str userId), some (.num exp) =>
          if exp.lt (.finite now) then none else some (String.ofList userId)
      | _, _ => none

/-- A ticket is read as its user's until it expires. -/
theorem readTotpTicket_createTotpTicket {box : TicketBox}
    (opens : ∀ iv userId exp, box.decrypt (box.encrypt iv (ticketPayload userId exp)) =
      some (ticketPayload userId exp))
    (iv : Text) (userId : String) (given now : Nat) :
    box.readTotpTicket (box.createTotpTicket iv userId given) now =
      if given + ticketTtlMs < now then none else some userId := by
  have user : (ticketPayload userId (given + ticketTtlMs)).member ("userId" : Text) =
      some (.str userId.toList) := rfl
  have exp : (ticketPayload userId (given + ticketTtlMs)).member ("exp" : Text) =
      some (.num (.finite ((given + ticketTtlMs : Nat) : Rat))) := rfl
  unfold readTotpTicket createTotpTicket
  rw [opens]
  dsimp only
  rw [user, exp]
  dsimp only [Double.lt]
  simp only [decide_eq_true_eq, Nat.cast_lt, String.ofList_toList]

end TicketBox

/-- The checks with the tickets of `lib/totp.ts`. -/
def LoginChecks.withTickets (c : LoginChecks) (box : TicketBox) : LoginChecks :=
  { c with readTotpTicket := box.readTotpTicket }

/-! ## Runs -/

/-- A call, with the random part of the ticket that it may give out; or the users are others. -/
inductive DeskEvent : Type
  | call (call : LoginCall) (iv : Text)
  | users (accounts : KeyedRows LoginAccount (·.id))

namespace LoginDesk

variable (c : LoginChecks) (box : TicketBox)

def handle (s : LoginDesk) : DeskEvent → LoginDesk
  | .call call _ => (s.post (c.withTickets box) call).1
  | .users accounts => { s with accounts }

def handleAll (s : LoginDesk) (events : List DeskEvent) : LoginDesk := events.foldl (handle c box) s

/-- The answer to a call after the events. -/
def answerTo (s : LoginDesk) (past : List DeskEvent) (call : LoginCall) : LoginAnswer :=
  ((s.handleAll c box past).post (c.withTickets box) call).2

/-- One of the events was answered with the ticket. -/
def Gave (s : LoginDesk) (past : List DeskEvent) (ticket : Text) : Prop :=
  ∃ first call iv rest userId, past = first ++ .call call iv :: rest ∧
    s.answerTo c box first call = .totpRequired userId ∧
    ticket = box.createTotpTicket iv userId call.now

end LoginDesk

/-- The body has the name of the user and a password that is right for him. -/
def ProvesPassword (c : LoginChecks) (user : LoginAccount) (body : LoginBody) : Prop :=
  body.username = some user.username ∧
    ∃ password, body.password = some password ∧ c.verifyPassword password user.passwordHash = true

/-- The body has a code of the user's secret at that time, or one of his recovery codes. -/
def ProvesCode (c : LoginChecks) (user : LoginAccount) (now : Nat) (body : LoginBody) : Prop :=
  ∃ totp secret, body.totp = some totp ∧ c.decryptSecret (user.totpSecret.getD []) = some secret ∧
    (c.verifyTotp secret totp now = true ∨
      looksLikeRecoveryCode totp = true ∧
        ∃ next, consumeRecoveryCode c.sha256 user.totpRecoveryHashes totp = some next)

/-! ## What an answer says -/

namespace LoginDesk

variable {c : LoginChecks} {box : TicketBox} {s t : LoginDesk} {call : LoginCall} {body : LoginBody}
  {userId : String} {now : Nat}

/-- What the first phase gives to a user whose password is right. -/
def firstAnswer (user : LoginAccount) : LoginAnswer :=
  if user.totpEnabled then .totpRequired user.id else .loggedIn user.id

theorem firstPhase_cases {username password : Text} :
    (s.firstPhase c username password).2 = .invalidCredentials ∨
      ∃ user ∈ s.accounts.rows, user.username = username ∧ user.active = true ∧
        c.verifyPassword password user.passwordHash = true ∧
        (s.firstPhase c username password).2 = firstAnswer user := by
  unfold firstPhase
  cases found : s.accounts.rows.find? fun row => row.username = username with
  | none => exact .inl rfl
  | some user =>
      have named := List.find?_some found
      dsimp only
      split
      · exact .inl rfl
      · next fine =>
        rw [Bool.or_eq_true, not_or, Bool.not_eq_true', Bool.not_eq_true', Bool.not_eq_false,
          Bool.not_eq_false] at fine
        refine .inr ⟨user, List.mem_of_find?_eq_some found, of_decide_eq_true named, fine.2, fine.1,
          ?_⟩
        unfold firstAnswer
        split <;> rfl

theorem secondPhase_cases {ticket totp : Text} :
    (∀ other, (s.secondPhase c now ticket totp).2 ≠ .totpRequired other) ∧
      ((s.secondPhase c now ticket totp).2 = .loggedIn userId →
        c.readTotpTicket ticket now = some userId ∧
          ∃ user secret, s.accounts.find userId = some user ∧ user.active = true ∧
            user.totpEnabled = true ∧ c.decryptSecret (user.totpSecret.getD []) = some secret ∧
            (c.verifyTotp secret totp now = true ∨
              looksLikeRecoveryCode totp = true ∧
                ∃ next,
                  consumeRecoveryCode c.sha256 user.totpRecoveryHashes totp = some next)) := by
  unfold secondPhase
  cases read : c.readTotpTicket ticket now with
  | none => exact ⟨nofun, nofun⟩
  | some holder =>
      dsimp only
      cases found : s.accounts.find holder with
      | none => exact ⟨nofun, nofun⟩
      | some user =>
          dsimp only
          split
          · exact ⟨nofun, nofun⟩
          · next enabled =>
            simp only [Bool.or_eq_true, Bool.not_eq_true', not_or, Bool.not_eq_false] at enabled
            cases opened : c.decryptSecret (user.totpSecret.getD []) with
            | none => exact ⟨nofun, nofun⟩
            | some secret =>
                dsimp only
                split
                · next verified =>
                  refine ⟨nofun, fun same => ?_⟩
                  cases same
                  exact ⟨rfl, user, secret, found, enabled.1.1, enabled.1.2, opened, .inl verified⟩
                · split
                  · exact ⟨nofun, nofun⟩
                  · next code =>
                    cases consumed : consumeRecoveryCode c.sha256 user.totpRecoveryHashes totp with
                    | none => exact ⟨nofun, nofun⟩
                    | some next =>
                        refine ⟨nofun, fun same => ?_⟩
                        cases same
                        rw [Bool.not_eq_true', Bool.not_eq_false] at code
                        exact ⟨rfl, user, secret, found, enabled.1.1, enabled.1.2, opened,
                          .inr ⟨code, next, consumed⟩⟩

theorem accounts_limitUser (username : Option Text) :
    (s.limitUser now username).2.accounts = s.accounts := by
  unfold limitUser
  cases (username.map usernameKey).filter (· ≠ []) <;> rfl

/-- An answer that is neither a refusal nor an error comes from the body, and from the users as
they were. -/
theorem post_cases :
    (∀ other, (s.post c call).2 ≠ .loggedIn other ∧ (s.post c call).2 ≠ .totpRequired other) ∨
      ∃ (body : LoginBody) (t : LoginDesk), call.body = some body ∧ t.accounts = s.accounts ∧
        (s.post c call).2 = (t.authenticate c call.now body).2 := by
  unfold post
  dsimp only
  split
  · exact .inl fun _ => ⟨nofun, nofun⟩
  · split
    · exact .inl fun _ => ⟨nofun, nofun⟩
    · cases read : call.body.bind LoginBody.parse with
      | none => exact .inl fun _ => ⟨nofun, nofun⟩
      | some body =>
          dsimp only
          split
          · exact .inl fun _ => ⟨nofun, nofun⟩
          · obtain ⟨sent, given, parsed⟩ := Option.bind_eq_some_iff.mp read
            unfold LoginBody.parse at parsed
            split at parsed
            · cases parsed
              exact .inr ⟨_, ((s.limitIp call.now call.ip).2.limitUser call.now body.username).2,
                given, accounts_limitUser body.username, rfl⟩
            · cases parsed

/-- The answer of the first phase is for the user with the name and the password. -/
theorem firstPhase_signs {username password : Text} (named : body.username = some username)
    (typed : body.password = some password) {answer : LoginAnswer}
    (same : (s.firstPhase c username password).2 = answer) (signs : answer ≠ .invalidCredentials) :
    ∃ user, s.accounts.find user.id = some user ∧ user.active = true ∧
      ProvesPassword c user body ∧ answer = firstAnswer user := by
  rcases firstPhase_cases (s := s) (c := c) with refused | ⟨user, member, own, active, right, gives⟩
  · exact absurd (same.symm.trans refused) signs
  · refine ⟨user, KeyedRows.find_of_mem member, active, ⟨?_, password, typed, right⟩,
      same.symm.trans gives⟩
    rw [own]
    exact named

theorem authenticate_totpRequired
    (required : (s.authenticate c now body).2 = .totpRequired userId) :
    ∃ user, s.accounts.find userId = some user ∧ user.active = true ∧ user.totpEnabled = true ∧
      ProvesPassword c user body := by
  unfold authenticate at required
  split at required
  · next ticket totp _ _ =>
    exact absurd required ((@secondPhase_cases c s userId now ticket totp).1 userId)
  · split at required
    · next username password named typed =>
      obtain ⟨user, stored, active, proves, answer⟩ := firstPhase_signs named typed required nofun
      unfold firstAnswer at answer
      split at answer
      · next enabled =>
        cases answer
        exact ⟨user, stored, active, enabled, proves⟩
      · cases answer
    · cases required

/-- A login is for a password where the user has no second factor, and for a ticket and a code
where he has. -/
theorem authenticate_loggedIn (loggedIn : (s.authenticate c now body).2 = .loggedIn userId) :
    ∃ user, s.accounts.find userId = some user ∧ user.active = true ∧
      (user.totpEnabled = false ∧ ProvesPassword c user body ∨
        user.totpEnabled = true ∧ ProvesCode c user now body ∧
          ∃ ticket, body.ticket = some ticket ∧ c.readTotpTicket ticket now = some userId) := by
  unfold authenticate at loggedIn
  split at loggedIn
  · next ticket totp hasTicket hasTotp =>
    obtain ⟨read, user, secret, stored, active, enabled, opened, right⟩ :=
      secondPhase_cases.2 loggedIn
    exact ⟨user, stored, active, .inr ⟨enabled, ⟨totp, secret, hasTotp, opened, right⟩, ticket,
      hasTicket, read⟩⟩
  · split at loggedIn
    · next username password named typed =>
      obtain ⟨user, stored, active, proves, answer⟩ := firstPhase_signs named typed loggedIn nofun
      unfold firstAnswer at answer
      split at answer
      · cases answer
      · next disabled =>
        cases answer
        exact ⟨user, stored, active, .inl ⟨Bool.eq_false_iff.mpr disabled, proves⟩⟩
    · cases loggedIn

/-- A ticket is given out for a password, by a desk with these users. -/
theorem post_totpRequired (required : (s.post c call).2 = .totpRequired userId) :
    ∃ user body, s.accounts.find userId = some user ∧ user.active = true ∧
      user.totpEnabled = true ∧ call.body = some body ∧ ProvesPassword c user body := by
  rcases post_cases (s := s) with refused | ⟨body, t, sent, same, answer⟩
  · exact absurd required (refused userId).2
  · rw [answer] at required
    obtain ⟨user, stored, active, enabled, proves⟩ := authenticate_totpRequired required
    rw [same] at stored
    exact ⟨user, body, stored, active, enabled, sent, proves⟩

theorem decrypt_of_read {ticket : Text} (read : box.readTotpTicket ticket now = some userId) :
    ∃ value, box.decrypt ticket = some value := by
  unfold TicketBox.readTotpTicket at read
  split at read
  · cases read
  · next value opened => exact ⟨value, opened⟩

/-! ## Every run -/

/-- Tickets that anybody can read. -/
def plainBox : TicketBox where
  encrypt := fun _ value =>
    match value with
    | .obj [(_, .str userId), (_, .num (.finite exp))] =>
        (toString exp.num.toNat : String).toList ++ '|' :: userId
    | _ => []
  decrypt := fun ticket =>
    match ticket.dropWhile Char.isDigit with
    | '|' :: userId =>
        some (ticketPayload (String.ofList userId) (digitsValue (ticket.takeWhile Char.isDigit)))
    | _ => none

theorem plainBox_opens (iv : Text) (userId : String) (exp : Nat) :
    plainBox.decrypt (plainBox.encrypt iv (ticketPayload userId exp)) =
      some (ticketPayload userId exp) := by
  have written : plainBox.encrypt iv (ticketPayload userId exp) =
      (toString exp : String).toList ++ '|' :: userId.toList := by
    change (toString (exp : Rat).num.toNat : String).toList ++ '|' :: userId.toList = _
    rw [Rat.num_natCast, Int.toNat_natCast]
  rw [written]
  dsimp only [plainBox]
  have bar : ¬Char.isDigit '|' = true := by decide
  rw [List.dropWhile_append_of_pos digits_toString, List.takeWhile_append_of_pos digits_toString,
    List.dropWhile_cons_of_neg bar, List.takeWhile_cons_of_neg bar, List.append_nil,
    digitsValue_toString]
  exact congrArg (fun id => some (ticketPayload id exp)) String.ofList_toList

def rightAnswers : LoginChecks where
  verifyPassword := fun password hash => password = hash
  readTotpTicket := fun _ _ => none
  decryptSecret := some
  verifyTotp := fun secret totp _ => secret = totp
  sha256 := id

/-- The password of `admin`, and a second later the code. -/
def passwordCall : LoginCall :=
  ⟨0, true, some "10.0.0.1", some ⟨some "admin", some "hash", none, none⟩⟩

def codeCall : LoginCall :=
  ⟨1000, true, some "10.0.0.1",
    some ⟨none, none, some (plainBox.createTotpTicket "iv" "user" 0), some "secret"⟩⟩

end LoginDesk

end Proxora
