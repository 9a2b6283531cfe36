import Proxora.Database
import Proxora.Histories
import Proxora.KeyedRows
import Proxora.UserUpdate

/-!
# Sessions

`createSession`, `destroySession`, `destroyUserSessions` and `getSessionFromToken` of
`server/auth/session-core.ts` over the `Session` and `User` tables. A statement is one event, so
that the statements of different requests come in any order. `getSessionFromToken` reads in one
statement and deletes the rows that it found expired or without an active user in a later one,
which may fail.

`mem_sessions_iff` says which rows a history leaves, `getSessionFromToken_iff` which tokens are
honoured after it.
-/

namespace Proxora

open Ecma Histories

/-! ## Rows -/

/-- A `User` row with its role and its access rows, as far as a session reads them. -/
structure SessionAccount extends SessionUserSource where
  status : UserStatus

/-- A `Session` row; times are in milliseconds. -/
structure StoredSession where
  id : String
  userId : String
  tokenHash : Text
  expiresAt : Int
deriving DecidableEq, Repr

/-- What `getSessionFromToken` deletes: the expired row, or every row of a user who is not
active. -/
inductive SessionCleanup : Type
  | expired (id : String)
  | inactive (userId : String)
deriving DecidableEq, Repr

def SessionCleanup.deletes : SessionCleanup → StoredSession → Bool
  | .expired id, row => row.id = id
  | .inactive userId, row => row.userId = userId

/-- The tables, and the deletions that calls of `getSessionFromToken` still have to make. -/
structure SessionStore where
  users : KeyedRows SessionAccount (·.id)
  sessions : KeyedRows StoredSession (·.tokenHash)
  ids : (sessions.rows.map (·.id)).Nodup
  owned : ∀ row ∈ sessions.rows, row.userId ∈ users.rows.map (·.id)
  pending : List SessionCleanup

namespace SessionStore

def empty : SessionStore where
  users := .empty
  sessions := .empty
  ids := List.nodup_nil
  owned := fun _ member => by cases member
  pending := []

/-- `prisma.session.deleteMany`. -/
def deleteSessions (s : SessionStore) (gone : StoredSession → Bool) : SessionStore where
  users := s.users
  sessions := s.sessions.restrict (!gone ·)
  ids := s.ids.sublist (List.filter_sublist.map _)
  owned := fun row member => s.owned row (List.mem_of_mem_filter member)
  pending := s.pending

/-- `prisma.session.create`, refused for a user who is not stored and for an id or a hash that
is. -/
def insertSession (s : SessionStore) (row : StoredSession) : Option SessionStore :=
  if allowed : row.userId ∈ s.users.rows.map (·.id) ∧ row.id ∉ s.sessions.rows.map (·.id) ∧
      row.tokenHash ∉ s.sessions.rows.map (·.tokenHash) then
    some
      { users := s.users
        sessions :=
          { rows := s.sessions.rows ++ [row]
            unique := by
              rw [List.map_append, List.map_singleton]
              exact s.sessions.unique.append (List.nodup_singleton _)
                (List.disjoint_singleton.mpr allowed.2.2) }
        ids := by
          rw [List.map_append, List.map_singleton]
          exact s.ids.append (List.nodup_singleton _) (List.disjoint_singleton.mpr allowed.2.1)
        owned := by
          intro other member
          rcases List.mem_append.mp member with kept | added
          · exact s.owned other kept
          · rw [List.mem_singleton.mp added]
            exact allowed.1
        pending := s.pending }
  else none

variable (sha256 : Text → Text) (lifetime : Int)

/-- The row of `createSession`; `lifetime` is what `sessionDays()` comes to in milliseconds. -/
def sessionRow (userId : String) (token : Text) (id : String) (now : Int) : StoredSession where
  id := id
  userId := userId
  tokenHash := sha256 token
  expiresAt := now + lifetime

def createSession (s : SessionStore) (userId : String) (token : Text) (id : String) (now : Int) :
    Option SessionStore :=
  s.insertSession (sessionRow sha256 lifetime userId token id now)

def destroySession (s : SessionStore) (token : Text) : SessionStore :=
  s.deleteSessions fun row => row.tokenHash = sha256 token

/-- `exceptId ? { userId, id: { not: exceptId } } : { userId }`. -/
def endsOf (userId : String) (exceptId : Option String) (row : StoredSession) : Bool :=
  match truthy exceptId with
  | some kept => row.userId = userId && row.id ≠ kept
  | none => row.userId = userId

def destroyUserSessions (s : SessionStore) (userId : String) (exceptId : Option String) :
    SessionStore :=
  s.deleteSessions (endsOf userId exceptId)

/-- `AuthSession`. -/
structure AuthSession where
  id : String
  user : SessionUser
  expiresAt : Int

/-- The reading part of `getSessionFromToken`: the session, and the deletion that is left to do. -/
def getSessionFromToken (s : SessionStore) (token : Option Text) (now : Int) :
    Option AuthSession × Option SessionCleanup :=
  if token.getD [] = [] then (none, none)
  else
    match s.sessions.find (sha256 (token.getD [])) with
    | none => (none, none)
    | some record =>
        if record.expiresAt < now then (none, some (.expired record.id))
        else
          match s.users.find record.userId with
          -- no row is left without its user
          | none => (none, none)
          | some user =>
              if user.status ≠ .active then (none, some (.inactive record.userId))
              else (some ⟨record.id, toSessionUser user.toSessionUserSource, record.expiresAt⟩, none)

/-- `prisma.user.delete`: the rows of the user go with him. -/
def deleteUser (s : SessionStore) (id : String) : SessionStore where
  users := s.users.restrict (·.id ≠ id)
  sessions := s.sessions.restrict (·.userId ≠ id)
  ids := s.ids.sublist (List.filter_sublist.map _)
  owned := by
    intro row member
    obtain ⟨kept, other⟩ := List.mem_filter.mp member
    obtain ⟨user, stored, same⟩ := List.mem_map.mp (s.owned row kept)
    refine List.mem_map.mpr ⟨user, List.mem_filter.mpr ⟨stored, ?_⟩, same⟩
    rw [same]
    exact other
  pending := s.pending

/-- `prisma.user.create`. -/
def createUser (s : SessionStore) (user : SessionAccount) : Option SessionStore :=
  if taken : user.id ∈ s.users.rows.map (·.id) then none
  else
    some
      { s with
        users :=
          { rows := s.users.rows ++ [user]
            unique := by
              rw [List.map_append, List.map_singleton]
              exact s.users.unique.append (List.nodup_singleton _)
                (List.disjoint_singleton.mpr taken) }
        owned := by
          intro row member
          rw [List.map_append]
          exact List.mem_append_left _ (s.owned row member) }

/-- A change of a user's row, of his role or of his access rows. -/
def updateUser (s : SessionStore) (user : SessionAccount) : SessionStore where
  users :=
    { rows := s.users.rows.map fun row => if row.id = user.id then user else row
      unique := by
        have keys : (s.users.rows.map fun row => if row.id = user.id then user else row).map
            (·.id) = s.users.rows.map (·.id) := by
          rw [List.map_map]
          refine List.map_congr_left fun row _ => ?_
          rw [Function.comp_apply]
          split
          · next same => exact same.symm
          · rfl
        rw [keys]
        exact s.users.unique }
  sessions := s.sessions
  ids := s.ids
  owned := by
    intro row member
    obtain ⟨account, stored, same⟩ := List.mem_map.mp (s.owned row member)
    refine List.mem_map.mpr ⟨_, List.mem_map_of_mem stored, ?_⟩
    split
    · next own => exact own.symm.trans same
    · exact same
  pending := s.pending

end SessionStore

/-! ## Histories -/

/-- A statement of some request. -/
inductive SessionEvent : Type
  | createSession (userId : String) (token : Text) (id : String) (now : Int)
  | destroySession (token : Text)
  | destroyUserSessions (userId : String) (exceptId : Option String)
  | getSessionFromToken (token : Option Text) (now : Int)
  /-- One of the pending deletions is made, or fails. -/
  | cleanUp (n : Nat) (fails : Bool)
  | createUser (user : SessionAccount)
  | updateUser (user : SessionAccount)
  | deleteUser (id : String)

namespace SessionStore

variable (sha256 : Text → Text) (lifetime : Int)

/-- One statement; what the database refuses changes nothing. -/
def step (s : SessionStore) : SessionEvent → SessionStore
  | .createSession userId token id now =>
      (s.createSession sha256 lifetime userId token id now).getD s
  | .destroySession token => s.destroySession sha256 token
  | .destroyUserSessions userId exceptId => s.destroyUserSessions userId exceptId
  | .getSessionFromToken token now =>
      { s with pending := s.pending ++ (s.getSessionFromToken sha256 token now).2.toList }
  | .cleanUp n fails =>
      match s.pending[n]? with
      | none => s
      | some cleanup =>
          { (if fails then s else s.deleteSessions cleanup.deletes) with
            pending := s.pending.eraseIdx n }
  | .createUser user => (s.createUser user).getD s
  | .updateUser user => s.updateUser user
  | .deleteUser id => s.deleteUser id

/-- The store after a history. -/
def after (history : List SessionEvent) : SessionStore :=
  history.foldl (step sha256 lifetime) empty

/-- The event stores the row. -/
def Creates (row : StoredSession) (past : List SessionEvent) : SessionEvent → Prop
  | .createSession userId token id now =>
      row = sessionRow sha256 lifetime userId token id now ∧
        ((after sha256 lifetime past).insertSession row).isSome
  | _ => False

/-- The event deletes the row if it is stored. -/
def Ends (row : StoredSession) (past : List SessionEvent) : SessionEvent → Prop
  | .destroySession token => row.tokenHash = sha256 token
  | .destroyUserSessions userId exceptId => endsOf userId exceptId row = true
  | .cleanUp n fails =>
      fails = false ∧ ∃ cleanup, (after sha256 lifetime past).pending[n]? = some cleanup ∧
        cleanup.deletes row = true
  | .deleteUser id => row.userId = id
  | _ => False

variable {sha256 : Text → Text} {lifetime : Int} {s t : SessionStore} {row : StoredSession}
  {history past later : List SessionEvent}

/-! ## What a history leaves -/

theorem mem_deleteSessions {gone : StoredSession → Bool} :
    row ∈ (s.deleteSessions gone).sessions.rows ↔ row ∈ s.sessions.rows ∧ ¬ gone row = true := by
  refine List.mem_filter.trans (and_congr_right fun _ => ?_)
  rw [Bool.not_eq_true', Bool.not_eq_true]

theorem insertSession_eq_some {added : StoredSession} (done : s.insertSession added = some t) :
    row ∈ t.sessions.rows ↔ row = added ∨ row ∈ s.sessions.rows := by
  unfold insertSession at done
  split at done
  · cases done
    rw [List.mem_append, List.mem_singleton]
    exact or_comm
  · cases done

/-- What one statement does to a row. -/
theorem mem_step (e : SessionEvent) :
    row ∈ (step sha256 lifetime (after sha256 lifetime past) e).sessions.rows ↔
      Creates sha256 lifetime row past e ∨
        row ∈ (after sha256 lifetime past).sessions.rows ∧ ¬ Ends sha256 lifetime row past e := by
  cases e with
  | createSession userId token id now =>
      simp only [step, createSession, Creates, Ends, not_false_eq_true, and_true]
      cases done : (after sha256 lifetime past).insertSession
          (sessionRow sha256 lifetime userId token id now) with
      | none =>
          refine (or_iff_right fun created => ?_).symm
          rw [created.1, done] at created
          cases created.2
      | some t =>
          rw [Option.getD_some, insertSession_eq_some done]
          refine or_congr_left ⟨fun same => ?_, fun created => created.1⟩
          rw [same, done]
          exact ⟨rfl, rfl⟩
  | destroySession token =>
      simp only [step, destroySession, mem_deleteSessions, Creates, Ends, decide_eq_true_iff,
        false_or]
  | destroyUserSessions userId exceptId =>
      simp only [step, destroyUserSessions, mem_deleteSessions, Creates, Ends, false_or]
  | getSessionFromToken token now =>
      simp only [step, Creates, Ends, false_or, not_false_eq_true, and_true]
  | cleanUp n fails =>
      simp only [step, Creates, Ends, false_or]
      cases (after sha256 lifetime past).pending[n]? with
      | none => simp
      | some cleanup =>
          cases fails with
          | true => simp
          | false => simp [mem_deleteSessions]
  | createUser user =>
      simp only [step, createUser, Creates, Ends, false_or, not_false_eq_true, and_true]
      split <;> exact Iff.rfl
  | updateUser user =>
      simp only [step, updateUser, Creates, Ends, false_or, not_false_eq_true, and_true]
  | deleteUser id =>
      simp only [step, deleteUser, KeyedRows.restrict, Creates, Ends, false_or, List.mem_filter,
        decide_eq_true_iff, ne_eq]

theorem after_snoc (e : SessionEvent) :
    after sha256 lifetime (past ++ [e]) = step sha256 lifetime (after sha256 lifetime past) e := by
  rw [after, List.foldl_append, List.foldl_cons, List.foldl_nil, ← after]

/-- A row is stored when it was created and nothing has deleted it since. -/
theorem mem_sessions_iff (history : List SessionEvent) :
    row ∈ (after sha256 lifetime history).sessions.rows ↔
      Since (Creates sha256 lifetime row) (Ends sha256 lifetime row) history := by
  refine iff_since (fun past => row ∈ (after sha256 lifetime past).sessions.rows) ?_ ?_ history
  · intro member
    cases member
  · intro past e
    rw [after_snoc]
    exact mem_step e

/-! ## Which tokens are honoured -/

/-- The token gives the session: its row is stored and not expired, and the user is active. -/
theorem getSessionFromToken_eq_some {token : Text} {now : Int} {session : AuthSession} :
    (s.getSessionFromToken sha256 (some token) now).1 = some session ↔
      token ≠ [] ∧ ∃ row ∈ s.sessions.rows, ∃ user ∈ s.users.rows,
        row.tokenHash = sha256 token ∧ user.id = row.userId ∧ now ≤ row.expiresAt ∧
          user.status = .active ∧
          session = ⟨row.id, toSessionUser user.toSessionUserSource, row.expiresAt⟩ := by
  rw [getSessionFromToken, Option.getD_some]
  split
  · next absent => simp [absent]
  · next present =>
      rw [and_iff_right present]
      cases found : s.sessions.find (sha256 token) with
      | none =>
          refine iff_of_false (fun none => by cases none) ?_
          rintro ⟨row, member, user, -, hash, -⟩
          exact KeyedRows.find_eq_none_iff.mp found
            (List.mem_map.mpr ⟨row, member, hash⟩)
      | some record =>
          have stored := KeyedRows.find_eq_some_iff.mp found
          have only : ∀ row ∈ s.sessions.rows, row.tokenHash = sha256 token → row = record := by
            intro row member hash
            exact List.inj_on_of_nodup_map s.sessions.unique member stored.1
              (hash.trans stored.2.symm)
          obtain ⟨user, member, owner⟩ := List.mem_map.mp (s.owned record stored.1)
          have own : s.users.find record.userId = some user :=
            KeyedRows.find_eq_some_iff.mpr ⟨member, owner⟩
          have single : ∀ other ∈ s.users.rows, other.id = record.userId → other = user := by
            intro other inUsers same
            exact List.inj_on_of_nodup_map s.users.unique inUsers member (same.trans owner.symm)
          dsimp only
          rw [own]
          dsimp only
          constructor
          · intro honoured
            split at honoured
            · cases honoured
            · next current =>
                split at honoured
                · cases honoured
                · next active =>
                    cases honoured
                    exact ⟨record, stored.1, user, member, stored.2, owner, not_lt.mp current,
                      not_not.mp active, rfl⟩
          · rintro ⟨row, inRows, other, inUsers, hash, same, current, active, rfl⟩
            cases only row inRows hash
            cases single other inUsers same
            rw [if_neg (not_lt.mpr current)]
            simp only [active, ne_eq, not_true, if_false]

/-- After any history a token is honoured exactly when a row made for its hash has been created and
not deleted since, the row has not expired, and its user is active; the permissions are those that
the user has now. -/
theorem getSessionFromToken_iff (sha256 : Text → Text) (lifetime : Int)
    (history : List SessionEvent) (token : Text) (now : Int) (session : AuthSession) :
    ((after sha256 lifetime history).getSessionFromToken sha256 (some token) now).1 =
        some session ↔
      token ≠ [] ∧ ∃ row, ∃ user ∈ (after sha256 lifetime history).users.rows,
        Since (Creates sha256 lifetime row) (Ends sha256 lifetime row) history ∧
          row.tokenHash = sha256 token ∧ user.id = row.userId ∧ now ≤ row.expiresAt ∧
          user.status = .active ∧
          session = ⟨row.id, toSessionUser user.toSessionUserSource, row.expiresAt⟩ := by
  rw [getSessionFromToken_eq_some]
  refine and_congr_right fun _ => exists_congr fun row => ?_
  rw [mem_sessions_iff]
  constructor
  · rintro ⟨since, user, member, rest⟩
    exact ⟨user, member, since, rest⟩
  · rintro ⟨user, member, since, rest⟩
    exact ⟨since, user, member, rest⟩

/-- A user with two sessions who ends the other one. -/
def twoSessions : List SessionEvent :=
  [.createUser { id := "u", rolePermissions := [], hostAccess := [], guestAccess := [],
                 status := .active },
    .createSession "u" "a" "s1" 0, .createSession "u" "b" "s2" 5]

end SessionStore

end Proxora
