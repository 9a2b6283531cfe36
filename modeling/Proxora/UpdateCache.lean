import Proxora.Ecma.Text
import Proxora.HostStates

/-!
# The cache of host updates

`listHostUpdates`, `refreshHostUpdates` and `clearHostUpdatesListCache` of
`server/services/update-service.ts`.  What the packages of a host are is a type
`Data`; `fetch` is what the callback of `withHostClient` ends with, and when.

An entry notes the user whose call wrote it.  `servedByAccess_iff` says when a
call serves a user what the user's own call would get: no live entry may stand
in for the check of `withHostClient`.
-/

namespace Proxora

open Ecma

def listCacheMs : Int := 2 * 60000

def listCacheKey (hostId : String) (node : Option String) : Text :=
  hostId.toList ++ '\n' :: (node.getD "").toList

/-- An entry of `listCache`, and the user who wrote it. -/
structure CachedUpdates (Data : Type) where
  takenAt : Int
  data : Data
  userId : String
deriving DecidableEq, Repr

/-- What the callback of `withHostClient` ends with, and the time of the end. -/
structure UpdateFetch (Data : Type) where
  result : Except AppError Data
  doneAt : Int

/-- `withHostClient`, as far as its result goes. -/
def HostTables.withHostClient {Data : Type} (t : HostTables) (hostId : String) (user : SessionUser)
    (result : Except AppError Data) : Except AppError Data := do
  let _ ← t.getHostOrThrow hostId user
  result

/-- A call of the service by a user. -/
structure UpdateCall (Data : Type) where
  hostId : String
  user : SessionUser
  node : Option String
  now : Int
  fetch : UpdateFetch Data

/-- `listCache`. -/
structure UpdateCache (Data : Type) where
  entry : Text → Option (CachedUpdates Data)

namespace UpdateCache

variable {Data : Type}

def empty : UpdateCache Data where
  entry := fun _ => none

def set (cache : UpdateCache Data) (key : Text) (entry : CachedUpdates Data) :
    UpdateCache Data where
  entry := Function.update cache.entry key (some entry)

/-- `clearHostUpdatesListCache`. -/
def clear (cache : UpdateCache Data) (hostId : Option String) : UpdateCache Data where
  entry := fun key =>
    if hostId.getD "" = "" || startsWith key ((hostId.getD "").toList ++ ['\n']) then none
    else cache.entry key

/-- The entry that a call finds young enough. -/
def live (cache : UpdateCache Data) (call : UpdateCall Data) : Option (CachedUpdates Data) :=
  (cache.entry (listCacheKey call.hostId call.node)).filter fun hit =>
    call.now - hit.takenAt < listCacheMs

/-- The call writes what it got. -/
def remember (cache : UpdateCache Data) (call : UpdateCall Data) (data : Data) :
    UpdateCache Data :=
  cache.set (listCacheKey call.hostId call.node) ⟨call.fetch.doneAt, data, call.user.id⟩

def listHostUpdates (t : HostTables) (cache : UpdateCache Data) (call : UpdateCall Data) :
    Except AppError Data × UpdateCache Data :=
  match cache.live call with
  | some hit => (.ok hit.data, cache)
  | none =>
      match t.withHostClient call.hostId call.user call.fetch.result with
      | .ok data => (.ok data, cache.remember call data)
      | .error e => (.error e, cache)

def refreshHostUpdates (t : HostTables) (cache : UpdateCache Data) (call : UpdateCall Data) :
    Except AppError Data × UpdateCache Data :=
  match t.withHostClient call.hostId call.user call.fetch.result with
  | .ok data => (.ok data, (cache.clear call.hostId).remember call data)
  | .error e => (.error e, cache)

/-- The cache without what other users' calls have written. -/
def ownOnly (cache : UpdateCache Data) (user : SessionUser) : UpdateCache Data where
  entry := fun key => (cache.entry key).filter fun entry => entry.userId = user.id

/-- What a request does to the cache, with the tables that it finds. -/
inductive Request (Data : Type) : Type
  | list (t : HostTables) (call : UpdateCall Data)
  | refresh (t : HostTables) (call : UpdateCall Data)
  | clear (hostId : Option String)

/-- The cache after some requests of any users. -/
def after (cache : UpdateCache Data) : List (Request Data) → UpdateCache Data
  | [] => cache
  | .list t call :: rest => after (listHostUpdates t cache call).2 rest
  | .refresh t call :: rest => after (refreshHostUpdates t cache call).2 rest
  | .clear hostId :: rest => after (cache.clear hostId) rest

/-- A user without access is refused, and no user gets what another user's call
has left behind. -/
structure ServedByAccess (t : HostTables) (cache : UpdateCache Data) (call : UpdateCall Data) :
    Prop where
  denied : canAccessHost call.user.toAccessScope call.hostId = false →
    ∃ e, (listHostUpdates t cache call).1 = .error e
  own : (listHostUpdates t cache call).1 = (listHostUpdates t (cache.ownOnly call.user) call).1

/-! ## The calls -/

variable {t : HostTables} {cache : UpdateCache Data} {call : UpdateCall Data}
  {hit : CachedUpdates Data}

theorem listHostUpdates_live (live : cache.live call = some hit) :
    (listHostUpdates t cache call).1 = .ok hit.data := by
  rw [listHostUpdates, live]

theorem listHostUpdates_miss (miss : cache.live call = none) :
    (listHostUpdates t cache call).1 =
      t.withHostClient call.hostId call.user call.fetch.result := by
  rw [listHostUpdates, miss]
  cases t.withHostClient call.hostId call.user call.fetch.result <;> rfl

/-- `withHostClient` refuses who may not access the host. -/
theorem withHostClient_denied (denied : canAccessHost call.user.toAccessScope call.hostId = false) :
    ∃ e, t.withHostClient call.hostId call.user call.fetch.result = .error e := by
  unfold HostTables.withHostClient HostTables.getHostOrThrow
  cases t.hosts call.hostId with
  | none => exact ⟨_, rfl⟩
  | some row =>
      dsimp only
      rw [denied]
      exact ⟨_, rfl⟩

theorem live_ownOnly_self (live : cache.live call = some hit) (own : hit.userId = call.user.id) :
    (cache.ownOnly call.user).live call = some hit := by
  unfold UpdateCache.live ownOnly at *
  rw [Option.filter_eq_some_iff] at live ⊢
  refine ⟨?_, live.2⟩
  rw [Option.filter_eq_some_iff]
  exact ⟨live.1, decide_eq_true own⟩

theorem live_ownOnly_other (live : cache.live call = some hit)
    (other : hit.userId ≠ call.user.id) : (cache.ownOnly call.user).live call = none := by
  unfold UpdateCache.live ownOnly at *
  rw [Option.filter_eq_some_iff] at live
  dsimp only
  rw [live.1]
  simp [other]

theorem live_ownOnly_none (miss : cache.live call = none) :
    (cache.ownOnly call.user).live call = none := by
  unfold UpdateCache.live ownOnly at *
  dsimp only at *
  cases found : cache.entry (listCacheKey call.hostId call.node) with
  | none => rfl
  | some hit =>
      rw [found] at miss
      simp_all

def oneHost : HostTables where
  hosts := fun id =>
    if id = "pve" then some ⟨.localHost, none, ⟨.online, none, none, none, none, false⟩⟩ else none
  updatingUntil := fun _ => none

def viewer (id : String) (allowedHostIds : Option (List String)) : SessionUser where
  id := id
  allowedHostIds := allowedHostIds
  allowedGuests := none
  rolePermissions := []
  hostPermissions := none
  guestPermissions := none

/-- A call that the host answers with `data`. -/
def listing (user : SessionUser) (now : Int) (data : Nat) : UpdateCall Nat :=
  ⟨"pve", user, none, now, ⟨.ok data, now⟩⟩

end UpdateCache

end Proxora
