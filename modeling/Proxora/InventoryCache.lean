import Proxora.Ecma.Text
import Proxora.Runs

/-!
# The inventory cache

`server/services/inventory-cache.ts`: a cache of inventories and the map of the
loads under way, both by host and base URL.  An event is a call, the end of a
fetch, its clean-up, the return of a waiting call or an invalidation.

The epoch of a key counts its invalidations.  A fetch and a call note the epoch
they begin in, so a call returns data from before an invalidation when its
fetch is of an earlier epoch.  `returnsFresh` says that this takes a fetch that
completes after its key was invalidated.
-/

namespace Proxora

open Ecma Runs

/-- `INVENTORY_TTL_MS`. -/
def inventoryTtlMs : Int := 60000

/-- An entry of `cache`, with the fetch that wrote it. -/
structure CachedInventory (Data : Type) where
  inventory : Data
  takenAt : Int
  fetch : Nat

/-- A `client.listInventory()` and the task around it. -/
structure InventoryFetch (Data : Type) where
  key : Text
  epoch : Nat
  result : Option (Except String Data)
  cleaned : Bool

/-- A `loadHostInventory`, with the fetch whose data it returns. -/
structure InventoryCall (Data : Type) where
  key : Text
  epoch : Nat
  fetch : Nat
  result : Option (Except String Data)

structure InventoryState (Data : Type) where
  cache : Text → Option (CachedInventory Data)
  inflight : Text → Option Nat
  fetches : Nat → Option (InventoryFetch Data)
  started : Nat
  calls : Nat → Option (InventoryCall Data)
  begun : Nat
  epoch : Text → Nat

inductive InventoryEvent (Data : Type) : Type
  | load (hostId baseUrl : Text) (maxAgeMs : Option Int) (now : Int)
  | complete (fetch : Nat) (result : Except String Data) (now : Int)
  | cleanUp (fetch : Nat)
  | deliver (call : Nat)
  | invalidate (hostId : Option Text)

def cacheKey (hostId baseUrl : Text) : Text := hostId ++ ":" ++ baseUrl

/-- The keys that an invalidation removes. -/
def invalidates (hostId : Option Text) (key : Text) : Bool :=
  match hostId with
  | none => true
  | some id => id = [] || startsWith key (id ++ ":")

namespace InventoryState

variable {Data : Type}

/-- Both maps empty. -/
def empty : InventoryState Data where
  cache := fun _ => none
  inflight := fun _ => none
  fetches := fun _ => none
  started := 0
  calls := fun _ => none
  begun := 0
  epoch := fun _ => 0

/-- A call begins; one that hits the cache has its result. -/
def begin (s : InventoryState Data) (key : Text) (fetch : Nat)
    (result : Option (Except String Data)) : InventoryState Data :=
  { s with
    calls := Function.update s.calls s.begun (some ⟨key, s.epoch key, fetch, result⟩)
    begun := s.begun + 1 }

/-- A new fetch, entered into `inflight`. -/
def launch (s : InventoryState Data) (key : Text) : InventoryState Data :=
  { s with
    fetches := Function.update s.fetches s.started (some ⟨key, s.epoch key, none, false⟩)
    inflight := Function.update s.inflight key (some s.started)
    started := s.started + 1 }

/-- The entry of the cache when it is young enough. -/
def hit (s : InventoryState Data) (key : Text) (maxAgeMs : Option Int) (now : Int) :
    Option (CachedInventory Data) :=
  (s.cache key).filter fun entry => now - entry.takenAt < maxAgeMs.getD inventoryTtlMs

/-- `loadHostInventory` up to its first `await`. -/
def load (s : InventoryState Data) (key : Text) (maxAgeMs : Option Int) (now : Int) :
    InventoryState Data :=
  match s.hit key maxAgeMs now with
  | some entry => s.begin key entry.fetch (some (.ok entry.inventory))
  | none =>
      match s.inflight key with
      | some pending => s.begin key pending none
      | none => (s.launch key).begin key s.started none

/-- The end of a fetch: a success is written to the cache. -/
def settle (s : InventoryState Data) (n : Nat) (f : InventoryFetch Data)
    (result : Except String Data) (now : Int) : InventoryState Data :=
  { s with
    fetches := Function.update s.fetches n (some { f with result := some result })
    cache :=
      match result with
      | .ok inventory => Function.update s.cache f.key (some ⟨inventory, now, n⟩)
      | .error _ => s.cache }

/-- The `finally` of the call that started the fetch. -/
def clear (s : InventoryState Data) (n : Nat) (f : InventoryFetch Data) : InventoryState Data :=
  { s with
    fetches := Function.update s.fetches n (some { f with cleaned := true })
    inflight := Function.update s.inflight f.key none }

/-- `invalidateInventoryCache`. -/
def invalidate (s : InventoryState Data) (hostId : Option Text) : InventoryState Data :=
  { s with
    cache := fun key => if invalidates hostId key then none else s.cache key
    inflight := fun key => if invalidates hostId key then none else s.inflight key
    epoch := fun key => if invalidates hostId key then s.epoch key + 1 else s.epoch key }

def step (s : InventoryState Data) : InventoryEvent Data → Option (InventoryState Data)
  | .load hostId baseUrl maxAgeMs now => some (s.load (cacheKey hostId baseUrl) maxAgeMs now)
  | .complete n result now =>
      match s.fetches n with
      | some f => if f.result.isNone then some (s.settle n f result now) else none
      | none => none
  | .cleanUp n =>
      match s.fetches n with
      | some f => if f.result.isSome && !f.cleaned then some (s.clear n f) else none
      | none => none
  | .deliver c =>
      match s.calls c with
      | some call =>
          match call.result, (s.fetches call.fetch).bind (·.result) with
          | none, some result =>
              some { s with
                calls := Function.update s.calls c (some { call with result := some result }) }
          | _, _ => none
      | none => none
  | .invalidate hostId => some (s.invalidate hostId)

/-! ## Freshness -/

/-- What a call returned is the result of a fetch of its key that began in the
epoch of the call or later. -/
def ReturnsFresh (s : InventoryState Data) : Prop :=
  ∀ c call, s.calls c = some call → ∀ inventory, call.result = some (.ok inventory) →
    ∃ f, s.fetches call.fetch = some f ∧ f.result = some (.ok inventory) ∧ f.key = call.key ∧
      call.epoch ≤ f.epoch

/-- A fetch that succeeds is of the current epoch of its key. -/
def CompletesInEpoch (s : InventoryState Data) : InventoryEvent Data → Prop
  | .complete n (.ok _) _ => ∀ f ∈ s.fetches n, f.epoch = s.epoch f.key
  | _ => True

instance : ∀ (s : InventoryState Data) e, Decidable (s.CompletesInEpoch e)
  | s, .complete n (.ok _) _ =>
      inferInstanceAs (Decidable (∀ f ∈ s.fetches n, f.epoch = s.epoch f.key))
  | _, .complete _ (.error _) _ | _, .load _ _ _ _ | _, .cleanUp _ | _, .deliver _
  | _, .invalidate _ => inferInstanceAs (Decidable True)

/-- The fetch is one of the key, and of its epoch or later. -/
def Since (s : InventoryState Data) (n : Nat) (key : Text) (epoch : Nat) : Prop :=
  ∃ f, s.fetches n = some f ∧ f.key = key ∧ epoch ≤ f.epoch

/-- The fetch succeeded with this inventory. -/
def Gave (s : InventoryState Data) (n : Nat) (inventory : Data) : Prop :=
  ∃ f, s.fetches n = some f ∧ f.result = some (.ok inventory)

/-- The invariant. -/
structure Sound (s : InventoryState Data) : Prop where
  bound : ∀ n, s.started ≤ n → s.fetches n = none
  cache : ∀ key entry, s.cache key = some entry →
    s.Since entry.fetch key (s.epoch key) ∧ s.Gave entry.fetch entry.inventory
  inflight : ∀ key n, s.inflight key = some n → s.Since n key (s.epoch key)
  calls : ∀ c call, s.calls c = some call → s.Since call.fetch call.key call.epoch ∧
    ∀ inventory, call.result = some (.ok inventory) → s.Gave call.fetch inventory

variable {s t : InventoryState Data}

theorem sound_empty : (empty : InventoryState Data).Sound where
  bound := fun _ _ => rfl
  cache := by
    intro key entry held
    cases held
  inflight := by
    intro key n held
    cases held
  calls := by
    intro c call held
    cases held

theorem Sound.givesFresh (sound : s.Sound) : s.ReturnsFresh := by
  intro c call held inventory returned
  obtain ⟨⟨f, found, key, epoch⟩, gave⟩ := sound.calls c call held
  obtain ⟨g, again, result⟩ := gave inventory returned
  rw [found, Option.some.injEq] at again
  subst again
  exact ⟨f, found, result, key, epoch⟩

/-- The fetches of `t` are those of `s`, with results added. -/
structure Extends (s t : InventoryState Data) : Prop where
  since : ∀ n key epoch, s.Since n key epoch → t.Since n key epoch
  gave : ∀ n inventory, s.Gave n inventory → t.Gave n inventory

/-- A fetch changed in what no call reads, or given its result. -/
theorem extends_of_update {n : Nat} {f g : InventoryFetch Data} (found : s.fetches n = some f)
    (same : t.fetches = Function.update s.fetches n (some g)) (key : g.key = f.key)
    (epoch : g.epoch = f.epoch) (result : ∀ inventory, f.result = some (.ok inventory) →
      g.result = some (.ok inventory)) : s.Extends t where
  since := by
    intro m k e ⟨h, held, named, late⟩
    by_cases itself : m = n
    · subst itself
      rw [found, Option.some.injEq] at held
      subst held
      exact ⟨g, by rw [same, Function.update_self], key.trans named, epoch ▸ late⟩
    · exact ⟨h, by rw [same, Function.update_of_ne itself, held], named, late⟩
  gave := by
    intro m inventory ⟨h, held, gave⟩
    by_cases itself : m = n
    · subst itself
      rw [found, Option.some.injEq] at held
      subst held
      exact ⟨g, by rw [same, Function.update_self], result inventory gave⟩
    · exact ⟨h, by rw [same, Function.update_of_ne itself, held], gave⟩

/-- The calls stay as they are when fetches are only added to. -/
theorem Sound.calls_of_extends (sound : s.Sound) (more : s.Extends t) (same : t.calls = s.calls) :
    ∀ c call, t.calls c = some call → t.Since call.fetch call.key call.epoch ∧
      ∀ inventory, call.result = some (.ok inventory) → t.Gave call.fetch inventory := by
  intro c call held
  rw [same] at held
  obtain ⟨since, gave⟩ := sound.calls c call held
  exact ⟨more.since _ _ _ since, fun inventory returned => more.gave _ _ (gave inventory returned)⟩

/-- A call begins on a fetch of the epoch. -/
theorem Sound.begin (sound : s.Sound) {key : Text} {n : Nat} {result : Option (Except String Data)}
    (since : s.Since n key (s.epoch key))
    (gave : ∀ inventory, result = some (.ok inventory) → s.Gave n inventory) :
    (s.begin key n result).Sound where
  bound := sound.bound
  cache := sound.cache
  inflight := sound.inflight
  calls := by
    intro c call held
    rcases update_eq_some held with ⟨rfl, rfl⟩ | ⟨_, old⟩
    · exact ⟨since, gave⟩
    · exact sound.calls c call old

theorem Sound.launch (sound : s.Sound) (key : Text) : (s.launch key).Sound := by
  have more : s.Extends (s.launch key) := by
    have other : ∀ n f, s.fetches n = some f → n ≠ s.started := by
      intro n f held itself
      rw [itself, sound.bound _ le_rfl] at held
      cases held
    constructor
    · intro n k epoch ⟨f, held, rest⟩
      exact ⟨f, (Function.update_of_ne (other n f held) _ _).trans held, rest⟩
    · intro n inventory ⟨f, held, rest⟩
      exact ⟨f, (Function.update_of_ne (other n f held) _ _).trans held, rest⟩
  exact
    { bound := by
        intro n above
        have other : n ≠ s.started := (Nat.lt_of_succ_le above).ne'
        exact (Function.update_of_ne other _ _).trans (sound.bound n (Nat.le_of_succ_le above))
      cache := by
        intro k entry held
        obtain ⟨since, gave⟩ := sound.cache k entry held
        exact ⟨more.since _ _ _ since, more.gave _ _ gave⟩
      inflight := by
        intro k n held
        rcases update_eq_some held with ⟨rfl, rfl⟩ | ⟨_, old⟩
        · exact ⟨_, Function.update_self _ _ _, rfl, le_rfl⟩
        · exact more.since _ _ _ (sound.inflight k n old)
      calls := sound.calls_of_extends more rfl }

theorem Sound.load (sound : s.Sound) (key : Text) (maxAgeMs : Option Int) (now : Int) :
    (s.load key maxAgeMs now).Sound := by
  unfold InventoryState.load
  split
  · next entry young =>
      have held : s.cache key = some entry := (Option.filter_eq_some_iff.mp young).1
      obtain ⟨since, gave⟩ := sound.cache key entry held
      refine sound.begin since fun inventory same => ?_
      cases same
      exact gave
  · split
    · next pending held =>
        refine sound.begin (sound.inflight key pending held) fun inventory same => ?_
        cases same
    · refine (sound.launch key).begin ⟨_, Function.update_self _ _ _, rfl, le_rfl⟩ ?_
      intro inventory same
      cases same

/-- A fetch ends; a successful one in its epoch. -/
theorem Sound.settle (sound : s.Sound) {n : Nat} {f : InventoryFetch Data}
    (found : s.fetches n = some f) (running : f.result = none) {result : Except String Data}
    (current : ∀ inventory, result = .ok inventory → f.epoch = s.epoch f.key) (now : Int) :
    (s.settle n f result now).Sound := by
  have more : s.Extends (s.settle n f result now) := by
    refine extends_of_update found rfl rfl rfl fun inventory gave => ?_
    rw [running] at gave
    cases gave
  have old : ∀ k entry, s.cache k = some entry →
      (s.settle n f result now).Since entry.fetch k (s.epoch k) ∧
        (s.settle n f result now).Gave entry.fetch entry.inventory := by
    intro k entry held
    obtain ⟨since, gave⟩ := sound.cache k entry held
    exact ⟨more.since _ _ _ since, more.gave _ _ gave⟩
  exact
    { bound := by
        intro m above
        have other : m ≠ n := by
          intro itself
          rw [itself] at above
          rw [sound.bound n above] at found
          cases found
        exact (Function.update_of_ne other _ _).trans (sound.bound m above)
      cache := by
        intro k entry held
        cases result with
        | error message => exact old k entry held
        | ok inventory =>
            rcases update_eq_some held with ⟨rfl, rfl⟩ | ⟨_, was⟩
            · exact ⟨⟨_, Function.update_self _ _ _, rfl, (current inventory rfl).ge⟩,
                ⟨_, Function.update_self _ _ _, rfl⟩⟩
            · exact old k entry was
      inflight := fun k m held => more.since _ _ _ (sound.inflight k m held)
      calls := sound.calls_of_extends more rfl }

theorem Sound.clear (sound : s.Sound) {n : Nat} {f : InventoryFetch Data}
    (found : s.fetches n = some f) : (s.clear n f).Sound := by
  have more : s.Extends (s.clear n f) :=
    extends_of_update found rfl rfl rfl fun inventory gave => gave
  exact
    { bound := by
        intro m above
        have other : m ≠ n := by
          intro itself
          rw [itself] at above
          rw [sound.bound n above] at found
          cases found
        exact (Function.update_of_ne other _ _).trans (sound.bound m above)
      cache := by
        intro k entry held
        obtain ⟨since, gave⟩ := sound.cache k entry held
        exact ⟨more.since _ _ _ since, more.gave _ _ gave⟩
      inflight := by
        intro k m held
        exact more.since _ _ _ (sound.inflight k m (update_none_eq_some held).2)
      calls := sound.calls_of_extends more rfl }

/-- An invalidation leaves only entries of keys whose epoch goes on. -/
theorem Sound.invalidate (sound : s.Sound) (hostId : Option Text) :
    (s.invalidate hostId).Sound where
  bound := sound.bound
  cache := by
    intro key entry held
    by_cases gone : invalidates hostId key = true
    · rw [show (s.invalidate hostId).cache key = none from if_pos gone] at held
      cases held
    · rw [show (s.invalidate hostId).cache key = s.cache key from if_neg gone] at held
      rw [show (s.invalidate hostId).epoch key = s.epoch key from if_neg gone]
      exact sound.cache key entry held
  inflight := by
    intro key n held
    by_cases gone : invalidates hostId key = true
    · rw [show (s.invalidate hostId).inflight key = none from if_pos gone] at held
      cases held
    · rw [show (s.invalidate hostId).inflight key = s.inflight key from if_neg gone] at held
      rw [show (s.invalidate hostId).epoch key = s.epoch key from if_neg gone]
      exact sound.inflight key n held
  calls := sound.calls

/-- **Step.** Every event keeps the invariant, unless a fetch of an earlier epoch succeeds. -/
theorem Sound.step (sound : s.Sound) {e : InventoryEvent Data} (meets : s.CompletesInEpoch e)
    (happens : s.step e = some t) : t.Sound := by
  cases e with
  | load hostId baseUrl maxAgeMs now =>
      cases happens
      exact sound.load _ maxAgeMs now
  | complete n result now =>
      simp only [InventoryState.step] at happens
      split at happens
      · next f found =>
          split at happens
          · next running =>
              cases happens
              refine sound.settle found (Option.isNone_iff_eq_none.mp running) ?_ now
              intro inventory same
              subst same
              exact meets f found
          · cases happens
      · cases happens
  | cleanUp n =>
      simp only [InventoryState.step] at happens
      split at happens
      · next f found =>
          split at happens
          · cases happens
            exact sound.clear found
          · cases happens
      · cases happens
  | deliver c =>
      simp only [InventoryState.step] at happens
      split at happens
      · next call held =>
          split at happens
          · next result waits settled =>
              cases happens
              obtain ⟨f, found, given⟩ := Option.bind_eq_some_iff.mp settled
              exact
                { sound with
                  calls := by
                    intro d other there
                    rcases update_eq_some there with ⟨rfl, rfl⟩ | ⟨_, old⟩
                    · refine ⟨(sound.calls d call held).1, fun inventory returned => ?_⟩
                      rw [Option.some.injEq] at returned
                      exact ⟨f, found, returned ▸ given⟩
                    · exact sound.calls d other old }
          · cases happens
      · cases happens
  | invalidate hostId =>
      cases happens
      exact sound.invalidate hostId

/-- **Freshness.** In a run in which no fetch succeeds after its key was
invalidated, no call returns data from before an invalidation it began after. -/
theorem returnsFresh {s : InventoryState Data}
    (run : Reaches InventoryState.step CompletesInEpoch empty s) : s.ReturnsFresh := by
  have sound := run.keeps sound_empty fun t e u sound meets happens => sound.step meets happens
  exact sound.givesFresh

theorem returnsFresh_reloaded :
    ∃ s : InventoryState Nat, Reaches InventoryState.step CompletesInEpoch empty s ∧
      (s.calls 1).bind (·.result) = some (.ok 2) ∧ s.ReturnsFresh := by
  have ends : (exec (guarded InventoryState.step CompletesInEpoch) (empty : InventoryState Nat)
      [.load "h1" "https://pve:8006" none 0, .complete 0 (.ok 1) 5, .cleanUp 0,
        .invalidate (some "h1"), .load "h1" "https://pve:8006" none 10, .complete 1 (.ok 2) 15,
        .deliver 1]).map (fun s => ((s.calls 1).bind (·.result)).bind Except.toOption) =
          some (some 2) := by
    decide
  obtain ⟨s, done, returned⟩ := Option.map_eq_some_iff.mp ends
  have run := reaches_of_guarded done
  obtain ⟨result, given, same⟩ := Option.bind_eq_some_iff.mp returned
  cases result with
  | error message => cases same
  | ok inventory =>
      cases same
      exact ⟨s, run, given, returnsFresh run⟩

/-- An invalidation while the fetch runs: the fetch fills the cache again, and
the next call returns its data. -/
theorem stale_fetch_fills_cache :
    ∃ s : InventoryState Nat, Reaches InventoryState.step Unrestricted empty s ∧
      ¬ s.ReturnsFresh := by
  have done : exec InventoryState.step (empty : InventoryState Nat)
      [.load "h1" "https://pve:8006" none 0, .invalidate (some "h1"), .complete 0 (.ok 1) 5,
        .load "h1" "https://pve:8006" none 10] = some _ := rfl
  refine ⟨_, reaches_of_exec done, fun fresh => ?_⟩
  obtain ⟨f, found, _, _, late⟩ := fresh 1 ⟨_, 1, 0, some (.ok 1)⟩ rfl 1 rfl
  cases found
  exact absurd late (by decide)

end InventoryState

end Proxora
