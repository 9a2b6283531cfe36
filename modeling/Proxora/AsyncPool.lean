import Proxora.Ecma.Doubles
import Proxora.Runs

/-!
# Working on items a few at a time

`mapPool` of `lib/async-pool.ts`: some loops share the counter `next`, and each of them hands the
item under the counter to the worker, waits for its promise and puts the result into `out`. What
happens is an event: a promise settles, or a loop goes on after its `await`. `Promise.all` takes
the first loop that throws, or all loops that have returned.

The indices of the items that are worked on and of those whose promise has settled are together
those that were handed out (`Sound.accounts`). `mapPool_law` follows for every order of events.
-/

namespace Proxora

open Ecma

variable {T R E : Type}

/-- A loop that waits for the promise of an index, that will go on with what it settled to, that
has returned, or that has thrown. -/
inductive PoolLoop (R E : Type) : Type
  | waiting (index : Nat)
  | settled (index : Nat) (outcome : Except E R)
  | returned
  | threw (error : E)

/-- The index whose promise the loop waits for. -/
def PoolLoop.waits : PoolLoop R E → Option Nat
  | .waiting index => some index
  | _ => none

/-- The variables and the loops, with the calls of the worker so far and the promises that have
settled. -/
structure PoolState (T R E : Type) where
  next : Nat
  loops : List (PoolLoop R E)
  out : List (Option R)
  handed : List (Nat × T)
  settlements : List (Nat × Except E R)
  answer : Option (Except E (List (Option R)))

/-- What happens to a loop: the promise that it waits for settles, or it goes on. -/
inductive PoolEvent (R E : Type) : Type
  | settle (loop : Nat) (outcome : Except E R)
  | resume (loop : Nat)

namespace PoolState

/-- `const index = next++`, and the call of the worker unless the items are used up. A call that
throws is a promise that settles at once. -/
def takeIndex (items : List T) (state : PoolState T R E) : PoolLoop R E × PoolState T R E :=
  let index := state.next
  match items[index]? with
  | none => (.returned, { state with next := index + 1 })
  | some item =>
      (.waiting index, { state with next := index + 1, handed := state.handed ++ [(index, item)] })

/-- So many loops are started. -/
def spawn (items : List T) : Nat → PoolState T R E → PoolState T R E
  | 0, state => state
  | k + 1, state =>
      let taken := state.takeIndex items
      spawn items k { taken.2 with loops := taken.2.loops ++ [taken.1] }

/-- The error of a loop that has thrown. -/
def thrown (loops : List (PoolLoop R E)) : Option E :=
  loops.findSome? fun
    | .threw error => some error
    | _ => none

/-- Every loop has returned. -/
def allReturned (loops : List (PoolLoop R E)) : Bool :=
  loops.all fun
    | .returned => true
    | _ => false

/-- `Promise.all`, and `return out`. -/
def conclude (state : PoolState T R E) : PoolState T R E :=
  match state.answer, thrown state.loops with
  | some _, _ => state
  | none, some error => { state with answer := some (.error error) }
  | none, none =>
      if allReturned state.loops then { state with answer := some (.ok state.out) } else state

/-- A loop goes on with a result: it writes it, and takes the next index. -/
def goOn (items : List T) (state : PoolState T R E) (loop index : Nat) (result : R) :
    PoolState T R E :=
  let taken := { state with out := state.out.set index (some result) }.takeIndex items
  { taken.2 with loops := taken.2.loops.set loop taken.1 }.conclude

def step (items : List T) (state : PoolState T R E) : PoolEvent R E → Option (PoolState T R E)
  | .settle loop outcome =>
      match state.loops[loop]? with
      | some (.waiting index) =>
          some { state with
            loops := state.loops.set loop (.settled index outcome)
            settlements := state.settlements ++ [(index, outcome)] }
      | _ => none
  | .resume loop =>
      match state.loops[loop]? with
      | some (.settled index (.ok result)) => some (state.goOn items loop index result)
      | some (.settled _ (.error error)) =>
          some { state with loops := state.loops.set loop (.threw error) }.conclude
      | _ => none

end PoolState

/-- `Math.max(1, Math.min(concurrency, items.length))`. -/
def poolLimit (concurrency : Double) (count : Nat) : Double :=
  (Double.finite 1).max (concurrency.min (.finite count))

/-- The state that the call of `mapPool` leaves. -/
def mapPool (items : List T) (concurrency : Double) : PoolState T R E :=
  let fresh : PoolState T R E :=
    { next := 0, loops := [], out := List.replicate items.length none, handed := [],
      settlements := [], answer := none }
  if items = [] then { fresh with answer := some (.ok []) }
  else (fresh.spawn items (poolLimit concurrency items.length).toLength).conclude

/-- The calls of the worker when every index is handed out once, in order. -/
def poolCalls (items : List T) : List (Nat × T) :=
  items.zipIdx.map fun entry => (entry.2, entry.1)

namespace PoolState

/-- The workers that have not finished. -/
def unfinished (state : PoolState T R E) : List (Nat × T) :=
  state.handed.filter fun call => call.1 ∉ state.settlements.map Prod.fst

/-- The promise of each index has settled once, with the result that `out` holds there. -/
structure Complete (items : List T) (state : PoolState T R E) (out : List (Option R)) : Prop where
  handed_all : state.handed = poolCalls items
  settled_once : (state.settlements.map Prod.fst).Perm (List.range items.length)
  length_out : out.length = items.length
  holds : ∀ i < items.length, ∃ result,
    (i, .ok result) ∈ state.settlements ∧ out[i]? = some (some result)

end PoolState

/-! ## Bookkeeping -/

/-- An element apart from the others, and another one in its place. -/
theorem exists_others {α : Type} {l : List α} {k : Nat} {x : α} (found : l[k]? = some x) :
    ∃ others, l.Perm (x :: others) ∧ ∀ y, (l.set k y).Perm (y :: others) := by
  rcases List.getElem?_eq_some_iff.mp found with ⟨within, here⟩
  refine ⟨l.take k ++ l.drop (k + 1), ?_, fun y => ?_⟩
  · have cut : l = l.take k ++ x :: l.drop (k + 1) := by
      rw [← here, List.cons_getElem_drop_succ, List.take_append_drop]
    exact (List.Perm.of_eq cut).trans List.perm_middle
  · rw [List.set_eq_take_append_cons_drop, if_pos within]
    exact List.perm_middle

theorem poolCalls_fst (items : List T) :
    (poolCalls items).map Prod.fst = List.range items.length := by
  rw [poolCalls, List.map_map, List.range_eq_range', ← List.zipIdx_map_snd 0 items]
  rfl

theorem getElem?_poolCalls (items : List T) (i : Nat) :
    (poolCalls items)[i]? = items[i]?.map fun item => (i, item) := by
  rw [poolCalls, List.getElem?_map, List.getElem?_zipIdx, Option.map_map, Nat.zero_add]
  rfl

namespace PoolState

/-- What every event keeps: the calls are the first ones of `poolCalls`, an index that was
handed out is waited for or has settled, and what it settled to lies with a loop, in `out` or in
a loop that has thrown. -/
structure Sound (items : List T) (state : PoolState T R E) : Prop where
  handed_eq : state.handed = (poolCalls items).take state.next
  accounts : (state.loops.filterMap PoolLoop.waits ++ state.settlements.map Prod.fst).Perm
    (state.handed.map Prod.fst)
  length_out : state.out.length = items.length
  settled_from : ∀ i outcome, .settled i outcome ∈ state.loops → (i, outcome) ∈ state.settlements
  threw_from : ∀ error, .threw error ∈ state.loops → ∃ i, (i, .error error) ∈ state.settlements
  returned_from : .returned ∈ state.loops → items.length ≤ state.next
  kept : ∀ i outcome, (i, outcome) ∈ state.settlements →
    .settled i outcome ∈ state.loops ∨
      (∃ result, outcome = .ok result ∧ state.out[i]? = some (some result)) ∨
      ∃ error, outcome = .error error ∧ .threw error ∈ state.loops

variable {items : List T} {state : PoolState T R E} {loops others : List (PoolLoop R E)}

namespace Sound

theorem nodup_handed (sound : Sound items state) : (state.handed.map Prod.fst).Nodup := by
  rw [sound.handed_eq, List.map_take, poolCalls_fst]
  exact List.nodup_range.sublist (List.take_sublist _ _)

theorem nodup_settlements (sound : Sound items state) :
    (state.settlements.map Prod.fst).Nodup :=
  (List.nodup_append.mp (sound.accounts.nodup_iff.mpr sound.nodup_handed)).2.1

/-- An index settles to one outcome. -/
theorem outcome_unique (sound : Sound items state) {i : Nat} {outcome outcome' : Except E R}
    (first : (i, outcome) ∈ state.settlements) (second : (i, outcome') ∈ state.settlements) :
    outcome = outcome' :=
  congrArg Prod.snd (List.inj_on_of_nodup_map sound.nodup_settlements first second rfl)

theorem lt_of_settled (sound : Sound items state) {i : Nat} {outcome : Except E R}
    (settled : (i, outcome) ∈ state.settlements) : i < items.length := by
  have listed := sound.accounts.mem_iff.mp
    (List.mem_append_right _ (List.mem_map_of_mem settled))
  rw [sound.handed_eq, List.map_take, poolCalls_fst] at listed
  exact List.mem_range.mp (List.mem_of_mem_take listed)

theorem length_handed (sound : Sound items state) : state.handed.length ≤ items.length := by
  rw [sound.handed_eq, List.length_take, ← List.length_map Prod.fst, poolCalls_fst,
    List.length_range]
  exact min_le_right _ _

/-- The order of the loops does not matter. -/
theorem of_perm (sound : Sound items state) (same : state.loops.Perm loops) :
    Sound items { state with loops } where
  handed_eq := sound.handed_eq
  accounts := ((same.filterMap PoolLoop.waits).append_right _).symm.trans sound.accounts
  length_out := sound.length_out
  settled_from i outcome inside := sound.settled_from i outcome (same.mem_iff.mpr inside)
  threw_from error inside := sound.threw_from error (same.mem_iff.mpr inside)
  returned_from inside := sound.returned_from (same.mem_iff.mpr inside)
  kept i outcome inside := by
    simpa only [same.mem_iff] using sound.kept i outcome inside

/-- A loop that takes the next index keeps the books. -/
theorem insert (sound : Sound items { state with loops := others }) :
    Sound items { (state.takeIndex items).2 with
      loops := (state.takeIndex items).1 :: others } := by
  have more : (poolCalls items).take (state.next + 1) =
      state.handed ++ (items[state.next]?.map fun item => (state.next, item)).toList := by
    rw [List.take_add_one, getElem?_poolCalls, sound.handed_eq]
  unfold takeIndex
  dsimp only
  cases here : items[state.next]? with
  | none =>
      rw [here] at more
      constructor
      case handed_eq => exact (more.trans (List.append_nil _)).symm
      case accounts => exact sound.accounts
      case length_out => exact sound.length_out
      case settled_from =>
        intro i outcome inside
        have before := List.mem_of_ne_of_mem (fun same => by cases same) inside
        exact sound.settled_from i outcome before
      case threw_from =>
        intro error inside
        exact sound.threw_from error (List.mem_of_ne_of_mem (fun same => by cases same) inside)
      case returned_from =>
        exact fun _ => (List.getElem?_eq_none_iff.mp here).trans (Nat.le_succ _)
      case kept =>
        intro i outcome inside
        simpa using sound.kept i outcome inside
  | some item =>
      rw [here] at more
      constructor
      case handed_eq => exact more.symm
      case accounts =>
        rw [List.map_append]
        exact (sound.accounts.cons state.next).trans (List.perm_append_singleton _ _).symm
      case length_out => exact sound.length_out
      case settled_from =>
        intro i outcome inside
        have before := List.mem_of_ne_of_mem (fun same => by cases same) inside
        exact sound.settled_from i outcome before
      case threw_from =>
        intro error inside
        exact sound.threw_from error (List.mem_of_ne_of_mem (fun same => by cases same) inside)
      case returned_from =>
        intro inside
        have before := List.mem_of_ne_of_mem (fun same => by cases same) inside
        exact (sound.returned_from before).trans (Nat.le_succ _)
      case kept =>
        intro i outcome inside
        simpa using sound.kept i outcome inside

/-- A loop whose promise settles keeps the books. -/
theorem settle {index : Nat} (sound : Sound items { state with loops := .waiting index :: others })
    (outcome : Except E R) :
    Sound items { state with
      loops := .settled index outcome :: others
      settlements := state.settlements ++ [(index, outcome)] } := by
  constructor
  case handed_eq => exact sound.handed_eq
  case accounts =>
    refine List.Perm.trans ?_ sound.accounts
    rw [List.map_append, ← List.append_assoc]
    exact List.perm_append_singleton _ _
  case length_out => exact sound.length_out
  case settled_from =>
    intro i outcome' inside
    rcases List.mem_cons.mp inside with same | other
    · cases same
      exact List.mem_append_right _ List.mem_cons_self
    · exact List.mem_append_left _ (sound.settled_from i outcome' (List.mem_cons_of_mem _ other))
  case threw_from =>
    intro error inside
    have other := List.mem_of_ne_of_mem (fun same => by cases same) inside
    rcases sound.threw_from error (List.mem_cons_of_mem _ other) with ⟨i, listed⟩
    exact ⟨i, List.mem_append_left _ listed⟩
  case returned_from =>
    intro inside
    have other := List.mem_of_ne_of_mem (fun same => by cases same) inside
    exact sound.returned_from (List.mem_cons_of_mem _ other)
  case kept =>
    intro i outcome' inside
    rcases List.mem_append.mp inside with earlier | newest
    · rcases sound.kept i outcome' earlier with still | written | threw
      · have other := List.mem_of_ne_of_mem (fun same => by cases same) still
        exact .inl (List.mem_cons_of_mem _ other)
      · exact .inr (.inl written)
      · rcases threw with ⟨error, failure, member⟩
        have other := List.mem_of_ne_of_mem (fun same => by cases same) member
        exact .inr (.inr ⟨error, failure, List.mem_cons_of_mem _ other⟩)
    · cases List.mem_singleton.mp newest
      exact .inl List.mem_cons_self

/-- A loop whose worker failed throws. -/
theorem throw {index : Nat} {error : E}
    (sound : Sound items { state with loops := .settled index (.error error) :: others }) :
    Sound items { state with loops := .threw error :: others } := by
  constructor
  case handed_eq => exact sound.handed_eq
  case accounts => exact sound.accounts
  case length_out => exact sound.length_out
  case settled_from =>
    intro i outcome inside
    have other := List.mem_of_ne_of_mem (fun same => by cases same) inside
    exact sound.settled_from i outcome (List.mem_cons_of_mem _ other)
  case threw_from =>
    intro error' inside
    rcases List.mem_cons.mp inside with same | other
    · cases same
      exact ⟨index, sound.settled_from index (.error error) List.mem_cons_self⟩
    · exact sound.threw_from error' (List.mem_cons_of_mem _ other)
  case returned_from =>
    intro inside
    have other := List.mem_of_ne_of_mem (fun same => by cases same) inside
    exact sound.returned_from (List.mem_cons_of_mem _ other)
  case kept =>
    intro i outcome inside
    rcases sound.kept i outcome inside with still | written | threw
    · rcases List.mem_cons.mp still with same | other
      · cases same
        exact .inr (.inr ⟨error, rfl, List.mem_cons_self⟩)
      · exact .inl (List.mem_cons_of_mem _ other)
    · exact .inr (.inl written)
    · rcases threw with ⟨error', failure, member⟩
      have other := List.mem_of_ne_of_mem (fun same => by cases same) member
      exact .inr (.inr ⟨error', failure, List.mem_cons_of_mem _ other⟩)

/-- A loop whose worker succeeded writes the result, and is left out until it takes an index. -/
theorem write {index : Nat} {result : R}
    (sound : Sound items { state with loops := .settled index (.ok result) :: others }) :
    Sound items { state with out := state.out.set index (some result), loops := others } := by
  have own := sound.settled_from index (.ok result) List.mem_cons_self
  constructor
  case handed_eq => exact sound.handed_eq
  case accounts => exact sound.accounts
  case length_out => exact (List.length_set ..).trans sound.length_out
  case settled_from =>
    exact fun i outcome inside => sound.settled_from i outcome (List.mem_cons_of_mem _ inside)
  case threw_from =>
    exact fun error inside => sound.threw_from error (List.mem_cons_of_mem _ inside)
  case returned_from => exact fun inside => sound.returned_from (List.mem_cons_of_mem _ inside)
  case kept =>
    intro i outcome inside
    dsimp only
    by_cases here : i = index
    · -- The index has no other outcome than the one that is written.
      subst here
      have within : i < state.out.length := sound.length_out.symm ▸ sound.lt_of_settled inside
      exact .inr (.inl ⟨result, sound.outcome_unique inside own, List.getElem?_set_self within⟩)
    · rcases sound.kept i outcome inside with still | written | threw
      · rcases List.mem_cons.mp still with same | other
        · cases same
          exact absurd rfl here
        · exact .inl other
      · rcases written with ⟨other, success, stored⟩
        exact .inr (.inl ⟨other, success, (List.getElem?_set_ne (Ne.symm here)).trans stored⟩)
      · rcases threw with ⟨error, failure, member⟩
        have other := List.mem_of_ne_of_mem (fun same => by cases same) member
        exact .inr (.inr ⟨error, failure, other⟩)

end Sound

/-! ## The answer -/

theorem mem_of_thrown {error : E} (found : thrown loops = some error) : .threw error ∈ loops := by
  rcases List.exists_of_findSome?_eq_some found with ⟨loop, inside, read⟩
  cases loop with
  | threw other =>
      cases read
      exact inside
  | waiting => cases read
  | settled => cases read
  | returned => cases read

theorem not_mem_of_thrown (missing : thrown loops = none) (error : E) : .threw error ∉ loops := by
  intro inside
  have none := List.findSome?_eq_none_iff.mp missing _ inside
  cases none

theorem allReturned_iff : allReturned loops = true ↔ ∀ loop ∈ loops, loop = .returned := by
  rw [allReturned, List.all_eq_true]
  refine forall₂_congr fun loop _ => ?_
  cases loop <;> simp

/-- The answer is given when a loop has thrown or all have returned, and not before. -/
structure Answered (state : PoolState T R E) : Prop where
  unanswered : state.answer = none →
    (∀ error, .threw error ∉ state.loops) ∧ allReturned state.loops = false
  fulfilled : ∀ out, state.answer = some (.ok out) →
    allReturned state.loops = true ∧ out = state.out
  rejected : ∀ error, state.answer = some (.error error) → .threw error ∈ state.loops

theorem answered_conclude (unfulfilled : ∀ out, state.answer ≠ some (.ok out))
    (rejected : ∀ error, state.answer = some (.error error) → .threw error ∈ state.loops) :
    Answered state.conclude := by
  unfold conclude
  cases given : state.answer with
  | some answer =>
      refine ⟨fun none => ?_, fun out done => absurd done (unfulfilled out), rejected⟩
      rw [given] at none
      cases none
  | none =>
      cases failure : thrown state.loops with
      | some error =>
          refine ⟨fun none => ?_, fun out done => ?_, fun error' same => ?_⟩
          · cases none
          · cases done
          · cases same
            exact mem_of_thrown failure
      | none =>
          dsimp only
          cases all : allReturned state.loops with
          | true =>
              refine ⟨fun none => ?_, fun out done => ?_, fun error same => ?_⟩
              · cases none
              · cases done
                exact ⟨all, rfl⟩
              · cases same
          | false =>
              refine ⟨fun _ => ⟨not_mem_of_thrown failure, all⟩, fun out done => ?_, rejected⟩
              exact absurd done (unfulfilled out)

theorem Sound.conclude (sound : Sound items state) : Sound items state.conclude := by
  unfold PoolState.conclude
  split
  · exact sound
  · exact ⟨sound.1, sound.2, sound.3, sound.4, sound.5, sound.6, sound.7⟩
  · split
    · exact ⟨sound.1, sound.2, sound.3, sound.4, sound.5, sound.6, sound.7⟩
    · exact sound

@[simp]
theorem conclude_loops : state.conclude.loops = state.loops := by
  unfold conclude
  split
  · rfl
  · rfl
  · split
    · rfl
    · rfl

@[simp]
theorem conclude_settlements : state.conclude.settlements = state.settlements := by
  unfold conclude
  split
  · rfl
  · rfl
  · split
    · rfl
    · rfl

@[simp]
theorem takeIndex_answer : (state.takeIndex items).2.answer = state.answer := by
  unfold takeIndex
  dsimp only
  split
  · rfl
  · rfl

@[simp]
theorem takeIndex_loops : (state.takeIndex items).2.loops = state.loops := by
  unfold takeIndex
  dsimp only
  split
  · rfl
  · rfl

@[simp]
theorem takeIndex_settlements : (state.takeIndex items).2.settlements = state.settlements := by
  unfold takeIndex
  dsimp only
  split
  · rfl
  · rfl

/-! ## The events -/

/-- What an event does to the loop that it is about. -/
theorem step_cases {event : PoolEvent R E} {after : PoolState T R E}
    (happens : state.step items event = some after) :
    (∃ k index outcome, state.loops[k]? = some (.waiting index) ∧
      after = { state with
        loops := state.loops.set k (.settled index outcome)
        settlements := state.settlements ++ [(index, outcome)] }) ∨
    (∃ k index error, state.loops[k]? = some (.settled index (.error error)) ∧
      after = { state with loops := state.loops.set k (.threw error) }.conclude) ∨
    ∃ k index result, state.loops[k]? = some (.settled index (.ok result)) ∧
      after = state.goOn items k index result := by
  cases event with
  | settle k outcome =>
      rw [step] at happens
      split at happens
      · next index here =>
          cases happens
          exact .inl ⟨k, index, outcome, here, rfl⟩
      · cases happens
  | resume k =>
      rw [step] at happens
      split at happens
      · next index result here =>
          cases happens
          exact .inr (.inr ⟨k, index, result, here, rfl⟩)
      · next index error here =>
          cases happens
          exact .inr (.inl ⟨k, index, error, here, rfl⟩)
      · cases happens

/-- The loops after a loop has gone on. -/
theorem goOn_loops (items : List T) (state : PoolState T R E) (k index : Nat) (result : R) :
    ∃ loop, (loop = .returned ∨ ∃ i, loop = .waiting i) ∧
      (state.goOn items k index result).loops = state.loops.set k loop := by
  refine ⟨({ state with out := state.out.set index (some result) }.takeIndex items).1, ?_, ?_⟩
  · unfold takeIndex
    dsimp only
    cases items[state.next]? with
    | none => exact .inl rfl
    | some item => exact .inr ⟨_, rfl⟩
  · rw [goOn, conclude_loops, takeIndex_loops]

theorem length_step {event : PoolEvent R E} {after : PoolState T R E}
    (happens : state.step items event = some after) :
    after.loops.length = state.loops.length := by
  rcases step_cases happens with ⟨k, index, outcome, -, rfl⟩ | ⟨k, index, error, -, rfl⟩ |
    ⟨k, index, result, -, rfl⟩
  · exact List.length_set
  · rw [conclude_loops]
    exact List.length_set
  · rcases goOn_loops items state k index result with ⟨loop, -, same⟩
    rw [same]
    exact List.length_set

theorem Sound.step {event : PoolEvent R E} {after : PoolState T R E} (sound : Sound items state)
    (happens : state.step items event = some after) : Sound items after := by
  rcases step_cases happens with ⟨k, index, outcome, here, rfl⟩ | ⟨k, index, error, here, rfl⟩ |
    ⟨k, index, result, here, rfl⟩
  · rcases exists_others here with ⟨others, before, replaced⟩
    exact ((sound.of_perm before).settle outcome).of_perm (replaced _).symm
  · rcases exists_others here with ⟨others, before, replaced⟩
    exact ((sound.of_perm before).throw.of_perm (replaced _).symm).conclude
  · rcases exists_others here with ⟨others, before, replaced⟩
    have written := (sound.of_perm before).write
    refine (written.insert.of_perm ?_).conclude
    rw [takeIndex_loops]
    exact (replaced _).symm

/-- A loop that has thrown stays as it is. -/
theorem threw_set {k : Nat} {loop loop' : PoolLoop R E} {error : E} (inside : .threw error ∈ loops)
    (here : loops[k]? = some loop) (other : loop ≠ .threw error) :
    .threw error ∈ loops.set k loop' := by
  rcases exists_others here with ⟨others, before, replaced⟩
  have rest := List.mem_of_ne_of_mem (Ne.symm other) (before.mem_iff.mp inside)
  exact (replaced loop').mem_iff.mpr (List.mem_cons_of_mem _ rest)

theorem Answered.step {event : PoolEvent R E} {after : PoolState T R E}
    (answered : Answered state) (happens : state.step items event = some after) :
    Answered after := by
  -- A loop that has not ended keeps `Promise.all` from being fulfilled.
  have busy : ∀ k loop, state.loops[k]? = some loop → loop ≠ PoolLoop.returned →
      ∀ out, state.answer ≠ some (.ok out) := fun k loop here going out done =>
    going (allReturned_iff.mp (answered.fulfilled out done).1 loop (List.mem_of_getElem? here))
  rcases step_cases happens with ⟨k, index, outcome, here, rfl⟩ | ⟨k, index, error, here, rfl⟩ |
    ⟨k, index, result, here, rfl⟩
  · have unfulfilled := busy k _ here (fun same => by cases same)
    rcases exists_others here with ⟨others, before, replaced⟩
    constructor
    case unanswered =>
      intro none
      refine ⟨fun error inside => ?_, Bool.eq_false_iff.mpr fun all => ?_⟩
      · have rest := List.mem_of_ne_of_mem (fun same => by cases same)
          ((replaced _).mem_iff.mp inside)
        exact (answered.unanswered none).1 error
          (before.mem_iff.mpr (List.mem_cons_of_mem _ rest))
      · have ended := allReturned_iff.mp all _ ((replaced _).mem_iff.mpr List.mem_cons_self)
        cases ended
    case fulfilled => exact fun out done => absurd done (unfulfilled out)
    case rejected =>
      exact fun error given =>
        threw_set (answered.rejected error given) here (fun same => by cases same)
  · refine answered_conclude (busy k _ here (fun same => by cases same)) fun error' given => ?_
    exact threw_set (answered.rejected error' given) here (fun same => by cases same)
  · have same : ({ state with out := state.out.set index (some result) }.takeIndex items).2.answer =
        state.answer := takeIndex_answer
    refine answered_conclude (fun out done => ?_) fun error given => ?_
    · exact busy k _ here (fun same => by cases same) out (same.symm.trans done)
    · dsimp only
      rw [takeIndex_loops]
      exact threw_set (answered.rejected error (same.symm.trans given)) here
        (fun same => by cases same)

/-- So many loops are at work, and the books and the answer are right. -/
def Running (items : List T) (count : Nat) (state : PoolState T R E) : Prop :=
  state.Sound items ∧ state.Answered ∧ state.loops.length = count

theorem Running.step {count : Nat} {event : PoolEvent R E} {after : PoolState T R E}
    (running : state.Running items count) (happens : state.step items event = some after) :
    after.Running items count := by
  rcases running with ⟨sound, answered, size⟩
  exact ⟨sound.step happens, answered.step happens, (length_step happens).trans size⟩

/-! ## Counting -/

/-- A loop that will go on. -/
def goesOn : PoolLoop R E → Bool
  | .settled _ _ => true
  | _ => false

/-- Every event is a promise that settles, or a loop that goes on after one has. -/
theorem count_step {event : PoolEvent R E} {after : PoolState T R E}
    (happens : state.step items event = some after) :
    after.loops.countP goesOn + 2 * state.settlements.length + 1 =
      state.loops.countP goesOn + 2 * after.settlements.length := by
  rcases step_cases happens with ⟨k, index, outcome, here, rfl⟩ | ⟨k, index, error, here, rfl⟩ |
    ⟨k, index, result, here, rfl⟩
  · rcases exists_others here with ⟨others, before, replaced⟩
    rw [(replaced _).countP_eq, before.countP_eq, List.countP_cons_of_pos rfl,
      List.countP_cons_of_neg (by simp [goesOn]), List.length_append, List.length_singleton]
    omega
  · rcases exists_others here with ⟨others, before, replaced⟩
    rw [conclude_loops, conclude_settlements, (replaced _).countP_eq, before.countP_eq,
      List.countP_cons_of_neg (by simp [goesOn]), List.countP_cons_of_pos rfl]
    dsimp only
    omega
  · rcases exists_others here with ⟨others, before, replaced⟩
    rcases goOn_loops items state k index result with ⟨loop, kind, loops⟩
    have still : goesOn loop = false := by
      rcases kind with rfl | ⟨i, rfl⟩
      · rfl
      · rfl
    rw [loops, goOn, conclude_settlements, takeIndex_settlements, (replaced _).countP_eq,
      before.countP_eq, List.countP_cons_of_neg (by simp [still]), List.countP_cons_of_pos rfl]
    dsimp only
    omega

theorem count_exec {events : List (PoolEvent R E)} {after : PoolState T R E}
    (run : Runs.exec (step items) state events = some after) :
    after.loops.countP goesOn + 2 * state.settlements.length + events.length =
      state.loops.countP goesOn + 2 * after.settlements.length := by
  induction events generalizing state with
  | nil =>
      cases run
      rfl
  | cons event events ih =>
      rcases Option.bind_eq_some_iff.mp run with ⟨middle, happens, others⟩
      have first := count_step happens
      have later := ih others
      rw [List.length_cons]
      omega

/-! ## The start -/

theorem Sound.spawn {k : Nat} (sound : Sound items state) : Sound items (state.spawn items k) := by
  induction k generalizing state with
  | zero => exact sound
  | succ k ih =>
      refine ih ((Sound.insert sound).of_perm ?_)
      rw [takeIndex_loops]
      exact (List.perm_append_singleton _ _).symm

theorem spawn_spec (items : List T) (k : Nat) (state : PoolState T R E) :
    (state.spawn items k).loops.length = state.loops.length + k ∧
      (state.spawn items k).settlements = state.settlements ∧
      (state.spawn items k).answer = state.answer := by
  induction k generalizing state with
  | zero => exact ⟨rfl, rfl, rfl⟩
  | succ k ih =>
      rw [PoolState.spawn]
      rcases ih { (state.takeIndex items).2 with
        loops := (state.takeIndex items).2.loops ++ [(state.takeIndex items).1] } with
        ⟨size, settled, answer⟩
      refine ⟨?_, settled.trans takeIndex_settlements, answer.trans takeIndex_answer⟩
      rw [size, List.length_append, takeIndex_loops, List.length_singleton]
      omega

end PoolState

section Limit

variable {concurrency : Double} {count : Nat}

/-- The limit is a number from one on, and no larger than the concurrency where that is one. -/
theorem poolLimit_spec (number : concurrency ≠ .nan) (proper : 1 ≤ count) :
    ∃ limit : Rat, poolLimit concurrency count = .finite limit ∧ 1 ≤ limit ∧
      ((Double.finite 1).max concurrency).lt (.finite limit) = false := by
  have least : (1 : Rat) ≤ count := by exact_mod_cast proper
  cases concurrency with
  | finite x =>
      refine ⟨max 1 (min x count), ?_, le_max_left _ _, ?_⟩
      · rw [poolLimit, Double.min_finite, Double.max_finite]
      · rw [Double.max_finite]
        exact decide_eq_false (not_lt_of_ge (max_le_max_left 1 (min_le_left x count)))
  | infinity negative =>
      cases negative with
      | true =>
          refine ⟨1, rfl, le_rfl, ?_⟩
          exact decide_eq_false (lt_irrefl 1)
      | false =>
          refine ⟨max 1 count, ?_, le_max_left _ _, rfl⟩
          rw [← Double.max_finite]
          rfl
  | nan => exact absurd rfl number

theorem poolLoops_spec (number : concurrency ≠ .nan) (proper : 1 ≤ count) :
    1 ≤ (poolLimit concurrency count).toLength ∧
      ∀ k ≤ (poolLimit concurrency count).toLength,
        ((Double.finite 1).max concurrency).lt (.finite k) = false := by
  rcases poolLimit_spec number proper with ⟨limit, same, least, most⟩
  have floor : (1 : Int) ≤ limit.floor := Rat.le_floor_iff.mpr (by exact_mod_cast least)
  rw [same, Double.toLength]
  refine ⟨by omega, fun k small => ?_⟩
  have below : (k : Rat) ≤ limit := by
    have whole : (k : Int) ≤ limit.floor := by omega
    exact_mod_cast Rat.le_floor_iff.mp whole
  cases bound : (Double.finite 1).max concurrency with
  | finite x =>
      rw [bound] at most
      exact decide_eq_false (not_lt_of_ge (below.trans (not_lt.mp (of_decide_eq_false most))))
  | infinity negative =>
      rw [bound] at most
      exact most
  | nan => rfl

end Limit

/-! ## Every order of events -/

namespace PoolState

/-- Every promise has settled, and every loop has gone on. -/
def Quiet (state : PoolState T R E) : Prop :=
  ∀ loop ∈ state.loops, loop = .returned ∨ ∃ error, loop = .threw error

/-- A worker has failed, and its loop has gone on. -/
def Failed (state : PoolState T R E) : Prop :=
  ∃ i error, (i, .error error) ∈ state.settlements ∧ .settled i (.error error) ∉ state.loops

/-- What `mapPool` is for: the items are handed out in order and each once, no more workers at a
time than the concurrency allows; the promise is fulfilled with the results when the workers
succeed, and rejected with the error of a worker when one fails. -/
structure Met (items : List T) (concurrency : Double) (state : PoolState T R E) : Prop where
  in_order : state.handed = (poolCalls items).take state.next
  bounded : ((Double.finite 1).max concurrency).lt (.finite state.unfinished.length) = false
  fulfilled : ∀ out, state.answer = some (.ok out) → state.Complete items out
  succeeds : state.Quiet → (∀ i error, (i, .error error) ∉ state.settlements) →
    ∃ out, state.answer = some (.ok out)
  rejects : state.Failed →
    ∃ error, state.answer = some (.error error) ∧ ∃ i, (i, .error error) ∈ state.settlements

/-- No more workers are unfinished than there are loops. -/
theorem Sound.length_unfinished (sound : Sound items state) :
    state.unfinished.length ≤ state.loops.length := by
  have nodup := sound.accounts.nodup_iff.mpr sound.nodup_handed
  have apart := (List.nodup_append.mp nodup).2.2
  have same : (state.unfinished.map Prod.fst).Perm (state.loops.filterMap PoolLoop.waits) := by
    have indices : state.unfinished.map Prod.fst =
        (state.handed.map Prod.fst).filter (· ∉ state.settlements.map Prod.fst) := by
      rw [unfinished, List.filter_map]
      rfl
    rw [indices]
    refine ((sound.accounts.filter _).symm).trans (List.Perm.of_eq ?_)
    rw [List.filter_append, List.filter_eq_self.mpr, List.filter_eq_nil_iff.mpr, List.append_nil]
    · intro i settled
      simpa using settled
    · intro i waiting
      exact decide_eq_true fun settled => apart i waiting i settled rfl
  calc state.unfinished.length = (state.unfinished.map Prod.fst).length := List.length_map _ |>.symm
    _ = (state.loops.filterMap PoolLoop.waits).length := same.length_eq
    _ ≤ state.loops.length := List.length_filterMap_le _ _

/-- When all loops have returned, every index has been handed out and has its result. -/
theorem Sound.complete (sound : Sound items state) (all : allReturned state.loops = true)
    (some_loop : items = [] ∨ state.loops ≠ []) : state.Complete items state.out := by
  have returned := allReturned_iff.mp all
  have used : items.length ≤ state.next := by
    rcases some_loop with rfl | looped
    · exact Nat.zero_le _
    · rcases List.exists_mem_of_ne_nil _ looped with ⟨loop, inside⟩
      exact sound.returned_from (returned loop inside ▸ inside)
  have handed : state.handed = poolCalls items := by
    rw [sound.handed_eq]
    refine List.take_of_length_le ?_
    rw [← List.length_map Prod.fst, poolCalls_fst, List.length_range]
    exact used
  have idle : state.loops.filterMap PoolLoop.waits = [] :=
    List.filterMap_eq_nil_iff.mpr fun loop inside => by
      rw [returned loop inside]
      rfl
  have once : (state.settlements.map Prod.fst).Perm (List.range items.length) := by
    have accounts := sound.accounts
    rw [idle, handed, poolCalls_fst] at accounts
    exact accounts
  refine ⟨handed, once, sound.length_out, fun i small => ?_⟩
  rcases List.mem_map.mp (once.mem_iff.mpr (List.mem_range.mpr small)) with
    ⟨⟨j, outcome⟩, settled, same⟩
  dsimp only at same
  subst same
  rcases sound.kept j outcome settled with still | written | threw
  · cases returned _ still
  · rcases written with ⟨result, rfl, stored⟩
    exact ⟨result, settled, stored⟩
  · rcases threw with ⟨error, -, member⟩
    cases returned _ member

/-- What is known of the loops and the answer makes what is wanted of them. -/
theorem Sound.met {concurrency : Double} (sound : Sound items state) (answered : Answered state)
    (some_loop : items = [] ∨ state.loops ≠ [])
    (bounded : ∀ k ≤ state.loops.length,
      ((Double.finite 1).max concurrency).lt (.finite k) = false) :
    state.Met items concurrency := by
  constructor
  case in_order => exact sound.handed_eq
  case bounded => exact bounded _ sound.length_unfinished
  case fulfilled =>
    intro out done
    rcases answered.fulfilled out done with ⟨all, rfl⟩
    exact sound.complete all some_loop
  case succeeds =>
    intro quiet success
    have unthrown : ∀ error, .threw error ∉ state.loops := fun error inside => by
      rcases sound.threw_from error inside with ⟨i, failed⟩
      exact success i error failed
    cases given : state.answer with
    | none =>
        have all : allReturned state.loops = true := allReturned_iff.mpr fun loop inside => by
          rcases quiet loop inside with returned | ⟨error, rfl⟩
          · exact returned
          · exact absurd inside (unthrown error)
        have open' := (answered.unanswered given).2
        rw [all] at open'
        cases open'
    | some answer =>
        cases answer with
        | ok out => exact ⟨out, rfl⟩
        | error error => exact absurd (answered.rejected error given) (unthrown error)
  case rejects =>
    intro failed
    rcases failed with ⟨i, error, settled, gone⟩
    have threw : .threw error ∈ state.loops := by
      rcases sound.kept i _ settled with still | written | threw
      · exact absurd still gone
      · rcases written with ⟨result, success, -⟩
        cases success
      · rcases threw with ⟨error', same, member⟩
        cases same
        exact member
    cases given : state.answer with
    | none => exact absurd threw ((answered.unanswered given).1 error)
    | some answer =>
        cases answer with
        | ok out =>
            cases allReturned_iff.mp (answered.fulfilled out given).1 _ threw
        | error error' =>
            exact ⟨error', rfl, sound.threw_from error' (answered.rejected error' given)⟩

end PoolState

section Law

variable {items : List T} {concurrency : Double}

/-- Before the first loop there is nothing on the books. -/
theorem sound_fresh (items : List T) (answer : Option (Except E (List (Option R)))) :
    PoolState.Sound items
      ({ next := 0, loops := [], out := List.replicate items.length none, handed := [],
         settlements := [], answer := answer } : PoolState T R E) where
  handed_eq := rfl
  accounts := List.Perm.refl []
  length_out := List.length_replicate
  settled_from _ _ inside := by cases inside
  threw_from _ inside := by cases inside
  returned_from inside := by cases inside
  kept _ _ inside := by cases inside

/-- What the call of `mapPool` leaves. -/
theorem mapPool_start (R E : Type) (items : List T) (number : concurrency ≠ .nan) :
    (mapPool items concurrency : PoolState T R E).Sound items ∧
      (mapPool items concurrency : PoolState T R E).Answered ∧
      (mapPool items concurrency : PoolState T R E).settlements = [] ∧
      (items = [] ∨ (mapPool items concurrency : PoolState T R E).loops ≠ []) ∧
      ∀ k ≤ (mapPool items concurrency : PoolState T R E).loops.length,
        ((Double.finite 1).max concurrency).lt (.finite k) = false := by
  unfold mapPool
  dsimp only
  split_ifs with empty
  · refine ⟨sound_fresh items _, ⟨?_, ?_, ?_⟩, rfl, .inl empty, fun k small => ?_⟩
    · intro none
      cases none
    · intro out done
      cases done
      rw [empty]
      exact ⟨rfl, rfl⟩
    · intro error given
      cases given
    · exact (poolLoops_spec number le_rfl).2 k
        (small.trans ((Nat.zero_le 1).trans (poolLoops_spec number le_rfl).1))
  · have proper : 1 ≤ items.length := List.length_pos_iff.mpr empty
    rcases poolLoops_spec number proper with ⟨least, most⟩
    rcases PoolState.spawn_spec items (poolLimit concurrency items.length).toLength
      ({ next := 0, loops := [], out := List.replicate items.length none, handed := [],
         settlements := [], answer := none } : PoolState T R E) with ⟨size, settled, answer⟩
    rw [List.length_nil, Nat.zero_add] at size
    refine ⟨(PoolState.Sound.spawn (sound_fresh items none)).conclude,
      PoolState.answered_conclude ?_ ?_, ?_, .inr ?_, fun k small => ?_⟩
    · intro out done
      cases answer.symm.trans done
    · intro error given
      cases answer.symm.trans given
    · rw [PoolState.conclude_settlements]
      exact settled
    · rw [PoolState.conclude_loops]
      exact List.ne_nil_of_length_pos (by omega)
    · rw [PoolState.conclude_loops, size] at small
      exact most k small

/-- **Every order of events.** Each item is handed to a worker once and in order, within the
concurrency, and the answer is the results or the error of a worker; after two events for each
item nothing more happens. -/
theorem mapPool_law (number : concurrency ≠ .nan) {events : List (PoolEvent R E)}
    {state : PoolState T R E}
    (run : Runs.exec (PoolState.step items) (mapPool items concurrency) events = some state) :
    state.Met items concurrency ∧ events.length ≤ 2 * items.length := by
  rcases mapPool_start R E items number with ⟨sound, answered, unsettled, looped, bounded⟩
  have kept : state.Running items
      (mapPool items concurrency : PoolState T R E).loops.length :=
    (Runs.reaches_of_exec run).keeps ⟨sound, answered, rfl⟩ fun _ _ _ held _ => held.step
  rcases kept with ⟨sound', answered', size⟩
  refine ⟨sound'.met answered' (looped.imp_right fun some_loop => ?_) ?_, ?_⟩
  · exact List.ne_nil_of_length_pos (size ▸ List.length_pos_iff.mpr some_loop)
  · rw [size]
    exact bounded
  · have idle :
        (mapPool items concurrency : PoolState T R E).loops.countP PoolState.goesOn = 0 := by
      refine List.countP_eq_zero.mpr fun loop inside going => ?_
      cases loop with
      | settled i outcome =>
          have settled := sound.settled_from i outcome inside
          rw [unsettled] at settled
          cases settled
      | waiting => cases going
      | returned => cases going
      | threw => cases going
    have count := PoolState.count_exec run
    rw [idle, unsettled, List.length_nil] at count
    have settled := sound'.accounts.length_eq
    rw [List.length_append, List.length_map, List.length_map] at settled
    have handed := sound'.length_handed
    omega

/-- Three items and two loops; the second promise settles first. -/
theorem mapPool_law_three :
    ∃ state : PoolState Nat Nat Text,
      Runs.exec (PoolState.step [10, 20, 30]) (mapPool [10, 20, 30] (.finite 2))
        [.settle 1 (.ok 21), .resume 1, .settle 0 (.ok 11), .settle 1 (.ok 31), .resume 1,
          .resume 0] = some state ∧
      state.answer = some (.ok [some 11, some 21, some 31]) ∧
      state.Met [10, 20, 30] (.finite 2) ∧ 6 ≤ 2 * [10, 20, 30].length := by
  have ran : ∃ state : PoolState Nat Nat Text,
      Runs.exec (PoolState.step [10, 20, 30]) (mapPool [10, 20, 30] (.finite 2))
        [.settle 1 (.ok 21), .resume 1, .settle 0 (.ok 11), .settle 1 (.ok 31), .resume 1,
          .resume 0] = some state ∧
      state.answer = some (.ok [some 11, some 21, some 31]) := ⟨_, rfl, rfl⟩
  rcases ran with ⟨state, run, answer⟩
  exact ⟨state, run, answer, mapPool_law (by decide) run⟩

end Law

end Proxora
