import Proxora.CyclicWindows
import Proxora.Ecma.Maps

/-!
# The rotation of the disk watch

`takeRotated` of `server/services/disk-watch.ts`, and the offset by host that `scanDiskUsage`
carries from scan to scan. A scan asks the agents of no more than `DISK_AGENT_LIMIT` guests of a
host; the rounds of other hosts come in between, and the list of guests changes with the host.

`rotation_starves_nobody`: from any offsets, enough rounds over the same guests ask each of them.
-/

namespace Proxora

open Ecma

variable {α : Type}

structure Rotated (α : Type) where
  picked : List α
  nextOffset : Nat
deriving DecidableEq, Repr

def takeRotated (items : List α) (offset limit : Nat) : Rotated α :=
  if empty : items = [] then ⟨[], 0⟩
  else if items.length ≤ limit then ⟨items, 0⟩
  else
    { picked := (List.range limit).map fun i =>
        items.get ⟨(offset + i) % items.length, Nat.mod_lt _ (List.length_pos_iff.mpr empty)⟩
      nextOffset := (offset + limit) % items.length }

/-! ## The rounds -/

/-- `agentOffsets`: where the next round of a host begins. -/
abbrev AgentOffsets : Type := Record Nat

/-- The part of a host in a scan: its guests that only their agent can answer for. -/
structure AgentRound (α : Type) where
  host : Text
  needAgent : List α

/-- The offsets after a round, and the guests that are asked. -/
def agentRound (limit : Nat) (offsets : AgentOffsets) (round : AgentRound α) :
    AgentOffsets × List α :=
  let offset := (offsets.get? round.host).getD 0
  let rotated := takeRotated round.needAgent offset limit
  (offsets.set round.host rotated.nextOffset, rotated.picked)

/-- The guests that are asked in each round, under the host of the round. -/
def agentRounds (limit : Nat) : AgentOffsets → List (AgentRound α) → List (Text × List α)
  | _, [] => []
  | offsets, round :: rounds =>
      let result := agentRound limit offsets round
      (round.host, result.2) :: agentRounds limit result.1 rounds

/-- What was picked in the rounds of a host. -/
def picksOf (host : Text) (picks : List (Text × List α)) : List (List α) :=
  (picks.filter (·.1 = host)).map Prod.snd

/-- A round picked the guests at these places: as many as there are within the limit, and none
of them twice. -/
structure PicksAt (guests : List α) (limit : Nat) (picked : List α) (places : List Nat) : Prop where
  picked_eq : picked.map some = places.map (guests[·]?)
  distinct : places.Nodup
  size : places.length = min guests.length limit

/-! ## One round -/

theorem takeRotated_picked (items : List α) (offset limit : Nat) :
    (takeRotated items offset limit).picked.map some =
      (Cyclic.turn items.length offset limit).map (items[·]?) := by
  unfold takeRotated Cyclic.turn
  split_ifs with empty all all
  · rw [empty]
    rfl
  · rw [empty] at all
    exact absurd (Nat.zero_le limit) all
  · refine List.ext_getElem (by simp) fun i here _ => ?_
    simp only [List.length_map] at here
    simp [List.getElem?_eq_getElem here]
  · have within : ∀ i, (offset + i) % items.length < items.length := fun i =>
      Nat.mod_lt _ (List.length_pos_iff.mpr empty)
    simp only [Cyclic.window, List.map_map, Function.comp_def, List.get_eq_getElem,
      List.getElem?_eq_getElem (within _)]

theorem takeRotated_nextOffset (items : List α) (offset limit : Nat) :
    (takeRotated items offset limit).nextOffset =
      Cyclic.nextOffset items.length offset limit := by
  unfold takeRotated Cyclic.nextOffset
  split_ifs with empty all all
  · rfl
  · rw [empty] at all
    exact absurd (Nat.zero_le limit) all
  · rfl
  · rfl

theorem takeRotated_picksAt (items : List α) (offset limit : Nat) :
    PicksAt items limit (takeRotated items offset limit).picked
      (Cyclic.turn items.length offset limit) where
  picked_eq := takeRotated_picked items offset limit
  distinct := Cyclic.nodup_turn
  size := Cyclic.length_turn

/-! ## Many rounds -/

variable {limit : Nat} {offsets : AgentOffsets} {host : Text} {guests : List α}
  {round : AgentRound α} {rounds : List (AgentRound α)}

/-- A round of another host leaves the offset of this host as it is. -/
theorem agentRound_other (other : round.host ≠ host) :
    (agentRound limit offsets round).1.get? host = offsets.get? host := by
  rw [agentRound, Record.get?_set, if_neg (Ne.symm other)]

theorem picksOf_cons_other (picked : List α) (picks : List (Text × List α))
    (other : round.host ≠ host) :
    picksOf host ((round.host, picked) :: picks) = picksOf host picks := by
  rw [picksOf, List.filter_cons_of_neg (by simpa using other), picksOf]

theorem picksOf_cons_own (picked : List α) (picks : List (Text × List α)) :
    picksOf round.host ((round.host, picked) :: picks) = picked :: picksOf round.host picks := by
  rw [picksOf, List.filter_cons_of_pos (by simp), List.map_cons, picksOf]

/-- The rounds of a host are the turns of a rotation from its offset on. -/
theorem agentRounds_turns (fixed : ∀ round ∈ rounds, round.host = host → round.needAgent = guests) :
    List.Forall₂ (PicksAt guests limit) (picksOf host (agentRounds limit offsets rounds))
      (Cyclic.turns guests.length limit ((offsets.get? host).getD 0)
        (rounds.countP (·.host = host))) := by
  induction rounds generalizing offsets with
  | nil => exact .nil
  | cons round rounds ih =>
      have later := fun other inside => fixed other (List.mem_cons_of_mem _ inside)
      rw [agentRounds]
      by_cases own : round.host = host
      · subst own
        have listed := fixed round List.mem_cons_self rfl
        have carried : ((agentRound limit offsets round).1.get? round.host).getD 0 =
            Cyclic.nextOffset guests.length ((offsets.get? round.host).getD 0) limit := by
          rw [agentRound, Record.get?_set, if_pos rfl, Option.getD_some, takeRotated_nextOffset,
            listed]
        rw [picksOf_cons_own, List.countP_cons_of_pos (by simp), Cyclic.turns, ← carried]
        refine .cons ?_ (ih later)
        rw [agentRound, listed]
        exact takeRotated_picksAt guests _ limit
      · rw [picksOf_cons_other _ _ own, List.countP_cons_of_neg (by simpa using own),
          ← agentRound_other own]
        exact ih later

/-- From any offsets on, each round of a host picks as many of its guests as the limit allows,
and rounds that are enough for the number of guests pick every guest. -/
theorem rotation_starves_nobody (positive : 1 ≤ limit) (offsets : AgentOffsets)
    (fixed : ∀ round ∈ rounds, round.host = host → round.needAgent = guests) :
    ∃ places, List.Forall₂ (PicksAt guests limit)
        (picksOf host (agentRounds limit offsets rounds)) places ∧
      (guests.length ⌈/⌉ limit ≤ rounds.countP (·.host = host) →
        ∀ i < guests.length, ∃ taken ∈ places, i ∈ taken) := by
  refine ⟨_, agentRounds_turns fixed, fun enough i small => Cyclic.mem_turns_of_le ?_ small⟩
  rw [Nat.mul_comm]
  exact (ceilDiv_le_iff_le_mul positive).mp enough

/-- Three guests and a limit of two, from an offset of a longer list on, with another host in
between. -/
theorem rotation_starves_nobody_three :
    ∃ places, List.Forall₂ (PicksAt [100, 101, 102] 2)
        (picksOf "a" (agentRounds 2 (Record.empty.set "a" 7)
          [⟨"a", [100, 101, 102]⟩, ⟨"b", [7, 8, 9, 10]⟩, ⟨"a", [100, 101, 102]⟩])) places ∧
      ∀ i < [100, 101, 102].length, ∃ taken ∈ places, i ∈ taken := by
  have fixed : ∀ round ∈ ([⟨"a", [100, 101, 102]⟩, ⟨"b", [7, 8, 9, 10]⟩,
      ⟨"a", [100, 101, 102]⟩] : List (AgentRound Nat)),
      round.host = ("a" : Text) → round.needAgent = [100, 101, 102] := by
    decide
  obtain ⟨places, picked, covered⟩ :=
    rotation_starves_nobody (by decide : 1 ≤ 2) (Record.empty.set "a" 7) fixed
  exact ⟨places, picked, covered (by decide)⟩

end Proxora
