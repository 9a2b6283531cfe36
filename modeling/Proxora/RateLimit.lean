import Proxora.Ecma.Maps

/-!
# The rate limiter

`rateLimit` of `server/http/rate-limit.ts`, over a map of buckets; times are in
milliseconds.

`callsLeft` is what a key is still allowed up to the end of a span of one window length.
Every call that is allowed takes one away (`callsLeft_rateLimit`), no other call adds to it
(`callsLeft_rateLimit_other`), and it starts at no more than two limits (`callsLeft_le`).
-/

namespace Proxora

open Ecma

/-- What the map has for a key. -/
structure Bucket where
  count : Nat
  resetAt : Nat
deriving DecidableEq, Repr

abbrev Buckets : Type := Record Bucket

def prune (buckets : Buckets) (now : Nat) : Buckets :=
  if buckets.entries.length < 256 then buckets
  else buckets.filter fun entry => !(decide (entry.resetAt < now))

/-- Whether the call is allowed, and the buckets after it. -/
def rateLimit (buckets : Buckets) (key : Text) (limit windowMs now : Nat) : Bool × Buckets :=
  let buckets := prune buckets now
  let fresh := (true, buckets.set key ⟨1, now + windowMs⟩)
  match buckets.get? key with
  | none => fresh
  | some current =>
      if current.resetAt < now then fresh
      else if current.count ≥ limit then (false, buckets)
      else (true, buckets.set key { current with count := current.count + 1 })

/-! ## What a key is still allowed -/

/-- What is left until `start + windowMs`: the rest of the bucket, and a new bucket where
the old one ends before. -/
def Bucket.left (limit windowMs start : Nat) : Option Bucket → Nat
  | none => limit
  | some entry => (limit - entry.count) + if entry.resetAt < start + windowMs then limit else 0

def callsLeft (buckets : Buckets) (key : Text) (limit windowMs start : Nat) : Nat :=
  Bucket.left limit windowMs start (buckets.get? key)

section Left

variable {buckets : Buckets} {key other : Text} {limit windowMs now start : Nat} {entry : Bucket}

theorem callsLeft_le (buckets : Buckets) (key : Text) (limit windowMs start : Nat) :
    callsLeft buckets key limit windowMs start ≤ 2 * limit := by
  unfold callsLeft Bucket.left
  split
  · omega
  · split <;> omega

theorem get?_prune (buckets : Buckets) (key : Text) (now : Nat) :
    (prune buckets now).get? key = buckets.get? key ∨
      (prune buckets now).get? key = none ∧ ∃ entry, buckets.get? key = some entry ∧
        entry.resetAt < now := by
  unfold prune
  split
  · exact .inl rfl
  · have read : (buckets.filter fun entry => !(decide (entry.resetAt < now))).get? key =
        (buckets.get? key).filter fun entry => !(decide (entry.resetAt < now)) :=
      lookup_filter_entries buckets.nodup (fun entry => !(decide (entry.resetAt < now))) key
    rw [read]
    cases held : buckets.get? key with
    | none => exact .inl rfl
    | some entry =>
        by_cases expired : entry.resetAt < now
        · exact .inr ⟨by simp [Option.filter, expired], entry, rfl, expired⟩
        · exact .inl (by simp [Option.filter, expired])

/-- What is dropped has a successor in the same span. -/
theorem callsLeft_prune (buckets : Buckets) (key : Text) (limit : Nat)
    (inTime : now ≤ start + windowMs) :
    callsLeft (prune buckets now) key limit windowMs start ≤
      callsLeft buckets key limit windowMs start := by
  unfold callsLeft
  rcases get?_prune buckets key now with
    kept | ⟨dropped, entry, held, expired⟩
  · rw [kept]
  · rw [dropped, held, Bucket.left, Bucket.left, if_pos (Nat.lt_of_lt_of_le expired inTime)]
    exact Nat.le_add_left limit _

theorem callsLeft_set_other {value : Bucket} (apart : key ≠ other) :
    callsLeft (buckets.set other value) key limit windowMs start =
      callsLeft buckets key limit windowMs start := by
  unfold callsLeft
  rw [Record.get?_set, if_neg apart]

/-- A call for another key adds nothing. -/
theorem callsLeft_rateLimit_other {otherLimit otherMs : Nat} (apart : key ≠ other)
    (inTime : now ≤ start + windowMs) :
    callsLeft (rateLimit buckets other otherLimit otherMs now).2 key limit windowMs start ≤
      callsLeft buckets key limit windowMs start := by
  have pruned := callsLeft_prune buckets key limit inTime
  unfold rateLimit
  dsimp only
  split
  · exact (callsLeft_set_other apart).trans_le pruned
  · split_ifs
    · exact (callsLeft_set_other apart).trans_le pruned
    · exact pruned
    · exact (callsLeft_set_other apart).trans_le pruned

/-- A new bucket outlasts the span. -/
theorem callsLeft_fresh (positive : 0 < limit) (begun : start ≤ now)
    (renewed : limit ≤ callsLeft buckets key limit windowMs start) :
    callsLeft (buckets.set key ⟨1, now + windowMs⟩) key limit windowMs start + 1 ≤
      callsLeft buckets key limit windowMs start := by
  have lasts : ¬now + windowMs < start + windowMs := by omega
  have after :
      callsLeft (buckets.set key ⟨1, now + windowMs⟩) key limit windowMs start = limit - 1 := by
    unfold callsLeft
    rw [Record.get?_set, if_pos rfl, Bucket.left, if_neg lasts, Nat.add_zero]
  omega

/-- **A call that is allowed takes one away.** -/
theorem callsLeft_rateLimit (buckets : Buckets) (key : Text) (positive : 0 < limit) (begun : start ≤ now)
    (inTime : now ≤ start + windowMs) :
    callsLeft (rateLimit buckets key limit windowMs now).2 key limit windowMs start +
        (rateLimit buckets key limit windowMs now).1.toNat ≤
      callsLeft buckets key limit windowMs start := by
  refine le_trans ?_ (callsLeft_prune buckets key limit inTime)
  unfold rateLimit
  generalize prune buckets now = buckets
  dsimp only
  cases held : buckets.get? key with
  | none =>
      refine callsLeft_fresh positive begun ?_
      unfold callsLeft
      rw [held, Bucket.left]
  | some current =>
      dsimp only
      split_ifs with expired full
      · refine callsLeft_fresh positive begun ?_
        unfold callsLeft
        rw [held, Bucket.left, if_pos (Nat.lt_of_lt_of_le expired inTime)]
        exact Nat.le_add_left limit _
      · exact Nat.le_refl _
      · unfold callsLeft
        rw [Record.get?_set, if_pos rfl, held, Bucket.left, Bucket.left, Bool.toNat_true]
        dsimp only
        omega

end Left

end Proxora
