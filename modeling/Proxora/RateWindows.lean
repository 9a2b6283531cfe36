import Mathlib
import Proxora.RateLimit

/-!
# The windows of the rate limiter

A fixed-window limiter that never drops a bucket, and `rateLimit` of `server/http/rate-limit.ts`,
which drops buckets that have ended when there are many. `decisions_eq` is a simulation: what is
dropped has ended, so that the next call for its key opens a window in any case.
`windows_bounded` says what the windows allow.
-/

namespace Proxora

open Ecma

/-! ## Calls and decisions -/

/-- The arguments of `rateLimit`, and the time at which it is called. -/
structure RateCall where
  key : Text
  limit : Nat
  windowMs : Nat
  now : Nat
deriving DecidableEq, Repr

/-- What becomes of a call: whether it opens a window, and whether it is allowed. -/
structure RateDecision where
  call : RateCall
  opens : Bool
  allowed : Bool
deriving DecidableEq, Repr

/-- There is no bucket, or it has ended. -/
def hasEnded (bucket : Option Bucket) (now : Nat) : Bool :=
  bucket.all fun entry => entry.resetAt < now

/-- The limiter of the source. -/
def limited (buckets : Buckets) (call : RateCall) : RateDecision × Buckets :=
  let outcome := rateLimit buckets call.key call.limit call.windowMs call.now
  (⟨call, hasEnded ((prune buckets call.now).get? call.key) call.now, outcome.1⟩, outcome.2)

/-- Buckets that are never dropped. -/
abbrev Windows : Type := Text → Option Bucket

/-- What a fixed window makes of a call: the first call opens it, and it counts the others up to
the limit. -/
def countCall (bucket : Option Bucket) (call : RateCall) : Bool × Bucket :=
  match bucket with
  | none => (true, ⟨1, call.now + call.windowMs⟩)
  | some entry =>
      if entry.resetAt < call.now then (true, ⟨1, call.now + call.windowMs⟩)
      else if call.limit ≤ entry.count then (false, entry)
      else (true, { entry with count := entry.count + 1 })

/-- The limiter that never prunes. -/
def fixedWindow (windows : Windows) (call : RateCall) : RateDecision × Windows :=
  let counted := countCall (windows call.key) call
  (⟨call, hasEnded (windows call.key) call.now, counted.1⟩,
    Function.update windows call.key (some counted.2))

/-- The decisions of a limiter on calls in order. -/
def decisions {σ : Type} (limiter : σ → RateCall → RateDecision × σ) : σ → List RateCall →
    List RateDecision
  | _, [] => []
  | s, call :: calls => (limiter s call).1 :: decisions limiter (limiter s call).2 calls

/-! ## Pruning -/

/-- The limiter knows what the other one knows, or nothing where the window has ended. -/
def SameWindows (buckets : Buckets) (windows : Windows) (now : Nat) : Prop :=
  ∀ key, buckets.get? key = windows key ∨ buckets.get? key = none ∧ hasEnded (windows key) now = true

section

variable {buckets : Buckets} {windows : Windows} {now later : Nat} {call : RateCall}

theorem hasEnded_mono {bucket : Option Bucket} (le : now ≤ later)
    (ended : hasEnded bucket now = true) : hasEnded bucket later = true := by
  cases bucket with
  | none => rfl
  | some entry => exact decide_eq_true ((of_decide_eq_true ended).trans_le le)

theorem SameWindows.mono (tracks : SameWindows buckets windows now) (le : now ≤ later) :
    SameWindows buckets windows later :=
  fun key => (tracks key).imp_right fun ⟨dropped, ended⟩ => ⟨dropped, hasEnded_mono le ended⟩

theorem SameWindows.prune (tracks : SameWindows buckets windows now) :
    SameWindows (prune buckets now) windows now := by
  intro key
  rcases get?_prune buckets key now with kept | ⟨dropped, entry, held, expired⟩
  · rw [kept]
    exact tracks key
  · refine .inr ⟨dropped, ?_⟩
    rcases tracks key with same | ⟨-, ended⟩
    · rw [← same, held]
      exact decide_eq_true expired
    · exact ended

/-- A call finds a window that has ended in both limiters, or the same bucket. -/
theorem SameWindows.found (tracks : SameWindows buckets windows call.now) :
    hasEnded (buckets.get? call.key) call.now = hasEnded (windows call.key) call.now ∧
      countCall (buckets.get? call.key) call = countCall (windows call.key) call := by
  rcases tracks call.key with same | ⟨dropped, ended⟩
  · rw [same]
    exact ⟨rfl, rfl⟩
  · rw [dropped, ended]
    refine ⟨rfl, ?_⟩
    cases held : windows call.key with
    | none => rfl
    | some entry =>
        rw [held] at ended
        rw [countCall, countCall, if_pos (of_decide_eq_true ended)]

/-- `rateLimit` is a fixed window on the buckets that are left. -/
theorem rateLimit_eq (buckets : Buckets) (call : RateCall) :
    (rateLimit buckets call.key call.limit call.windowMs call.now).1 =
        (countCall ((prune buckets call.now).get? call.key) call).1 ∧
      ∀ key, (rateLimit buckets call.key call.limit call.windowMs call.now).2.get? key =
        if key = call.key then some (countCall ((prune buckets call.now).get? call.key) call).2
        else (prune buckets call.now).get? key := by
  rw [rateLimit]
  generalize prune buckets call.now = buckets
  cases held : buckets.get? call.key with
  | none => exact ⟨rfl, fun key => Record.get?_set⟩
  | some entry =>
      rw [countCall]
      dsimp only
      split_ifs with expired full
      · exact ⟨rfl, fun key => Record.get?_set⟩
      · refine ⟨rfl, fun key => ?_⟩
        split_ifs with same
        · rw [same, held]
        · rfl
      · exact ⟨rfl, fun key => Record.get?_set⟩

/-- One call keeps the limiters together. -/
theorem SameWindows.step (tracks : SameWindows buckets windows call.now) :
    (limited buckets call).1 = (fixedWindow windows call).1 ∧
      SameWindows (limited buckets call).2 (fixedWindow windows call).2 call.now := by
  obtain ⟨ended, counted⟩ := tracks.prune.found
  obtain ⟨allowed, after⟩ := rateLimit_eq buckets call
  constructor
  · rw [limited, fixedWindow]
    dsimp only
    rw [allowed, ended, counted]
  · intro key
    rw [limited, fixedWindow]
    dsimp only
    rw [after, counted]
    by_cases same : key = call.key
    · rw [if_pos same, same, Function.update_self]
      exact .inl rfl
    · rw [if_neg same, Function.update_of_ne same]
      exact tracks.prune key

theorem decisions_of_tracks {calls : List RateCall} (tracks : SameWindows buckets windows now)
    (after : ∀ call ∈ calls, now ≤ call.now) (inOrder : calls.Pairwise (·.now ≤ ·.now)) :
    decisions limited buckets calls = decisions fixedWindow windows calls := by
  induction calls generalizing buckets windows now with
  | nil => rfl
  | cons call calls ih =>
      obtain ⟨first, rest⟩ := List.pairwise_cons.mp inOrder
      obtain ⟨same, tracks⟩ := (tracks.mono (after call List.mem_cons_self)).step
      rw [decisions, decisions, same, ih tracks first rest]

end

/-- **Pruning changes no decision.** -/
theorem decisions_eq {calls : List RateCall} (inOrder : calls.Pairwise (·.now ≤ ·.now)) :
    decisions limited Record.empty calls = decisions fixedWindow (fun _ => none) calls :=
  decisions_of_tracks (show SameWindows Record.empty (fun _ => none) 0 from fun _ => .inl rfl)
    (fun _ _ => Nat.zero_le _) inOrder

/-! ## What a window allows -/

/-- The state after calls in order. -/
def stateAfter {σ : Type} (limiter : σ → RateCall → RateDecision × σ) : σ → List RateCall → σ
  | s, [] => s
  | s, call :: calls => stateAfter limiter (limiter s call).2 calls

/-- Decisions on the calls of a key that were allowed. -/
def allowedFor (key : Text) (ds : List RateDecision) : Nat :=
  ds.countP fun d => d.call.key = key && d.allowed

/-- No window of the key begins. -/
def Quiet (key : Text) (ds : List RateDecision) : Prop :=
  ∀ d ∈ ds, d.call.key = key → d.opens = false

/-- From the call that opens a window to the next such call no more than the limit are allowed, and
the next one comes after the window has ended. -/
structure WindowLaw (key : Text) (limit windowMs : Nat) (ds : List RateDecision) : Prop where
  atMost : ∀ front first middle back, ds = front ++ first :: (middle ++ back) →
    first.call.key = key → first.opens = true → Quiet key middle →
    allowedFor key (first :: middle) ≤ limit
  apart : ∀ front first middle next back, ds = front ++ first :: (middle ++ next :: back) →
    first.call.key = key → first.opens = true → Quiet key middle →
    next.call.key = key → next.opens = true → first.call.now + windowMs < next.call.now

section

variable {σ : Type} {limiter : σ → RateCall → RateDecision × σ} {s : σ} {calls : List RateCall}

/-- Decisions that come first are those on the calls that come first. -/
theorem decisions_eq_append {xs ys : List RateDecision}
    (form : decisions limiter s calls = xs ++ ys) :
    ∃ before after, calls = before ++ after ∧ decisions limiter s before = xs ∧
      decisions limiter (stateAfter limiter s before) after = ys := by
  induction xs generalizing s calls with
  | nil => exact ⟨[], calls, rfl, rfl, form⟩
  | cons x xs ih =>
      cases calls with
      | nil => cases form
      | cons call calls =>
          rw [decisions, List.cons_append, List.cons.injEq] at form
          obtain ⟨before, after, rfl, front, back⟩ := ih form.2
          refine ⟨call :: before, after, rfl, ?_, back⟩
          rw [decisions, form.1, front]

end

section

variable {windows : Windows} {calls : List RateCall} {key : Text} {limit : Nat}

theorem stateAfter_cons (windows : Windows) (call : RateCall) (calls : List RateCall) :
    stateAfter fixedWindow windows (call :: calls) =
      stateAfter fixedWindow (fixedWindow windows call).2 calls :=
  rfl

theorem allowedFor_cons {d : RateDecision} (mine : d.call.key = key) (ds : List RateDecision) :
    allowedFor key (d :: ds) = d.allowed.toNat + allowedFor key ds := by
  rw [allowedFor, List.countP_cons, mine, decide_eq_true rfl, Bool.true_and, Nat.add_comm]
  cases d.allowed <;> rfl

theorem allowedFor_cons_of_ne {d : RateDecision} (other : d.call.key ≠ key)
    (ds : List RateDecision) : allowedFor key (d :: ds) = allowedFor key ds := by
  refine List.countP_cons_of_neg ?_
  rw [decide_eq_false other, Bool.false_and]
  exact Bool.false_ne_true

/-- A call in a window that has not ended counts when it is allowed. -/
theorem countCall_of_open {entry : Bucket} {call : RateCall} (lasting : ¬entry.resetAt < call.now) :
    countCall (some entry) call =
      if call.limit ≤ entry.count then (false, entry)
      else (true, { entry with count := entry.count + 1 }) :=
  if_neg lasting

/-- As long as no other window begins, the bucket counts what is allowed, up to the limit. -/
theorem bucket_counts {entry : Bucket} (held : windows key = some entry) (fits : entry.count ≤ limit)
    (same : ∀ call ∈ calls, call.key = key → call.limit = limit)
    (quiet : Quiet key (decisions fixedWindow windows calls)) :
    entry.count + allowedFor key (decisions fixedWindow windows calls) ≤ limit ∧
      stateAfter fixedWindow windows calls key =
        some { entry with
          count := entry.count + allowedFor key (decisions fixedWindow windows calls) } := by
  induction calls generalizing windows entry with
  | nil => exact ⟨fits, held⟩
  | cons call calls ih =>
      rw [decisions, Quiet, List.forall_mem_cons] at quiet
      obtain ⟨first, quiet⟩ := quiet
      have others : ∀ call ∈ calls, call.key = key → call.limit = limit := fun call inside =>
        same call (List.mem_cons_of_mem _ inside)
      rw [decisions, stateAfter_cons]
      by_cases mine : call.key = key
      · have still : hasEnded (windows call.key) call.now = false := first mine
        rw [mine, held] at still
        have counted := countCall_of_open (of_decide_eq_false still)
        rw [same call List.mem_cons_self mine] at counted
        have after : (fixedWindow windows call).2 key =
            some (countCall (some entry) call).2 := by
          rw [fixedWindow]
          dsimp only
          rw [mine, Function.update_self, held]
        have answer : (fixedWindow windows call).1.allowed = (countCall (some entry) call).1 := by
          rw [fixedWindow, mine, held]
        rw [allowedFor_cons mine, answer]
        by_cases full : limit ≤ entry.count
        · rw [if_pos full] at counted
          rw [counted] at after ⊢
          have rest := ih after fits others quiet
          rw [Bool.toNat_false, Nat.zero_add]
          exact rest
        · rw [if_neg full] at counted
          rw [counted] at after ⊢
          have rest := ih after (by dsimp only; omega) others quiet
          rw [Bool.toNat_true, ← Nat.add_assoc]
          exact rest
      · have kept : (fixedWindow windows call).2 key = some entry := by
          rw [fixedWindow]
          dsimp only
          rw [Function.update_of_ne (Ne.symm mine), held]
        rw [allowedFor_cons_of_ne mine]
        exact ih kept fits others quiet

/-- The call that opens a window leaves a bucket that counts it. -/
theorem bucket_of_opens (windows : Windows) {call : RateCall} (opens : hasEnded (windows call.key) call.now = true) :
    countCall (windows call.key) call = (true, ⟨1, call.now + call.windowMs⟩) := by
  cases held : windows call.key with
  | none => rfl
  | some entry =>
      rw [held] at opens
      rw [countCall]
      exact if_pos (of_decide_eq_true opens)

/-- The window that a call opens, up to the next one. -/
theorem window_from {front back : List RateDecision} {first : RateDecision} {windowMs : Nat}
    (same : ∀ call ∈ calls, call.key = key → call.limit = limit ∧ call.windowMs = windowMs)
    (positive : 1 ≤ limit) {middle : List RateDecision}
    (form : decisions fixedWindow windows calls = front ++ first :: (middle ++ back))
    (mine : first.call.key = key) (opens : first.opens = true) (quiet : Quiet key middle) :
    allowedFor key (first :: middle) ≤ limit ∧
      ∃ windows rest entry, decisions fixedWindow windows rest = back ∧
        windows key = some entry ∧ entry.resetAt = first.call.now + windowMs := by
  obtain ⟨before, after, rfl, -, tail⟩ := decisions_eq_append form
  generalize stateAfter fixedWindow windows before = windows at tail
  cases after with
  | nil => cases tail
  | cons call after =>
      rw [decisions, List.cons.injEq] at tail
      obtain ⟨rfl, tail⟩ := tail
      obtain ⟨between, rest, rfl, rfl, rfl⟩ := decisions_eq_append tail
      have own : call.key = key := mine
      have fresh := bucket_of_opens windows opens
      have terms := same call (List.mem_append_right _ List.mem_cons_self) own
      have held : (fixedWindow windows call).2 key = some ⟨1, call.now + call.windowMs⟩ := by
        rw [fixedWindow]
        dsimp only
        rw [fresh, own, Function.update_self]
      have limits : ∀ call ∈ between, call.key = key → call.limit = limit := fun call inside own =>
        (same call (List.mem_append_right _
          (List.mem_cons_of_mem _ (List.mem_append_left _ inside))) own).1
      obtain ⟨bound, counted⟩ := bucket_counts held positive limits quiet
      have answer : (fixedWindow windows call).1.allowed = true := by
        rw [fixedWindow, fresh]
      rw [allowedFor_cons mine, answer]
      refine ⟨bound, _, rest, _, rfl, counted, ?_⟩
      rw [terms.2]
      rfl

end

/-- **What the windows of the limiter allow**, whatever it drops. -/
theorem windows_bounded {calls : List RateCall} (inOrder : calls.Pairwise (·.now ≤ ·.now)) :
    decisions limited Record.empty calls = decisions fixedWindow (fun _ => none) calls ∧
      ∀ key limit windowMs, 1 ≤ limit →
        (∀ call ∈ calls, call.key = key → call.limit = limit ∧ call.windowMs = windowMs) →
        WindowLaw key limit windowMs (decisions limited Record.empty calls) := by
  refine ⟨decisions_eq inOrder, fun key limit windowMs positive same => ?_⟩
  rw [decisions_eq inOrder]
  constructor
  · intro front first middle back form mine opens quiet
    exact (window_from same positive form mine opens quiet).1
  · intro front first middle next back form mine opens quiet own begins
    obtain ⟨-, windows, rest, entry, tail, held, ends⟩ :=
      window_from same positive form mine opens quiet
    cases rest with
    | nil => cases tail
    | cons call rest =>
        rw [decisions, List.cons.injEq] at tail
        obtain ⟨rfl, -⟩ := tail
        have ended : hasEnded (windows call.key) call.now = true := begins
        have call_key : call.key = key := own
        rw [call_key, held] at ended
        rw [← ends]
        exact of_decide_eq_true ended

/-- Calls for two addresses, two of them in one window. -/
def loginCalls : List RateCall :=
  [⟨"a", 1, 900, 0⟩, ⟨"b", 8, 900, 5⟩, ⟨"a", 1, 900, 900⟩, ⟨"a", 1, 900, 901⟩]

theorem windows_bounded_login :
    WindowLaw "a" 1 900 (decisions limited Record.empty loginCalls) ∧
      (decisions limited Record.empty loginCalls).map (·.allowed) = [true, true, false, true] :=
  ⟨(windows_bounded (show loginCalls.Pairwise (·.now ≤ ·.now) by decide)).2 "a" 1 900 le_rfl
    (by decide), by decide⟩

end Proxora
