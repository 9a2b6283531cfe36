import Proxora.VncBridge

/-!
# The handshake in chunks

The handler of upstream messages in `pipeVnc` feeds `consumeProxmoxVncHandshake` chunk by chunk
and passes on what the handshake returns and every later chunk. `feedHandshake` is that feeding.
What Proxmox can send first is RFB data, or `OK`, a line end or none, and RFB data; the chunks do
not matter unless one of them begins with a line end, or the second half of one, right behind `OK`
(`feedHandshake_iff`).
-/

namespace Proxora

open Ecma Files

/-- The rest that the handshake returns with all later chunks. -/
def feedHandshake (previous : Bytes) : List Bytes → VncHandshake
  | [] => .waiting previous
  | chunk :: later =>
      match consumeProxmoxVncHandshake previous chunk with
      | .waiting rest => feedHandshake rest later
      | .done rest => .done (rest ++ later.flatten)
      | .error rest => .error rest

def VncHandshake.isError : VncHandshake → Bool
  | .error _ => true
  | .waiting _ | .done _ => false

/-- Nothing, LF, CR or CR LF. -/
def lineEnds : List Bytes := [[], [lineFeed], [carriageReturn], [carriageReturn, lineFeed]]

/-- What Proxmox can send first, with its RFB data. -/
structure SendsFirst (b rfb : Bytes) : Prop where
  banner : rfbBanner <+: rfb
  form : b = rfb ∨ ∃ lineEnd ∈ lineEnds, b = [0x4f, 0x4b] ++ (lineEnd ++ rfb)

/-- Some chunk begins with the rest of the line end of an `OK` that came without it. -/
def TearsLineEndIn (stream : Bytes) : List Bytes → Prop
  | [] => False
  | chunk :: later => VncPipe.TearsLineEnd stream chunk ∨ TearsLineEndIn (stream ++ chunk) later

namespace VncPipe

/-- The RFB bytes that the browser was sent. -/
def receivedRfb (s : VncPipe) : Bytes :=
  s.browserFrames.flatMap fun frame =>
    match frame with
    | .auth _ => []
    | .rfb bytes => bytes

end VncPipe

/-! ## What comes first -/

theorem dropLineEnd_of_banner {rfb lineEnd : Bytes} (banner : rfbBanner <+: rfb)
    (listed : lineEnd ∈ lineEnds) : dropLineEnd (lineEnd ++ rfb) = rfb := by
  obtain ⟨rest, rfl⟩ := banner
  simp only [lineEnds, List.mem_cons, List.not_mem_nil, or_false] at listed
  rcases listed with rfl | rfl | rfl | rfl <;> rfl

/-- The whole stream tells the RFB data. -/
theorem SendsFirst.acknowledged_eq {b rfb : Bytes} (first : SendsFirst b rfb) :
    acknowledged b = some rfb := by
  unfold acknowledged
  rcases first.form with rfl | ⟨lineEnd, listed, rfl⟩
  · exact if_pos first.banner
  · have other : ¬rfbBanner <+: [0x4f, 0x4b] ++ (lineEnd ++ rfb) := by
      rintro ⟨more, same⟩
      injection same with head _
      revert head
      decide
    rw [if_neg other, if_pos (List.prefix_append _ _)]
    exact congrArg some (dropLineEnd_of_banner first.banner listed)

theorem take_two_of_isPrefix {p b : Bytes} (inside : p <+: b) (long : 2 ≤ p.length) :
    b.take 2 <+: p := by
  rw [List.prefix_iff_eq_take] at inside
  rw [inside, List.length_take] at long
  rw [inside]
  exact List.take_prefix_take_left (by omega)

/-- A beginning from which nothing is known yet is too short for an error. -/
theorem SendsFirst.short {b rfb p : Bytes} (first : SendsFirst b rfb) (inside : p <+: b)
    (unknown : acknowledged p = none) : p.length < 16 := by
  unfold acknowledged at unknown
  by_contra long
  split at unknown
  · cases unknown
  · rename_i other
    split at unknown
    · cases unknown
    · rename_i notOk
      rcases first.form with rfl | ⟨lineEnd, -, rfl⟩
      · exact other (List.prefix_of_prefix_length_le first.banner inside
          (show 4 ≤ p.length by omega))
      · exact notOk (take_two_of_isPrefix inside (by omega))

/-! ## Chunk by chunk -/

/-- Behind the acknowledgement the rest grows with the chunks. -/
theorem acknowledged_flatten {chunks : List Bytes} {stream following : Bytes}
    (known : acknowledged stream = some following) (intact : ¬TearsLineEndIn stream chunks) :
    acknowledged (stream ++ chunks.flatten) = some (following ++ chunks.flatten) := by
  induction chunks generalizing stream following with
  | nil =>
      rw [List.flatten_nil, List.append_nil, List.append_nil]
      exact known
  | cons chunk later ih =>
      rw [TearsLineEndIn, not_or] at intact
      rw [List.flatten_cons, ← List.append_assoc, ← List.append_assoc]
      exact ih (acknowledged_append known intact.1) intact.2

/-- Where a line end is torn off, it is what comes next. -/
theorem lineEnd_of_torn {chunks : List Bytes} {stream following : Bytes}
    (known : acknowledged stream = some following) (torn : TearsLineEndIn stream chunks) :
    (following ++ chunks.flatten).head? = some carriageReturn ∨
      (following ++ chunks.flatten).head? = some lineFeed := by
  induction chunks generalizing stream following with
  | nil => exact torn.elim
  | cons chunk later ih =>
      by_cases here : VncPipe.TearsLineEnd stream chunk
      · have nothing : following = [] := by
          rcases here with ⟨rfl, -⟩ | ⟨rfl, -⟩
          · exact (Option.some.inj known).symm
          · exact (Option.some.inj known).symm
        have begins : chunk.head? = some carriageReturn ∨ chunk.head? = some lineFeed := by
          rcases here with ⟨-, begins⟩ | ⟨-, begins⟩
          · exact begins
          · exact Or.inr begins
        cases chunk with
        | nil => rcases begins with absent | absent <;> cases absent
        | cons c rest =>
            rw [nothing]
            exact begins
      · rw [List.flatten_cons, ← List.append_assoc]
        exact ih (acknowledged_append known here) (torn.resolve_left here)

/-- Nothing is torn off while nothing is known. -/
theorem not_tears_of_unknown {stream chunk : Bytes} (unknown : acknowledged stream = none) :
    ¬VncPipe.TearsLineEnd stream chunk := by
  rintro (⟨rfl, -⟩ | ⟨rfl, -⟩)
  · cases unknown
  · cases unknown

/-- **Step by step.** From what was kept, the chunks give the RFB data just if they tear no line
end off. -/
theorem feedHandshake_done_iff {b rfb : Bytes} (first : SendsFirst b rfb) {chunks : List Bytes}
    {previous : Bytes} (unknown : acknowledged previous = none)
    (cut : previous ++ chunks.flatten = b) :
    (feedHandshake previous chunks).isError = false ∧
      (feedHandshake previous chunks = .done rfb ↔ ¬TearsLineEndIn previous chunks) := by
  induction chunks generalizing previous with
  | nil =>
      rw [List.flatten_nil, List.append_nil] at cut
      rw [cut, first.acknowledged_eq] at unknown
      cases unknown
  | cons chunk later ih =>
      rw [List.flatten_cons, ← List.append_assoc] at cut
      have here : ¬VncPipe.TearsLineEnd previous chunk := not_tears_of_unknown unknown
      rw [feedHandshake, consumeProxmoxVncHandshake_eq, TearsLineEndIn, or_iff_right here]
      cases known : acknowledged (previous ++ chunk) with
      | none =>
          have short := first.short ⟨_, cut⟩ known
          dsimp only
          rw [if_neg (by omega)]
          exact ih known cut
      | some following =>
          refine ⟨rfl, ?_⟩
          constructor
          · intro same torn
            have begins := lineEnd_of_torn known torn
            rw [VncHandshake.done.inj same] at begins
            obtain ⟨rest, rfl⟩ := first.banner
            rcases begins with begins | begins <;> exact absurd (Option.some.inj begins) (by decide)
          · intro intact
            have whole := acknowledged_flatten known intact
            rw [cut, first.acknowledged_eq] at whole
            exact congrArg VncHandshake.done (Option.some.inj whole).symm

/-- The chunks give the RFB data, as one chunk does and with an error as little as there, just
if none of them begins with the rest of the line end right behind `OK`. -/
theorem feedHandshake_iff {b rfb : Bytes} {chunks : List Bytes} (first : SendsFirst b rfb)
    (cut : chunks.flatten = b) :
    (feedHandshake [] chunks = .done rfb ∧ feedHandshake [] chunks = feedHandshake [] [b] ∧
        (feedHandshake [] chunks).isError = (feedHandshake [] [b]).isError) ↔
      ¬TearsLineEndIn [] chunks := by
  have chunked := @feedHandshake_done_iff _ _ first _ [] rfl cut
  have single := @feedHandshake_done_iff _ _ first [b] [] rfl (List.append_nil b)
  have untorn : ¬TearsLineEndIn [] [b] := by
    rintro (torn | none)
    · exact not_tears_of_unknown rfl torn
    · exact none
  constructor
  · exact fun all => chunked.2.mp all.1
  · intro intact
    refine ⟨chunked.2.mpr intact, ?_, chunked.1.trans single.1.symm⟩
    rw [chunked.2.mpr intact, single.2.mpr untorn]

/-! ## The handler -/

namespace VncPipe

variable {password : Text}

/-- Once both sides are ready, every chunk is passed on. -/
theorem receivedRfb_of_ready (later : List Bytes) {s : VncPipe} (flag : s.upstreamReady = true)
    (client : s.clientReady = true) :
    (later.foldl (onRemoteMessage password) s).receivedRfb = s.receivedRfb ++ later.flatten := by
  induction later generalizing s with
  | nil => exact (List.append_nil _).symm
  | cons chunk later ih =>
      have passed : s.onRemoteMessage password chunk = s.sendBrowser chunk := by
        simp [onRemoteMessage, flag, client]
      have sent : (s.sendBrowser chunk).receivedRfb = s.receivedRfb ++ chunk := by
        simp [receivedRfb, sendBrowser]
      have others := ih (s := s.sendBrowser chunk) flag client
      rw [List.foldl_cons, passed, others, sent, List.append_assoc, List.flatten_cons]

/-- With a browser that is ready, the handler of upstream messages passes on what
`feedHandshake` returns. -/
theorem receivedRfb_of_feedHandshake (chunks : List Bytes) {s : VncPipe} {rest : Bytes}
    (flag : s.upstreamReady = false) (client : s.clientReady = true)
    (remote : s.remoteOpen = true) (nothing : s.receivedRfb = [])
    (fed : feedHandshake s.handshake chunks = .done rest) :
    (chunks.foldl (onRemoteMessage password) s).receivedRfb = rest := by
  induction chunks generalizing s with
  | nil => cases fed
  | cons chunk later ih =>
      have awaits : s.onRemoteMessage password chunk = s.awaitUpstream password chunk := by
        simp [onRemoteMessage, flag]
      rw [List.foldl_cons, awaits, awaitUpstream]
      rw [feedHandshake] at fed
      cases next : consumeProxmoxVncHandshake s.handshake chunk with
      | waiting kept =>
          rw [next] at fed
          exact ih flag client remote nothing fed
      | error kept =>
          rw [next] at fed
          cases fed
      | done kept =>
          rw [next] at fed
          dsimp only
          rw [flush_of_ready (by rfl) (by exact client) (by exact remote),
            receivedRfb_of_ready later (by rfl) (by exact client), ← VncHandshake.done.inj fed]
          refine congrArg (· ++ later.flatten) ?_
          rw [receivedRfb] at nothing ⊢
          dsimp only
          rw [List.flatMap_append, List.flatMap_append, nothing]
          by_cases empty : kept = []
          · simp [empty]
          · simp [empty]

end VncPipe

/-- `OK` and CR LF in one chunk, the RFB data in two. -/
theorem feedHandshake_iff_untorn :
    feedHandshake [] [[0x4f], [0x4b, carriageReturn, lineFeed], [0x52], [0x46, 0x42, 0x20]] =
      .done rfbBanner :=
  ((@feedHandshake_iff ([0x4f, 0x4b] ++ ([carriageReturn, lineFeed] ++ rfbBanner)) rfbBanner _
    ⟨List.prefix_rfl, Or.inr ⟨_, by decide, rfl⟩⟩ rfl).mpr
      (by simp [TearsLineEndIn, VncPipe.TearsLineEnd, carriageReturn, lineFeed])).1

/-- A line feed in a chunk of its own is passed on as RFB data. -/
theorem torn_lineFeed_passed_on :
    ¬∀ (b rfb : Bytes) (chunks : List Bytes), SendsFirst b rfb → (∀ chunk ∈ chunks, chunk ≠ []) →
      chunks.flatten = b → feedHandshake [] chunks = .done rfb := by
  intro all
  have passed := all ([0x4f, 0x4b] ++ ([lineFeed] ++ rfbBanner)) rfbBanner
    [[0x4f, 0x4b], [lineFeed], rfbBanner]
    ⟨List.prefix_rfl, Or.inr ⟨_, by decide, rfl⟩⟩ (by decide) rfl
  revert passed
  decide

end Proxora
