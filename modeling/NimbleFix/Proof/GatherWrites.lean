import NimbleFix.Runtime.Gather
import NimbleFix.Session.Sample

/-!
# What a batch of frames puts on the wire

`writeAll_puts` is the invariant of the write loop: however the calls cut the segments, what has
been written and what is left make up the whole. A batch is then written in full exactly when the
kernel takes its segments in one call (`sendFramesBatch_puts_iff`), which it does not for more than
`iovMax` of them.
-/

namespace NimbleFix

/-! ## What a batch puts on the wire -/

/-- The bytes `out` are put on the wire and nothing fails. -/
def Puts (r : Option (Except Status Unit × Wire)) (w : Wire) (out : Bytes) : Prop :=
  ∃ w', r = some (.ok (), w') ∧ w'.bytes = w.bytes ++ out

section

variable {sock : Socket} (hsock : sock.Accepts)
include hsock

/-- The loop writes what is left of the segments, whatever part each call takes. -/
theorem writeAll_puts (what : String) {fuel : Nat} {iov : List Bytes} {left : Nat}
    (hleft : left = iov.flatten.length) (hfuel : left ≤ fuel) (hmax : iov.length ≤ iovMax) :
    ∀ w, Puts (writeAll sock what fuel iov left w) w iov.flatten := by
  induction fuel generalizing iov left with
  | zero =>
    intro w
    obtain rfl : left = 0 := by omega
    have hnil : iov.flatten = [] := List.length_eq_zero_iff.1 hleft.symm
    exact ⟨w, by simp [writeAll], by simp [hnil]⟩
  | succ fuel ih =>
    intro w
    cases left with
    | zero =>
      have hnil : iov.flatten = [] := List.length_eq_zero_iff.1 hleft.symm
      exact ⟨w, by simp [writeAll], by simp [hnil]⟩
    | succ left =>
      have hne : iov.flatten ≠ [] := by
        intro h
        simp [h] at hleft
      obtain ⟨n, hn, hle⟩ := hsock.accepted w.calls iov hmax hne
      have hrest : left - n = (Segments.advance iov (n + 1)).flatten.length := by
        rw [Segments.flatten_advance, List.length_drop]
        omega
      have hlen := Segments.length_advance_le iov (n + 1)
      obtain ⟨w', hw', hb⟩ := ih hrest (by omega) (by omega)
        { calls := w.calls + 1, bytes := w.bytes ++ iov.flatten.take (n + 1) }
      refine ⟨w', by simp only [writeAll, hn]; exact hw', ?_⟩
      rw [hb, Segments.flatten_advance, List.append_assoc, List.take_append_drop]

theorem send_puts {fuel : Nat} {bytes : Bytes} (hfuel : bytes.length ≤ fuel) (w : Wire) :
    Puts (send sock fuel bytes w) w bytes := by
  have h : Puts (writeAll sock "send" fuel [bytes] bytes.length w) w [bytes].flatten :=
    writeAll_puts hsock "send" (by simp) hfuel (by simp [iovMax]) w
  rw [List.flatten_singleton] at h
  exact h

theorem sendGather_refused {fuel : Nat} {segs : List Bytes} (hmax : iovMax < segs.length)
    (hne : segs.flatten ≠ []) (w : Wire) :
    sendGather sock (fuel + 1) segs w =
      some (.error (.IoError "writev failed: Invalid argument"),
        { w with calls := w.calls + 1 }) := by
  match segs with
  | [] => simp at hne
  | [seg] => simp [iovMax] at hmax
  | a :: b :: rest =>
    obtain ⟨k, hk⟩ : ∃ k, (a :: b :: rest).flatten.length = k + 1 :=
      ⟨_, (Nat.succ_pred_eq_of_pos (List.length_pos_iff.2 hne)).symm⟩
    simp only [sendGather, hk, writeAll, hsock.refused w.calls _ hmax]
    rfl

/-- A gathering write is complete exactly when the kernel takes that many segments. -/
theorem sendGather_puts_iff {fuel : Nat} {segs : List Bytes} (hfuel : segs.flatten.length ≤ fuel)
    (hne : segs = [] ∨ segs.flatten ≠ []) (w : Wire) :
    Puts (sendGather sock fuel segs w) w segs.flatten ↔ segs.length ≤ iovMax := by
  match segs with
  | [] => simp [sendGather, Puts, iovMax]
  | [seg] =>
    have h : Puts (send sock fuel seg w) w seg := send_puts hsock (by simpa using hfuel) w
    simpa [sendGather, iovMax] using h
  | a :: b :: rest =>
    constructor
    · intro h
      by_contra hmax
      have hpos : (a :: b :: rest).flatten ≠ [] := by simpa using hne
      obtain ⟨m, rfl⟩ : ∃ m, fuel = m + 1 := ⟨fuel - 1, by
        have := List.length_pos_iff.2 hpos
        omega⟩
      obtain ⟨w', hw', -⟩ := h
      rw [sendGather_refused hsock (by omega) hpos] at hw'
      cases hw'
    · intro hmax
      exact writeAll_puts hsock "writev" rfl hfuel hmax w

end

/-! ## Batches -/

theorem segments_nonempty {f : EncodedFrameBytes} (h : f.segments ≠ []) :
    f.segments.flatten ≠ [] := by
  unfold EncodedFrameBytes.segments at h ⊢
  by_cases hb : f.buffer = []
  · simp [hb] at h
  · by_cases he : f.externalBody = []
    · simp [hb, he]
    · simp [hb, he]

theorem framesSegments_nonempty (frames : List EncodedFrameBytes) :
    framesSegments frames = [] ∨ (framesSegments frames).flatten ≠ [] := by
  induction frames with
  | nil => exact .inl rfl
  | cons f frames ih =>
    simp only [framesSegments, List.flatMap_cons, List.flatten_append] at ih ⊢
    by_cases h : f.segments = []
    · simpa [h] using ih
    · exact .inr (by simp [segments_nonempty h])

/-- A batch that is not cut into segments has at most one frame, which is its own segment. -/
theorem sendFrames_puts {sock : Socket} (hsock : sock.Accepts) {fuel : Nat}
    {frames : List EncodedFrameBytes} (hlen : frames.length ≤ 1) (hext : hasExternal frames = false)
    (hfuel : (framesWire frames).length ≤ fuel) (w : Wire) :
    Puts (sendFrames sock fuel frames w) w (framesWire frames) := by
  match frames with
  | [] => exact ⟨w, rfl, by simp [framesWire]⟩
  | [f] =>
    have he : f.externalBody = [] := by simpa [hasExternal] using hext
    have hwire : framesWire [f] = f.buffer := by simp [framesWire, EncodedFrameBytes.wire, he]
    rw [hwire] at hfuel ⊢
    obtain ⟨w', hw', hb⟩ := send_puts hsock hfuel w
    exact ⟨w', by simp [sendFrames, hw'], hb⟩
  | _ :: _ :: _ => simp at hlen

theorem framesSegments_length_le_one {frames : List EncodedFrameBytes} (hlen : frames.length ≤ 1)
    (hext : hasExternal frames = false) : (framesSegments frames).length ≤ 1 := by
  match frames with
  | [] => simp [framesSegments]
  | [f] =>
    have he : f.externalBody = [] := by simpa [hasExternal] using hext
    by_cases hb : f.buffer = [] <;> simp [framesSegments, EncodedFrameBytes.segments, hb, he]
  | _ :: _ :: _ => simp at hlen

/-- The outcome of the ring a batch is submitted to, if it is. -/
def ringOutcome (sock : Socket) (frames : List EncodedFrameBytes) : Option RingOutcome :=
  let segs := framesSegments frames
  if hasExternal frames ∧ segs ≠ [] ∧ 4096 ≤ segs.flatten.length ∧ 2 ≤ segs.length then
    sock.ring segs
  else none

/-- No segment is cut short. -/
def RingOutcome.Complete (segs : List Bytes) : RingOutcome → Prop
  | .completed counts => List.Forall₂ (fun seg n => seg.length ≤ n) segs counts
  | .failed _ _ => False

/-- What the kernel writes in full: any number of segments through a ring that completes each of
them, and at most `iovMax` segments otherwise. -/
def Writable (sock : Socket) (frames : List EncodedFrameBytes) : Prop :=
  match ringOutcome sock frames with
  | some outcome => outcome.Complete (framesSegments frames)
  | none => (framesSegments frames).length ≤ iovMax

/-- A ring writes its segments in full exactly when it completes each of them. -/
theorem sendZeroCopyGather_ring_puts_iff {sock : Socket} (hsock : sock.Accepts) {fuel : Nat}
    {segs : List Bytes} {outcome : RingOutcome} (hring : sock.ring segs = some outcome)
    (hne : segs ≠ []) (htotal : 4096 ≤ segs.flatten.length) (hlen : 2 ≤ segs.length) (w : Wire) :
    Puts (sendZeroCopyGather sock fuel segs w) w segs.flatten ↔ outcome.Complete segs := by
  obtain ⟨counts, rfl, hcounts⟩ := hsock.completes segs outcome hring
  have hsmall : ¬(segs.flatten.length < 4096 ∨ segs.length < 2) := by omega
  unfold sendZeroCopyGather
  rw [if_neg hne, if_neg hsmall, hring]
  simp only [RingOutcome.Complete]
  rw [← Segments.takeEach_eq_flatten_iff hcounts]
  constructor
  · rintro ⟨w', hw', hb⟩
    obtain ⟨-, rfl⟩ := Prod.mk.inj (Option.some.inj hw')
    exact List.append_cancel_left hb
  · intro h
    exact ⟨_, rfl, by simp [h]⟩

theorem sendZeroCopyGather_eq_sendGather {sock : Socket} {fuel : Nat} {segs : List Bytes}
    (h : segs ≠ [] → 4096 ≤ segs.flatten.length → 2 ≤ segs.length → sock.ring segs = none)
    (w : Wire) : sendZeroCopyGather sock fuel segs w = sendGather sock fuel segs w := by
  unfold sendZeroCopyGather
  by_cases hne : segs = []
  · simp [hne, sendGather]
  · rw [if_neg hne]
    by_cases hsmall : segs.flatten.length < 4096 ∨ segs.length < 2
    · rw [if_pos hsmall]
    · rw [if_neg hsmall, h hne (by omega) (by omega)]

/-- On a socket that only ever refuses writes with too many segments, a batch puts the bytes of
its frames on the wire, in order and once, exactly when it is `Writable`. -/
theorem sendFramesBatch_puts_iff (sock : Socket) (hsock : sock.Accepts)
    (frames : List EncodedFrameBytes) (fuel : Nat) (hfuel : (framesWire frames).length ≤ fuel)
    (w : Wire) :
    Puts (sendFramesBatch sock fuel frames w) w (framesWire frames) ↔ Writable sock frames := by
  unfold sendFramesBatch Writable
  rw [← flatten_framesSegments] at hfuel
  have hgather := sendGather_puts_iff hsock hfuel (framesSegments_nonempty frames) w
  by_cases hone : frames.length ≤ 1 ∧ !hasExternal frames
  · obtain ⟨hlen, hext⟩ := hone
    have hext' : hasExternal frames = false := by simpa using hext
    have hsegs := framesSegments_length_le_one hlen hext'
    rw [if_pos ⟨hlen, hext⟩, show ringOutcome sock frames = none by simp [ringOutcome, hext']]
    rw [flatten_framesSegments] at hfuel
    exact iff_of_true (sendFrames_puts hsock hlen hext' hfuel w) (by simp only [iovMax]; omega)
  · rw [if_neg hone]
    cases hext : hasExternal frames with
    | false =>
      simp only [ringOutcome, hext, Bool.false_eq_true, false_and, if_false]
      rw [← flatten_framesSegments]
      exact hgather
    | true =>
      simp only [if_true]
      rw [← flatten_framesSegments]
      cases hring : ringOutcome sock frames with
      | none =>
        rw [sendZeroCopyGather_eq_sendGather]
        · exact hgather
        · intro hne htotal hlen
          simp only [ringOutcome, hext, true_and] at hring
          rwa [if_pos ⟨hne, htotal, hlen⟩] at hring
      | some outcome =>
        simp only [ringOutcome, hext, true_and] at hring
        split at hring
        · rename_i hcond
          exact sendZeroCopyGather_ring_puts_iff hsock hring hcond.1 hcond.2.1 hcond.2.2 w
        · cases hring

namespace Sample

/-- A Linux socket that takes all it is given. -/
def greedySocket : Socket where
  write := fun _ iov =>
    if iov.length ≤ iovMax ∧ iov.flatten ≠ [] then .wrote iov.flatten.length
    else .failed "Invalid argument"

theorem greedySocket_accepts : greedySocket.Accepts where
  accepted := by
    intro call iov hlen hne
    have hpos : 0 < iov.flatten.length := List.length_pos_iff.2 hne
    refine ⟨iov.flatten.length - 1, ?_, by omega⟩
    simp only [greedySocket, if_pos (And.intro hlen hne)]
    rw [Nat.sub_add_cancel hpos]
  refused := by
    intro call iov hlen
    simp only [greedySocket]
    rw [if_neg (by omega)]
  completes := by
    intro segs outcome h
    cases h

/-- `n` replayed orders. -/
def replayFrames (n : Nat) : List EncodedFrameBytes :=
  List.replicate n
    { buffer := duplicate "D" [(11, "order")] 7, splice_le := Nat.zero_le _
      spliced := fun h => absurd rfl h }

theorem framesSegments_replayFrames (n : Nat) :
    framesSegments (replayFrames n) =
      List.replicate n (duplicate "D" [(11, "order")] 7) := by
  have hne : duplicate "D" [(11, "order")] 7 ≠ [] := by decide +kernel
  induction n with
  | zero => rfl
  | succ n ih =>
    simp only [replayFrames, framesSegments, List.replicate_succ, List.flatMap_cons] at ih ⊢
    rw [ih]
    simp [EncodedFrameBytes.segments, hne]

theorem replayFrames_refused (fuel : Nat) {n : Nat} (h : iovMax < n) :
    sendFramesBatch greedySocket (fuel + 1) (replayFrames n) {} =
      some (.error (.IoError "writev failed: Invalid argument"), { calls := 1, bytes := [] }) := by
  have hsegs : (framesSegments (replayFrames n)).length = n := by
    rw [framesSegments_replayFrames, List.length_replicate]
  have hne : (framesSegments (replayFrames n)).flatten ≠ [] := by
    rcases framesSegments_nonempty (replayFrames n) with hnil | hne
    · simp only [hnil, List.length_nil] at hsegs
      omega
    · exact hne
  have hlen : ¬(replayFrames n).length ≤ 1 := by
    simp only [replayFrames, List.length_replicate, iovMax] at h ⊢
    omega
  have hext : hasExternal (replayFrames n) = false := by simp [hasExternal, replayFrames]
  unfold sendFramesBatch
  rw [if_neg fun hc => hlen hc.1, if_neg (by simp [hext])]
  exact sendGather_refused greedySocket_accepts (by omega) hne {}

end Sample

open Sample

theorem sendFramesBatch_puts_iff_sample :
    greedySocket.Accepts ∧ (framesWire (replayFrames 3)).length ≤ 400 ∧
      Puts (sendFramesBatch greedySocket 400 (replayFrames 3) {}) {}
        (framesWire (replayFrames 3)) :=
  ⟨greedySocket_accepts, by decide +kernel,
    (sendFramesBatch_puts_iff greedySocket greedySocket_accepts
      (replayFrames 3) 400 (by decide +kernel) {}).2 (by
        show (framesSegments (replayFrames 3)).length ≤ iovMax
        decide +kernel)⟩

/-- A replay of 1025 messages is refused by the kernel as a whole. -/
theorem long_replay_not_written :
    greedySocket.Accepts ∧
      sendFramesBatch greedySocket 200000 (replayFrames 1025) {} =
        some (.error (.IoError "writev failed: Invalid argument"), { calls := 1, bytes := [] }) :=
  ⟨greedySocket_accepts, replayFrames_refused 199999 (by decide)⟩

end NimbleFix
