import Mathlib.Data.List.Infix
import NimbleFix.Proof.WorkerFlow

/-!
# The clock of the accuracy check

`OnInbound` compares `SendingTime` with the time it is handed. A worker hands it the reading of the
steady clock that its round began with, so whether a frame is refused is decided by that reading and
not by the system clock.
-/

namespace NimbleFix

open Fallible

/-- The time in the text differs from the clock by at most the threshold. -/
def WithinThreshold (sendingTime : Bytes) (clockNs thresholdSeconds : Nat) : Prop :=
  ∃ t, parseFixUtcTimestampNs sendingTime = some t ∧
    max t clockNs - min t clockNs ≤ thresholdSeconds * kNanosPerSecond

theorem not_outside_of_within {sendingTime : Bytes} {clockNs thresholdSeconds : Nat}
    (h : WithinThreshold sendingTime clockNs thresholdSeconds) :
    sendingTimeOutsideThreshold sendingTime clockNs thresholdSeconds = false := by
  obtain ⟨t, hparse, hle⟩ := h
  unfold sendingTimeOutsideThreshold
  split
  · rfl
  · simpa [hparse] using hle

theorem outside_of_not_within {sendingTime : Bytes} {clockNs thresholdSeconds t : Nat}
    (hthreshold : 0 < thresholdSeconds) (hparse : parseFixUtcTimestampNs sendingTime = some t)
    (h : ¬ WithinThreshold sendingTime clockNs thresholdSeconds) :
    sendingTimeOutsideThreshold sendingTime clockNs thresholdSeconds = true := by
  have hne : sendingTime ≠ [] := by
    rintro rfl
    simp [parseFixUtcTimestampNs, parseFixUtcInstant] at hparse
  unfold sendingTimeOutsideThreshold
  rw [if_neg (by simp only [hne, or_false]; omega)]
  simp only [hparse, decide_eq_true_eq]
  by_contra hle
  exact h ⟨t, hparse, by omega⟩

section

variable {σ : Type} [SessionStore σ]

/-! ## The check -/

/-- `processFrame` without the check. -/
def processFrameUnchecked (env : ProtocolEnv) (d : DecodedMessageView) (before : SessionSnapshot)
    (ts : Nat) : Method (AdminProtocol σ) ProtocolEvent :=
  match validateCompIds env d, (validatePossDup env d).or (origSendingTimeRejection d) with
  | some r, _ => rejectCompIds env d before r ts
  | none, some r => do
    consumeExpectedInboundBeforeReject d before ts
    rejectInbound env d r ts
  | none, none => processChecked env d before ts

/-- `OnInbound` without the check. -/
def onInboundUnchecked (env : ProtocolEnv) (d : DecodedMessageView) (ts : Nat) :
    Method (AdminProtocol σ) ProtocolEvent := do
  ensureInitialized
  let p ← Fallible.get
  processFrameUnchecked env d p.session.snapshot ts

/-- What a frame that fails the check is answered with: a Reject and a Logout. -/
def refuseForAccuracy (env : ProtocolEnv) (d : DecodedMessageView) (ts : Nat) :
    Method (AdminProtocol σ) ProtocolEvent := do
  let p ← Fallible.get
  consumeExpectedInboundBeforeReject d p.session.snapshot ts
  rejectThenLogout env d sendingTimeRejection ts

theorem onInboundDecoded_of_not_outside {env : ProtocolEnv} {d : DecodedMessageView} {ts : Nat}
    (h : sendingTimeOutsideThreshold d.header.sendingTime ts
      env.config.sendingTimeThresholdSeconds = false) (p : AdminProtocol σ) :
    onInboundDecoded env d ts p = onInboundUnchecked env d ts p := by
  have hframe : ∀ before : SessionSnapshot,
      processFrame (σ := σ) env d before ts = processFrameUnchecked env d before ts := by
    intro before
    unfold processFrame processFrameUnchecked
    cases validateCompIds env d with
    | some r => rfl
    | none =>
      cases (validatePossDup env d).or (origSendingTimeRejection d) with
      | some r => rfl
      | none => simp [h]
  unfold onInboundDecoded onInboundUnchecked
  simp only [hframe]

theorem onInboundDecoded_of_outside {env : ProtocolEnv} {d : DecodedMessageView} {ts : Nat}
    (h : sendingTimeOutsideThreshold d.header.sendingTime ts
      env.config.sendingTimeThresholdSeconds = true) {p : AdminProtocol σ}
    (hinit : p.initializationError = none) (hcomp : validateCompIds env d = none)
    (hdup : (validatePossDup env d).or (origSendingTimeRejection d) = none) :
    onInboundDecoded env d ts p = refuseForAccuracy env d ts p := by
  rw [onInboundDecoded_of_initialized env hinit]
  unfold processFrame refuseForAccuracy
  simp only [hcomp, hdup, h, if_true]
  rfl

/-! ## The readings a worker hands on -/

/-- Every entry of the log has the readings of a round in `S`. -/
def LogFrom (S : Poll → Prop) (w : Worker σ) : Prop :=
  ∀ e ∈ w.log, ∃ p, S p ∧ IsEntry p.nowNs p.wallNs e

/-- The same during the round `p`. -/
def LogDuring (S : Poll → Prop) (p : Poll) (w : Worker σ) : Prop :=
  w.wallNs = p.wallNs ∧ LogFrom S w

variable {S : Poll → Prop} {p : Poll}

omit [SessionStore σ] in
theorem logDuring_of_along {α : Type} {id : Nat}
    {R : ConnectionState σ → ConnectionState σ → Prop} (hp : S p) {m : Method (Worker σ) α}
    (hm : Moves (Along id (IsEntry p.nowNs) R) m) : Maintains (LogDuring S p) m := by
  rintro w ⟨hwall, hlog⟩
  obtain ⟨new, hnew, hE⟩ := (hm w).log
  refine ⟨(hm w).wall.trans hwall, fun e he => ?_⟩
  rw [hnew, List.mem_append] at he
  rcases he with he | he
  · exact hlog e he
  · exact ⟨p, hp, by rw [← hwall]; exact hE e he⟩

omit [SessionStore σ] in
theorem logDuring_of_flow {α : Type} {m : Method (Worker σ) α} (h : Preserves Worker.flow m) :
    Maintains (LogDuring S p) m := by
  rintro w ⟨hwall, hlog⟩
  obtain ⟨-, hrest⟩ := Prod.mk.inj (h w)
  obtain ⟨hwall', hlog'⟩ := Prod.mk.inj hrest
  exact ⟨hwall'.trans hwall, fun e he => hlog e (by rwa [hlog'] at he)⟩

variable (rt : LiveRuntime σ)

omit [SessionStore σ] in
theorem closeIfRequested_log (id : Nat) : Maintains (LogDuring S p) (closeIfRequested rt id) := by
  intro w h
  unfold closeIfRequested
  split
  · exact Maintains.bind (logDuring_of_flow (notifyClosed_keeps_flow rt id)) (fun _ _ h => h) w h
  · exact h

theorem processConnection_log (hp : S p) (id : Nat) :
    Maintains (LogDuring S p) (processConnection rt id p.nowNs) :=
  .bind (.bind (logDuring_of_along hp (orClose_along (retryPendingAppEvent_along rt p.nowNs)))
    fun _ => logDuring_of_along hp (readUnlessPending_along rt p.nowNs))
    fun _ => closeIfRequested_log rt id

theorem pollWorkerOnce_log (hp : S p) {w : Worker σ} (h : LogFrom S w) :
    LogFrom S (pollWorkerOnce rt p w).2 := by
  have hround : LogDuring S p (pollWorkerOnce rt p w).2 := by
    refine pollWorkerOnce_invariant rt logDuring_of_flow (fun id ts => logDuring_of_along hp
      (orClose_along (retryPendingAppEvent_along rt ts))) (fun id inWindow => logDuring_of_along hp
        (orClose_along (serviceTimer_along rt inWindow p.timersNs))) (closeIfRequested_log rt) ?_
    exact forEach_maintains (processConnection_log rt hp) p.ready _ ⟨rfl, h⟩
  exact hround.2

theorem workerStep_log {input : WorkerInput σ} {l : WorkerLoop σ}
    (hinput : ∀ p, input = .poll p → S p) (h : LogFrom S l.worker) :
    LogFrom S (workerStep rt input l).worker := by
  cases input with
  | adopt id session =>
    simp only [workerStep]
    split <;> exact h
  | arrive id frames => exact h
  | enqueue command => exact h
  | poll p =>
    rcases workerStep_poll_cases rt p l with hsame | ⟨-, hpoll⟩
    · rw [hsame]
      exact h
    · rw [hpoll]
      exact pollWorkerOnce_log rt (hinput p rfl) h

theorem runWorker_log (inputs : List (WorkerInput σ)) {l : WorkerLoop σ}
    (hinputs : ∀ p, .poll p ∈ inputs → S p) (h : LogFrom S l.worker) :
    LogFrom S (runWorker rt inputs l).worker := by
  induction inputs generalizing l with
  | nil => exact h
  | cons input rest ih =>
    refine ih (fun p hp => hinputs p (List.mem_cons_of_mem _ hp)) ?_
    exact workerStep_log rt (fun p hp => hinputs p (hp ▸ List.mem_cons_self)) h

/-- Every frame a run hands to a session was handed on with the readings of one of its rounds. If
its `SendingTime` is within the threshold of the system clock, it is processed as without the check
when it is also within the threshold of the steady reading; otherwise it is refused as soon as its
header passes the other checks. -/
theorem accuracy_decided_by_steady_clock {w₀ : Worker σ} (hw₀ : w₀.log = [])
    (inputs : List (WorkerInput σ)) {e : HandedFrame σ}
    (he : e ∈ (runWorker rt inputs { worker := w₀ }).worker.log)
    (hwithin : WithinThreshold e.decoded.header.sendingTime e.wallNs
      e.session.env.config.sendingTimeThresholdSeconds)
    (hthreshold : 0 < e.session.env.config.sendingTimeThresholdSeconds) :
    (∃ p, .poll p ∈ inputs ∧ e.timestampNs = p.nowNs ∧ e.wallNs = p.wallNs ∧
        decodeInbound e.session.env e.frame = .ok e.decoded) ∧
      (WithinThreshold e.decoded.header.sendingTime e.timestampNs
          e.session.env.config.sendingTimeThresholdSeconds →
        onInboundDecoded e.session.env e.decoded e.timestampNs e.session.protocol =
          onInboundUnchecked e.session.env e.decoded e.timestampNs e.session.protocol) ∧
      (¬ WithinThreshold e.decoded.header.sendingTime e.timestampNs
          e.session.env.config.sendingTimeThresholdSeconds →
        e.session.protocol.initializationError = none →
        validateCompIds e.session.env e.decoded = none →
        (validatePossDup e.session.env e.decoded).or (origSendingTimeRejection e.decoded) = none →
        onInboundDecoded e.session.env e.decoded e.timestampNs e.session.protocol =
          refuseForAccuracy e.session.env e.decoded e.timestampNs e.session.protocol) := by
  have hlog : LogFrom (fun p => .poll p ∈ inputs)
      (runWorker rt inputs { worker := w₀ }).worker := by
    refine runWorker_log rt inputs (fun p hp => hp) fun e he => ?_
    rw [show ({ worker := w₀ } : WorkerLoop σ).worker.log = [] from hw₀] at he
    cases he
  obtain ⟨p, hp, hts, hwall, hdecode⟩ := hlog e he
  refine ⟨⟨p, hp, hts, hwall, hdecode⟩, fun h => ?_, fun h hinit hcomp hdup => ?_⟩
  · exact onInboundDecoded_of_not_outside (not_outside_of_within h) e.session.protocol
  · obtain ⟨t, hparse, -⟩ := hwithin
    exact onInboundDecoded_of_outside (outside_of_not_within hthreshold hparse h) hinit hcomp hdup

end

/-! ## Sample runs -/

namespace Sample

/-- The sample acceptor with a threshold of thirty seconds. -/
def checked : ProtocolEnv :=
  { acceptor with config := { acceptor.config with sendingTimeThresholdSeconds := 30 } }

/-- The system clock at `sendingTime`. -/
def sendingTimeNs : Nat := 1767312000000000000

/-- An order whose `SendingTime` is the system time, read at the given steady time. -/
def punctualInputs (steadyNs : Nat) : List (WorkerInput MemorySessionStore) :=
  [.adopt 1 (some ⟨checked, .queueDecoupled, loggedOn⟩), .arrive 1 [orderFrame 2],
    .poll { round steadyNs [1] with wallNs := sendingTimeNs }]

def punctual (steadyNs : Nat) : WorkerLoop MemorySessionStore :=
  runWorker (runtime []) (punctualInputs steadyNs) { worker := {} }

end Sample

open Sample

/-- With a steady clock that agrees with the system clock the order passes. -/
theorem accuracy_decided_by_steady_clock_sample :
    ∃ e ∈ (punctual sendingTimeNs).worker.log,
      WithinThreshold e.decoded.header.sendingTime e.wallNs
        e.session.env.config.sendingTimeThresholdSeconds ∧
      onInboundDecoded e.session.env e.decoded e.timestampNs e.session.protocol =
        onInboundUnchecked e.session.env e.decoded e.timestampNs e.session.protocol := by
  have hlog : (punctual sendingTimeNs).worker.log.map (fun e =>
      (parseFixUtcTimestampNs e.decoded.header.sendingTime, e.wallNs, e.timestampNs,
        e.session.env.config.sendingTimeThresholdSeconds)) =
      [(some sendingTimeNs, sendingTimeNs, sendingTimeNs, 30)] := by
    decide +kernel
  obtain ⟨e, hone, he⟩ := List.map_eq_singleton_iff.1 hlog
  simp only [Prod.mk.injEq] at he
  obtain ⟨hparse, hwall, hts, hthreshold⟩ := he
  have hmem : e ∈ (punctual sendingTimeNs).worker.log := by
    rw [hone]
    exact List.mem_singleton.2 rfl
  have hwithin : ∀ clock, clock = sendingTimeNs →
      WithinThreshold e.decoded.header.sendingTime clock
        e.session.env.config.sendingTimeThresholdSeconds :=
    fun clock hclock => ⟨sendingTimeNs, hparse, by
      rw [hclock, Nat.max_self, Nat.min_self, Nat.sub_self]
      exact Nat.zero_le _⟩
  have hempty : ({} : Worker MemorySessionStore).log = [] := rfl
  unfold punctual at hmem ⊢
  obtain ⟨-, hpass, -⟩ := accuracy_decided_by_steady_clock (runtime []) hempty
    (punctualInputs sendingTimeNs) hmem (hwithin _ hwall) (by rw [hthreshold]; decide)
  exact ⟨e, hmem, hwithin _ hwall, hpass (hwithin _ hts)⟩

/-- The types of the frames a received frame is answered with, each with whether it is a Reject of
the `SendingTime` for its accuracy, and whether the connection is closed. -/
def Sample.answer (e : HandedFrame MemorySessionStore) : List (Bytes × Bool) × Bool :=
  match (onInboundDecoded e.session.env e.decoded e.timestampNs e.session.protocol).1 with
  | .ok event => (event.outboundFrames.map fun f => (f.msgType,
      decide (ascii "371=52" <:+: f.bytes ∧ ascii "373=10" <:+: f.bytes)), event.disconnect)
  | .error _ => ([], false)

/-- One second after the boot of the machine the same order, sent at the system time, is answered
with a Reject (`RefTagID` `52`, reason `10`) and a Logout, and the connection is closed. -/
theorem punctual_order_refused :
    (punctual kNanosPerSecond).worker.log.map (fun e =>
        (parseFixUtcTimestampNs e.decoded.header.sendingTime, e.wallNs)) =
      [(some sendingTimeNs, sendingTimeNs)] ∧
    (punctual kNanosPerSecond).worker.log.map answer =
      [([(MsgType.reject, true), (MsgType.logout, false)], true)] ∧
    ((punctual kNanosPerSecond).worker.find 1).isNone :=
  ⟨by decide +kernel, by decide +kernel, by decide +kernel⟩

end NimbleFix
