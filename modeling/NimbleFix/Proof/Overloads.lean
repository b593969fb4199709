import NimbleFix.Proof.Drain
import NimbleFix.Session.Sample
import NimbleFix.Spec.InboundTrace

/-!
# The overloads of `OnInbound`

The overload for a decoded frame does not drain the deferred frames. It agrees with the overload
for raw bytes as long as there is nothing to drain: no frame is deferred, or the frame at hand
leaves the pending range open (`LeavesGapOpen`).
-/

namespace NimbleFix

open Fallible

/-! ## An open gap -/

/-- A resend is pending up to `last` at least. -/
def InboundCore.GapOpen (last : Nat) (c : InboundCore) : Prop :=
  c.state = .resendProcessing ∧ ∃ range, c.pendingResend = some range ∧ last ≤ range.endSeq

namespace InboundCore.GapOpen

variable {last n : Nat} {c : InboundCore}

theorem advance (h : c.GapOpen last) (hn : n ≤ last) : (c.advance n).GapOpen last := by
  obtain ⟨hst, range, hp, hle⟩ := h
  have hkeep : c.advance n = { c with nextInSeq := n } := by
    simp only [InboundCore.advance, InboundCore.settle, hp]
    rw [if_neg]
    rintro ⟨-, hlt⟩
    omega
  rw [hkeep]
  exact ⟨hst, range, hp, hle⟩

theorem consume (h : c.GapOpen last) (hn : c.nextInSeq < last) : c.consume.GapOpen last := by
  refine h.advance ?_
  have := Nat.mod_le (c.nextInSeq + 1) (2 ^ 32)
  unfold wrap32
  omega

theorem noteGap (h : c.GapOpen last) : (c.noteGap n).GapOpen last := by
  obtain ⟨hst, range, hp, hle⟩ := h
  unfold InboundCore.noteGap
  rw [hst, hp]
  exact ⟨rfl, _, rfl, Nat.le_trans hle (Nat.le_max_left _ _)⟩

end InboundCore.GapOpen

section

variable (env : ProtocolEnv) {σ : Type} {α : Type} {d : DecodedMessageView} {last : Nat}

/-- `m` leaves a gap up to `last` open. -/
abbrev KeepsOpen (last : Nat) (m : Method (AdminProtocol σ) α) : Prop :=
  Maintains (fun p => p.inboundCore.GapOpen last) m

variable {n ts : Nat} {p : AdminProtocol σ}

theorem observe_gapOpen (h : p.inboundCore.GapOpen last)
    (hn : n = p.session.nextInSeq → p.session.nextInSeq < last) :
    ((onSession (SessionCore.observeInboundSeq n)) p).2.inboundCore.GapOpen last := by
  rcases onSession_observe_cases p n with ⟨-, hs, -⟩ | ⟨-, -, -, hs⟩ | ⟨-, hseq, -, hs⟩
  · rw [hs]
    exact h
  · rw [hs]
    exact h.noteGap
  · rw [hs]
    exact h.consume (hn hseq)

theorem advance_keepsOpen (hn : n ≤ last) :
    KeepsOpen (σ := σ) last (onSession (SessionCore.advanceInboundExpectedSeq n)) := by
  intro p h
  simp only [onSession, zoom_apply]
  rcases p.session.advanceInboundExpectedSeq_cases n with ⟨-, hs⟩ | ⟨-, -, hs⟩
  · rw [hs]
    exact h
  · rw [hs, inboundCore_settleResend]
    exact h.advance hn

theorem advanceExpected_keepsOpen (hn : n ≤ last) (before : SessionSnapshot) :
    KeepsOpen (σ := σ) last (advanceExpected before n) :=
  .ite (.bind (advance_keepsOpen hn) fun _ => settleTestRequest_core.maintains) (.pure _)

variable [SessionStore σ]

/-! ## Replies that keep the core -/

theorem rejectInbound_keeps {r : Rejection}
    (h : ¬(r.disconnect ∧ d.header.msgType = MsgType.logon)) (ts : Nat) :
    Preserves AdminProtocol.inboundCore (rejectInbound (σ := σ) env d r ts) := by
  unfold rejectInbound
  rw [if_neg h]
  exact .bind (buildAdminFrame_core env _ ts) fun _ => .pure _

theorem rejectInbound_core (hd : d.header.msgType ≠ MsgType.logon) (r : Rejection) (ts : Nat) :
    Preserves AdminProtocol.inboundCore (rejectInbound (σ := σ) env d r ts) :=
  rejectInbound_keeps env (fun h => hd h.2) ts

omit [SessionStore σ] in
theorem processHeartbeat_core :
    Preserves AdminProtocol.inboundCore (processHeartbeat (σ := σ) d) := by
  intro p
  unfold processHeartbeat
  dsimp only
  split <;> rfl

theorem processInboundApplication_core (hd : d.header.msgType ≠ MsgType.logon) (ts : Nat) :
    Preserves AdminProtocol.inboundCore (processInboundApplication (σ := σ) env d ts) := by
  intro p
  unfold processInboundApplication
  split
  · rfl
  · split
    · exact Preserves.bind (buildAdminFrame_core env _ ts) (fun _ => .pure _) p
    · exact rejectInbound_core env hd _ ts p
    · rfl

theorem adminPhaseViolationText_resendProcessing {msgType : Bytes} (h : msgType ≠ MsgType.logon) :
    adminPhaseViolationText .resendProcessing msgType = none := by
  unfold adminPhaseViolationText
  simp [h, isPreActivationState]

/-! ## Frames that leave a gap open -/

/-- A frame numbered below the expected number that is not answered with a Logout. -/
def StaleTolerated (d : DecodedMessageView) : Prop :=
  (d.isSequenceReset → d.isGapFill → d.header.possDup) ∧
    (¬d.isSequenceReset → d.header.possDup ∨ !env.config.validationPolicy.rejectOnStaleMsgSeqNum)

instance (d : DecodedMessageView) : Decidable (StaleTolerated env d) :=
  inferInstanceAs (Decidable (_ ∧ _))

/-- No check of the header leads to a Logout. -/
def HeaderTolerated (d : DecodedMessageView) (ts : Nat) : Prop :=
  validateCompIds env d = none ∧
    ((validatePossDup env d).or (origSendingTimeRejection d) = none →
      sendingTimeOutsideThreshold d.header.sendingTime ts
        env.config.sendingTimeThresholdSeconds = false)

instance (d : DecodedMessageView) (ts : Nat) : Decidable (HeaderTolerated env d ts) :=
  inferInstanceAs (Decidable (_ ∧ _))

/-- The frame `d` does not take the expected number `expected` past the end of `range`. -/
def StaysWithin (range : ResendRange) (expected : Nat) (d : DecodedMessageView) : Prop :=
  (d.header.msgSeqNum = expected → expected < range.endSeq) ∧
    (d.isSequenceReset → ¬(d.isGapFill ∧ expected < d.header.msgSeqNum) →
      ∀ n ∈ (parseSequenceResetNewSeq d.message).toOption, n ≤ range.endSeq)

instance (range : ResendRange) (expected : Nat) (d : DecodedMessageView) :
    Decidable (StaysWithin range expected d) := inferInstanceAs (Decidable (_ ∧ _))

/-- A resend is pending and the frame, an ordinary one, leaves it pending. -/
def LeavesGapOpen (d : DecodedMessageView) (ts : Nat) (p : AdminProtocol σ) : Prop :=
  p.session.state = .resendProcessing ∧ HeaderTolerated env d ts ∧
    d.header.msgType ≠ MsgType.logon ∧ d.msgType ≠ MsgType.logon ∧ d.msgType ≠ MsgType.logout ∧
    (d.header.msgSeqNum < p.session.nextInSeq → StaleTolerated env d) ∧
    p.session.pendingResend.isSome ∧
    ∀ range ∈ p.session.pendingResend, StaysWithin range p.session.nextInSeq d

instance (d : DecodedMessageView) (ts : Nat) (p : AdminProtocol σ) :
    Decidable (LeavesGapOpen env d ts p) := inferInstanceAs (Decidable (_ ∧ _))

section

variable (hd : d.header.msgType ≠ MsgType.logon) (hlogon : d.msgType ≠ MsgType.logon)
include hd

theorem processGapFill_keepsOpen (ts : Nat)
    (hn : ∀ n ∈ (parseSequenceResetNewSeq d.message).toOption, n ≤ last) :
    KeepsOpen (σ := σ) last (processGapFill env d ts) := by
  intro p h
  unfold processGapFill
  cases hp : parseSequenceResetNewSeq d.message with
  | error r => exact (rejectInbound_core env hd r ts).maintains p h
  | ok n =>
    dsimp only
    split
    · exact (rejectInbound_core env hd _ ts).maintains p h
    · have hle : n ≤ last := hn n (by rw [hp]; rfl)
      exact Maintains.bind (advance_keepsOpen hle) (fun _ =>
        .bind persistRecoveryState_core.maintains fun _ => .pure _) p h

include hlogon

theorem dispatchMessage_keepsOpen (hlogout : d.msgType ≠ MsgType.logout) (ts : Nat)
    (hn : d.isSequenceReset → ∀ n ∈ (parseSequenceResetNewSeq d.message).toOption, n ≤ last) :
    KeepsOpen (σ := σ) last (dispatchMessage env d ts) := by
  unfold dispatchMessage
  rw [if_neg hlogon, if_neg hlogout]
  refine .ite processHeartbeat_core.maintains (.ite ?_ (.ite ?_ ?_))
  · exact .bind (buildAdminFrame_core env _ ts).maintains fun _ => .pure _
  · exact .bind (replayOutbound_core env _ _ ts).maintains fun _ => .pure _
  · split
    · rename_i hreset
      exact processGapFill_keepsOpen env hd ts
        (hn (by simpa [DecodedMessageView.isSequenceReset] using hreset))
    · exact .ite (.pure _) (processInboundApplication_core env hd ts).maintains

variable {before : SessionSnapshot}

theorem checkPhaseAndContent_keepsOpen (hst : before.state = .resendProcessing) (ts : Nat)
    {accepted : Method (AdminProtocol σ) ProtocolEvent} (h : KeepsOpen last accepted) :
    KeepsOpen last (checkPhaseAndContent env d before ts accepted) := by
  unfold checkPhaseAndContent
  rw [hst, adminPhaseViolationText_resendProcessing hlogon]
  cases validateAdministrativeMessage env d with
  | none => exact h
  | some r => exact (rejectInbound_core env hd r ts).maintains

omit hd in
theorem processOutOfSequence_keepsOpen (hst : before.state = .resendProcessing) (status : Status)
    (ts : Nat) : KeepsOpen (σ := σ) last (processOutOfSequence env d before status ts) := by
  intro p h
  unfold processOutOfSequence
  rw [hst, adminPhaseViolationText_resendProcessing hlogon]
  split
  · split
    · cases ‹none = some _›
    · rename_i range _ _
      rcases requestResend_cases env d range ts p with hs | ⟨-, hs⟩
      · rw [hs]
        exact h
      · rw [hs]
        exact h
    · exact h
  · exact h

theorem processInOrder_keepsOpen (hlogout : d.msgType ≠ MsgType.logout)
    (hst : before.state = .resendProcessing) (ts : Nat)
    (h : p.inboundCore.GapOpen last)
    (hseq : d.header.msgSeqNum = p.session.nextInSeq → p.session.nextInSeq < last)
    (hn : d.header.msgSeqNum = p.session.nextInSeq → d.isSequenceReset →
      ∀ n ∈ (parseSequenceResetNewSeq d.message).toOption, n ≤ last) :
    (processInOrder env d before ts p).2.inboundCore.GapOpen last := by
  have hobs : (observedState d p).inboundCore.GapOpen last := by
    unfold observedState
    rw [settleTestRequest_core]
    exact observe_gapOpen h hseq
  rcases onSession_observe_cases p d.header.msgSeqNum with ⟨hr, -⟩ | ⟨-, -, hr, -⟩ | ⟨-, hs, hr, -⟩
  · obtain ⟨status, hstatus⟩ := error_of_ne_ok hr
    rw [processInOrder_of_error env hstatus]
    exact processOutOfSequence_keepsOpen env hlogon hst status ts _ hobs
  · obtain ⟨status, hstatus⟩ := error_of_ne_ok hr
    rw [processInOrder_of_error env hstatus]
    exact processOutOfSequence_keepsOpen env hlogon hst status ts _ hobs
  · rw [processInOrder_of_ok env hr]
    exact Maintains.bind (commitInboundPersistence_core d ts).maintains (fun _ =>
      checkPhaseAndContent_keepsOpen env hd hlogon hst ts
        (dispatchMessage_keepsOpen env hd hlogon hlogout ts (hn hs))) _ hobs

theorem processSequenceReset_keepsOpen (hst : before.state = .resendProcessing) (ts : Nat)
    (hn : ∀ n ∈ (parseSequenceResetNewSeq d.message).toOption, n ≤ last) :
    KeepsOpen (σ := σ) last (processSequenceReset env d before ts) := by
  unfold processSequenceReset
  cases hp : parseSequenceResetNewSeq d.message with
  | error r => exact (rejectInbound_core env hd r ts).maintains
  | ok n =>
    have hle : n ≤ last := hn n (by rw [hp]; rfl)
    refine .ite (rejectInbound_core env hd _ ts).maintains ?_
    exact .bind (advanceExpected_keepsOpen hle before) fun _ =>
      .bind (commitInboundPersistence_core d ts).maintains fun _ =>
        checkPhaseAndContent_keepsOpen env hd hlogon hst ts (.pure _)

omit hlogon in
theorem processStale_keepsOpen (ts : Nat) (hstale : StaleTolerated env d)
    (hn : d.isSequenceReset → ∀ n ∈ (parseSequenceResetNewSeq d.message).toOption, n ≤ last) :
    KeepsOpen (σ := σ) last (processStale env d before ts) := by
  unfold processStale
  by_cases hreset : d.isSequenceReset
  · rw [if_pos hreset]
    unfold processStaleSequenceReset
    cases hp : parseSequenceResetNewSeq d.message with
    | error r => exact (rejectInbound_core env hd r ts).maintains
    | ok n =>
      have hle : n ≤ last := hn hreset n (by rw [hp]; rfl)
      have hdup : ¬(d.isGapFill ∧ !d.header.possDup) := by
        rintro ⟨hfill, hnot⟩
        rw [hstale.1 hreset hfill] at hnot
        cases hnot
      simp only [hdup, if_false]
      exact .ite (rejectInbound_core env hd _ ts).maintains
        (.bind (advanceExpected_keepsOpen hle before) fun _ =>
          .bind (commitInboundPersistence_core d ts).maintains fun _ => .pure _)
  · rw [if_neg hreset, if_pos (hstale.2 hreset)]
    exact .bind (commitInboundPersistence_core d ts).maintains fun _ => .pure _

theorem processChecked_keepsOpen (hlogout : d.msgType ≠ MsgType.logout) (ts : Nat)
    (h : p.inboundCore.GapOpen last)
    (hstale : d.header.msgSeqNum < p.session.nextInSeq → StaleTolerated env d)
    (hseq : d.header.msgSeqNum = p.session.nextInSeq → p.session.nextInSeq < last)
    (hn : d.isSequenceReset → ¬(d.isGapFill ∧ p.session.nextInSeq < d.header.msgSeqNum) →
      ∀ n ∈ (parseSequenceResetNewSeq d.message).toOption, n ≤ last) :
    (processChecked env d p.session.snapshot ts p).2.inboundCore.GapOpen last := by
  have hnot : d.isLogon = false := by simpa [DecodedMessageView.isLogon] using hlogon
  have hst : p.session.snapshot.state = .resendProcessing := h.1
  have hphase : adminPhaseViolationText p.session.snapshot.state d.msgType = none := by
    rw [hst, adminPhaseViolationText_resendProcessing hlogon]
  rw [processChecked_of_not_logon env hnot, processSequenced_of_no_violation env hphase]
  unfold processByNumber
  split
  · rename_i hlt
    exact processStale_keepsOpen env hd ts (hstale hlt) (fun hr => hn hr fun hgap =>
      absurd hgap.2 (Nat.lt_asymm hlt)) p h
  · split
    · rename_i hr
      exact processSequenceReset_keepsOpen env hd hlogon hst ts
        (hn hr.1 fun hgap => by simp [hgap.1] at hr) p h
    · exact processInOrder_keepsOpen env hd hlogon hlogout hst ts h hseq fun hs hr =>
        hn hr fun hgap => by omega

end

theorem onInboundDecoded_keepsOpen (h : LeavesGapOpen env d ts p) :
    (onInboundDecoded env d ts p).2.session.pendingResend.isSome := by
  obtain ⟨hst, ⟨hcomp, htime⟩, hd, hlogon, hlogout, hstale, hsome, hrange⟩ := h
  obtain ⟨range, hp⟩ := Option.isSome_iff_exists.1 hsome
  obtain ⟨hseq, hn⟩ := hrange range hp
  have hopen : p.inboundCore.GapOpen range.endSeq := ⟨hst, range, hp, Nat.le_refl _⟩
  suffices hgap : (onInboundDecoded env d ts p).2.inboundCore.GapOpen range.endSeq by
    obtain ⟨-, range', hp', -⟩ := hgap
    exact Option.isSome_iff_exists.2 ⟨range', hp'⟩
  cases hinit : p.initializationError with
  | some e =>
    rw [onInboundDecoded_of_error env hinit]
    exact hopen
  | none =>
    rw [onInboundDecoded_of_initialized env hinit]
    cases hdup : (validatePossDup env d).or (origSendingTimeRejection d) with
    | some r =>
      have hconsume : (consumeExpectedInboundBeforeReject d p.session.snapshot ts
          p).2.inboundCore.GapOpen range.endSeq := by
        rcases consumeExpectedInboundBeforeReject_effect d ts p with hs | ⟨-, hs, hcore⟩
        · rw [hs]
          exact hopen
        · rw [hcore]
          exact hopen.consume (hseq hs)
      unfold processFrame
      rw [hcomp, hdup]
      exact Maintains.bind_at hconsume fun _ => (rejectInbound_core env hd r ts).maintains
    | none =>
      rw [processFrame_of_accepted env ⟨hcomp, hdup, htime hdup⟩]
      exact processChecked_keepsOpen env hd hlogon hlogout ts hopen hstale hseq hn

/-! ## Feeding frames -/

/-- There is nothing to drain after the frame: nothing was put aside, or a gap stays open. -/
def NothingToDrain (d : DecodedMessageView) (ts : Nat) (p : AdminProtocol σ) : Prop :=
  p.deferredGapFrames = [] ∨ LeavesGapOpen env d ts p

instance (d : DecodedMessageView) (ts : Nat) (p : AdminProtocol σ) :
    Decidable (NothingToDrain env d ts p) := inferInstanceAs (Decidable (_ ∨ _))

theorem nextDeferred_eq_none (h : NothingToDrain env d ts p) :
    nextDeferred (onInboundDecoded env d ts p).2 = none := by
  rcases h with hq | hgap
  · rcases onInboundDecoded_deferredGapFrames env d ts p with hsame | ⟨-, hsome⟩
    · unfold nextDeferred
      rw [hsame, hq]
    · exact nextDeferred_of_pending hsome
  · exact nextDeferred_of_pending (onInboundDecoded_keepsOpen env hgap)

theorem onInbound_eq_onInboundDecoded {bytes : Bytes} (hdec : decodeInbound env bytes = .ok d)
    (h : NothingToDrain env d ts p) : onInbound env bytes ts p = onInboundDecoded env d ts p := by
  have hnone := nextDeferred_eq_none env h
  unfold onInbound
  rw [hdec]
  dsimp only
  rw [bind_apply]
  revert hnone
  generalize onInboundDecoded env d ts p = out
  obtain ⟨_ | event, q⟩ := out
  · exact fun _ => rfl
  · intro hnone
    dsimp only
    unfold drainOrFail
    rw [drain_of_nothing env hnone]

/-- The outcome and the state after each of the frames, fed to the decoded-view overload. -/
def feedDecoded : List (ReadFrame env) → AdminProtocol σ →
    List (Except Status ProtocolEvent × AdminProtocol σ)
  | [], _ => []
  | f :: frames, p =>
    onInboundDecoded env f.decoded f.timestampNs p ::
      feedDecoded frames (onInboundDecoded env f.decoded f.timestampNs p).2

/-- The same for the overload that takes a span of bytes. -/
def feedBytes : List (ReadFrame env) → AdminProtocol σ →
    List (Except Status ProtocolEvent × AdminProtocol σ)
  | [], _ => []
  | f :: frames, p =>
    onInbound env f.frame f.timestampNs p ::
      feedBytes frames (onInbound env f.frame f.timestampNs p).2

/-- After no frame of the run is there anything to drain. -/
def NeverDrains : List (ReadFrame env) → AdminProtocol σ → Prop
  | [], _ => True
  | f :: frames, p => NothingToDrain env f.decoded f.timestampNs p ∧
      NeverDrains frames (onInboundDecoded env f.decoded f.timestampNs p).2

instance NeverDrains.decidable : ∀ (frames : List (ReadFrame env)) (p : AdminProtocol σ),
    Decidable (NeverDrains env frames p)
  | [], _ => .isTrue trivial
  | f :: frames, p => @instDecidableAnd _ _ _
      (NeverDrains.decidable frames (onInboundDecoded env f.decoded f.timestampNs p).2)

/-- The two overloads agree frame by frame, on the outcome and on the whole state, along every run
with nothing to drain. -/
theorem feedDecoded_eq_feedBytes (frames : List (ReadFrame env)) (p : AdminProtocol σ)
    (h : NeverDrains env frames p) : feedDecoded env frames p = feedBytes env frames p := by
  induction frames generalizing p with
  | nil => rfl
  | cons f frames ih =>
    unfold feedDecoded feedBytes
    rw [onInbound_eq_onInboundDecoded env f.decodes h.1, ih _ h.2]

end

def Sample.orders (numbers : List Nat) : List (ReadFrame acceptor) :=
  numbers.filterMap fun n => InboundCall.read acceptor ⟨false, orderFrame n, 3⟩

open Sample

/-- Orders 4 and 3 open a gap, 2 does not close it. -/
theorem feedDecoded_eq_feedBytes_sample :
    (orders [4, 3, 2]).length = 3 ∧
      feedDecoded acceptor (orders [4, 3, 2]) loggedOn =
        feedBytes acceptor (orders [4, 3, 2]) loggedOn :=
  ⟨by decide +kernel, feedDecoded_eq_feedBytes _ _ _ (by decide +kernel)⟩

/-- Order 2 closes the gap that order 3 has opened: the span overload delivers both, the other one
only order 2, and it keeps order 3 in its queue. -/
theorem decoded_overload_keeps_deferred :
    let summary := fun out : Except Status ProtocolEvent × AdminProtocol MemorySessionStore =>
      ((delivered out.1).map (·.header.msgSeqNum), out.2.session.nextInSeq,
        out.2.deferredGapFrames.length)
    (feedDecoded acceptor (orders [3, 2]) loggedOn).map summary =
        [([], 2, 1), ([2], 3, 1)] ∧
      (feedBytes acceptor (orders [3, 2]) loggedOn).map summary =
        [([], 2, 1), ([2, 3], 4, 0)] := by
  decide +kernel

end NimbleFix
