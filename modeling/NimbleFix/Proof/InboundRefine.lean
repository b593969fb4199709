import NimbleFix.Proof.Settles

/-!
# Processing a frame refines `InboundEffect`

The stages of `onInboundDecoded` are followed from the inside out: the dispatch delivers at most
the frame itself, and the stages around it move the expected number as `InboundEffect` says.
`onInboundDecoded_effect` is the result.
-/

namespace NimbleFix

open Fallible SessionCore

section

variable (env : ProtocolEnv) {σ : Type} [SessionStore σ]

/-! ## Dispatch -/

/-- What the dispatch may do after the frame's number has been consumed. -/
inductive DispatchEffect (d : DecodedMessageView) (p : AdminProtocol σ) :
    Except Status ProtocolEvent → AdminProtocol σ → Prop
  | settled {r : Except Status ProtocolEvent} {p' : AdminProtocol σ} :
      CoreSettles p p' → delivered r = [] →
      (isAdminMessage d.msgType = false → IfOk r ProtocolEvent.Answered) →
      DispatchEffect d p r p'
  | handed {r : Except Status ProtocolEvent} {p' : AdminProtocol σ} :
      CoreSettles p p' → delivered r = [d] →
      d.msgType = MsgType.reject ∨ isActiveAdminState p.session.state → DispatchEffect d p r p'
  | jumped {r : Except Status ProtocolEvent} {p' : AdminProtocol σ} (n : Nat) :
      d.isSequenceReset → parseSequenceResetNewSeq d.message = .ok n →
      p.session.nextInSeq ≤ n → delivered r = [] → IfOk r ProtocolEvent.Unanswered →
      p'.inboundCore = p.inboundCore.advance n → DispatchEffect d p r p'

variable {d : DecodedMessageView} {p : AdminProtocol σ} {n expected ts : Nat}
  {before : SessionSnapshot}

omit [SessionStore σ] in
theorem Declines.dispatchEffect {m : Method (AdminProtocol σ) ProtocolEvent} (h : Declines m) :
    DispatchEffect d p (m p).1 (m p).2 :=
  .settled (h.settles p) (h.silent p) fun _ => h.answers p

omit [SessionStore σ] in
theorem Declines.quiet {m : Method (AdminProtocol σ) ProtocolEvent} (h : Declines m) :
    InboundEffect env d expected p.inboundCore (m p).1 (m p).2.inboundCore :=
  .quiet (h.settles p) (h.silent p)

omit [SessionStore σ] in
theorem DispatchEffect.of_admin (hd : isAdminMessage d.msgType)
    {m : Method (AdminProtocol σ) ProtocolEvent} (h : CoreSettles p (m p).2) (hs : Silent m) :
    DispatchEffect d p (m p).1 (m p).2 :=
  .settled h (hs p) fun hnot => absurd (hd.symm.trans hnot) (by decide)

omit [SessionStore σ] in
theorem onSession_advance_zero (p : AdminProtocol σ) :
    (onSession (advanceInboundExpectedSeq 0)) p =
      (.error (.InvalidArgument "sequence numbers must be positive"), p) := rfl

theorem advanceAndPersist_effect (hd : d.isSequenceReset)
    (hn : parseSequenceResetNewSeq d.message = .ok n) (hle : p.session.nextInSeq ≤ n) :
    let m : Method (AdminProtocol σ) ProtocolEvent := do
      onSession (advanceInboundExpectedSeq n)
      persistRecoveryState
      pure {}
    DispatchEffect d p (m p).1 (m p).2 := by
  intro m
  rcases Nat.eq_zero_or_pos n with rfl | hpos
  · rw [show m p = _ from bind_of_error (onSession_advance_zero p)]
    exact .settled .refl rfl fun _ => trivial
  · obtain ⟨hok, hcore⟩ := onSession_advance p hpos hle
    have hstep : m p = (do
        persistRecoveryState
        pure {} : Method (AdminProtocol σ) ProtocolEvent)
          ((onSession (advanceInboundExpectedSeq n)) p).2 :=
      bind_of_ok (Prod.ext hok rfl)
    refine .jumped n hd hn hle ?_ ?_ ?_
    · rw [hstep]
      exact Silent.bind (fun _ => .pure rfl) _
    · rw [hstep, bind_apply]
      split
      · exact ⟨rfl, rfl⟩
      · trivial
    · rw [hstep, ← hcore]
      exact Preserves.bind persistRecoveryState_core (fun _ => .pure _) _

theorem processGapFill_effect (d : DecodedMessageView) (hd : d.isSequenceReset) (ts : Nat)
    (p : AdminProtocol σ) :
    DispatchEffect d p (processGapFill env d ts p).1 (processGapFill env d ts p).2 := by
  unfold processGapFill
  cases hn : parseSequenceResetNewSeq d.message with
  | error r => exact (rejectInbound_declines env d r ts).dispatchEffect
  | ok n =>
    by_cases hlt : n < p.session.nextInSeq
    · simp only [hlt, if_true]
      exact (rejectInbound_declines env d _ ts).dispatchEffect
    · simp only [hlt, if_false]
      exact advanceAndPersist_effect hd hn (by omega)

theorem processLogout_effect (d : DecodedMessageView) (ts : Nat) (p : AdminProtocol σ) :
    DispatchEffect d p (processLogout env ts p).1 (processLogout env ts p).2 := by
  unfold processLogout
  split
  · exact (logoutAndDisconnect_declines env rfl _ ts).dispatchEffect
  · exact .settled .refl rfl fun _ => .inr rfl

theorem processInboundApplication_effect (d : DecodedMessageView) (ts : Nat)
    (p : AdminProtocol σ) :
    DispatchEffect d p (processInboundApplication env d ts p).1
      (processInboundApplication env d ts p).2 := by
  unfold processInboundApplication
  by_cases h : isActiveAdminState p.session.state
  · simp only [h, Bool.not_true, Bool.false_eq_true, if_false]
    split
    · refine Declines.dispatchEffect (m := sendBusinessReject env d _ ts) ⟨?_, ?_, ?_⟩
      · exact .bind (coreSettles_of_preserves (buildAdminFrame_core env _ ts)) fun _ => .pure _
      · exact .bind fun _ => .pure rfl
      · exact .bind fun _ => .pure (.inl (by simp))
    · exact (rejectInbound_declines env d _ ts).dispatchEffect
    · exact .handed .refl rfl (.inr h)
  · simp only [h, Bool.not_false, if_true]
    exact .settled .refl rfl fun _ => trivial

theorem dispatchMessage_effect (d : DecodedMessageView) (ts : Nat) (p : AdminProtocol σ)
    (h : p.session.nextInSeq = wrap32 (d.header.msgSeqNum + 1)) :
    DispatchEffect d p (dispatchMessage env d ts p).1 (dispatchMessage env d ts p).2 := by
  unfold dispatchMessage
  split
  · rename_i hd
    exact .of_admin (by rw [hd]; decide) (processInboundLogon_settles env d ts p h)
      (processInboundLogon_silent env d ts)
  · split
    · rename_i hd
      refine .of_admin (by rw [hd]; decide) ?_ fun q => ?_ <;> unfold processHeartbeat <;>
        dsimp only <;> split
      · exact .refl
      · exact .refl
      · rfl
      · rfl
    · split
      · rename_i hd
        exact .of_admin (m := processTestRequest env d ts) (by rw [hd]; decide)
          (Moves.bind (coreSettles_of_preserves (buildAdminFrame_core env _ ts))
            (fun _ => .pure _) p)
          (.bind fun _ => .pure rfl)
      · split
        · rename_i hd
          exact .of_admin (m := processResendRequest env d ts) (by rw [hd]; decide)
            (Moves.bind (coreSettles_of_preserves (replayOutbound_core env _ _ ts))
              (fun _ => .pure _) p)
            (.bind fun _ => .pure rfl)
        · split
          · rename_i hreset
            exact processGapFill_effect env d (by simpa [DecodedMessageView.isSequenceReset]) ts p
          · split
            · exact processLogout_effect env d ts p
            · split
              · rename_i hreject
                exact .handed .refl rfl (.inl hreject)
              · exact processInboundApplication_effect env d ts p

/-! ## Frames in order and past a gap -/

theorem buildAdminFrame_not_counting (m : MessageData) (ts : Nat) (p : AdminProtocol σ)
    (h : ¬CountsSequences p.session.state) :
    ∃ e, buildAdminFrame env m ts p = (.error e, p) := by
  have hseq : takeSeq { admin := true } p = (.error (.InvalidArgument
      "outbound sequence numbers can only be allocated for an active session"), p) := by
    simp only [takeSeq, if_true, onSession, zoom_apply, allocateOutboundSeq, h,
      not_false_eq_true]
  exact ⟨_, bind_of_error hseq⟩

theorem requestResend_cases (d : DecodedMessageView) (range : ResendRange) (ts : Nat)
    (p : AdminProtocol σ) :
    (requestResend env d range ts p).2.inboundCore = p.inboundCore ∨
      CountsSequences p.session.state ∧
        (requestResend env d range ts p).2.inboundCore = p.inboundCore.defer d.raw := by
  have hrec := recordInbound_core ts p
  have hstep : requestResend env d range ts p = (do
      let resend ← buildResendRequestFrame env range.beginSeq range.endSeq ts
      Fallible.modify fun p => { p with deferredGapFrames := p.deferredGapFrames ++ [d.raw] }
      pure { outboundFrames := [resend] } : Method (AdminProtocol σ) ProtocolEvent)
        (recordInbound ts p).2 := bind_of_ok (Prod.ext rfl rfl)
  have hbuild := buildAdminFrame_core env (AdminMessage.resendRequest range.beginSeq range.endSeq)
    ts (recordInbound ts p).2
  rw [hstep, bind_apply]
  by_cases hc : CountsSequences p.session.state
  · change (buildResendRequestFrame env range.beginSeq range.endSeq ts
      (recordInbound ts p).2).2.inboundCore = _ at hbuild
    revert hbuild
    generalize buildResendRequestFrame env range.beginSeq range.endSeq ts
      (recordInbound ts p).2 = q
    obtain ⟨_ | frame, q⟩ := q
    · exact fun hq => .inl (hq.trans hrec)
    · intro hq
      refine .inr ⟨hc, ?_⟩
      rw [← hrec, ← hq]
      rfl
  · obtain ⟨e, he⟩ := buildAdminFrame_not_counting env
      (AdminMessage.resendRequest range.beginSeq range.endSeq) ts (recordInbound ts p).2 hc
    rw [show buildResendRequestFrame env range.beginSeq range.endSeq ts (recordInbound ts p).2 = _
      from he]
    exact .inl hrec

theorem requestResend_silent (d : DecodedMessageView) (range : ResendRange) (ts : Nat) :
    Silent (requestResend (σ := σ) env d range ts) :=
  .bind fun _ => .bind fun _ => .bind fun _ => .pure rfl

/-- A frame that was not observed: the core settles, or the frame is put aside. -/
theorem processOutOfSequence_cases (d : DecodedMessageView) (before : SessionSnapshot)
    (status : Status) (ts : Nat) (p : AdminProtocol σ) :
    delivered (processOutOfSequence env d before status ts p).1 = [] ∧
      (CoreSettles p (processOutOfSequence env d before status ts p).2 ∨
        before.nextInSeq < d.header.msgSeqNum ∧ p.session.pendingResend.isSome ∧
          CountsSequences p.session.state ∧
          (processOutOfSequence env d before status ts p).2.inboundCore =
            p.inboundCore.defer d.raw) := by
  unfold processOutOfSequence
  split
  · rename_i hlt
    split
    · have hlogout := fun text => phaseViolationLogout_declines (σ := σ) env text before d.msgType ts
      refine ⟨Silent.bind (fun _ => (hlogout _).silent) p, .inl ?_⟩
      exact Moves.bind (coreSettles_of_preserves (recordInbound_core ts))
        (fun _ => (hlogout _).settles) p
    · rename_i range _ hp
      refine ⟨requestResend_silent env d range ts p, ?_⟩
      rcases requestResend_cases env d range ts p with h | ⟨hc, h⟩
      · left
        unfold CoreSettles
        rw [h]
      · exact .inr ⟨hlt, by rw [hp]; rfl, hc, h⟩
    · exact ⟨rfl, .inl .refl⟩
  · exact ⟨rfl, .inl .refl⟩

/-- The state after the number has been observed and a completed resend noted. -/
def observedState (d : DecodedMessageView) (p : AdminProtocol σ) : AdminProtocol σ :=
  (settleTestRequest ((onSession (observeInboundSeq d.header.msgSeqNum)) p).2).2

theorem processInOrder_of_error {status : Status}
    (h : ((onSession (observeInboundSeq d.header.msgSeqNum)) p).1 = .error status)
    (before : SessionSnapshot) (ts : Nat) :
    processInOrder env d before ts p =
      processOutOfSequence env d before status ts (observedState d p) := by
  unfold processInOrder
  rw [Fallible.bind_apply, Fallible.attempt_apply, h]
  rfl

theorem processInOrder_of_ok
    (h : ((onSession (observeInboundSeq d.header.msgSeqNum)) p).1 = .ok ())
    (before : SessionSnapshot) (ts : Nat) :
    processInOrder env d before ts p = (do
      commitInboundPersistence d ts
      checkPhaseAndContent env d before ts (dispatchMessage env d ts) :
        Method (AdminProtocol σ) ProtocolEvent) (observedState d p) := by
  unfold processInOrder
  rw [Fallible.bind_apply, Fallible.attempt_apply, h]
  rfl

/-- A counting state that the phase check lets a session-level Reject pass in is an active one. -/
theorem isActive_of_no_violation {st : SessionState} (hc : CountsSequences st)
    (h : adminPhaseViolationText st MsgType.reject = none) : isActiveAdminState st := by
  rcases hc with rfl | rfl | rfl | rfl | rfl
  · exact absurd h (by decide)
  · exact absurd h (by decide)
  · rfl
  · rfl
  · rfl

omit [SessionStore σ] in
theorem inboundEffect_of_dispatch {c : InboundCore} {p' : AdminProtocol σ}
    {r : Except Status ProtocolEvent} (hc : CountsSequences c.state)
    (hseq : d.header.msgSeqNum = c.nextInSeq) (hp : p.inboundCore = c.consume)
    (hphase : adminPhaseViolationText c.state d.msgType = none) (h : DispatchEffect d p r p') :
    InboundEffect env d expected c r p'.inboundCore := by
  cases h with
  | settled hs hr ha =>
    unfold CoreSettles at hs
    rw [hp] at hs
    exact .consumed hc hseq hs (.inl ⟨hr, ha⟩)
  | handed hs hr hact =>
    unfold CoreSettles at hs
    rw [hp] at hs
    refine .consumed hc hseq hs (.inr ⟨hr, ?_⟩)
    rcases hact with hrej | hact
    · rw [hrej] at hphase
      exact isActive_of_no_violation hc hphase
    · apply c.isActive_of_consume
      rw [← hp]
      exact hact
  | jumped n hd hn hle hr hun hcore =>
    rw [hcore, hp]
    refine .filled n hc hseq hd hn ?_ hr hun
    rw [← hp]
    exact hle

theorem processInOrder_effect (d : DecodedMessageView) (ts : Nat)
    (hstate : before.state = p.session.state)
    (hnum : before.nextInSeq = p.session.nextInSeq ∨ p.session.pendingResend = none) :
    InboundEffect env d p.session.nextInSeq p.inboundCore (processInOrder env d before ts p).1
      (processInOrder env d before ts p).2.inboundCore := by
  have hobs : (observedState d p).inboundCore =
      ((onSession (observeInboundSeq d.header.msgSeqNum)) p).2.inboundCore :=
    settleTestRequest_core _
  rcases onSession_observe_cases p d.header.msgSeqNum with ⟨hr, hs, hwhy⟩ | ⟨hc, hlt, hr, hcore⟩ |
    ⟨hc, hseq, hr, hcore⟩
  · -- not observed: a frame put aside would need a pending range and a counting state
    obtain ⟨status, hstatus⟩ := error_of_ne_ok hr
    rw [processInOrder_of_error env hstatus]
    obtain ⟨hsil, hset | ⟨hlt, hpend, hc, _⟩⟩ :=
      processOutOfSequence_cases env d before status ts (observedState d p)
    · unfold CoreSettles at hset
      rw [hobs, hs] at hset
      exact .quiet hset hsil
    · exfalso
      rw [hs] at hobs
      have hst : (observedState d p).session.state = p.session.state :=
        congrArg InboundCore.state hobs
      have hpe : (observedState d p).session.pendingResend = p.session.pendingResend :=
        congrArg InboundCore.pendingResend hobs
      rw [hst] at hc
      rw [hpe] at hpend
      rcases hnum with hnum | hnone
      · rcases hwhy with hnc | hstale
        · exact hnc hc
        · omega
      · rw [hnone] at hpend
        cases hpend
  · obtain ⟨status, hstatus⟩ := error_of_ne_ok hr
    rw [processInOrder_of_error env hstatus]
    obtain ⟨hsil, hset | ⟨_, _, _, hdefer⟩⟩ :=
      processOutOfSequence_cases env d before status ts (observedState d p)
    · unfold CoreSettles at hset
      rw [hobs, hcore] at hset
      exact .gapped hc hlt rfl hset hsil
    · rw [hdefer, hobs, hcore]
      exact .deferred hc hlt rfl hsil
  · rw [processInOrder_of_ok env hr]
    rw [hcore] at hobs
    have hcommit := commitInboundPersistence_core d ts (observedState d p)
    rw [hobs] at hcommit
    rw [bind_apply]
    revert hcommit
    generalize commitInboundPersistence d ts (observedState d p) = q
    obtain ⟨_ | _, q⟩ := q
    · intro hq
      simp only at hq ⊢
      rw [hq]
      exact .consumed hc hseq .refl (.inl ⟨rfl, fun _ => trivial⟩)
    · intro hq
      simp only at hq ⊢
      rcases checkPhaseAndContent_cases env d before ts (dispatchMessage (σ := σ) env d ts) with
        ⟨hdeclines, _⟩ | ⟨hphase, _, hacc⟩
      · have hset := hdeclines.settles q
        unfold CoreSettles at hset
        rw [hq] at hset
        exact .consumed hc hseq hset (.inl ⟨hdeclines.silent q, fun _ => hdeclines.answers q⟩)
      · rw [hacc]
        rw [hstate] at hphase
        have hnext : q.session.nextInSeq = wrap32 (d.header.msgSeqNum + 1) := by
          rw [hseq]
          exact (congrArg InboundCore.nextInSeq hq).trans (InboundCore.consume_nextInSeq _)
        exact inboundEffect_of_dispatch env hc hseq hq hphase
          (dispatchMessage_effect env d ts q hnext)

/-! ## SequenceReset in reset mode and stale frames -/

theorem not_isLogon_of_isSequenceReset (h : d.isSequenceReset) : ¬d.isLogon := by
  simp only [DecodedMessageView.isSequenceReset, DecodedMessageView.isLogon, beq_iff_eq] at *
  rw [h]
  decide

omit [SessionStore σ] in
theorem advanceExpected_cases (hnum : before.nextInSeq = p.session.nextInSeq)
    (hle : p.session.nextInSeq ≤ n) :
    (advanceExpected before n p).1 = .ok () ∧
      ((p.session.nextInSeq < n ∧
          (advanceExpected before n p).2.inboundCore = p.inboundCore.advance n) ∨
        (advanceExpected before n p).2 = p) := by
  unfold advanceExpected
  rw [hnum]
  split
  · rename_i hlt
    obtain ⟨hok, hcore⟩ := onSession_advance p (by omega) hle
    rw [bind_of_ok (Prod.ext hok rfl)]
    exact ⟨rfl, .inl ⟨hlt, (settleTestRequest_core _).trans hcore⟩⟩
  · exact ⟨rfl, .inr rfl⟩

omit [SessionStore σ] in
/-- After a jump that stays within the range, what follows settles and delivers nothing. -/
theorem inboundEffect_of_jump (hd : d.isSequenceReset)
    (hn : parseSequenceResetNewSeq d.message = .ok n)
    (hnum : before.nextInSeq = p.session.nextInSeq) (hle : p.session.nextInSeq ≤ n)
    {k : Method (AdminProtocol σ) ProtocolEvent} (hk : Moves CoreSettles k) (hsil : Silent k)
    (hun : ResetChecked env d p.inboundCore → ∀ q, IfOk (k q).1 ProtocolEvent.Unanswered) :
    InboundEffect env d expected p.inboundCore ((do advanceExpected before n; k) p).1
      ((do advanceExpected before n; k : Method (AdminProtocol σ) ProtocolEvent) p).2.inboundCore := by
  obtain ⟨hok, hmove⟩ := advanceExpected_cases hnum hle
  have hstep : (do advanceExpected before n; k : Method (AdminProtocol σ) ProtocolEvent) p =
      k (advanceExpected before n p).2 := bind_of_ok (Prod.ext hok rfl)
  rw [hstep]
  have hset := hk (advanceExpected before n p).2
  unfold CoreSettles at hset
  rcases hmove with ⟨hlt, hcore⟩ | hsame
  · rw [hcore] at hset
    exact .reset n hd hn hlt hset (hsil _) fun hchecked => hun hchecked _
  · rw [hsame] at hset ⊢
    exact .quiet hset (hsil _)

theorem unanswered_commit_then {event : ProtocolEvent} (h₁ : event.outboundFrames = [])
    (h₂ : event.disconnect = false) (q : AdminProtocol σ) :
    IfOk ((do
      commitInboundPersistence d ts
      pure event : Method (AdminProtocol σ) ProtocolEvent) q).1 ProtocolEvent.Unanswered := by
  rw [bind_apply]
  split
  · exact ⟨h₁, h₂⟩
  · trivial

theorem processSequenceReset_effect (hd : d.isSequenceReset) (ts : Nat)
    (hstate : before.state = p.session.state) (hnum : before.nextInSeq = p.session.nextInSeq)
    (hseq : p.session.nextInSeq ≤ d.header.msgSeqNum) (hmode : d.isGapFill = false) :
    InboundEffect env d expected p.inboundCore (processSequenceReset env d before ts p).1
      (processSequenceReset env d before ts p).2.inboundCore := by
  unfold processSequenceReset
  cases hn : parseSequenceResetNewSeq d.message with
  | error r => exact (rejectInbound_declines env d r ts).quiet env
  | ok n =>
    dsimp only
    split
    · exact (rejectInbound_declines env d _ ts).quiet env
    · have hcases := checkPhaseAndContent_cases (σ := σ) env d before ts (pure
        { warnings := if n = before.nextInSeq then
            [ascii "SequenceReset NewSeqNo equals expected inbound sequence"] else [] })
      refine inboundEffect_of_jump env hd hn hnum (by omega) (.bind
        (coreSettles_of_preserves (commitInboundPersistence_core d ts)) fun _ => ?_)
        (.bind fun _ => ?_) ?_
      · rcases hcases with ⟨hdeclines, _⟩ | ⟨_, _, hacc⟩
        · exact hdeclines.settles
        · rw [hacc]
          exact .pure _
      · rcases hcases with ⟨hdeclines, _⟩ | ⟨_, _, hacc⟩
        · exact hdeclines.silent
        · rw [hacc]
          exact .pure rfl
      · intro hchecked q
        rcases hcases with ⟨_, hbad⟩ | ⟨_, _, hacc⟩
        · rw [hstate] at hbad
          exact absurd (hchecked hseq hmode) hbad
        · simp only [hacc]
          exact unanswered_commit_then rfl rfl q

theorem processStaleSequenceReset_effect (hd : d.isSequenceReset) (ts : Nat)
    (hnum : before.nextInSeq = p.session.nextInSeq) :
    InboundEffect env d expected p.inboundCore (processStaleSequenceReset env d before ts p).1
      (processStaleSequenceReset env d before ts p).2.inboundCore := by
  unfold processStaleSequenceReset
  cases hn : parseSequenceResetNewSeq d.message with
  | error r => exact (rejectInbound_declines env d r ts).quiet env
  | ok n =>
    dsimp only
    split
    · exact (logoutAndDisconnect_declines env rfl _ ts).quiet env
    · split
      · exact (rejectInbound_declines env d _ ts).quiet env
      · exact inboundEffect_of_jump env hd hn hnum (by omega)
          (.bind (coreSettles_of_preserves (commitInboundPersistence_core d ts)) fun _ => .pure _)
          (.bind fun _ => .pure rfl) fun _ q => unanswered_commit_then rfl rfl q

theorem processStale_effect (d : DecodedMessageView) (ts : Nat)
    (hnum : before.nextInSeq = p.session.nextInSeq ∨ d.isLogon) :
    InboundEffect env d expected p.inboundCore (processStale env d before ts p).1
      (processStale env d before ts p).2.inboundCore := by
  unfold processStale
  split
  · rename_i hd
    rcases hnum with hnum | hlogon
    · exact processStaleSequenceReset_effect env hd ts hnum
    · exact absurd hlogon (not_isLogon_of_isSequenceReset hd)
  · split
    · exact .quiet (Moves.bind (coreSettles_of_preserves (commitInboundPersistence_core d ts))
        (fun _ => .pure _) p) (Silent.bind (fun _ => .pure rfl) p)
    · exact (logoutAndDisconnect_declines env rfl _ ts).quiet env

/-! ## The stages -/

/-- The snapshot the later stages decide on: current, except that the number may be old for a
Logon that has just been given new counters. -/
structure SnapshotFits (d : DecodedMessageView) (before : SessionSnapshot)
    (p : AdminProtocol σ) : Prop where
  state : before.state = p.session.state
  number : before.nextInSeq = p.session.nextInSeq ∨ d.isLogon ∧ p.session.pendingResend = none

theorem processByNumber_effect (ts : Nat) (h : SnapshotFits d before p) :
    InboundEffect env d p.session.nextInSeq p.inboundCore (processByNumber env d before ts p).1
      (processByNumber env d before ts p).2.inboundCore := by
  unfold processByNumber
  split
  · exact processStale_effect env d ts (h.number.imp_right And.left)
  · rename_i hseq
    split
    · rename_i hd
      have hnum := h.number.resolve_right fun hl => not_isLogon_of_isSequenceReset hd.1 hl.1
      exact processSequenceReset_effect env hd.1 ts h.state hnum (by omega) (by simpa using hd.2)
    · exact processInOrder_effect env d ts h.state (h.number.imp_right And.right)

theorem processSequenced_effect (ts : Nat) (h : SnapshotFits d before p) :
    InboundEffect env d p.session.nextInSeq p.inboundCore (processSequenced env d before ts p).1
      (processSequenced env d before ts p).2.inboundCore := by
  unfold processSequenced
  cases adminPhaseViolationText before.state d.msgType with
  | none => exact processByNumber_effect env ts h
  | some text =>
    dsimp only
    split
    · exact .quiet (Moves.bind (coreSettles_of_preserves (recordInbound_core ts)) (fun _ =>
        .bind (coreSettles_of_preserves persistRecoveryState_core) fun _ => .pure _) p)
        (Silent.bind (fun _ => .bind fun _ => .pure rfl) p)
    · exact processByNumber_effect env ts h

theorem processChecked_of_not_logon (h : d.isLogon = false) (before : SessionSnapshot) (ts : Nat)
    (p : AdminProtocol σ) :
    processChecked env d before ts p = processSequenced env d before ts p := by
  have hresets : ¬resetsOnLogon env d := by
    simp [resetsOnLogon, DecodedMessageView.isLogonReset, h]
  unfold processChecked refreshOnLogon resetOnLogon
  rw [if_neg (by simp [h]), if_neg hresets]
  rfl

theorem processSequenced_of_no_violation (h : adminPhaseViolationText before.state d.msgType = none)
    (ts : Nat) : processSequenced (σ := σ) env d before ts = processByNumber env d before ts := by
  unfold processSequenced
  rw [h]

/-- The core after a Logon may have brought new counters. -/
inductive Restored (env : ProtocolEnv) (d : DecodedMessageView) (ts : Nat) (c : InboundCore) :
    InboundCore → Prop
  | same : Restored env d ts c c
  | restored (n : Nat) : RestoresCounters env d ts → c.state ≠ .resendProcessing →
      Restored env d ts c (c.restore n)

theorem Restored.restore_one {c c' : InboundCore} (h : Restored env d ts c c')
    (hacc : HeaderAccepted env d ts) (hr : resetsOnLogon env d)
    (hst : c'.state ≠ .resendProcessing) :
    Restored env d ts c (c'.restore 1) := by
  cases h with
  | same => exact .restored 1 ⟨hacc, .inl hr⟩ hst
  | restored n h hst => exact .restored 1 h hst

omit [SessionStore σ] in
theorem restoreFromRecovery_core (recovery : Except Status SessionRecoveryState)
    (p : AdminProtocol σ) :
    (restoreFromRecovery recovery p).2.inboundCore = p.inboundCore ∨
      p.inboundCore.state ≠ .resendProcessing ∧
        ∃ n, (restoreFromRecovery recovery p).2.inboundCore = p.inboundCore.restore n := by
  have hrestore : ∀ nextIn nextOut,
      ((onSession (restoreSequenceState nextIn nextOut)) p).2.inboundCore =
        p.inboundCore ∨ p.inboundCore.state ≠ .resendProcessing ∧ ∃ n,
      ((onSession (restoreSequenceState nextIn nextOut)) p).2.inboundCore =
        p.inboundCore.restore n := by
    intro nextIn nextOut
    rcases onSession_restore_cases p nextIn nextOut with ⟨_, hs⟩ | ⟨hst, _, hs⟩
    · exact .inl (by rw [hs])
    · exact .inr ⟨hst, nextIn, hs⟩
  cases recovery with
  | ok r => exact hrestore r.nextInSeq r.nextOutSeq
  | error e =>
    unfold restoreFromRecovery
    dsimp only
    split
    · exact hrestore 1 1
    · exact .inl rfl

theorem refreshSessionStateFromStore_core (p : AdminProtocol σ) :
    (refreshSessionStateFromStore p).2.inboundCore = p.inboundCore ∨
      p.inboundCore.state ≠ .resendProcessing ∧
        ∃ n, (refreshSessionStateFromStore p).2.inboundCore = p.inboundCore.restore n := by
  unfold refreshSessionStateFromStore
  split
  · exact .inl rfl
  · unfold reloadFromStore
    have h₁ := onStore_core () (fun _ => SessionStore.refresh (σ := σ)) p
    rw [bind_apply]
    revert h₁
    generalize onStore () (fun _ => SessionStore.refresh) p = q
    obtain ⟨_ | _, q⟩ := q
    · exact fun h => .inl h
    · intro h₁
      simp only at h₁ ⊢
      have h₂ := onStore_core ⟨0, 0, 0, 0, 0, false⟩
        (fun s => SessionStore.loadRecoveryState (σ := σ) s.config.sessionId) q
      rw [bind_of_ok (attempt_apply _ _), ← h₁, ← h₂]
      exact restoreFromRecovery_core _ _

theorem refreshOnLogon_core (d : DecodedMessageView) (p : AdminProtocol σ) :
    (refreshOnLogon env d p).2.inboundCore = p.inboundCore ∨
      (d.isLogon ∧ env.config.refreshOnLogon) ∧ p.inboundCore.state ≠ .resendProcessing ∧
        ∃ n, (refreshOnLogon env d p).2.inboundCore = p.inboundCore.restore n := by
  unfold refreshOnLogon
  split
  · rename_i h
    exact (refreshSessionStateFromStore_core p).imp_right fun hn => ⟨h, hn⟩
  · exact .inl rfl

/-- The stages after the header checks, from the core that the Logon resets leave behind. -/
theorem processChecked_effect (d : DecodedMessageView) (ts : Nat) (p : AdminProtocol σ)
    (hacc : HeaderAccepted env d ts) :
    ∃ c, Restored env d ts p.inboundCore c ∧ InboundEffect env d (expectedFor env d p) c
      (processChecked env d p.session.snapshot ts p).1
      (processChecked env d p.session.snapshot ts p).2.inboundCore := by
  have hrefresh := refreshOnLogon_core env d p
  have hexp : expectedFor env d p =
      if resetsOnLogon env d then 1 else (refreshOnLogon env d p).2.session.nextInSeq := rfl
  have hrestored : Restored env d ts p.inboundCore (refreshOnLogon env d p).2.inboundCore := by
    rcases hrefresh with h | ⟨hl, hst, n, h⟩
    · rw [h]; exact .same
    · rw [h]; exact .restored n ⟨hacc, .inr hl⟩ hst
  have hfits : SnapshotFits d p.session.snapshot (refreshOnLogon env d p).2 := by
    rcases hrefresh with h | ⟨hl, _, n, h⟩
    · exact ⟨(congrArg InboundCore.state h).symm, .inl (congrArg InboundCore.nextInSeq h).symm⟩
    · exact ⟨(congrArg InboundCore.state h).symm,
        .inr ⟨hl.1, congrArg InboundCore.pendingResend h⟩⟩
  unfold processChecked
  rw [bind_apply]
  revert hrefresh hexp hrestored hfits
  generalize refreshOnLogon env d p = q
  obtain ⟨_ | _, q⟩ := q
  · exact fun _ _ hrestored _ => ⟨_, hrestored, .quiet .refl rfl⟩
  · intro _ hexp hrestored hfits
    simp only at hexp hrestored hfits ⊢
    unfold resetOnLogon
    by_cases hresets : resetsOnLogon env d
    · rw [if_pos hresets] at hexp ⊢
      have hreset := resetSessionState_core 1
        (if env.config.session.isInitiator then p.session.snapshot.nextOutSeq else 1)
        (!env.config.session.isInitiator) q
      rw [bind_apply, bind_apply]
      revert hreset
      generalize resetSessionState 1
        (if env.config.session.isInitiator then p.session.snapshot.nextOutSeq else 1)
        (!env.config.session.isInitiator) q = x
      obtain ⟨_ | _, q'⟩ := x
      · rintro (⟨_, hcore⟩ | ⟨hst, hcore⟩) <;> simp only at hcore
        · refine ⟨_, hrestored, .quiet ?_ rfl⟩
          change q.inboundCore.Settles q'.inboundCore
          rw [hcore]
        · refine ⟨_, hrestored.restore_one env hacc hresets hst, .quiet ?_ rfl⟩
          change (q.inboundCore.restore 1).Settles q'.inboundCore
          rw [hcore]
      · rintro (⟨hne, _⟩ | ⟨hst, hcore⟩)
        · exact absurd rfl hne
        · refine ⟨_, hrestored.restore_one env hacc hresets hst, ?_⟩
          simp only at hcore
          rw [hexp, ← hcore, show (1 : Nat) = q'.session.nextInSeq from
            (congrArg InboundCore.nextInSeq hcore).symm]
          exact processSequenced_effect env ts ⟨rfl, .inl rfl⟩
    · rw [if_neg hresets] at hexp ⊢
      rw [bind_of_ok (pure_apply _ _), hexp]
      exact ⟨_, hrestored, processSequenced_effect env ts hfits⟩

/-! ## Frames refused for their header -/

/-- A frame that is refused for its header may still have its number consumed. -/
inductive HeaderEffect (d : DecodedMessageView) (p q : AdminProtocol σ) : Prop
  | kept : q.inboundCore = p.inboundCore → HeaderEffect d p q
  | consumed : CountsSequences p.session.state →
      d.header.msgSeqNum = p.session.nextInSeq → q.inboundCore = p.inboundCore.consume →
      HeaderEffect d p q

omit [SessionStore σ] in
theorem inboundEffect_of_header {q q' : AdminProtocol σ} {r : Except Status ProtocolEvent}
    (h : HeaderEffect d p q) (hset : CoreSettles q q') (hr : delivered r = [])
    (ha : IfOk r ProtocolEvent.Answered) :
    InboundEffect env d expected p.inboundCore r q'.inboundCore := by
  unfold CoreSettles at hset
  cases h with
  | kept h =>
    rw [h] at hset
    exact .quiet hset hr
  | consumed hc hseq h =>
    rw [h] at hset
    exact .consumed hc hseq hset (.inl ⟨hr, fun _ => ha⟩)

omit [SessionStore σ] in
theorem HeaderEffect.of_declines {q : AdminProtocol σ}
    {m : Method (AdminProtocol σ) ProtocolEvent} (h : HeaderEffect d p q) (hm : Declines m) :
    InboundEffect env d expected p.inboundCore (m q).1 (m q).2.inboundCore :=
  inboundEffect_of_header env h (hm.settles q) (hm.silent q) (hm.answers q)

omit [SessionStore σ] in
theorem observe_then_keep (hc : CountsSequences p.session.state)
    (hseq : d.header.msgSeqNum = p.session.nextInSeq) {k : Unit → Method (AdminProtocol σ) Unit}
    (hk : Preserves AdminProtocol.inboundCore (k ())) :
    HeaderEffect d p
      ((onSession (observeInboundSeq d.header.msgSeqNum) >>= k) p).2 := by
  rcases onSession_observe_cases p d.header.msgSeqNum with ⟨_, _, hnc | hlt⟩ | ⟨_, hlt, _⟩ |
    ⟨_, _, hr, hcore⟩
  · exact absurd hc hnc
  · omega
  · omega
  · refine .consumed hc hseq ?_
    rw [bind_of_ok (Prod.ext hr rfl), hk]
    exact hcore

theorem countsSequences_of_isActive {st : SessionState} (h : isActiveAdminState st) :
    CountsSequences st := by
  cases st <;> first | (exact absurd h (by decide)) | decide

theorem consumeExpectedInboundBeforeReject_effect (d : DecodedMessageView) (ts : Nat)
    (p : AdminProtocol σ) :
    HeaderEffect d p (consumeExpectedInboundBeforeReject d p.session.snapshot ts p).2 := by
  unfold consumeExpectedInboundBeforeReject
  split
  · rename_i h
    exact observe_then_keep (countsSequences_of_isActive h.1) h.2
      (.bind settleTestRequest_core fun _ => .bind (recordInbound_core ts) fun _ =>
        persistRecoveryState_core)
  · exact .kept rfl

/-- The two consumptions exclude each other: one needs an active state, the other `connected`. -/
theorem consumeRefusedLogon_effect (d : DecodedMessageView) (ts : Nat) (p q : AdminProtocol σ)
    (hq : q = (consumeExpectedInboundBeforeReject d p.session.snapshot ts p).2) :
    HeaderEffect d p (consumeRefusedLogon d p.session.snapshot ts q).2 := by
  unfold consumeRefusedLogon
  split
  · rename_i h
    have hsame : q = p := by
      rw [hq]
      unfold consumeExpectedInboundBeforeReject
      rw [if_neg]
      rintro ⟨hact, _⟩
      rw [show p.session.state = .connected from h.1] at hact
      exact absurd hact (by decide)
    rw [hsame]
    exact observe_then_keep (by rw [show p.session.state = .connected from h.1]; decide) h.2.2
      (.bind (recordInbound_core ts) fun _ => persistRecoveryState_core)
  · rw [hq]
    exact consumeExpectedInboundBeforeReject_effect d ts p

theorem rejectCompIds_effect (d : DecodedMessageView) (r : Rejection) (ts : Nat)
    (p : AdminProtocol σ) :
    InboundEffect env d expected p.inboundCore
      (rejectCompIds env d p.session.snapshot r ts p).1
      (rejectCompIds env d p.session.snapshot r ts p).2.inboundCore := by
  have hconsume := consumeExpectedInboundBeforeReject_effect d ts p
  have hrefused := consumeRefusedLogon_effect d ts p
  unfold rejectCompIds
  rw [bind_apply]
  revert hconsume hrefused
  generalize consumeExpectedInboundBeforeReject d p.session.snapshot ts p = x
  obtain ⟨_ | _, q⟩ := x
  · exact fun hconsume _ => inboundEffect_of_header env hconsume .refl rfl (trivial)
  · intro hconsume hrefused
    have hq := hrefused q rfl
    dsimp only
    split
    · rw [bind_apply]
      revert hq
      generalize consumeRefusedLogon d p.session.snapshot ts q = y
      obtain ⟨_ | _, q'⟩ := y
      · exact fun hq => inboundEffect_of_header env hq .refl rfl (trivial)
      · exact fun hq => hq.of_declines env (rejectThenLogout_declines env d r ts)
    · exact hconsume.of_declines env (rejectInbound_declines env d r ts)

theorem consumeThenRefuse_effect (d : DecodedMessageView) (ts : Nat) (p : AdminProtocol σ)
    {k : Method (AdminProtocol σ) ProtocolEvent} (hk : Declines k) :
    InboundEffect env d expected p.inboundCore
      ((do consumeExpectedInboundBeforeReject d p.session.snapshot ts; k) p).1
      ((do consumeExpectedInboundBeforeReject d p.session.snapshot ts; k :
        Method (AdminProtocol σ) ProtocolEvent) p).2.inboundCore := by
  have hconsume := consumeExpectedInboundBeforeReject_effect d ts p
  rw [bind_apply]
  revert hconsume
  generalize consumeExpectedInboundBeforeReject d p.session.snapshot ts p = x
  obtain ⟨_ | _, q⟩ := x
  · exact fun hconsume => inboundEffect_of_header env hconsume .refl rfl (trivial)
  · exact fun hconsume => hconsume.of_declines env hk

theorem onInboundDecoded_of_initialized (h : p.initializationError = none) (d : DecodedMessageView)
    (ts : Nat) : onInboundDecoded env d ts p = processFrame env d p.session.snapshot ts p := by
  have hok : ensureInitialized p = (.ok (), p) := by
    unfold ensureInitialized
    rw [h]
  exact bind_of_ok hok

theorem onInboundDecoded_of_error {e : Status} (h : p.initializationError = some e)
    (d : DecodedMessageView) (ts : Nat) : onInboundDecoded env d ts p = (.error e, p) := by
  have herr : ensureInitialized p = (.error e, p) := by
    unfold ensureInitialized
    rw [h]
  exact bind_of_error herr

theorem onInboundDecoded_ensures {Q : ProtocolEvent → AdminProtocol σ → Prop}
    (h : Ensures (processFrame env d p.session.snapshot ts) p Q) :
    Ensures (onInboundDecoded env d ts) p Q := by
  refine .bind ensureInitialized_ok fun _ p₁ ⟨hp₁, _⟩ => .get ?_
  subst hp₁
  exact h

theorem processFrame_of_accepted (h : HeaderAccepted env d ts) (before : SessionSnapshot) :
    processFrame (σ := σ) env d before ts = processChecked env d before ts := by
  unfold processFrame
  rw [h.1, h.2.1]
  dsimp only
  rw [if_neg (by simp [h.2.2])]

theorem returns_of_header_refused {P : ProtocolEvent → Prop} (h : ¬HeaderAccepted env d ts)
    (hreject : ∀ r, Returns P (rejectInbound (σ := σ) env d r ts))
    (hlogout : ∀ r, Returns P (rejectThenLogout (σ := σ) env d r ts)) (before : SessionSnapshot) :
    Returns P (processFrame (σ := σ) env d before ts) := by
  unfold processFrame
  split
  · exact .after fun _ => .ite (.after fun _ => hlogout _) (hreject _)
  · exact .after fun _ => hreject _
  · rename_i hcompIds hpossDup
    rw [if_pos (by simpa [HeaderAccepted, hcompIds, hpossDup] using h)]
    exact .after fun _ => hlogout _

/-- Processing a decoded frame does what `InboundEffect` says, from the core that is left when a
Logon has brought new counters. -/
theorem onInboundDecoded_effect (d : DecodedMessageView) (ts : Nat) (p : AdminProtocol σ) :
    ∃ c, Restored env d ts p.inboundCore c ∧ InboundEffect env d (expectedFor env d p) c
      (onInboundDecoded env d ts p).1 (onInboundDecoded env d ts p).2.inboundCore := by
  cases hinit : p.initializationError with
  | some e =>
    rw [onInboundDecoded_of_error env hinit]
    exact ⟨_, .same, .quiet .refl rfl⟩
  | none =>
    rw [onInboundDecoded_of_initialized env hinit]
    unfold processFrame
    cases hcomp : validateCompIds env d with
    | some r => exact ⟨_, .same, rejectCompIds_effect env d r ts p⟩
    | none =>
      cases hdup : (validatePossDup env d).or (origSendingTimeRejection d) with
      | some r =>
        exact ⟨_, .same, consumeThenRefuse_effect env d ts p (rejectInbound_declines env d r ts)⟩
      | none =>
        dsimp only
        split
        · exact ⟨_, .same, consumeThenRefuse_effect env d ts p
            (rejectThenLogout_declines env d _ ts)⟩
        · rename_i htime
          exact processChecked_effect env d ts p ⟨hcomp, hdup, by simpa using htime⟩

end

end NimbleFix
