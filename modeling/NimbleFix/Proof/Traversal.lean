import NimbleFix.Session.Operations

/-!
# Invariants of a call from those of its parts

An invariant of an `AdminProtocol` is kept by a whole call once it is kept by the few operations
that touch the state: `BuildingKeeps` lists those of building and saving a frame, `SendingKeeps`
adds the logout and `ReceivingKeeps` those of processing the inbound frame `d`. Which of them
matter depends on the invariant; the walk through the stages of a call is the same for all.
-/

namespace NimbleFix

open Fallible

section

variable {σ : Type} [SessionStore σ] {env : ProtocolEnv} {I : AdminProtocol σ → Prop}

variable (env I) in
/-- The operations of building, numbering and saving a frame keep `I`. -/
structure BuildingKeeps : Prop where
  allocate : Maintains I (onSession SessionCore.allocateOutboundSeq)
  clock : Maintains I (readClock env)
  outbound : ∀ ts, Maintains I (recordOutbound ts)
  save : ∀ params seqNum ts bytes, Maintains I (saveEncodedFrame params seqNum ts bytes)
  persist : Maintains I persistRecoveryState
  load : ∀ beginSeq endSeq, Maintains I (onStore [] fun s =>
    SessionStore.loadOutboundRange s.config.sessionId beginSeq endSeq)

variable (env I) in
/-- The operations of building frames and of a logout keep `I`. -/
structure SendingKeeps : Prop extends BuildingKeeps env I where
  logout : Maintains I beginSessionLogout
  logoutSent : ∀ ts p, I p → I { p with logoutSent := true, logoutSentNs := ts }

variable (env I) in
/-- The operations of processing the frame `d` keep `I`. -/
structure ReceivingKeeps (d : DecodedMessageView) : Prop extends SendingKeeps env I where
  inbound : ∀ ts, Maintains I (recordInbound ts)
  commit : ∀ ts, Maintains I (commitInboundPersistence d ts)
  settle : Maintains I settleTestRequest
  observe : Maintains I (onSession (SessionCore.observeInboundSeq d.header.msgSeqNum))
  advance : ∀ n, Maintains I (onSession (SessionCore.advanceInboundExpectedSeq n))
  accept : Maintains I (onSession SessionCore.onLogonAccepted)
  heartbeat : Maintains I (processHeartbeat d)
  defer : ∀ p, I p → I { p with deferredGapFrames := p.deferredGapFrames ++ [d.raw] }
  refresh : Maintains I (refreshOnLogon env d)
  reset : ∀ before, Maintains I (resetOnLogon env d before)
  resetAfter : d.msgType = MsgType.logon → Maintains I (resetAfterLogon env d)

omit [SessionStore σ] in
theorem maintains_get : Maintains I (Fallible.get : Method (AdminProtocol σ) (AdminProtocol σ)) :=
  fun _ hp => hp

omit [SessionStore σ] in
theorem ensureInitialized_keeps : Maintains I (ensureInitialized (σ := σ)) := by
  intro p hp
  unfold ensureInitialized
  split <;> exact hp

/-! ## Building and sending -/

namespace BuildingKeeps

variable (h : BuildingKeeps env I)

include h

theorem encodeFrameWith (msgType : Bytes) (encode : EncodeOptions → Except Status Bytes)
    (params : FrameParams) (ts : Nat) : Maintains I (encodeFrameWith env msgType encode params ts) :=
  .bind (.ite h.allocate (.pure _)) fun _ => .bind h.clock fun _ => .bind (fun _ hp => hp) fun _ =>
    .bind (h.outbound ts) fun _ => .bind (h.save _ _ _ _) fun _ => .bind maintains_get fun _ => .pure _

theorem buildAdminFrame (m : MessageData) (ts : Nat) : Maintains I (buildAdminFrame env m ts) :=
  h.encodeFrameWith _ _ _ ts

theorem buildLogonFrame (ts : Nat) (reset : Bool) : Maintains I (buildLogonFrame env ts reset) :=
  .bind maintains_get fun _ => h.buildAdminFrame _ ts

theorem replayLoop (o : ReplayOptions) (boundedEnd ts : Nat) : ∀ (fuel : Nat) (c : ReplayCursor),
    Maintains I (replayLoop env o boundedEnd ts fuel c)
  | 0, _ => .pure _
  | fuel + 1, c => by
    unfold NimbleFix.replayLoop
    refine .ite (.pure _) ?_
    split
    · exact .bind (h.encodeFrameWith _ _ _ ts) fun _ =>
        .bind (replayLoop o boundedEnd ts fuel _) fun _ => .pure _
    · exact .bind (fun _ hp => hp) fun _ =>
        .bind (replayLoop o boundedEnd ts fuel _) fun _ => .pure _

theorem replayOutbound (beginSeq endSeq ts : Nat) :
    Maintains I (replayOutbound env beginSeq endSeq ts) := by
  intro p hp
  unfold NimbleFix.replayOutbound
  split
  · exact hp
  · dsimp only
    split
    · exact hp
    · exact Maintains.bind (h.load _ _) (fun _ => .bind h.clock fun _ =>
        .bind (h.replayLoop _ _ ts _ _) fun _ => .pure _) p hp

theorem logonReplay (expected : Option Int) (preLogonNextOut ts : Nat) :
    Maintains I (logonReplay env expected preLogonNextOut ts) := by
  cases expected with
  | none => exact .pure _
  | some n => exact .ite (.pure _) (h.replayOutbound _ _ ts)

end BuildingKeeps

namespace SendingKeeps

variable (h : SendingKeeps env I)

include h

theorem beginLogout (text : Bytes) (ts : Nat) : Maintains I (beginLogout env text ts) :=
  .bind ensureInitialized_keeps fun _ => .bind maintains_get fun _ => .ite (.fail _)
    (.bind h.logout fun _ => .bind (h.logoutSent ts) fun _ => h.buildAdminFrame _ ts)

theorem logoutAndDisconnect (event : ProtocolEvent) (text : Bytes) (ts : Nat) :
    Maintains I (logoutAndDisconnect env event text ts) :=
  .bind (h.beginLogout text ts) fun _ => .pure _

theorem rejectInbound (d : DecodedMessageView) (r : Rejection) (ts : Nat) :
    Maintains I (rejectInbound env d r ts) :=
  .ite (h.logoutAndDisconnect _ _ ts) (.bind (h.buildAdminFrame _ ts) fun _ => .pure _)

theorem rejectThenLogout (d : DecodedMessageView) (r : Rejection) (ts : Nat) :
    Maintains I (rejectThenLogout env d r ts) :=
  .bind (h.rejectInbound d _ ts) fun _ => h.logoutAndDisconnect _ _ ts

theorem phaseViolationLogout (text : Bytes) (before : SessionSnapshot) (msgType : Bytes)
    (ts : Nat) : Maintains I (phaseViolationLogout env text before msgType ts) :=
  .ite (.pure _) (h.logoutAndDisconnect _ _ ts)

theorem checkPhaseAndContent (d : DecodedMessageView) (before : SessionSnapshot) (ts : Nat)
    {accepted : Method (AdminProtocol σ) ProtocolEvent} (haccepted : Maintains I accepted) :
    Maintains I (checkPhaseAndContent env d before ts accepted) := by
  unfold NimbleFix.checkPhaseAndContent
  split
  · exact h.phaseViolationLogout _ before _ ts
  · exact h.rejectInbound d _ ts
  · exact haccepted

theorem send (msgType : Bytes) (encode : EncodeOptions → Except Status Bytes)
    (params : FrameParams) (ts : Nat) : Maintains I (do
      ensureInitialized
      ensureSendable
      NimbleFix.encodeFrameWith env msgType encode params ts) := by
  refine .bind ensureInitialized_keeps fun _ => .bind (fun p hp => ?_) fun _ =>
    h.encodeFrameWith msgType encode params ts
  unfold ensureSendable
  split <;> exact hp

/-- The timer, if setting the outstanding test request keeps `I` when the timer does so. -/
theorem onTimer {ts : Nat} (hrequest : ∀ p, timerAction env p ts = .testRequest → I p →
      I { p with outstandingTestRequestId := decimal ts, testRequestSentNs := ts }) :
    Maintains I (onTimer env ts) := by
  refine .bind ensureInitialized_keeps fun _ p hp => ?_
  rw [bind_of_ok (get_apply p)]
  cases haction : timerAction env p ts with
  | nothing => exact hp
  | disconnect warnings => exact hp
  | testRequest =>
    exact Maintains.bind_at (hrequest p haction hp) fun _ =>
      .bind (h.buildAdminFrame _ ts) fun _ => .pure _
  | heartbeat => exact Maintains.bind (h.buildAdminFrame _ ts) (fun _ => .pure _) p hp

end SendingKeeps

/-! ## Processing a frame -/

namespace ReceivingKeeps

variable {d : DecodedMessageView} (h : ReceivingKeeps env I d)

include h

theorem processInboundLogon (hlogon : d.msgType = MsgType.logon) (ts : Nat) :
    Maintains I (processInboundLogon env d ts) := by
  refine .bind (h.resetAfter hlogon) fun _ => .bind maintains_get fun p => ?_
  cases nextExpectedError (d.message.getInt Tag.nextExpectedMsgSeqNum) p.session.nextOutSeq with
  | some text => exact h.logoutAndDisconnect _ _ ts
  | none =>
    exact .bind (.ite (.pure _) (.bind (h.buildLogonFrame ts _) fun _ => .pure _)) fun _ =>
      .bind h.accept fun _ => .bind h.persist fun _ =>
        .bind (h.logonReplay _ _ ts) fun _ => .pure _

theorem processInboundApplication (ts : Nat) :
    Maintains I (processInboundApplication env d ts) := by
  intro p hp
  unfold NimbleFix.processInboundApplication
  split
  · exact hp
  · split
    · exact Maintains.bind (h.buildAdminFrame _ ts) (fun _ => .pure _) p hp
    · exact h.rejectInbound d _ ts p hp
    · exact hp

theorem processGapFill (ts : Nat) : Maintains I (processGapFill env d ts) := by
  intro p hp
  unfold NimbleFix.processGapFill
  split
  · exact h.rejectInbound d _ ts p hp
  · split
    · exact h.rejectInbound d _ ts p hp
    · exact Maintains.bind (h.advance _) (fun _ => .bind h.persist fun _ => .pure _) p hp

theorem processLogout (ts : Nat) : Maintains I (processLogout env ts) := by
  intro p hp
  unfold NimbleFix.processLogout
  split
  · exact h.logoutAndDisconnect _ _ ts p hp
  · exact hp

theorem dispatchMessage (ts : Nat) : Maintains I (dispatchMessage env d ts) := by
  unfold NimbleFix.dispatchMessage
  by_cases hlogon : d.msgType = MsgType.logon
  · rw [if_pos hlogon]
    exact h.processInboundLogon hlogon ts
  rw [if_neg hlogon]
  exact .ite h.heartbeat (.ite (.bind (h.buildAdminFrame _ ts) fun _ => .pure _)
    (.ite (.bind (h.replayOutbound _ _ ts) fun _ => .pure _) (.ite (h.processGapFill ts)
      (.ite (h.processLogout ts) (.ite (.pure _) (h.processInboundApplication ts))))))

variable (before : SessionSnapshot)

theorem processOutOfSequence (status : Status) (ts : Nat) :
    Maintains I (processOutOfSequence env d before status ts) := by
  intro p hp
  unfold NimbleFix.processOutOfSequence
  split
  · split
    · exact Maintains.bind (h.inbound ts) (fun _ => h.phaseViolationLogout _ before _ ts) p hp
    · exact Maintains.bind (h.inbound ts) (fun _ => .bind (h.buildAdminFrame _ ts) fun _ =>
        .bind (fun q hq => h.defer q hq) fun _ => .pure _) p hp
    · exact hp
  · exact hp

theorem processInOrder (ts : Nat) : Maintains I (processInOrder env d before ts) := by
  refine .bind (fun p hp => h.observe p hp) fun observed => .bind h.settle fun _ => ?_
  cases observed with
  | error status => exact h.processOutOfSequence before status ts
  | ok _ =>
    exact .bind (h.commit ts) fun _ =>
      h.checkPhaseAndContent d before ts (h.dispatchMessage ts)

theorem advanceExpected (n : Nat) : Maintains I (advanceExpected (σ := σ) before n) :=
  .ite (.bind (h.advance n) fun _ => h.settle) (.pure _)

theorem processSequenceReset (ts : Nat) : Maintains I (processSequenceReset env d before ts) := by
  unfold NimbleFix.processSequenceReset
  split
  · exact h.rejectInbound d _ ts
  · exact .ite (h.rejectInbound d _ ts) (.bind (h.advanceExpected before _) fun _ =>
      .bind (h.commit ts) fun _ => h.checkPhaseAndContent d before ts (.pure _))

theorem processStale (ts : Nat) : Maintains I (processStale env d before ts) := by
  refine .ite ?_ (.ite (.bind (h.commit ts) fun _ => .pure _) (h.logoutAndDisconnect _ _ ts))
  unfold processStaleSequenceReset
  split
  · exact h.rejectInbound d _ ts
  · exact .ite (h.logoutAndDisconnect _ _ ts) (.ite (h.rejectInbound d _ ts)
      (.bind (h.advanceExpected before _) fun _ => .bind (h.commit ts) fun _ => .pure _))

theorem processSequenced (ts : Nat) : Maintains I (processSequenced env d before ts) := by
  have hnumber : Maintains I (processByNumber env d before ts) :=
    .ite (h.processStale before ts) (.ite (h.processSequenceReset before ts)
      (h.processInOrder before ts))
  unfold NimbleFix.processSequenced
  split
  · exact .ite (.bind (h.inbound ts) fun _ => .bind h.persist fun _ => .pure _) hnumber
  · exact hnumber

theorem consumeExpected (ts : Nat) :
    Maintains I (consumeExpectedInboundBeforeReject d before ts) := by
  intro p hp
  unfold consumeExpectedInboundBeforeReject
  split
  · exact Maintains.bind h.observe (fun _ => .bind h.settle fun _ =>
      .bind (h.inbound ts) fun _ => h.persist) p hp
  · exact hp

theorem rejectCompIds (r : Rejection) (ts : Nat) : Maintains I (rejectCompIds env d before r ts) :=
  .bind (h.consumeExpected before ts) fun _ => .ite
    (.bind (.ite (.bind h.observe fun _ => .bind (h.inbound ts) fun _ => h.persist) (.pure _))
      fun _ => h.rejectThenLogout d r ts)
    (h.rejectInbound d r ts)

/-- A frame keeps what its parts keep. -/
theorem onInboundDecoded (ts : Nat) : Maintains I (onInboundDecoded env d ts) := by
  refine .bind ensureInitialized_keeps fun _ => .bind maintains_get fun p => ?_
  have hconsume := h.consumeExpected p.session.snapshot ts
  unfold processFrame
  split
  · exact h.rejectCompIds _ _ ts
  · exact .bind hconsume fun _ => h.rejectInbound d _ ts
  · exact .ite (.bind hconsume fun _ => h.rejectThenLogout d _ ts)
      (.bind h.refresh fun _ => .bind (h.reset _) fun before => h.processSequenced before ts)

end ReceivingKeeps

end

end NimbleFix
