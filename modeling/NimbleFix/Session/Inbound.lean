import NimbleFix.Session.Replay

/-!
# Processing an inbound frame (`AdminProtocol::OnInbound`)

`onInboundDecoded` is the overload for a decoded frame, split at its stages: the header checks,
the resets a Logon brings, stale frames, `SequenceReset` in reset mode, frames in order or past a
gap, and the dispatch on the message type. `onInbound` and `onInboundOwned` are the overloads for
raw bytes, which decode, process and then drain the frames put aside while a gap was open.
-/

namespace NimbleFix

namespace DecodedMessageView

def msgType (d : DecodedMessageView) : Bytes := d.message.msgType

def isLogon (d : DecodedMessageView) : Bool := d.msgType == MsgType.logon

def isSequenceReset (d : DecodedMessageView) : Bool := d.msgType == MsgType.sequenceReset

/-- `inbound_gap_fill`. -/
def isGapFill (d : DecodedMessageView) : Bool :=
  d.isSequenceReset && d.message.hasBoolean Tag.gapFillFlag

/-- `inbound_logon_reset`. -/
def isLogonReset (d : DecodedMessageView) : Bool :=
  d.isLogon && d.message.hasBoolean Tag.resetSeqNumFlag

end DecodedMessageView

/-- `"MsgSeqNum too low, expecting <expected> but received <received>"`. -/
def seqTooLowText (expected received : Nat) : Bytes :=
  ascii "MsgSeqNum too low, expecting " ++ decimal expected ++ ascii " but received " ++
    decimal received

def backwardsRejection : Rejection where
  refTagId := Tag.newSeqNo
  reason := SessionReject.valueIncorrect
  text := ascii "SequenceReset NewSeqNo must not move inbound sequence backwards"

section

variable (env : ProtocolEnv) {σ : Type} [SessionStore σ]

/-! ## Bookkeeping -/

variable (decoded : DecodedMessageView)

/-- Consume the number of a frame and save the counters. -/
def observeAndPersist (timestampNs : Nat) : Method (AdminProtocol σ) Unit := do
  onSession (SessionCore.observeInboundSeq decoded.header.msgSeqNum)
  settleTestRequest
  recordInbound timestampNs
  persistRecoveryState

def consumeExpectedInboundBeforeReject (before : SessionSnapshot) (timestampNs : Nat) :
    Method (AdminProtocol σ) Unit := fun p =>
  if isActiveAdminState p.session.state ∧ decoded.header.msgSeqNum = before.nextInSeq then
    observeAndPersist decoded timestampNs p
  else (.ok (), p)

def phaseViolationLogout (text : Bytes) (before : SessionSnapshot) (msgType : Bytes)
    (timestampNs : Nat) : Method (AdminProtocol σ) ProtocolEvent :=
  if !env.config.session.isInitiator ∧ before.state = .connected ∧ msgType ≠ MsgType.logon then
    pure { errors := [text], disconnect := true }
  else logoutAndDisconnect env { errors := [text] } text timestampNs

def inboundFlags : Nat :=
  (if isAdminMessage decoded.header.msgType then MessageRecord.adminFlag else 0) |||
    (if decoded.header.possDup then MessageRecord.possDupFlag else 0)

def commitInboundPersistence (timestampNs : Nat) : Method (AdminProtocol σ) Unit := do
  recordInbound timestampNs
  onStore () fun s =>
    SessionStore.saveInboundViewAndRecoveryState
      { sessionId := s.config.sessionId
        seqNum := decoded.header.msgSeqNum
        timestampNs
        flags := inboundFlags decoded
        payload := decoded.raw
        bodyStartOffset := 0 }
      s.recoveryState

/-! ## Logon -/

/-- The reset of both counters by a Logon with `ResetSeqNumFlag`, after it has been observed. -/
def resetAfterLogon : Method (AdminProtocol σ) Unit := fun p =>
  if decoded.message.hasBoolean Tag.resetSeqNumFlag then
    resetSessionState (wrap32 (decoded.header.msgSeqNum + 1))
      (if env.config.session.isInitiator then p.session.nextOutSeq else 1) false p
  else (.ok (), p)

/-- The acceptor answers with its own Logon. -/
def logonResponse (inboundReset : Bool) (timestampNs : Nat) :
    Method (AdminProtocol σ) (List EncodedFrame) :=
  if env.config.session.isInitiator then pure []
  else do
    let response ← buildLogonFrame env timestampNs (env.config.resetSeqNumOnLogon || inboundReset)
    pure [response]

/-- The frames a counterparty that names its next expected number is missing. -/
def logonReplay (expected : Option Int) (preLogonNextOut timestampNs : Nat) :
    Method (AdminProtocol σ) (List EncodedFrame) :=
  match expected with
  | some expected =>
    replayCounterpartyExpectedRange env (wrap32 expected.toNat) preLogonNextOut timestampNs
  | none => pure []

/-- The accepting end of `ProcessInboundLogon`. -/
def acceptLogon (preLogonNextOut : Nat) (timestampNs : Nat) :
    Method (AdminProtocol σ) ProtocolEvent := do
  let response ← logonResponse env (decoded.message.hasBoolean Tag.resetSeqNumFlag) timestampNs
  onSession SessionCore.onLogonAccepted
  persistRecoveryState
  let replay ← logonReplay env (decoded.message.getInt Tag.nextExpectedMsgSeqNum) preLogonNextOut
    timestampNs
  pure { outboundFrames := response ++ replay, sessionActive := true }

/-- The text of the Logout that a `NextExpectedMsgSeqNum` out of range is answered with. -/
def nextExpectedError (expected : Option Int) (nextOutSeq : Nat) : Option Bytes :=
  match expected with
  | none => none
  | some n =>
    if n ≤ 0 then some (ascii "received invalid NextExpectedMsgSeqNum on Logon")
    else if (nextOutSeq : Int) < n then
      some (ascii "counterparty requested unsent outbound sequence range")
    else none

def processInboundLogon (timestampNs : Nat) : Method (AdminProtocol σ) ProtocolEvent := do
  resetAfterLogon env decoded
  let p ← Fallible.get
  match nextExpectedError (decoded.message.getInt Tag.nextExpectedMsgSeqNum)
      p.session.nextOutSeq with
  | some text => logoutAndDisconnect env {} text timestampNs
  | none => acceptLogon env decoded p.session.nextOutSeq timestampNs

/-! ## Application messages -/

def businessRejectText (reason : Nat) : Bytes :=
  if reason = applicationNotAvailable then
    ascii "application handling is not available for this session"
  else ascii "application message type is not supported for this session"

/-- The closure `build_business_reject`; both reasons are reported as warnings. -/
def sendBusinessReject (reason : Nat) (timestampNs : Nat) :
    Method (AdminProtocol σ) ProtocolEvent := do
  let frame ← buildAdminFrame env
    (AdminMessage.businessReject decoded.header.msgSeqNum decoded.msgType reason
      (businessRejectText reason)) timestampNs
  pure { outboundFrames := [frame], warnings := [businessRejectText reason] }

def notActivated : Status :=
  .InvalidArgument "application message received before session activation"

def processInboundApplication (timestampNs : Nat) :
    Method (AdminProtocol σ) ProtocolEvent := fun p =>
  if !isActiveAdminState p.session.state then (.error notActivated, p)
  else
    match businessRejectReason env decoded, validateApplicationMessage env decoded with
    | some reason, _ => sendBusinessReject env decoded reason timestampNs p
    | none, some r => rejectInbound env decoded r timestampNs p
    | none, none =>
      (.ok { applicationMessages := [decoded]
             possResend := decoded.message.hasBoolean Tag.possResend }, p)

/-! ## Dispatch on the message type -/

def processHeartbeat : Method (AdminProtocol σ) ProtocolEvent :=
  fun p =>
    let testRequestId := (decoded.message.getString Tag.testReqID).getD []
    if testRequestId ≠ [] ∧ testRequestId = p.outstandingTestRequestId then
      (.ok {}, { p with outstandingTestRequestId := [], testRequestSentNs := 0 })
    else (.ok {}, p)

def processTestRequest (timestampNs : Nat) : Method (AdminProtocol σ) ProtocolEvent := do
  let response ← buildHeartbeatFrame env timestampNs
    ((decoded.message.getString Tag.testReqID).getD [])
  pure { outboundFrames := [response] }

def processResendRequest (timestampNs : Nat) : Method (AdminProtocol σ) ProtocolEvent := do
  let beginSeq := wrap32 (max 1 ((decoded.message.getInt Tag.beginSeqNo).getD 1)).toNat
  let endSeq := wrap32 (max 0 ((decoded.message.getInt Tag.endSeqNo).getD 0)).toNat
  let frames ← replayOutbound env beginSeq endSeq timestampNs
  pure { outboundFrames := frames }

/-- A gap fill, after its own number has been consumed. It does not ask whether the advance
completed a resend. -/
def processGapFill (timestampNs : Nat) : Method (AdminProtocol σ) ProtocolEvent := fun p =>
  match parseSequenceResetNewSeq decoded.message with
  | .error r => rejectInbound env decoded r timestampNs p
  | .ok newSeqNum =>
    if newSeqNum < p.session.nextInSeq then
      rejectInbound env decoded backwardsRejection timestampNs p
    else (do
      onSession (SessionCore.advanceInboundExpectedSeq newSeqNum)
      persistRecoveryState
      pure {} : Method (AdminProtocol σ) ProtocolEvent) p

def processLogout (timestampNs : Nat) : Method (AdminProtocol σ) ProtocolEvent := fun p =>
  if p.session.state ≠ .awaitingLogout then logoutAndDisconnect env {} [] timestampNs p
  else (.ok { disconnect := true }, p)

def dispatchMessage (timestampNs : Nat) : Method (AdminProtocol σ) ProtocolEvent :=
  if decoded.msgType = MsgType.logon then processInboundLogon env decoded timestampNs
  else if decoded.msgType = MsgType.heartbeat then processHeartbeat decoded
  else if decoded.msgType = MsgType.testRequest then processTestRequest env decoded timestampNs
  else if decoded.msgType = MsgType.resendRequest then processResendRequest env decoded timestampNs
  else if decoded.msgType = MsgType.sequenceReset then processGapFill env decoded timestampNs
  else if decoded.msgType = MsgType.logout then processLogout env timestampNs
  else if decoded.msgType = MsgType.reject then
    pure { sessionReject := true, applicationMessages := [decoded] }
  else processInboundApplication env decoded timestampNs

/-- The checks between the commit of a frame and its dispatch. `accepted` is what follows them. -/
def checkPhaseAndContent (before : SessionSnapshot) (timestampNs : Nat)
    (accepted : Method (AdminProtocol σ) ProtocolEvent) : Method (AdminProtocol σ) ProtocolEvent :=
  match adminPhaseViolationText before.state decoded.msgType,
      validateAdministrativeMessage env decoded with
  | some text, _ => phaseViolationLogout env text before decoded.msgType timestampNs
  | none, some r => rejectInbound env decoded r timestampNs
  | none, none => accepted

/-! ## Frames in order and past a gap -/

/-- Ask for the pending range again and put the frame aside until it is filled. -/
def requestResend (range : ResendRange) (timestampNs : Nat) :
    Method (AdminProtocol σ) ProtocolEvent := do
  recordInbound timestampNs
  let resend ← buildResendRequestFrame env range.beginSeq range.endSeq timestampNs
  Fallible.modify fun p => { p with deferredGapFrames := p.deferredGapFrames ++ [decoded.raw] }
  pure { outboundFrames := [resend] }

/-- A frame whose number could not be observed, with the status of the observation. -/
def processOutOfSequence (before : SessionSnapshot) (status : Status) (timestampNs : Nat) :
    Method (AdminProtocol σ) ProtocolEvent := fun p =>
  if before.nextInSeq < decoded.header.msgSeqNum then
    match adminPhaseViolationText before.state decoded.msgType, p.session.pendingResend with
    | some text, _ => (do
        recordInbound timestampNs
        phaseViolationLogout env text before decoded.msgType timestampNs :
          Method (AdminProtocol σ) ProtocolEvent) p
    | none, some range => requestResend env decoded range timestampNs p
    | none, none => (.error status, p)
  else (.error status, p)

def processInOrder (before : SessionSnapshot) (timestampNs : Nat) :
    Method (AdminProtocol σ) ProtocolEvent := do
  let observed ← Fallible.attempt
    (onSession (SessionCore.observeInboundSeq decoded.header.msgSeqNum))
  settleTestRequest
  match observed with
  | .error status => processOutOfSequence env decoded before status timestampNs
  | .ok _ => do
    commitInboundPersistence decoded timestampNs
    checkPhaseAndContent env decoded before timestampNs (dispatchMessage env decoded timestampNs)

/-! ## SequenceReset in reset mode and stale frames -/

/-- Move the expected number forward to `newSeqNum`. -/
def advanceExpected (before : SessionSnapshot) (newSeqNum : Nat) :
    Method (AdminProtocol σ) Unit :=
  if before.nextInSeq < newSeqNum then do
    onSession (SessionCore.advanceInboundExpectedSeq newSeqNum)
    settleTestRequest
  else pure ()

/-- The counter is moved and committed before the phase and the content are checked. -/
def processSequenceReset (before : SessionSnapshot) (timestampNs : Nat) :
    Method (AdminProtocol σ) ProtocolEvent :=
  match parseSequenceResetNewSeq decoded.message with
  | .error r => rejectInbound env decoded r timestampNs
  | .ok newSeqNum =>
    if newSeqNum < before.nextInSeq then rejectInbound env decoded backwardsRejection timestampNs
    else do
      advanceExpected before newSeqNum
      commitInboundPersistence decoded timestampNs
      checkPhaseAndContent env decoded before timestampNs (pure
        { warnings := if newSeqNum = before.nextInSeq then
            [ascii "SequenceReset NewSeqNo equals expected inbound sequence"] else [] })

def processStaleSequenceReset (before : SessionSnapshot) (timestampNs : Nat) :
    Method (AdminProtocol σ) ProtocolEvent :=
  match parseSequenceResetNewSeq decoded.message with
  | .error r => rejectInbound env decoded r timestampNs
  | .ok newSeqNum =>
    if decoded.isGapFill ∧ !decoded.header.possDup then
      let text := seqTooLowText before.nextInSeq decoded.header.msgSeqNum
      logoutAndDisconnect env { errors := [text] } text timestampNs
    else if newSeqNum < before.nextInSeq then
      rejectInbound env decoded backwardsRejection timestampNs
    else do
      advanceExpected before newSeqNum
      commitInboundPersistence decoded timestampNs
      pure {}

def staleText : Bytes := ascii "received stale inbound FIX sequence number"

def processStale (before : SessionSnapshot) (timestampNs : Nat) :
    Method (AdminProtocol σ) ProtocolEvent :=
  if decoded.isSequenceReset then processStaleSequenceReset env decoded before timestampNs
  else if decoded.header.possDup ∨ !env.config.validationPolicy.rejectOnStaleMsgSeqNum then do
    commitInboundPersistence decoded timestampNs
    pure {}
  else logoutAndDisconnect env { errors := [staleText] } staleText timestampNs

/-! ## The stages of `OnInbound` -/

def processByNumber (before : SessionSnapshot) (timestampNs : Nat) :
    Method (AdminProtocol σ) ProtocolEvent :=
  if decoded.header.msgSeqNum < before.nextInSeq then processStale env decoded before timestampNs
  else if decoded.isSequenceReset ∧ !decoded.isGapFill then
    processSequenceReset env decoded before timestampNs
  else processInOrder env decoded before timestampNs

/-- Everything after the resets a Logon may bring. `before` is the snapshot it decides on. An
acceptor that waits for a Logon drops the connection on any other session message. -/
def processSequenced (before : SessionSnapshot) (timestampNs : Nat) :
    Method (AdminProtocol σ) ProtocolEvent :=
  match adminPhaseViolationText before.state decoded.msgType with
  | some text =>
    if !env.config.session.isInitiator ∧ before.state = .connected ∧
        decoded.msgType ≠ MsgType.logon then do
      recordInbound timestampNs
      persistRecoveryState
      pure { errors := [text], disconnect := true }
    else processByNumber env decoded before timestampNs
  | none => processByNumber env decoded before timestampNs

def refreshOnLogon : Method (AdminProtocol σ) Unit :=
  if decoded.isLogon ∧ env.config.refreshOnLogon then refreshSessionStateFromStore else pure ()

/-- The reset by a Logon that asks for it or by an acceptor configured to do so. -/
def resetsOnLogon : Bool :=
  decoded.isLogonReset ||
    (decoded.isLogon && !env.config.session.isInitiator && env.config.resetSeqNumOnLogon)

/-- Returns the snapshot the later stages use: a new one after a reset, the old one otherwise,
also when the counters have just been refreshed from the store. -/
def resetOnLogon (before : SessionSnapshot) : Method (AdminProtocol σ) SessionSnapshot :=
  if resetsOnLogon env decoded then do
    resetSessionState 1 (if env.config.session.isInitiator then before.nextOutSeq else 1)
      (!env.config.session.isInitiator)
    let p ← Fallible.get
    pure p.session.snapshot
  else pure before

/-- The number of a Logon that an acceptor refuses for its comp ids is consumed. -/
def consumeRefusedLogon (before : SessionSnapshot) (timestampNs : Nat) :
    Method (AdminProtocol σ) Unit :=
  if before.state = .connected ∧ decoded.isLogon ∧
      decoded.header.msgSeqNum = before.nextInSeq then do
    onSession (SessionCore.observeInboundSeq decoded.header.msgSeqNum)
    recordInbound timestampNs
    persistRecoveryState
  else pure ()

def rejectCompIds (before : SessionSnapshot) (r : Rejection) (timestampNs : Nat) :
    Method (AdminProtocol σ) ProtocolEvent := do
  consumeExpectedInboundBeforeReject decoded before timestampNs
  if r.disconnect ∧ r.reason = SessionReject.compIdProblem then do
    consumeRefusedLogon decoded before timestampNs
    rejectThenLogout env decoded r timestampNs
  else rejectInbound env decoded r timestampNs

def sendingTimeRejection : Rejection where
  refTagId := Tag.sendingTime
  reason := SessionReject.sendingTimeAccuracyProblem
  text := ascii "SendingTime is outside the configured tolerance"

/-- The stages for a frame whose header passed its checks. -/
def processChecked (before : SessionSnapshot) (timestampNs : Nat) :
    Method (AdminProtocol σ) ProtocolEvent := do
  refreshOnLogon env decoded
  let before ← resetOnLogon env decoded before
  processSequenced env decoded before timestampNs

def processFrame (before : SessionSnapshot) (timestampNs : Nat) :
    Method (AdminProtocol σ) ProtocolEvent :=
  match validateCompIds env decoded,
      (validatePossDup env decoded).or (origSendingTimeRejection decoded) with
  | some r, _ => rejectCompIds env decoded before r timestampNs
  | none, some r => do
    consumeExpectedInboundBeforeReject decoded before timestampNs
    rejectInbound env decoded r timestampNs
  | none, none =>
    if sendingTimeOutsideThreshold decoded.header.sendingTime timestampNs
        env.config.sendingTimeThresholdSeconds then do
      consumeExpectedInboundBeforeReject decoded before timestampNs
      rejectThenLogout env decoded sendingTimeRejection timestampNs
    else processChecked env decoded before timestampNs

/-- `OnInbound(const DecodedMessageView&)`. -/
def onInboundDecoded (timestampNs : Nat) : Method (AdminProtocol σ) ProtocolEvent := do
  ensureInitialized
  let p ← Fallible.get
  processFrame env decoded p.session.snapshot timestampNs

/-! ## Raw frames and the drain -/

/-- `DecodeInboundFrame`. -/
def decodeInbound (frame : Bytes) : Except Status DecodedMessageView :=
  decodeFixMessageView env.parsesDouble env.dictionary soh
    env.config.validationPolicy.verifyChecksum frame

def handleInboundDecodeFailure (status : Status) (timestampNs : Nat) :
    Method (AdminProtocol σ) ProtocolEvent :=
  if status.code ≠ .formatError then Fallible.fail status
  else do
    ensureInitialized
    recordInbound timestampNs
    persistRecoveryState
    pure { warnings := [if status.message = "" then ascii "malformed inbound frame ignored"
      else ascii status.message] }

/-- The frames and messages of a drained frame join those of the frame that closed the gap. A
drained message is a view into the storage of `inner`, which is freed with it at the end of the
round. The message of the closing frame is a view into the storage of `event`, which moves when the
call returns; it is bound again only if it is the one message of the event. -/
def ProtocolEvent.absorb (event inner : ProtocolEvent) : ProtocolEvent :=
  { event with
    outboundFrames := event.outboundFrames ++ inner.outboundFrames
    applicationMessages := event.applicationMessages ++ inner.applicationMessages
    disconnect := event.disconnect || inner.disconnect
    dangling := event.dangling || !inner.applicationMessages.isEmpty }

/-- Take the first deferred frame, unless a resend is pending. -/
def nextDeferred (p : AdminProtocol σ) : Option (Bytes × AdminProtocol σ) :=
  match p.deferredGapFrames with
  | frame :: rest =>
    if p.session.pendingResend.isSome then none
    else some (frame, { p with deferredGapFrames := rest })
  | [] => none

/-- The drain loop. The event is returned with the status, since the caller keeps what was drained
before a failure. A frame is put aside again only when a new gap opens, which ends the loop, so
the length of the queue is enough `fuel`. -/
def drainLoop (timestampNs : Nat) :
    Nat → ProtocolEvent → AdminProtocol σ → (ProtocolEvent × Except Status Unit) × AdminProtocol σ
  | 0, event, p => ((event, .ok ()), p)
  | fuel + 1, event, p =>
    match nextDeferred p with
    | none => ((event, .ok ()), p)
    | some (frame, p) =>
      match decodeInbound env frame with
      | .error _ => drainLoop timestampNs fuel event p
      | .ok decoded =>
        if decoded.header.msgSeqNum < p.session.nextInSeq then
          drainLoop timestampNs fuel event p
        else
          match onInboundDecoded env decoded timestampNs p with
          | (.error status, p) => ((event, .error status), p)
          | (.ok inner, p) =>
            if inner.disconnect then ((event.absorb inner, .ok ()), p)
            else drainLoop timestampNs fuel (event.absorb inner) p

def drainDeferredGapFrames (timestampNs : Nat) (event : ProtocolEvent) (p : AdminProtocol σ) :
    (ProtocolEvent × Except Status Unit) × AdminProtocol σ :=
  drainLoop env timestampNs p.deferredGapFrames.length event p

/-- The end of `OnInbound(span)`: a failing drain fails the call. -/
def drainOrFail (timestampNs : Nat) (event : ProtocolEvent) :
    Method (AdminProtocol σ) ProtocolEvent := fun p =>
  match drainDeferredGapFrames env timestampNs event p with
  | ((event, .ok ()), p) => (.ok event, p)
  | ((_, .error status), p) => (.error status, p)

/-- The end of `OnInbound(vector&&)`: the status of the drain is dropped. -/
def drainAnyway (timestampNs : Nat) (event : ProtocolEvent) :
    Method (AdminProtocol σ) ProtocolEvent := fun p =>
  (.ok (drainDeferredGapFrames env timestampNs event p).1.1,
    (drainDeferredGapFrames env timestampNs event p).2)

/-- `OnInbound(span)`. -/
def onInbound (frame : Bytes) (timestampNs : Nat) : Method (AdminProtocol σ) ProtocolEvent :=
  match decodeInbound env frame with
  | .error status => handleInboundDecodeFailure status timestampNs
  | .ok decoded => do
    let event ← onInboundDecoded env decoded timestampNs
    drainOrFail env timestampNs event

/-- `OnInbound(vector&&)`. -/
def onInboundOwned (frame : Bytes) (timestampNs : Nat) : Method (AdminProtocol σ) ProtocolEvent :=
  match decodeInbound env frame with
  | .error status => handleInboundDecodeFailure status timestampNs
  | .ok decoded => do
    let event ← onInboundDecoded env decoded timestampNs
    drainAnyway env timestampNs event

end

end NimbleFix
