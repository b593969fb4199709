import NimbleFix.Session.Protocol

/-!
# Frames the protocol builds: administrative messages, logout, rejects, replay

The `Build…Frame` methods, `BeginLogout`, `RejectInbound`, and `ReplayOutbound` with its two nested
loops. All administrative frames but the gap fill are numbered, persisted and marked as
administrative; a gap fill takes the number it is given and is not stored.
-/

namespace NimbleFix

def buildAdminMessage (msgType : Bytes) : MessageData :=
  (MessageData.mk msgType [] []).set Tag.msgType (.string msgType)

/-- Set a text field unless the text is empty. -/
def MessageData.setText (m : MessageData) (tag : Nat) (text : Bytes) : MessageData :=
  if text = [] then m else m.set tag (.string text)

@[simp] theorem buildAdminMessage_msgType (msgType : Bytes) :
    (buildAdminMessage msgType).msgType = msgType := rfl

@[simp] theorem MessageData.setText_msgType (m : MessageData) (tag : Nat) (text : Bytes) :
    (m.setText tag text).msgType = m.msgType := by
  unfold setText
  split <;> rfl

namespace AdminMessage

/-- The Logon without its optional fields. -/
def logonCore (c : AdminProtocolConfig) (resetSeqNum : Bool) : MessageData :=
  let m := ((buildAdminMessage MsgType.logon).set Tag.encryptMethod (.int 0)).set Tag.heartBtInt
    (.int c.heartbeatIntervalSeconds)
  if resetSeqNum then m.set Tag.resetSeqNumFlag (.boolean true) else m

def logon (c : AdminProtocolConfig) (nextInSeq : Nat) (resetSeqNum : Bool) : MessageData :=
  let m := logonCore c resetSeqNum
  let m := if c.sendNextExpectedMsgSeqNum ∧ c.effectiveProfile.supportsNextExpectedMsgSeqNum then
      m.set Tag.nextExpectedMsgSeqNum (.int nextInSeq)
    else m
  c.logonFields.foldl (fun m f => m.addString f.tag f.value) m

def heartbeat (testRequestId : Bytes) : MessageData :=
  (buildAdminMessage MsgType.heartbeat).setText Tag.testReqID testRequestId

def testRequest (testRequestId : Bytes) : MessageData :=
  (buildAdminMessage MsgType.testRequest).set Tag.testReqID (.string testRequestId)

def resendRequest (beginSeq endSeq : Nat) : MessageData :=
  ((buildAdminMessage MsgType.resendRequest).set Tag.beginSeqNo (.int beginSeq)).set Tag.endSeqNo
    (.int endSeq)

def gapFill (newSeqNum : Nat) : MessageData :=
  (((buildAdminMessage MsgType.sequenceReset).set Tag.gapFillFlag (.boolean true)).set Tag.newSeqNo
    (.int newSeqNum)).set Tag.possDupFlag (.boolean true)

def reject (refSeqNum : Nat) (refMsgType : Bytes) (r : Rejection) : MessageData :=
  let m := ((buildAdminMessage MsgType.reject).set Tag.refSeqNum (.int refSeqNum)).set
    Tag.refMsgType (.string refMsgType)
  let m := if r.refTagId ≠ 0 then m.set Tag.refTagID (.int r.refTagId) else m
  (m.set Tag.rejectReason (.int r.reason)).setText Tag.text r.text

def logout (text : Bytes) : MessageData := (buildAdminMessage MsgType.logout).setText Tag.text text

/-- `kBusinessRejectReasonTag`. -/
def businessRejectReasonTag : Nat := 380

def businessReject (refSeqNum : Nat) (refMsgType : Bytes) (reason : Nat) (text : Bytes) :
    MessageData :=
  (((buildAdminMessage (ascii "j")).set Tag.refSeqNum (.int refSeqNum)).set Tag.refMsgType
    (.string refMsgType)).set businessRejectReasonTag (.int reason) |>.setText Tag.text text

theorem foldl_addString_msgType (fields : List LogonField) : ∀ m : MessageData,
    (fields.foldl (fun m f => m.addString f.tag f.value) m).msgType = m.msgType := by
  induction fields with
  | nil => exact fun _ => rfl
  | cons f fields ih => exact fun m => ih (m.addString f.tag f.value)

@[simp] theorem logon_msgType (c : AdminProtocolConfig) (nextInSeq : Nat) (resetSeqNum : Bool) :
    (logon c nextInSeq resetSeqNum).msgType = MsgType.logon := by
  unfold logon logonCore
  rw [foldl_addString_msgType]
  split <;> split <;> rfl

@[simp] theorem heartbeat_msgType (testRequestId : Bytes) :
    (heartbeat testRequestId).msgType = MsgType.heartbeat := MessageData.setText_msgType ..

@[simp] theorem testRequest_msgType (testRequestId : Bytes) :
    (testRequest testRequestId).msgType = MsgType.testRequest := rfl

@[simp] theorem resendRequest_msgType (beginSeq endSeq : Nat) :
    (resendRequest beginSeq endSeq).msgType = MsgType.resendRequest := rfl

@[simp] theorem reject_msgType (refSeqNum : Nat) (refMsgType : Bytes) (r : Rejection) :
    (reject refSeqNum refMsgType r).msgType = MsgType.reject := by
  unfold reject
  simp only [MessageData.setText_msgType, MessageData.set_msgType]
  split <;> rfl

@[simp] theorem logout_msgType (text : Bytes) : (logout text).msgType = MsgType.logout :=
  MessageData.setText_msgType ..

@[simp] theorem businessReject_msgType (refSeqNum : Nat) (refMsgType : Bytes) (reason : Nat)
    (text : Bytes) : (businessReject refSeqNum refMsgType reason text).msgType = ascii "j" :=
  MessageData.setText_msgType ..

end AdminMessage

section

variable (env : ProtocolEnv) {σ : Type} [SessionStore σ]

/-! ## Building frames -/

/-- A numbered and persisted administrative frame. -/
def buildAdminFrame (m : MessageData) (timestampNs : Nat) : Method (AdminProtocol σ) EncodedFrame :=
  encodeFrame env m { admin := true } timestampNs

def buildLogonFrame (timestampNs : Nat) (resetSeqNum : Bool) :
    Method (AdminProtocol σ) EncodedFrame := do
  let p ← Fallible.get
  buildAdminFrame env (AdminMessage.logon env.config p.session.nextInSeq resetSeqNum) timestampNs

def buildHeartbeatFrame (timestampNs : Nat) (testRequestId : Bytes) :
    Method (AdminProtocol σ) EncodedFrame :=
  buildAdminFrame env (AdminMessage.heartbeat testRequestId) timestampNs

def buildTestRequestFrame (timestampNs : Nat) (testRequestId : Bytes) :
    Method (AdminProtocol σ) EncodedFrame :=
  buildAdminFrame env (AdminMessage.testRequest testRequestId) timestampNs

def buildResendRequestFrame (beginSeq endSeq timestampNs : Nat) :
    Method (AdminProtocol σ) EncodedFrame :=
  buildAdminFrame env (AdminMessage.resendRequest beginSeq endSeq) timestampNs

def gapFillParams (beginSeq : Nat) : FrameParams where
  admin := true
  persist := false
  possDup := true
  allocateSeq := false
  extraRecordFlags := MessageRecord.gapFillFlag
  seqOverride := beginSeq

def buildGapFillFrame (beginSeq newSeqNum timestampNs : Nat) :
    Method (AdminProtocol σ) EncodedFrame :=
  encodeFrame env (AdminMessage.gapFill newSeqNum) (gapFillParams beginSeq) timestampNs

def buildRejectFrame (refSeqNum : Nat) (refMsgType : Bytes) (r : Rejection) (timestampNs : Nat) :
    Method (AdminProtocol σ) EncodedFrame :=
  buildAdminFrame env (AdminMessage.reject refSeqNum refMsgType r) timestampNs

/-! ## Logout and rejects -/

/-- `session_->BeginLogout()` in the states it is called in. -/
def beginSessionLogout : Method (AdminProtocol σ) Unit := fun p =>
  if p.session.state = .active ∨ p.session.state = .resendProcessing then
    onSession SessionCore.beginLogout p
  else (.ok (), p)

/-- The part of `BeginLogout` after its guard. -/
def sendLogout (text : Bytes) (timestampNs : Nat) : Method (AdminProtocol σ) EncodedFrame := do
  beginSessionLogout
  Fallible.modify fun p => { p with logoutSent := true, logoutSentNs := timestampNs }
  buildAdminFrame env (AdminMessage.logout text) timestampNs

def logoutAlreadySent : Status := .InvalidArgument "logout already sent"

def beginLogout (text : Bytes) (timestampNs : Nat) : Method (AdminProtocol σ) EncodedFrame := do
  ensureInitialized
  let p ← Fallible.get
  if p.logoutSent then Fallible.fail logoutAlreadySent else sendLogout env text timestampNs

/-- Send a Logout and ask for a disconnect, with the frames and texts of `event`. -/
def logoutAndDisconnect (event : ProtocolEvent) (text : Bytes) (timestampNs : Nat) :
    Method (AdminProtocol σ) ProtocolEvent := do
  let logout ← beginLogout env text timestampNs
  pure { event with outboundFrames := event.outboundFrames ++ [logout], disconnect := true }

/-- The event that reports a rejection: a warning for an unknown message type, else an error. -/
def rejectionEvent (r : Rejection) : ProtocolEvent :=
  if r.reason = SessionReject.invalidMsgType then { warnings := [r.text] }
  else { errors := [r.text] }

def rejectInbound (decoded : DecodedMessageView) (r : Rejection) (timestampNs : Nat) :
    Method (AdminProtocol σ) ProtocolEvent :=
  if r.disconnect ∧ decoded.header.msgType = MsgType.logon then
    logoutAndDisconnect env (rejectionEvent r) r.text timestampNs
  else do
    let reject ← buildRejectFrame env decoded.header.msgSeqNum decoded.message.msgType r timestampNs
    pure { rejectionEvent r with outboundFrames := [reject], disconnect := r.disconnect }

/-- The closure `reject_then_logout` of `OnInbound`. -/
def rejectThenLogout (decoded : DecodedMessageView) (r : Rejection) (timestampNs : Nat) :
    Method (AdminProtocol σ) ProtocolEvent := do
  let event ← rejectInbound env decoded { r with disconnect := false } timestampNs
  logoutAndDisconnect env event r.text timestampNs

end

end NimbleFix
