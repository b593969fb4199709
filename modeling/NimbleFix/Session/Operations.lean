import NimbleFix.Session.Inbound

/-!
# Connections, timers and sends; runs of an `AdminProtocol`

The remaining public operations, and `Command`: one call of the public interface with its
arguments. A run is a list of commands performed one after the other; the object stays usable
after a call that returned an error.
-/

namespace NimbleFix

def inactiveSession : Status :=
  .InvalidArgument "cannot send application payload on an inactive FIX session"

def kTestRequestGraceDivisor : Nat := 5

section

variable (env : ProtocolEnv) {σ : Type} [SessionStore σ]

/-! ## Connecting and closing -/

def refreshOnConnect : Method (AdminProtocol σ) Unit :=
  if env.config.refreshOnLogon then refreshSessionStateFromStore else pure ()

def resetOnConnect : Method (AdminProtocol σ) Unit :=
  if env.config.resetSeqNumOnLogon then resetSessionState 1 1 true else pure ()

/-- The initiator opens the session with its Logon. -/
def initiateLogon (timestampNs : Nat) : Method (AdminProtocol σ) ProtocolEvent := do
  resetOnConnect env
  onSession SessionCore.beginLogon
  let logon ← buildLogonFrame env timestampNs env.config.resetSeqNumOnLogon
  pure { outboundFrames := [logon] }

def onTransportConnected (timestampNs : Nat) : Method (AdminProtocol σ) ProtocolEvent := do
  ensureInitialized
  refreshOnConnect env
  onSession SessionCore.onTransportConnected
  persistRecoveryState
  if env.config.session.isInitiator then initiateLogon env timestampNs else pure {}

/-- Whether closing from the state `st` resets the sequence numbers. -/
def resetsOnClose (st : SessionState) : Bool :=
  (env.config.resetSeqNumOnLogout && st == .awaitingLogout) ||
    (env.config.resetSeqNumOnDisconnect && st != .awaitingLogout)

/-- What closing forgets: the outstanding test request, the logout and the deferred frames. -/
def AdminProtocol.clearConnection (p : AdminProtocol σ) : AdminProtocol σ :=
  { p with
    outstandingTestRequestId := []
    logoutSent := false
    testRequestSentNs := 0
    logoutSentNs := 0
    deferredGapFrames := [] }

def closeTransport (reset : Bool) : Method (AdminProtocol σ) Unit := do
  Fallible.modify AdminProtocol.clearConnection
  onSession SessionCore.onTransportClosed
  if reset then resetSessionState 1 1 true else persistRecoveryState

def onTransportClosed : Method (AdminProtocol σ) Unit := do
  ensureInitialized
  let p ← Fallible.get
  closeTransport (resetsOnClose env p.session.state)

/-! ## The timer -/

def heartbeatIntervalNs : Nat := max 1 env.config.heartbeatIntervalSeconds * kNanosPerSecond

/-- What the timer does, decided on the state before it. -/
inductive TimerAction
  | nothing
  | disconnect (warnings : List Bytes)
  | testRequest
  | heartbeat
  deriving DecidableEq, Repr

/-- The timeouts in the order they are checked: the Logon, the Logout, the TestRequest, inbound
silence for the interval and a fifth of it, outbound silence for the interval. The comparisons are
made in 64-bit words. -/
def timerAction (p : AdminProtocol σ) (timestampNs : Nat) : TimerAction :=
  let interval := heartbeatIntervalNs env
  let s := p.session
  let past := fun since delta : Nat => wrap64 (since + delta) < timestampNs
  if !isActiveAdminState s.state && s.state != .pendingLogon then .nothing
  else if s.state = .pendingLogon then
    if s.lastOutboundNs ≠ 0 ∧ past s.lastOutboundNs (interval * 2) then .disconnect []
    else .nothing
  else if s.state = .awaitingLogout ∧ p.logoutSentNs ≠ 0 ∧ past p.logoutSentNs interval then
    .disconnect [ascii "Logout acknowledgement timeout"]
  else if p.outstandingTestRequestId ≠ [] ∧ p.testRequestSentNs ≠ 0 ∧
      past p.testRequestSentNs interval then
    .disconnect []
  else if s.lastInboundNs ≠ 0 ∧
      past s.lastInboundNs (interval + interval / kTestRequestGraceDivisor) ∧
      p.outstandingTestRequestId = [] then
    .testRequest
  else if s.lastOutboundNs = 0 ∨ past s.lastOutboundNs interval then .heartbeat
  else .nothing

def sendTestRequest (timestampNs : Nat) : Method (AdminProtocol σ) ProtocolEvent := do
  Fallible.modify fun p =>
    { p with outstandingTestRequestId := decimal timestampNs, testRequestSentNs := timestampNs }
  let frame ← buildTestRequestFrame env timestampNs (decimal timestampNs)
  pure { outboundFrames := [frame] }

def sendHeartbeat (timestampNs : Nat) : Method (AdminProtocol σ) ProtocolEvent := do
  let frame ← buildHeartbeatFrame env timestampNs []
  pure { outboundFrames := [frame] }

def onTimer (timestampNs : Nat) : Method (AdminProtocol σ) ProtocolEvent := do
  ensureInitialized
  let p ← Fallible.get
  match timerAction env p timestampNs with
  | .nothing => pure {}
  | .disconnect warnings => pure { disconnect := true, warnings }
  | .testRequest => sendTestRequest env timestampNs
  | .heartbeat => sendHeartbeat env timestampNs

/-- `update_deadline`. -/
def earlierDeadline (deadline : Option Nat) (candidateNs : Nat) : Option Nat :=
  match deadline with
  | none => some candidateNs
  | some d => if candidateNs < d then some candidateNs else some d

/-- The earliest timeout, not before `timestampNs`. -/
def notBefore (timestampNs : Nat) (deadline : Option Nat) : Option Nat :=
  match deadline with
  | some d => if d < timestampNs then some timestampNs else some d
  | none => none

/-- The timeouts of a session that is past its Logon. -/
def activeDeadline (p : AdminProtocol σ) (timestampNs : Nat) : Option Nat :=
  let interval := heartbeatIntervalNs env
  let s := p.session
  let deadline := if s.state = .awaitingLogout ∧ p.logoutSentNs ≠ 0 then
      earlierDeadline none (wrap64 (p.logoutSentNs + interval))
    else none
  let deadline := if p.outstandingTestRequestId ≠ [] ∧ p.testRequestSentNs ≠ 0 then
      earlierDeadline deadline (wrap64 (p.testRequestSentNs + interval))
    else if s.lastInboundNs ≠ 0 then
      earlierDeadline deadline
        (wrap64 (s.lastInboundNs + (interval + interval / kTestRequestGraceDivisor)))
    else deadline
  if s.lastOutboundNs = 0 then earlierDeadline deadline timestampNs
  else earlierDeadline deadline (wrap64 (s.lastOutboundNs + interval))

def nextTimerDeadline (p : AdminProtocol σ) (timestampNs : Nat) : Option Nat :=
  let s := p.session
  if p.initializationError.isSome then none
  else if !isActiveAdminState s.state && s.state != .pendingLogon then none
  else if s.state = .pendingLogon then
    notBefore timestampNs (if s.lastOutboundNs ≠ 0 then
        earlierDeadline none (wrap64 (s.lastOutboundNs + heartbeatIntervalNs env * 2))
      else none)
  else notBefore timestampNs (activeDeadline env p timestampNs)

/-! ## Sending -/

/-- The guard of the sends. -/
def ensureSendable : Method (AdminProtocol σ) Unit := fun p =>
  if p.session.state = .active ∨ p.session.state = .awaitingLogout then (.ok (), p)
  else (.error inactiveSession, p)

def sendApplication (m : MessageData) (envelope : SessionSendEnvelope) (timestampNs : Nat) :
    Method (AdminProtocol σ) EncodedFrame := do
  ensureInitialized
  ensureSendable
  encodeFrame env m { admin := false, envelope } timestampNs

def sendEncodedApplication (m : EncodedApplicationMessage) (envelope : SessionSendEnvelope)
    (extras : EncodedOutboundExtras) (timestampNs : Nat) :
    Method (AdminProtocol σ) EncodedFrame := do
  ensureInitialized
  ensureSendable
  encodeApplicationFrame env (m.withExtras extras) { admin := false, envelope } timestampNs

end

/-! ## Runs -/

/-- A call of the public interface. -/
inductive Command
  | connect (timestampNs : Nat)
  | close
  | inbound (frame : Bytes) (timestampNs : Nat)
  | inboundOwned (frame : Bytes) (timestampNs : Nat)
  | inboundDecoded (decoded : DecodedMessageView) (timestampNs : Nat)
  | timer (timestampNs : Nat)
  | send (m : MessageData) (envelope : SessionSendEnvelope) (timestampNs : Nat)
  | sendEncoded (m : EncodedApplicationMessage) (envelope : SessionSendEnvelope)
      (extras : EncodedOutboundExtras) (timestampNs : Nat)
  | logout (text : Bytes) (timestampNs : Nat)

/-- A returned frame as an event. -/
def ProtocolEvent.ofFrame (frame : EncodedFrame) : ProtocolEvent := { outboundFrames := [frame] }

section

variable (env : ProtocolEnv) {σ : Type} [SessionStore σ]

/-- Perform a command; a returned frame counts as an outbound frame. -/
def perform : Command → Method (AdminProtocol σ) ProtocolEvent
  | .connect ts => onTransportConnected env ts
  | .close => do
    onTransportClosed env
    pure {}
  | .inbound frame ts => onInbound env frame ts
  | .inboundOwned frame ts => onInboundOwned env frame ts
  | .inboundDecoded decoded ts => onInboundDecoded env decoded ts
  | .timer ts => onTimer env ts
  | .send m envelope ts => do
    let frame ← sendApplication env m envelope ts
    pure (.ofFrame frame)
  | .sendEncoded m envelope extras ts => do
    let frame ← sendEncodedApplication env m envelope extras ts
    pure (.ofFrame frame)
  | .logout text ts => do
    let frame ← beginLogout env text ts
    pure (.ofFrame frame)

/-- The outcomes of a run, one for each command, and the state it ends in. -/
def runCommands : List Command → AdminProtocol σ →
    List (Except Status ProtocolEvent) × AdminProtocol σ
  | [], p => ([], p)
  | c :: cs, p =>
    let (outcome, p) := perform env c p
    let (outcomes, p) := runCommands cs p
    (outcome :: outcomes, p)

end

end NimbleFix
