import NimbleFix.Base.Status
import NimbleFix.Base.Bytes

/-!
# The session state machine (`session/session_core.cpp`)

`SessionCore` holds the session state, the two sequence counters and the pending resend range.
Each operation is a `Method`: it returns a status and leaves the mutated object, also when the
status is an error (`observeInboundSeq` records a gap and then reports it as an error).

The field `logonAccepted` is a history variable: the code does not have it and no operation reads
it. It says whether a Logon was accepted since the transport last connected.
-/

namespace NimbleFix

inductive SessionState
  | disconnected
  | connecting
  | connected
  | pendingLogon
  | recovering
  | active
  | resendProcessing
  | awaitingLogout
  | closed
  deriving DecidableEq, Repr

structure ResendRange where
  beginSeq : Nat
  endSeq : Nat
  deriving DecidableEq, Repr

structure SessionKey where
  beginString : Bytes
  senderCompId : Bytes
  targetCompId : Bytes
  deriving DecidableEq, Repr

structure SessionConfig where
  sessionId : Nat
  key : SessionKey
  profileId : Nat := 0
  defaultApplVerId : Bytes := []
  heartbeatIntervalSeconds : Nat := 30
  isInitiator : Bool := false
  deriving DecidableEq, Repr

inductive DayCutMode
  | noAutoReset
  | fixedLocalTime
  | fixedUtcTime
  | externalControl
  deriving DecidableEq, Repr

structure DayCutConfig where
  mode : DayCutMode := .noAutoReset
  resetHour : Int := 0
  resetMinute : Int := 0
  utcOffsetSeconds : Int := 0
  deriving DecidableEq, Repr

structure SessionCore where
  config : SessionConfig
  state : SessionState := .disconnected
  resumeState : SessionState := .disconnected
  nextInSeq : Nat := 1
  nextOutSeq : Nat := 1
  lastInboundNs : Nat := 0
  lastOutboundNs : Nat := 0
  pendingResend : Option ResendRange := none
  resendCompleted : Bool := false
  warmupRemaining : Nat := 0
  warmupTotal : Nat := 0
  dayCutConfig : DayCutConfig := {}
  lastDayCutDate : Int := -1
  /-- History variable: a Logon was accepted since the last `onTransportConnected`. -/
  logonAccepted : Bool := false
  deriving DecidableEq, Repr

structure SessionSnapshot where
  sessionId : Nat
  state : SessionState
  profileId : Nat
  nextInSeq : Nat
  nextOutSeq : Nat
  lastInboundNs : Nat
  lastOutboundNs : Nat
  hasPendingResend : Bool
  pendingResend : ResendRange
  isWarmup : Bool
  deriving DecidableEq, Repr

namespace SessionCore

/-! ## Connecting and closing -/

def beginConnect : Method SessionCore Unit := fun s =>
  if s.state ≠ .disconnected then
    (.error (.InvalidArgument "connect can only begin from the disconnected state"), s)
  else (.ok (), { s with state := .connecting })

def onTransportConnected : Method SessionCore Unit := fun s =>
  if s.state ≠ .disconnected ∧ s.state ≠ .connecting then
    (.error (.InvalidArgument
      "transport can only connect from the disconnected or connecting state"), s)
  else (.ok (), { s with state := .connected, logonAccepted := false })

def close : Method SessionCore Unit := fun s =>
  (.ok (), { s with pendingResend := none, state := .closed })

def beginRecovery : Method SessionCore Unit := fun s =>
  if s.state = .recovering then
    (.error (.InvalidArgument "session is already recovering"), s)
  else (.ok (), { s with resumeState := s.state, state := .recovering })

def finishRecovery : Method SessionCore Unit := fun s =>
  if s.state ≠ .recovering then (.error (.InvalidArgument "session is not recovering"), s)
  else (.ok (), { s with state := s.resumeState })

def beginLogon : Method SessionCore Unit := fun s =>
  if s.state ≠ .connected then
    (.error (.InvalidArgument "logon can only begin from the connected state"), s)
  else (.ok (), { s with state := .pendingLogon })

def onLogonAccepted : Method SessionCore Unit := fun s =>
  if s.state ≠ .connected ∧ s.state ≠ .pendingLogon then
    (.error (.InvalidArgument
      "logon can only be accepted from the connected or pending-logon state"), s)
  else
    (.ok (),
      { s with state := .active, warmupRemaining := s.warmupTotal, logonAccepted := true })

def beginLogout : Method SessionCore Unit := fun s =>
  if s.state ≠ .active ∧ s.state ≠ .resendProcessing then
    (.error (.InvalidArgument
      "logout can only begin from the active or resend-processing state"), s)
  else (.ok (), { s with pendingResend := none, state := .awaitingLogout })

def onTransportClosed : Method SessionCore Unit := fun s =>
  (.ok (), if s.state ≠ .closed then { s with state := .disconnected } else s)

/-! ## Sequence counters -/

/-- The states in which sequence numbers are allocated and observed. -/
def CountsSequences (st : SessionState) : Prop :=
  st = .connected ∨ st = .pendingLogon ∨ st = .active ∨ st = .awaitingLogout ∨
    st = .resendProcessing

instance (st : SessionState) : Decidable (CountsSequences st) :=
  inferInstanceAs (Decidable (_ ∨ _))

def restoreSequenceState (nextInSeq nextOutSeq : Nat) : Method SessionCore Unit := fun s =>
  if s.state ≠ .disconnected ∧ s.state ≠ .connected ∧ s.state ≠ .pendingLogon ∧
      s.state ≠ .active ∧ s.state ≠ .recovering then
    (.error (.InvalidArgument
      "sequence state can only be restored before session activation"), s)
  else if nextInSeq = 0 ∨ nextOutSeq = 0 then
    (.error (.InvalidArgument "sequence numbers must be positive"), s)
  else (.ok (), { s with nextInSeq, nextOutSeq, pendingResend := none })

/-- The tail that `advanceInboundExpectedSeq` and `observeInboundSeq` share: once the expected
number has passed the pending range, the session is back in the state the gap was found in. -/
def settleResend (s : SessionCore) : SessionCore :=
  match s.pendingResend with
  | some range =>
    if s.state = .resendProcessing ∧ range.endSeq < s.nextInSeq then
      { s with pendingResend := none, state := s.resumeState, resendCompleted := true }
    else s
  | none => s

def advanceInboundExpectedSeq (nextInSeq : Nat) : Method SessionCore Unit := fun s =>
  if nextInSeq = 0 then (.error (.InvalidArgument "sequence numbers must be positive"), s)
  else if nextInSeq < s.nextInSeq then
    (.error (.InvalidArgument "cannot move inbound sequence backwards"), s)
  else (.ok (), settleResend { s with nextInSeq })

def allocateOutboundSeq : Method SessionCore Nat := fun s =>
  if ¬CountsSequences s.state then
    (.error (.InvalidArgument
      "outbound sequence numbers can only be allocated for an active session"), s)
  else if s.nextOutSeq = uint32Max then
    (.error (.InvalidArgument
      "outbound sequence number overflow; session reset required"), s)
  else (.ok s.nextOutSeq, { s with nextOutSeq := s.nextOutSeq + 1 })

/-- The gap branch of `observeInboundSeq`: extend the range of a gap that is being filled, or open
one and remember the state it was found in. -/
def noteGap (seqNum : Nat) (s : SessionCore) : SessionCore :=
  match s.state, s.pendingResend with
  | .resendProcessing, some range =>
    { s with pendingResend := some { range with endSeq := max range.endSeq (seqNum - 1) } }
  | _, _ =>
    { s with
      pendingResend := some { beginSeq := s.nextInSeq, endSeq := seqNum - 1 }
      resumeState := s.state
      state := .resendProcessing }

def observeInboundSeq (seqNum : Nat) : Method SessionCore Unit := fun s =>
  if ¬CountsSequences s.state then
    (.error (.InvalidArgument
      "inbound sequence numbers can only be observed for an active session"), s)
  else if seqNum < s.nextInSeq then
    (.error (.InvalidArgument "received a duplicate or stale inbound sequence number"), s)
  else if s.nextInSeq < seqNum then
    (.error (.InvalidArgument "inbound sequence gap detected"), noteGap seqNum s)
  else (.ok (), settleResend { s with nextInSeq := wrap32 (s.nextInSeq + 1) })

def beginResend (beginSeq endSeq : Nat) : Method SessionCore Unit := fun s =>
  if s.state ≠ .active ∧ s.state ≠ .awaitingLogout then
    (.error (.InvalidArgument "resend can only begin from an active session"), s)
  else if beginSeq = 0 ∨ endSeq = 0 ∨ endSeq < beginSeq then
    (.error (.InvalidArgument "invalid resend range"), s)
  else
    (.ok (),
      { s with
        pendingResend := some { beginSeq, endSeq }
        resumeState := s.state
        state := .resendProcessing })

def completeResend : Method SessionCore Unit := fun s =>
  if s.state ≠ .resendProcessing then
    (.error (.InvalidArgument "session is not processing a resend"), s)
  else
    (.ok (), { s with pendingResend := none, state := s.resumeState, resendCompleted := true })

/-- Read and clear the mark that a resend was completed. -/
def consumeResendCompleted (s : SessionCore) : Bool × SessionCore :=
  (s.resendCompleted, { s with resendCompleted := false })

/-! ## Activity, warmup, snapshot -/

def recordInboundActivity (timestampNs : Nat) (s : SessionCore) : SessionCore :=
  { s with lastInboundNs := timestampNs }

def recordOutboundActivity (timestampNs : Nat) (s : SessionCore) : SessionCore :=
  { s with lastOutboundNs := timestampNs }

def setWarmupCount (count : Nat) (s : SessionCore) : SessionCore :=
  { s with warmupTotal := count, warmupRemaining := count }

def consumeWarmupMessage (s : SessionCore) : Bool × SessionCore :=
  if 0 < s.warmupRemaining then (true, { s with warmupRemaining := s.warmupRemaining - 1 })
  else (false, s)

def isWarmup (s : SessionCore) : Bool := 0 < s.warmupRemaining

def snapshot (s : SessionCore) : SessionSnapshot where
  sessionId := s.config.sessionId
  state := s.state
  profileId := s.config.profileId
  nextInSeq := s.nextInSeq
  nextOutSeq := s.nextOutSeq
  lastInboundNs := s.lastInboundNs
  lastOutboundNs := s.lastOutboundNs
  hasPendingResend := s.pendingResend.isSome
  pendingResend := s.pendingResend.getD ⟨0, 0⟩
  isWarmup := s.isWarmup

/-! ## Day cut -/

def setDayCutConfig (config : DayCutConfig) (s : SessionCore) : SessionCore :=
  { s with dayCutConfig := config }

def triggerDayCut : Method SessionCore Unit := fun s =>
  if s.state ≠ .disconnected ∧ s.state ≠ .active then
    (.error (.InvalidArgument
      "day-cut can only be triggered when session is disconnected or active"), s)
  else (.ok (), { s with nextInSeq := 1, nextOutSeq := 1, pendingResend := none })

/-- The session day `nowNs` falls into: the calendar day, or the day before while the reset time
has not been reached. -/
def effectiveDate (cfg : DayCutConfig) (nowNs : Nat) : Int :=
  let epochSeconds : Int := (nowNs / 1000000000 : Nat)
  let adjusted :=
    if cfg.mode = .fixedLocalTime then epochSeconds + cfg.utcOffsetSeconds else epochSeconds
  let dayNumber := adjusted.tdiv 86400
  let timeOfDay := adjusted.tmod 86400
  let hour := timeOfDay.tdiv 3600
  let minute := (timeOfDay.tmod 3600).tdiv 60
  if cfg.resetHour < hour ∨ (hour = cfg.resetHour ∧ cfg.resetMinute ≤ minute) then dayNumber
  else dayNumber - 1

def checkDayCut (nowNs : Nat) (s : SessionCore) : SessionCore :=
  if s.dayCutConfig.mode ≠ .fixedLocalTime ∧ s.dayCutConfig.mode ≠ .fixedUtcTime then s
  else
    let date := effectiveDate s.dayCutConfig nowNs
    if s.lastDayCutDate < 0 then { s with lastDayCutDate := date }
    else if date ≤ s.lastDayCutDate then s
    else (triggerDayCut { s with lastDayCutDate := date }).2

/-! ## All operations -/

/-- The operations that change a session; counters and sequence numbers have 32 bits. -/
inductive Op
  | beginConnect
  | onTransportConnected
  | close
  | beginRecovery
  | finishRecovery
  | beginLogon
  | restoreSequenceState (nextInSeq nextOutSeq : UInt32)
  | advanceInboundExpectedSeq (nextInSeq : UInt32)
  | onLogonAccepted
  | beginLogout
  | onTransportClosed
  | allocateOutboundSeq
  | observeInboundSeq (seqNum : UInt32)
  | beginResend (beginSeq endSeq : UInt32)
  | completeResend
  | consumeResendCompleted
  | recordInboundActivity (timestampNs : UInt64)
  | recordOutboundActivity (timestampNs : UInt64)
  | setWarmupCount (count : UInt32)
  | consumeWarmupMessage
  | setDayCutConfig (config : DayCutConfig)
  | checkDayCut (nowNs : UInt64)
  | triggerDayCut
  deriving DecidableEq

/-- The status of the operation, and the session after it. -/
def Op.run : Op → Method SessionCore Unit
  | beginConnect, s => SessionCore.beginConnect s
  | onTransportConnected, s => SessionCore.onTransportConnected s
  | close, s => SessionCore.close s
  | beginRecovery, s => SessionCore.beginRecovery s
  | finishRecovery, s => SessionCore.finishRecovery s
  | beginLogon, s => SessionCore.beginLogon s
  | restoreSequenceState nextInSeq nextOutSeq, s =>
    SessionCore.restoreSequenceState nextInSeq.toNat nextOutSeq.toNat s
  | advanceInboundExpectedSeq nextInSeq, s =>
    SessionCore.advanceInboundExpectedSeq nextInSeq.toNat s
  | onLogonAccepted, s => SessionCore.onLogonAccepted s
  | beginLogout, s => SessionCore.beginLogout s
  | onTransportClosed, s => SessionCore.onTransportClosed s
  | allocateOutboundSeq, s =>
    ((SessionCore.allocateOutboundSeq s).1.map fun _ => (), (SessionCore.allocateOutboundSeq s).2)
  | observeInboundSeq seqNum, s => SessionCore.observeInboundSeq seqNum.toNat s
  | beginResend beginSeq endSeq, s => SessionCore.beginResend beginSeq.toNat endSeq.toNat s
  | completeResend, s => SessionCore.completeResend s
  | consumeResendCompleted, s => (.ok (), s.consumeResendCompleted.2)
  | recordInboundActivity timestampNs, s => (.ok (), s.recordInboundActivity timestampNs.toNat)
  | recordOutboundActivity timestampNs, s => (.ok (), s.recordOutboundActivity timestampNs.toNat)
  | setWarmupCount count, s => (.ok (), s.setWarmupCount count.toNat)
  | consumeWarmupMessage, s => (.ok (), s.consumeWarmupMessage.2)
  | setDayCutConfig config, s => (.ok (), s.setDayCutConfig config)
  | checkDayCut nowNs, s => (.ok (), s.checkDayCut nowNs.toNat)
  | triggerDayCut, s => SessionCore.triggerDayCut s

end SessionCore

end NimbleFix
