import NimbleFix.Spec.InboundEffect

/-!
# What an inbound frame is reported as

An event says more than which frames to send: it has messages for the application, flags, warnings
and errors. `reportOf` decides all of this from a frame that is no Logon and the state of the
session, in the order in which `OnInbound` makes its checks, without sending or saving anything.
Whenever the call returns an event, that is its report (`Proof/InboundReport`).
-/

namespace NimbleFix

/-- What an event says beside the frames to send and the end of the connection. -/
structure Report where
  messages : List DecodedMessageView := []
  sessionActive : Bool := false
  possResend : Bool := false
  sessionReject : Bool := false
  warnings : List Bytes := []
  errors : List Bytes := []
  dangling : Bool := false
  deriving DecidableEq

def ProtocolEvent.report (e : ProtocolEvent) : Report :=
  ⟨e.applicationMessages, e.sessionActive, e.possResend, e.sessionReject, e.warnings, e.errors,
    e.dangling⟩

namespace Report

/-- A frame that is refused: an unknown message type is a warning, all else an error. -/
def refusal (r : Rejection) : Report :=
  if r.reason = SessionReject.invalidMsgType then { warnings := [r.text] } else { errors := [r.text] }

variable (env : ProtocolEnv) (d : DecodedMessageView)

/-- A message in order with valid content; `nextInSeq` is expected after it. -/
def dispatched (nextInSeq : Nat) : Report :=
  if d.msgType = MsgType.sequenceReset then
    match parseSequenceResetNewSeq d.message with
    | .error r => refusal r
    | .ok newSeqNum => if newSeqNum < nextInSeq then refusal backwardsRejection else {}
  else if d.msgType = MsgType.reject then { messages := [d], sessionReject := true }
  else if isAdminMessage d.msgType then {}
  else
    match businessRejectReason env d, validateApplicationMessage env d with
    | some reason, _ => { warnings := [businessRejectText reason] }
    | none, some r => refusal r
    | none, none => { messages := [d], possResend := d.message.hasBoolean Tag.possResend }

/-- The phase and the content are checked before the message is `accepted`. -/
def checked (state : SessionState) (accepted : Report) : Report :=
  match adminPhaseViolationText state d.msgType, validateAdministrativeMessage env d with
  | some text, _ => { errors := [text] }
  | none, some r => refusal r
  | none, none => accepted

/-- A message numbered below the expected number. -/
def stale (expected : Nat) : Report :=
  if d.isSequenceReset then
    match parseSequenceResetNewSeq d.message with
    | .error r => refusal r
    | .ok newSeqNum =>
      if d.isGapFill ∧ !d.header.possDup then
        { errors := [seqTooLowText expected d.header.msgSeqNum] }
      else if newSeqNum < expected then refusal backwardsRejection
      else {}
  else if d.header.possDup ∨ !env.config.validationPolicy.rejectOnStaleMsgSeqNum then {}
  else { errors := [staleText] }

/-- A `SequenceReset` in reset mode. -/
def reset (state : SessionState) (expected : Nat) : Report :=
  match parseSequenceResetNewSeq d.message with
  | .error r => refusal r
  | .ok newSeqNum =>
    if newSeqNum < expected then refusal backwardsRejection
    else checked env d state
      { warnings := if newSeqNum = expected then
          [ascii "SequenceReset NewSeqNo equals expected inbound sequence"] else [] }

/-- By the number of the message. One past a gap is put aside, if the phase allows it. -/
def numbered (state : SessionState) (expected : Nat) : Report :=
  if d.header.msgSeqNum < expected then stale env d expected
  else if d.isSequenceReset ∧ !d.isGapFill then reset env d state expected
  else if d.header.msgSeqNum = expected then
    checked env d state (dispatched env d (wrap32 (expected + 1)))
  else { errors := (adminPhaseViolationText state d.msgType).toList }

end Report

open Report in
/-- The report of a frame that is no Logon. -/
def reportOf {σ : Type} (env : ProtocolEnv) (d : DecodedMessageView) (timestampNs : Nat)
    (p : AdminProtocol σ) : Report :=
  match validateCompIds env d, (validatePossDup env d).or (origSendingTimeRejection d) with
  | some r, _ => refusal r
  | none, some r => refusal r
  | none, none =>
    if sendingTimeOutsideThreshold d.header.sendingTime timestampNs
        env.config.sendingTimeThresholdSeconds then refusal sendingTimeRejection
    else
      match adminPhaseViolationText p.session.state d.msgType with
      | some text =>
        if !env.config.session.isInitiator ∧ p.session.state = .connected then { errors := [text] }
        else numbered env d p.session.state p.session.nextInSeq
      | none => numbered env d p.session.state p.session.nextInSeq

end NimbleFix
