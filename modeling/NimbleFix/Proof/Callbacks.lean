import NimbleFix.Proof.InboundReport
import NimbleFix.Runtime.Callbacks
import NimbleFix.Session.Sample

/-!
# Session messages and the application

An event has at most the message of its own frame. `Delivered` says of a frame and a state when it
has it: a Reject or a valid application message with the expected number that passes all checks.
Such a Reject is passed to both callbacks, and so is an application message whose peeked type is
one of a session message.
-/

namespace NimbleFix

/-- An event has the message of its frame or none. -/
theorem event_messages {env : ProtocolEnv} {σ : Type} [SessionStore σ] {d : DecodedMessageView}
    {ts : Nat} {p : AdminProtocol σ} {event : ProtocolEvent}
    (h : (onInboundDecoded env d ts p).1 = .ok event) :
    event.applicationMessages = if Delivered env d ts p then [d] else [] := by
  cases hd : d.isLogon with
  | true =>
    rw [if_neg (not_delivered_of_isLogon hd)]
    exact (onInboundDecoded_quiet hd p event _ (Prod.ext h rfl)).1
  | false =>
    have hreport := onInboundDecoded_reports hd event _ (Prod.ext h rfl)
    exact (congrArg Report.messages hreport).trans reportOf_brings.messages

/-! ## Both callbacks -/

/-- At most one callback gets the message, and a session message gets neither to the application
nor back to the peer. -/
def SetApart (x : PassedMessages) (d : DecodedMessageView) : Prop :=
  ¬(d ∈ x.admin ∧ d ∈ x.application) ∧
    (isAdminMessage d.msgType → d ∉ x.application ∧ d ∉ x.echoed)

/-- The frame is read and processed: the peeked header, the decoded message and the event. -/
def Handled {σ : Type} [SessionStore σ] (env : ProtocolEnv) (frame : Bytes) (ts : Nat)
    (p : AdminProtocol σ) (header : SessionHeaderView) (d : DecodedMessageView)
    (event : ProtocolEvent) : Prop :=
  peekSessionHeaderView soh env.config.validationPolicy.verifyChecksum frame = .ok header ∧
    decodeInbound env frame = .ok d ∧ (onInboundDecoded env d ts p).1 = .ok event

open Sample

/-- Whether the peeked type is one of a session message, whether the message is a Reject, and
whether the event has it. -/
def Sample.outcome (frame : Bytes) : Option (Bool × Bool × Bool) :=
  match peekSessionHeaderView soh true frame, decodeInbound acceptor frame with
  | .ok header, .ok d =>
    (onInboundDecoded acceptor d 3 loggedOn).1.toOption.map fun event =>
      (isAdminMessage header.msgType, d.msgType == MsgType.reject,
        event.applicationMessages.contains d)
  | _, _ => none

theorem Sample.handled_of_outcome {frame : Bytes} {admin reject has : Bool}
    (h : outcome frame = some (admin, reject, has)) :
    ∃ header d event, Handled acceptor frame 3 loggedOn header d event ∧
      isAdminMessage header.msgType = admin ∧ (d.msgType == MsgType.reject) = reject ∧
      event.applicationMessages.contains d = has := by
  unfold outcome at h
  split at h
  · rename_i header d hpeek hdecode
    cases hevent : (onInboundDecoded acceptor d 3 loggedOn).1 with
    | error e => simp [hevent, Except.toOption] at h
    | ok event =>
      simp only [hevent, Except.toOption, Option.map_some, Option.some.injEq, Prod.mk.injEq] at h
      exact ⟨header, d, event, ⟨hpeek, hdecode, hevent⟩, h⟩
  · cases h

end NimbleFix
