import NimbleFix.Lib.Path
import NimbleFix.Spec.InboundEffect

/-!
# The frames processed in a run of byte-level calls

A byte-level `OnInbound` processes its own frame and then, in the drain, frames that earlier calls
put aside. `runSteps` lists every decoded frame that a sequence of calls hands to
`onInboundDecoded`, with the state it is processed in. `InSequence` says what the numbers along
such a list have to do: the expected number stays, is consumed by the frame that carries it, or
jumps to the `NewSeqNo` of a `SequenceReset` that is not answered; messages are delivered under the
expected number.
-/

namespace NimbleFix

/-- A call of one of the two byte-level overloads. -/
structure InboundCall where
  owned : Bool
  frame : Bytes
  timestampNs : Nat

/-- A call with a frame that decodes. -/
structure ReadFrame (env : ProtocolEnv) extends InboundCall where
  decoded : DecodedMessageView
  decodes : decodeInbound env frame = .ok decoded

/-- The call, if its frame decodes. -/
def InboundCall.read (env : ProtocolEnv) (c : InboundCall) : Option (ReadFrame env) :=
  match h : decodeInbound env c.frame with
  | .ok decoded => some { c with decoded, decodes := h }
  | .error _ => none

/-- A decoded frame and the state it is processed in. -/
structure InboundStep (σ : Type) where
  before : AdminProtocol σ
  decoded : DecodedMessageView
  timestampNs : Nat

section

variable (env : ProtocolEnv) {σ : Type} [SessionStore σ]

def receive (c : InboundCall) : Method (AdminProtocol σ) ProtocolEvent :=
  if c.owned then onInboundOwned env c.frame c.timestampNs
  else onInbound env c.frame c.timestampNs

/-- The outcomes of the calls and the state they end in. -/
def receiveAll : List InboundCall → AdminProtocol σ →
    List (Except Status ProtocolEvent) × AdminProtocol σ
  | [], p => ([], p)
  | c :: cs, p =>
    ((receive env c p).1 :: (receiveAll cs (receive env c p).2).1,
      (receiveAll cs (receive env c p).2).2)

namespace InboundStep

def outcome (s : InboundStep σ) : Except Status ProtocolEvent :=
  (onInboundDecoded env s.decoded s.timestampNs s.before).1

def after (s : InboundStep σ) : AdminProtocol σ :=
  (onInboundDecoded env s.decoded s.timestampNs s.before).2

/-- The frame is processed with an event that has the property. -/
def Yields (s : InboundStep σ) (P : ProtocolEvent → Prop) : Prop :=
  ∃ event, s.outcome env = .ok event ∧ P event

end InboundStep

/-- The frames that `drainLoop` processes. -/
def drainSteps (timestampNs : Nat) : Nat → AdminProtocol σ → List (InboundStep σ)
  | 0, _ => []
  | fuel + 1, p =>
    match nextDeferred p with
    | none => []
    | some (frame, p) =>
      match decodeInbound env frame with
      | .error _ => drainSteps timestampNs fuel p
      | .ok decoded =>
        if decoded.header.msgSeqNum < p.session.nextInSeq then drainSteps timestampNs fuel p
        else
          let s : InboundStep σ := ⟨p, decoded, timestampNs⟩
          s :: match s.outcome env with
            | .error _ => []
            | .ok inner =>
              if inner.disconnect then [] else drainSteps timestampNs fuel (s.after env)

/-- The frames that a call processes. -/
def callSteps (c : InboundCall) (p : AdminProtocol σ) : List (InboundStep σ) :=
  match decodeInbound env c.frame with
  | .error _ => []
  | .ok decoded =>
    let s : InboundStep σ := ⟨p, decoded, c.timestampNs⟩
    s :: match s.outcome env with
      | .error _ => []
      | .ok _ =>
        drainSteps env c.timestampNs (s.after env).deferredGapFrames.length (s.after env)

/-- The frames that a sequence of calls processes. -/
def runSteps : List InboundCall → AdminProtocol σ → List (InboundStep σ)
  | [], _ => []
  | c :: cs, p => callSteps env c p ++ runSteps cs (receive env c p).2

/-! ## Numbers along the steps -/

/-- How the expected number may move when the frame of `s` is processed. -/
inductive NumberMove (s : InboundStep σ) : Prop
  | stays : (s.after env).session.nextInSeq = s.before.session.nextInSeq →
      delivered (s.outcome env) = [] → NumberMove s
  /-- The frame carried the expected number. An application message is delivered or answered. -/
  | consumes : s.decoded.header.msgSeqNum = s.before.session.nextInSeq →
      (s.after env).session.nextInSeq = s.before.session.nextInSeq + 1 →
      (delivered (s.outcome env) = [] ∧
          (isAdminMessage s.decoded.msgType = false → s.Yields env ProtocolEvent.Answered)) ∨
        delivered (s.outcome env) = [s.decoded] →
      NumberMove s
  /-- A `SequenceReset` that is not answered jumps to its `NewSeqNo`. -/
  | jumps : s.decoded.isSequenceReset →
      s.decoded.message.getInt Tag.newSeqNo = some ((s.after env).session.nextInSeq : Int) →
      s.before.session.nextInSeq < (s.after env).session.nextInSeq →
      delivered (s.outcome env) = [] → s.Yields env ProtocolEvent.Unanswered → NumberMove s

/-- Each step starts with the expected number that the one before it left: `first` at the start,
`last` at the end. -/
abbrev ExpectedPath (first : Nat) (steps : List (InboundStep σ)) (last : Nat) : Prop :=
  EdgePath (fun s => s.before.session.nextInSeq) (fun s => (s.after env).session.nextInSeq) first
    steps last

/-- The numbers along the steps are in order. -/
structure InSequence (steps : List (InboundStep σ)) : Prop where
  moves : ∀ s ∈ steps, NumberMove env s
  /-- Between two steps the expected number does not change. -/
  path : ∃ first last, ExpectedPath env first steps last
  delivered_expected : ∀ s ∈ steps, ∀ d ∈ delivered (s.outcome env),
    d = s.decoded ∧ d.header.msgSeqNum = s.before.session.nextInSeq
  increasing : (steps.flatMap fun s => delivered (s.outcome env)).Pairwise
    fun a b => a.header.msgSeqNum < b.header.msgSeqNum
  /-- Every number that was passed was carried by a frame or jumped over by a `SequenceReset`. -/
  none_skipped : ∀ first last, ExpectedPath env first steps last →
    ∀ n, first ≤ n → n < last → ∃ s ∈ steps,
      (s.decoded.header.msgSeqNum = n ∧ s.before.session.nextInSeq = n ∧
        (delivered (s.outcome env) = [s.decoded] ∨ isAdminMessage s.decoded.msgType ∨
          s.Yields env ProtocolEvent.Answered)) ∨
      (s.decoded.isSequenceReset ∧ s.before.session.nextInSeq ≤ n ∧
        n < (s.after env).session.nextInSeq ∧ s.Yields env ProtocolEvent.Unanswered)

/-! ## What the steps are asked to meet -/

/-- The numbers the frame carries are below `2^32 - 1`. -/
def InboundStep.Numbered (s : InboundStep σ) : Prop :=
  s.decoded.header.msgSeqNum < 2 ^ 32 - 1 ∧
    ∀ n ∈ s.decoded.message.getInt Tag.newSeqNo, n < 2 ^ 32 - 1

/-- The frame is processed without an error. -/
def InboundStep.Completes (s : InboundStep σ) : Prop := (s.outcome env).isOk

/-- The frame brings no new counters. -/
def InboundStep.KeepsCounters (s : InboundStep σ) : Prop :=
  ¬RestoresCounters env s.decoded s.timestampNs

/-- A `SequenceReset` in reset mode, not stale, that moves the expected number fits the phase of the
session and has valid content. -/
def InboundStep.SoundReset (s : InboundStep σ) : Prop :=
  s.decoded.isSequenceReset →
    (∀ n ∈ s.decoded.message.getInt Tag.newSeqNo, (s.before.session.nextInSeq : Int) < n) →
    ResetChecked env s.decoded s.before.inboundCore

instance (s : InboundStep σ) : Decidable s.Numbered := inferInstanceAs (Decidable (_ ∧ _))

instance (s : InboundStep σ) : Decidable (s.KeepsCounters env) :=
  inferInstanceAs (Decidable (¬_))

instance (s : InboundStep σ) : Decidable (s.Completes env) :=
  inferInstanceAs (Decidable (_ = true))

instance (d : DecodedMessageView) (c : InboundCore) : Decidable (ResetChecked env d c) :=
  inferInstanceAs (Decidable (_ → _ → _ ∧ _))

instance (s : InboundStep σ) : Decidable (s.SoundReset env) :=
  inferInstanceAs (Decidable (_ → (∀ n ∈ _, _) → ResetChecked _ _ _))

end

end NimbleFix
