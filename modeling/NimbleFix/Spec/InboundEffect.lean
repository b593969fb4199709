import NimbleFix.Session.Operations

/-!
# What an inbound frame may do

An abstract view of the receiving side. `InboundCore` is the part of an `AdminProtocol` that
decides what happens to inbound numbers: the session state, the expected number, the pending
range, the deferred frames, with the configuration that never changes. `InboundEffect` lists what
processing one frame may do to it: consume the expected number, jump to the `NewSeqNo` of a
`SequenceReset`, open or extend a gap and put the frame aside, or none of these; afterwards a Logout
may be started or a Logon accepted (`Settles`), which moves no number.

The code's `onInboundDecoded` refines this relation (`Proof/InboundRefine`).
-/

namespace NimbleFix

structure InboundCore where
  config : SessionConfig
  state : SessionState
  resumeState : SessionState
  nextInSeq : Nat
  pendingResend : Option ResendRange
  logonAccepted : Bool
  logoutSent : Bool
  initializationError : Option Status
  deferredGapFrames : List Bytes

def AdminProtocol.inboundCore {σ : Type} (p : AdminProtocol σ) : InboundCore where
  config := p.session.config
  state := p.session.state
  resumeState := p.session.resumeState
  nextInSeq := p.session.nextInSeq
  pendingResend := p.session.pendingResend
  logonAccepted := p.session.logonAccepted
  logoutSent := p.logoutSent
  initializationError := p.initializationError
  deferredGapFrames := p.deferredGapFrames

namespace InboundCore

/-! ## Moves of the expected number -/

/-- A gap is closed once the expected number has passed it. -/
def settle (c : InboundCore) : InboundCore :=
  match c.pendingResend with
  | some range =>
    if c.state = .resendProcessing ∧ range.endSeq < c.nextInSeq then
      { c with pendingResend := none, state := c.resumeState }
    else c
  | none => c

def advance (n : Nat) (c : InboundCore) : InboundCore := settle { c with nextInSeq := n }

def consume (c : InboundCore) : InboundCore := c.advance (wrap32 (c.nextInSeq + 1))

/-- The counters come from elsewhere: a reset or the store. -/
def restore (n : Nat) (c : InboundCore) : InboundCore :=
  { c with nextInSeq := n, pendingResend := none }

def noteGap (seqNum : Nat) (c : InboundCore) : InboundCore :=
  match c.state, c.pendingResend with
  | .resendProcessing, some range =>
    { c with pendingResend := some { range with endSeq := max range.endSeq (seqNum - 1) } }
  | _, _ =>
    { c with
      pendingResend := some { beginSeq := c.nextInSeq, endSeq := seqNum - 1 }
      resumeState := c.state
      state := .resendProcessing }

def defer (raw : Bytes) (c : InboundCore) : InboundCore :=
  { c with deferredGapFrames := c.deferredGapFrames ++ [raw] }

/-! ## What may follow -/

def startLogout (c : InboundCore) : InboundCore :=
  if c.state = .active ∨ c.state = .resendProcessing then
    { c with state := .awaitingLogout, pendingResend := none, logoutSent := true }
  else { c with logoutSent := true }

def accept (c : InboundCore) : InboundCore := { c with state := .active, logonAccepted := true }

/-- A change that moves no number. -/
inductive Settling : InboundCore → InboundCore → Prop
  | logout (c : InboundCore) : c.logoutSent = false → Settling c c.startLogout
  | clear (c : InboundCore) : c.state ≠ .resendProcessing →
      Settling c { c with pendingResend := none }
  | accept (c : InboundCore) : c.state = .connected ∨ c.state = .pendingLogon →
      Settling c c.accept

abbrev Settles : InboundCore → InboundCore → Prop := Relation.ReflTransGen Settling

/-! ## Small facts -/

section

variable (c : InboundCore)

@[simp] theorem settle_nextInSeq : c.settle.nextInSeq = c.nextInSeq := by
  unfold settle
  split
  · split <;> rfl
  · rfl

@[simp] theorem advance_nextInSeq (n : Nat) : (c.advance n).nextInSeq = n := settle_nextInSeq _

theorem consume_nextInSeq : c.consume.nextInSeq = wrap32 (c.nextInSeq + 1) := settle_nextInSeq _

theorem settle_state : c.settle.state = c.state ∨ c.state = .resendProcessing := by
  unfold settle
  split
  · split
    · rename_i h
      exact .inr h.1
    · exact .inl rfl
  · exact .inl rfl

theorem isActive_of_consume (h : isActiveAdminState c.consume.state) :
    isActiveAdminState c.state := by
  rcases settle_state { c with nextInSeq := wrap32 (c.nextInSeq + 1) } with hs | hs
  · unfold consume advance at h
    rw [hs] at h
    exact h
  · change c.state = _ at hs
    rw [hs]
    rfl

end

end InboundCore

/-! ## The effect of a frame -/

/-- The messages handed to the application. -/
def delivered (r : Except Status ProtocolEvent) : List DecodedMessageView :=
  match r with
  | .ok event => event.applicationMessages
  | .error _ => []

/-- What the application reads in an event: `freed` is what a view of freed storage shows instead
of the message it was made for. -/
def ProtocolEvent.read (freed : DecodedMessageView → DecodedMessageView) (event : ProtocolEvent) :
    List DecodedMessageView :=
  if event.dangling then event.applicationMessages.map freed else event.applicationMessages

def messagesRead (freed : DecodedMessageView → DecodedMessageView)
    (r : Except Status ProtocolEvent) : List DecodedMessageView :=
  match r with
  | .ok event => event.read freed
  | .error _ => []

/-- What was freed still reads as it did. -/
def Intact (freed : DecodedMessageView → DecodedMessageView) (r : Except Status ProtocolEvent) :
    Prop :=
  IfOk r fun event => event.dangling → ∀ d ∈ event.applicationMessages, freed d = d

theorem messagesRead_eq_iff {freed : DecodedMessageView → DecodedMessageView}
    {r : Except Status ProtocolEvent} : messagesRead freed r = delivered r ↔ Intact freed r := by
  cases r with
  | error _ => exact iff_of_true rfl trivial
  | ok event =>
    simp only [messagesRead, delivered, Intact, IfOk, ProtocolEvent.read]
    split
    · simpa [*] using List.map_inj_left (l := event.applicationMessages) (f := freed) (g := id)
    · simp [*]

/-- The application reads what the calls deliver exactly if all of it is intact. -/
theorem flatMap_messagesRead_iff {freed : DecodedMessageView → DecodedMessageView}
    (rs : List (Except Status ProtocolEvent)) :
    rs.flatMap (messagesRead freed) = rs.flatMap delivered ↔ ∀ r ∈ rs, Intact freed r := by
  induction rs with
  | nil => simp
  | cons r rs ih =>
    have hlength : (messagesRead freed r).length = (delivered r).length := by
      cases r with
      | error _ => rfl
      | ok event =>
        simp only [messagesRead, delivered, ProtocolEvent.read]
        split <;> simp
    rw [List.flatMap_cons, List.flatMap_cons, List.append_eq_append_iff_of_size_eq_left hlength,
      messagesRead_eq_iff, ih, List.forall_mem_cons]

/-- A frame was not answered with a Reject, a Logout or a disconnect: nothing is sent. -/
def ProtocolEvent.Unanswered (event : ProtocolEvent) : Prop :=
  event.outboundFrames = [] ∧ event.disconnect = false

/-- A frame was answered: something is sent or the connection is dropped. -/
def ProtocolEvent.Answered (event : ProtocolEvent) : Prop :=
  event.outboundFrames ≠ [] ∨ event.disconnect

/-- A `SequenceReset` in reset mode that is not stale fits the phase of the session and has valid
content. -/
def ResetChecked (env : ProtocolEnv) (d : DecodedMessageView) (c : InboundCore) : Prop :=
  c.nextInSeq ≤ d.header.msgSeqNum → d.isGapFill = false →
    adminPhaseViolationText c.state d.msgType = none ∧ validateAdministrativeMessage env d = none

/-- The effect of the frame `d` on the core `c`, with the outcome `r` of the call. `expected` is
the number the frame is compared with. -/
inductive InboundEffect (env : ProtocolEnv) (d : DecodedMessageView) (expected : Nat)
    (c : InboundCore) : Except Status ProtocolEvent → InboundCore → Prop
  /-- No number moves. -/
  | quiet {r : Except Status ProtocolEvent} {c' : InboundCore} :
      c.Settles c' → delivered r = [] → InboundEffect env d expected c r c'
  /-- The frame carried the expected number and consumed it. An application message is delivered,
  or it is answered, or the call fails. -/
  | consumed {r : Except Status ProtocolEvent} {c' : InboundCore} :
      SessionCore.CountsSequences c.state → d.header.msgSeqNum = c.nextInSeq →
      c.consume.Settles c' →
      (delivered r = [] ∧ (isAdminMessage d.msgType = false → IfOk r ProtocolEvent.Answered)) ∨
        (delivered r = [d] ∧ isActiveAdminState c.state) →
      InboundEffect env d expected c r c'
  /-- A gap fill in order: its own number is consumed, then it jumps. -/
  | filled {r : Except Status ProtocolEvent} (n : Nat) :
      SessionCore.CountsSequences c.state → d.header.msgSeqNum = c.nextInSeq →
      d.isSequenceReset → parseSequenceResetNewSeq d.message = .ok n →
      c.consume.nextInSeq ≤ n → delivered r = [] → IfOk r ProtocolEvent.Unanswered →
      InboundEffect env d expected c r (c.consume.advance n)
  /-- A `SequenceReset` that jumps without its number being looked at. Whether it is answered is
  decided only afterwards. -/
  | reset {r : Except Status ProtocolEvent} {c' : InboundCore} (n : Nat) :
      d.isSequenceReset → parseSequenceResetNewSeq d.message = .ok n → c.nextInSeq < n →
      (c.advance n).Settles c' → delivered r = [] →
      (ResetChecked env d c → IfOk r ProtocolEvent.Unanswered) → InboundEffect env d expected c r c'
  /-- The frame is past a gap. -/
  | gapped {r : Except Status ProtocolEvent} {c' : InboundCore} :
      SessionCore.CountsSequences c.state → c.nextInSeq < d.header.msgSeqNum →
      c.nextInSeq = expected → (c.noteGap d.header.msgSeqNum).Settles c' → delivered r = [] →
      InboundEffect env d expected c r c'
  /-- The frame is past a gap and put aside. -/
  | deferred {r : Except Status ProtocolEvent} :
      SessionCore.CountsSequences c.state → c.nextInSeq < d.header.msgSeqNum →
      c.nextInSeq = expected → delivered r = [] →
      InboundEffect env d expected c r ((c.noteGap d.header.msgSeqNum).defer d.raw)

/-! ## Sequence resets -/

/-- The frame passes the checks of its header. -/
def HeaderAccepted (env : ProtocolEnv) (d : DecodedMessageView) (timestampNs : Nat) : Prop :=
  validateCompIds env d = none ∧ (validatePossDup env d).or (origSendingTimeRejection d) = none ∧
    sendingTimeOutsideThreshold d.header.sendingTime timestampNs
      env.config.sendingTimeThresholdSeconds = false

instance (env : ProtocolEnv) (d : DecodedMessageView) (ts : Nat) :
    Decidable (HeaderAccepted env d ts) := inferInstanceAs (Decidable (_ ∧ _))

/-- The frame is a Logon that brings new counters: a reset Logon, a configured reset or a refresh
from the store. -/
def RestoresCounters (env : ProtocolEnv) (d : DecodedMessageView) (timestampNs : Nat) : Prop :=
  HeaderAccepted env d timestampNs ∧
    (resetsOnLogon env d ∨ (d.isLogon ∧ env.config.refreshOnLogon))

instance (env : ProtocolEnv) (d : DecodedMessageView) (ts : Nat) :
    Decidable (RestoresCounters env d ts) := inferInstanceAs (Decidable (_ ∧ _))

/-- The number the frame is compared with: `1` for a Logon that resets, what the store has for one
that refreshes, the expected number otherwise. -/
def expectedFor {σ : Type} [SessionStore σ] (env : ProtocolEnv) (d : DecodedMessageView)
    (p : AdminProtocol σ) : Nat :=
  if resetsOnLogon env d then 1 else (refreshOnLogon env d p).2.session.nextInSeq

end NimbleFix
