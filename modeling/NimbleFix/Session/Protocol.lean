import NimbleFix.Codec.RawPassThrough
import NimbleFix.Codec.ViewEncode
import NimbleFix.Session.Validate
import NimbleFix.Store.SessionStore

/-!
# The session protocol object and its outbound side (`AdminProtocol`)

The mutable part of an `AdminProtocol`, what it keeps in its store, and how it builds, numbers and
persists the frames it sends. `ProtocolEnv` is fixed for the life of the object and is a parameter
of every operation; the store is any `SessionStore`, or none.

Some things are added to the source's data. `EncodedFrame.seqNum`, `EncodedFrame.fresh` and
`EncodedFrame.epoch` are history variables: the number a frame was encoded with, whether that
number was allocated for it, and how often the store had been reset by then, which
`AdminProtocol.storeResets` counts. `clockReads` counts the readings of the system clock.
-/

namespace NimbleFix

open SessionCore

structure EncodedFrame where
  bytes : Bytes
  msgType : Bytes
  admin : Bool
  /-- History variable: the `MsgSeqNum` the frame was encoded with. -/
  seqNum : Nat
  /-- History variable: the number was allocated for this frame. -/
  fresh : Bool
  /-- History variable of a fresh frame: the store resets before it was encoded. -/
  epoch : Nat
  deriving DecidableEq, Repr

/-- What a call hands back: frames to send and messages for the application. -/
structure ProtocolEvent where
  outboundFrames : List EncodedFrame := []
  applicationMessages : List DecodedMessageView := []
  sessionActive : Bool := false
  disconnect : Bool := false
  possResend : Bool := false
  sessionReject : Bool := false
  warnings : List Bytes := []
  errors : List Bytes := []
  /-- The messages are views of storage that was freed before the call returned. -/
  dangling : Bool := false
  deriving DecidableEq, Repr

structure AdminProtocol (σ : Type) where
  session : SessionCore
  store : Option σ
  outstandingTestRequestId : Bytes := []
  logoutSent : Bool := false
  testRequestSentNs : Nat := 0
  logoutSentNs : Nat := 0
  initializationError : Option Status := none
  deferredGapFrames : List Bytes := []
  clockReads : Nat := 0
  /-- History variable: the resets of the session in the store. -/
  storeResets : Nat := 0

structure SessionSendEnvelope where
  senderSubId : Bytes := []
  targetSubId : Bytes := []
  applVerId : Bytes := []
  deriving DecidableEq, Repr

structure EncodedOutboundExtras where
  headerFragment : Bytes := []
  bodyFragment : Bytes := []
  deriving DecidableEq, Repr

/-- The fragments of the message, unless the call brings its own. -/
def EncodedApplicationMessage.withExtras (m : EncodedApplicationMessage)
    (extras : EncodedOutboundExtras) : EncodedApplicationMessage :=
  if extras.headerFragment = [] ∧ extras.bodyFragment = [] then m
  else { m with headerFragment := extras.headerFragment, bodyFragment := extras.bodyFragment }

/-! ## Body offset -/

/-- The header scan of `ComputeBodyStartOffset`: `rest` is what is left of a frame of `size`
bytes, `last` the offset after the last header field. Every round reads a field, so the length of
the frame is enough `fuel`. -/
def bodyStartLoop (size : Nat) : Nat → Bytes → Nat → Nat
  | 0, _, last => last
  | fuel + 1, rest, last =>
    match splitAtByte equalsByte rest with
    | none => last
    | some (tagText, afterEq) =>
      if tagText = [] ∨ !tagText.all isDigit then last
      else
        match splitAtByte soh afterEq with
        | none => last
        | some (_, next) =>
          let tag := tagText.foldl (fun n b => wrap32 (10 * n + digitValue b)) 0
          if Tag.isAggregateSessionEnvelopeTag tag then
            bodyStartLoop size fuel next (size - next.length)
          else last

def computeBodyStartOffset (frame : Bytes) : Nat :=
  wrap32 (bodyStartLoop frame.length frame.length frame 0)

/-! ## Access to the parts -/

section

variable {σ : Type} {α : Type}

def onSession (m : Method SessionCore α) : Method (AdminProtocol σ) α :=
  Fallible.zoom AdminProtocol.session (fun s p => { p with session := s }) m

/-- A store call whose arguments are taken from the session; `absent` without a store. -/
def onStore (absent : α) (m : SessionCore → Method σ α) : Method (AdminProtocol σ) α := fun p =>
  match p.store with
  | none => (.ok absent, p)
  | some st => ((m p.session st).1, { p with store := some (m p.session st).2 })

def ensureInitialized : Method (AdminProtocol σ) Unit := fun p =>
  match p.initializationError with
  | some e => (.error e, p)
  | none => (.ok (), p)

theorem ensureInitialized_ok {p : AdminProtocol σ} : Fallible.Ensures (ensureInitialized (σ := σ)) p
    fun _ p' => p' = p ∧ p.initializationError = none := by
  intro _ p' h
  unfold ensureInitialized at h
  split at h
  · cases h
  · cases h
    exact ⟨rfl, ‹_›⟩

/-- Clear the outstanding test request when a resend was completed. -/
def settleTestRequest : Method (AdminProtocol σ) Unit :=
  Fallible.modify fun p =>
    { p with
      session := p.session.consumeResendCompleted.2
      outstandingTestRequestId :=
        if p.session.consumeResendCompleted.1 then [] else p.outstandingTestRequestId }

def recordInbound (timestampNs : Nat) : Method (AdminProtocol σ) Unit :=
  onSession (Fallible.modify (recordInboundActivity timestampNs))

def recordOutbound (timestampNs : Nat) : Method (AdminProtocol σ) Unit :=
  onSession (Fallible.modify (recordOutboundActivity timestampNs))

end

/-- The recovery state every save derives from the session snapshot. -/
def SessionCore.recoveryState (s : SessionCore) : SessionRecoveryState where
  sessionId := s.config.sessionId
  nextInSeq := s.nextInSeq
  nextOutSeq := s.nextOutSeq
  lastInboundNs := s.lastInboundNs
  lastOutboundNs := s.lastOutboundNs
  active := s.state ≠ .disconnected

section

variable (env : ProtocolEnv) {σ : Type} [SessionStore σ]

def persistRecoveryState : Method (AdminProtocol σ) Unit :=
  onStore () fun s => SessionStore.saveRecoveryState s.recoveryState

/-- The counters of a loaded recovery state; a store without one stands for `(1, 1)`. -/
def restoreFromRecovery (recovery : Except Status SessionRecoveryState) :
    Method (AdminProtocol σ) Unit :=
  match recovery with
  | .ok r => onSession (restoreSequenceState r.nextInSeq r.nextOutSeq)
  | .error e =>
    if e.code = .notFound then onSession (restoreSequenceState 1 1) else Fallible.fail e

/-- The part of `RefreshSessionStateFromStore` that runs when there is a store. -/
def reloadFromStore : Method (AdminProtocol σ) Unit := do
  onStore () fun _ => SessionStore.refresh
  let recovery ← Fallible.attempt (onStore ⟨0, 0, 0, 0, 0, false⟩ fun s =>
    SessionStore.loadRecoveryState s.config.sessionId)
  restoreFromRecovery recovery

def refreshSessionStateFromStore : Method (AdminProtocol σ) Unit := fun p =>
  match p.store with
  | none => (.ok (), p)
  | some _ => reloadFromStore p

def resetStore (reset : Bool) : Method (AdminProtocol σ) Unit :=
  if reset then do
    onStore () fun s => SessionStore.resetSession s.config.sessionId
    Fallible.modify fun p => { p with storeResets := p.storeResets + 1 }
  else pure ()

def resetSessionState (nextInSeq nextOutSeq : Nat) (reset : Bool) :
    Method (AdminProtocol σ) Unit := do
  resetStore reset
  onSession (restoreSequenceState nextInSeq nextOutSeq)
  persistRecoveryState

/-! ## Construction -/

/-- The constructor: the counters come from the store when it has a recovery state. -/
def AdminProtocol.create (store : Option σ) : AdminProtocol σ :=
  let logonError := match validateLogonFields [] env.config.logonFields with
    | .ok _ => none
    | .error e => some e
  let session : SessionCore :=
    setWarmupCount env.config.warmupMessageCount { config := env.config.session }
  match store with
  | none => { session, store := none, initializationError := logonError }
  | some st =>
    match SessionStore.loadRecoveryState session.config.sessionId st with
    | (.ok r, st) =>
      match session.restoreSequenceState r.nextInSeq r.nextOutSeq with
      | (.ok _, session) => { session, store := some st, initializationError := logonError }
      | (.error e, session) =>
        { session, store := some st, initializationError := logonError.or (some e) }
    | (.error e, st) =>
      { session, store := some st
        initializationError := if e.code = .notFound then logonError else logonError.or (some e) }

/-! ## Numbering, encoding and saving a frame -/

/-- The arguments of `EncodeFrame`. -/
structure FrameParams where
  admin : Bool
  persist : Bool := true
  possDup : Bool := false
  allocateSeq : Bool := true
  extraRecordFlags : Nat := 0
  seqOverride : Nat := 0
  origSendingTime : Bytes := []
  envelope : SessionSendEnvelope := {}

def takeSeq (params : FrameParams) : Method (AdminProtocol σ) Nat :=
  if params.allocateSeq then onSession allocateOutboundSeq
  else pure params.seqOverride

/-- `CurrentUtcTimestamp`. -/
def readClock : Method (AdminProtocol σ) Bytes := fun p =>
  (.ok (utcTimestamp env.config.timestampResolution (env.clock p.clockReads)),
    { p with clockReads := p.clockReads + 1 })

def frameOptions (params : FrameParams) (seqNum : Nat) (sendingTime : Bytes) : EncodeOptions where
  beginString := env.config.beginString
  senderCompId := env.config.senderCompId
  senderSubId := params.envelope.senderSubId
  targetCompId := env.config.targetCompId
  targetSubId := params.envelope.targetSubId
  defaultApplVerId := env.config.defaultApplVerId
  applVerId := params.envelope.applVerId
  sendingTime := sendingTime
  origSendingTime := params.origSendingTime
  msgSeqNum := seqNum
  possDup := params.possDup

def recordFlags (params : FrameParams) : Nat :=
  params.extraRecordFlags ||| (if params.admin then MessageRecord.adminFlag else 0) |||
    (if params.possDup then MessageRecord.possDupFlag else 0)

def saveEncodedFrame (params : FrameParams) (seqNum timestampNs : Nat) (bytes : Bytes) :
    Method (AdminProtocol σ) Unit :=
  if params.persist then
    onStore () fun s =>
      SessionStore.saveOutboundViewAndRecoveryState
        { sessionId := s.config.sessionId
          seqNum
          timestampNs
          flags := recordFlags params
          payload := bytes
          bodyStartOffset := computeBodyStartOffset bytes }
        s.recoveryState
  else persistRecoveryState

def finalizeEncodedFrame (msgType : Bytes) (params : FrameParams) (seqNum timestampNs : Nat)
    (bytes : Bytes) : Method (AdminProtocol σ) EncodedFrame := do
  recordOutbound timestampNs
  saveEncodedFrame params seqNum timestampNs bytes
  let p ← Fallible.get
  pure
    { bytes, msgType, admin := params.admin, seqNum, fresh := params.allocateSeq
      epoch := p.storeResets }

/-- The common body of the `EncodeFrame` overloads: the number is taken first, then the message is
encoded with one reading of the clock, then the frame is saved. -/
def encodeFrameWith (msgType : Bytes) (encode : EncodeOptions → Except Status Bytes)
    (params : FrameParams) (timestampNs : Nat) : Method (AdminProtocol σ) EncodedFrame := do
  let seqNum ← takeSeq params
  let sendingTime ← readClock env
  let bytes ← Fallible.ofExcept (encode (frameOptions env params seqNum sendingTime))
  finalizeEncodedFrame msgType params seqNum timestampNs bytes

/-- `ResolveEncodeTemplate`. The table is built with the session; types that do not compile are
not in it. -/
def resolveEncodeTemplate (msgType : Bytes) : Option FrameEncodeTemplate :=
  (compileFrameEncodeTemplate env.dictionary msgType
    { beginString := env.config.beginString
      senderCompId := env.config.senderCompId
      targetCompId := env.config.targetCompId
      defaultApplVerId := env.config.defaultApplVerId }).toOption

/-- The template of the message type if there is one, the generic encoder otherwise or when the
template refuses. -/
def encodeMessage (m : MessageData) (o : EncodeOptions) : Except Status Bytes :=
  match resolveEncodeTemplate env m.msgType with
  | some template =>
    match template.encodeToBuffer m.view o with
    | .ok bytes => .ok bytes
    | .error _ => encodeViewGeneric env.dictionary m.view o
  | none => encodeViewGeneric env.dictionary m.view o

def encodeFrame (m : MessageData) (params : FrameParams) (timestampNs : Nat) :
    Method (AdminProtocol σ) EncodedFrame :=
  encodeFrameWith env m.msgType (encodeMessage env m) params timestampNs

/-- The overload for pre-encoded application messages. -/
def encodeApplicationFrame (m : EncodedApplicationMessage) (params : FrameParams)
    (timestampNs : Nat) : Method (AdminProtocol σ) EncodedFrame :=
  encodeFrameWith env m.msgType (encodePreEncodedApplication m) params timestampNs

end

end NimbleFix
