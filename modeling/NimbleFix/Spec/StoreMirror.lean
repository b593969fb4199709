import NimbleFix.Session.Operations
import NimbleFix.Store.Lawful

/-!
# The store as a mirror of the session

What the store is for: between two calls it holds the counters of the session and, since it was last
reset, every frame the session sent under a number of its own. `Mirrors` is what holds also inside
a call, where a counter may not be saved yet, and `Synced` is what holds between calls.
-/

namespace NimbleFix

/-- The encoders of frames that get a number of their own. -/
inductive EncodesAs (env : ProtocolEnv) : Bytes → (EncodeOptions → Except Status Bytes) → Prop
  | message (m : MessageData) : EncodesAs env m.msgType (encodeMessage env m)
  | preEncoded (m : EncodedApplicationMessage) :
      EncodesAs env m.msgType (encodePreEncodedApplication m)

/-- The types of the frames that are saved as administrative: those of the session layer that get a
number, and the business reject. -/
def adminFrameTypes : List Bytes :=
  [MsgType.logon, MsgType.heartbeat, MsgType.testRequest, MsgType.resendRequest, MsgType.reject,
    MsgType.logout, ascii "j"]

/-- A frame that was encoded under its number. -/
structure Built (env : ProtocolEnv) (f : EncodedFrame) : Prop where
  admin_type : f.admin → f.msgType ∈ adminFrameTypes
  encoded : ∃ encode envelope sendingTime, EncodesAs env f.msgType encode ∧
    encode (frameOptions env { admin := f.admin, envelope } f.seqNum sendingTime) = .ok f.bytes

/-- The record a sent frame is saved as. -/
def EncodedFrame.record (f : EncodedFrame) (sessionId timestampNs : Nat) : MessageRecord where
  sessionId
  seqNum := f.seqNum
  timestampNs
  flags := recordFlags { admin := f.admin }
  payload := f.bytes
  bodyStartOffset := computeBodyStartOffset f.bytes

/-- The frames with a number of their own that were sent in an epoch. -/
def currentFrames (epoch : Nat) (sent : List EncodedFrame) : List EncodedFrame :=
  sent.filter fun f => f.fresh && f.epoch == epoch

section

variable {σ : Type} (env : ProtocolEnv) (content : StoreContent σ) (bound : Bool)

/-- The frames `sent` so far since the last reset have consecutive numbers that end before the next
one, and the store, if one is `bound`, has each of them under its number. -/
structure Mirrors (sent : List EncodedFrame) (p : AdminProtocol σ) : Prop where
  bound_eq : p.store.isSome = bound
  session : p.session.config.sessionId = env.config.session.sessionId
  positive : 0 < p.session.nextOutSeq
  epochs : ∀ f ∈ sent, f.epoch ≤ p.storeResets
  built : ∀ f ∈ sent, f.fresh → Built env f
  numbers : ∃ first, 0 < first ∧
    first + (currentFrames p.storeResets sent).length = p.session.nextOutSeq ∧
    (currentFrames p.storeResets sent).map (·.seqNum) =
      List.range' first (currentFrames p.storeResets sent).length
  ascending : ∀ st, p.store = some st →
    Ascending (content.outbound env.config.session.sessionId st)
  stored : ∀ st, p.store = some st → ∀ f ∈ currentFrames p.storeResets sent,
    ∃ ts, f.record env.config.session.sessionId ts ∈
      content.outbound env.config.session.sessionId st

/-- The recovery state has the counters of the session. Without one, nothing was sent since the last
reset. -/
def Saved (sent : List EncodedFrame) (p : AdminProtocol σ) : Prop :=
  ∀ st, p.store = some st →
    match content.recovery env.config.session.sessionId st with
    | some r => r.nextInSeq = p.session.nextInSeq ∧ r.nextOutSeq = p.session.nextOutSeq
    | none => currentFrames p.storeResets sent = []

structure Synced (sent : List EncodedFrame) (p : AdminProtocol σ) : Prop
    extends Mirrors env content bound sent p where
  saved : Saved env content sent p

end

end NimbleFix
