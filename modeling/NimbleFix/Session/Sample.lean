import NimbleFix.Session.Operations
import NimbleFix.Store.Memory

/-!
# A sample pair of sessions

A FIX.4.4 dictionary with the session messages and one application message, the two ends of a
session over it with the default (strict) policy, and the frames a counterparty sends. The concrete
runs of the development are runs of these.
-/

namespace NimbleFix.Sample

def typed (tag : Nat) (valueType : ValueType) : FieldDef := { tag, valueType }

def required (tag : Nat) : FieldRule := { tag, required := true }

def optional (tag : Nat) : FieldRule := { tag }

/-- The session messages and `D`, an order with a `ClOrdID`. -/
def dictionary : Dictionary where
  fields :=
    [typed Tag.encryptMethod .int, typed Tag.heartBtInt .int, typed Tag.beginSeqNo .int,
      typed Tag.endSeqNo .int, typed Tag.newSeqNo .int, typed Tag.gapFillFlag .boolean,
      typed Tag.text .string, typed Tag.testReqID .string, typed Tag.refSeqNum .int,
      typed Tag.refTagID .int, typed Tag.refMsgType .string,
      typed Tag.rejectReason .int, typed 11 .string, typed Tag.resetSeqNumFlag .boolean]
  messages :=
    [⟨MsgType.logon, [required Tag.encryptMethod, required Tag.heartBtInt,
        optional Tag.resetSeqNumFlag]⟩,
      ⟨MsgType.heartbeat, [optional Tag.testReqID]⟩,
      ⟨MsgType.testRequest, [required Tag.testReqID]⟩,
      ⟨MsgType.resendRequest, [required Tag.beginSeqNo, required Tag.endSeqNo]⟩,
      ⟨MsgType.reject, [required Tag.refSeqNum, optional Tag.refTagID, optional Tag.refMsgType,
        optional Tag.rejectReason, optional Tag.text]⟩,
      ⟨MsgType.sequenceReset, [optional Tag.gapFillFlag, required Tag.newSeqNo]⟩,
      ⟨MsgType.logout, [optional Tag.text]⟩,
      ⟨ascii "D", [required 11]⟩]

def clock (n : Nat) : UtcTime where
  year := 2026
  month := 1
  day := 2
  hour := 0
  minute := 0
  second := n % 60
  nanos := 0

/-- One end of the session. -/
def env (isInitiator : Bool) : ProtocolEnv where
  config :=
    { session := { sessionId := 1, key := ⟨[], [], []⟩, isInitiator }
      senderCompId := if isInitiator then ascii "I" else ascii "A"
      targetCompId := if isInitiator then ascii "A" else ascii "I" }
  dictionary := dictionary
  clock := clock
  parsesDouble := fun _ => true

def initiator : ProtocolEnv := env true

def acceptor : ProtocolEnv := env false

/-- A fresh end of the session with an empty store in memory. -/
def fresh (e : ProtocolEnv) : AdminProtocol MemorySessionStore := .create e (some {})

def sendingTime : Bytes := ascii "20260102-00:00:00.000"

/-- The frame with the given type, body fields and header. -/
def encode (msgType : String) (body : List (Nat × String)) (o : EncodeOptions) : Bytes :=
  let fields := body.flatMap fun (tag, value) => NimbleFix.field soh tag (ascii value)
  match encodePreEncodedApplication { msgType := ascii msgType, body := fields } o with
  | .ok bytes => bytes
  | .error _ => []

/-- A frame from the initiator with the given type, body fields and number. -/
def frame (msgType : String) (body : List (Nat × String)) (msgSeqNum : Nat) : Bytes :=
  encode msgType body
    { senderCompId := ascii "I", targetCompId := ascii "A", msgSeqNum, sendingTime }

/-- The same frame sent again. -/
def duplicate (msgType : String) (body : List (Nat × String)) (msgSeqNum : Nat) : Bytes :=
  encode msgType body
    { senderCompId := ascii "I", targetCompId := ascii "A", msgSeqNum, sendingTime
      possDup := true, origSendingTime := sendingTime }

def logonFrame (msgSeqNum : Nat) : Bytes := frame "A" [(98, "0"), (108, "30")] msgSeqNum

def orderFrame (msgSeqNum : Nat) : Bytes := frame "D" [(11, "order")] msgSeqNum

/-- The state of a fresh end after the commands. -/
def after (e : ProtocolEnv) (commands : List Command) : AdminProtocol MemorySessionStore :=
  commands.foldl (fun p c => (perform e c p).2) (fresh e)

/-- An acceptor that has accepted Logon 1. -/
def loggedOn : AdminProtocol MemorySessionStore :=
  after acceptor [.connect 1, .inbound (logonFrame 1) 2]

/-! ## A message with a group -/

/-- A message `X` with a group of parties before its last field. -/
def partiesDictionary : Dictionary where
  fields := [typed 453 .int, typed 448 .string, typed Tag.text .string]
  messages := [⟨ascii "X", [optional 453, optional Tag.text]⟩]
  groups := [⟨453, 448, [required 448]⟩]

def partiesFrame : Bytes := frame "X" [(453, "1"), (448, "a"), (58, "t")] 2

end NimbleFix.Sample
