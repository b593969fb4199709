import NimbleFix.Codec.Decode
import NimbleFix.Codec.Timestamp
import NimbleFix.Session.SessionCore

/-!
# Session configuration (`session/admin_protocol.h`, `session/validation_policy.h`)

`ProtocolEnv` is what an `AdminProtocol` is bound to for its whole life: the configuration, the
dictionary and the two sources outside the program, the clock and the double parser.
-/

namespace NimbleFix

inductive UnknownFieldAction
  | reject
  | ignore
  | logAndProcess
  deriving DecidableEq, Repr

inductive MalformedFieldAction
  | reject
  | ignore
  | log
  deriving DecidableEq, Repr

/-- The defaults are `ValidationPolicy::Strict()`. -/
structure ValidationPolicy where
  enforceCompIds : Bool := true
  requireDefaultApplVerIdOnLogon : Bool := true
  requireOrigSendingTimeOnPossDup : Bool := true
  rejectOnStaleMsgSeqNum : Bool := true
  requireKnownAppMessageType : Bool := true
  requireRequiredFieldsOnAppMessages : Bool := false
  rejectUnknownFields : Bool := true
  rejectDuplicateFields : Bool := true
  rejectTagWithoutValue : Bool := true
  rejectIncorrectDataFormat : Bool := true
  rejectFieldsOutOfOrder : Bool := true
  rejectInvalidGroupStructure : Bool := true
  verifyChecksum : Bool := true
  unknownFieldAction : UnknownFieldAction := .reject
  malformedFieldAction : MalformedFieldAction := .reject
  validateEnumValues : Bool := true
  deriving DecidableEq, Repr

namespace ValidationPolicy

def Strict : ValidationPolicy := {}

end ValidationPolicy

/-- The answers of a `ValidationCallback`: `true` accepts the field. The arguments are the session
id, the tag, the field's text, the message type and, for a malformed field, the issue text. The
notification `OnValidationWarning` returns nothing and is left out. -/
structure ValidationCallback where
  onUnknownField : Nat → Nat → Bytes → Bytes → Bool := fun _ _ _ _ => true
  onMalformedField : Nat → Nat → Bytes → Bytes → Bytes → Bool := fun _ _ _ _ _ => true

structure TransportSessionProfile where
  beginString : Bytes := ascii "FIX.4.4"
  requiresDefaultApplVerId : Bool := false
  supportsNextExpectedMsgSeqNum : Bool := true
  deriving DecidableEq, Repr

/-- An unknown `BeginString` behaves like FIX.4.4 under its own text. -/
def TransportSessionProfile.fromBeginString (beginString : Bytes) : TransportSessionProfile :=
  if [ascii "FIX.4.0", ascii "FIX.4.1", ascii "FIX.4.2", ascii "FIX.4.3"].contains beginString then
    { beginString, supportsNextExpectedMsgSeqNum := false }
  else if beginString = ascii "FIXT.1.1" then { beginString, requiresDefaultApplVerId := true }
  else { beginString }

structure LogonField where
  tag : Nat
  value : Bytes
  deriving DecidableEq, Repr

structure AdminProtocolConfig where
  session : SessionConfig
  transportProfile : TransportSessionProfile := {}
  beginString : Bytes := ascii "FIX.4.4"
  senderCompId : Bytes := []
  targetCompId : Bytes := []
  defaultApplVerId : Bytes := []
  supportedAppMsgTypes : List Bytes := []
  heartbeatIntervalSeconds : Nat := 30
  sendingTimeThresholdSeconds : Nat := 0
  warmupMessageCount : Nat := 0
  logonFields : List LogonField := []
  timestampResolution : TimestampResolution := .milliseconds
  applicationMessagesAvailable : Bool := true
  resetSeqNumOnLogon : Bool := false
  resetSeqNumOnLogout : Bool := false
  resetSeqNumOnDisconnect : Bool := false
  refreshOnLogon : Bool := false
  sendNextExpectedMsgSeqNum : Bool := false
  validationPolicy : ValidationPolicy := .Strict
  validationCallback : Option ValidationCallback := none

/-- The profile in use: derived from `begin_string` when that was set to something else. -/
def AdminProtocolConfig.effectiveProfile (c : AdminProtocolConfig) : TransportSessionProfile :=
  if c.transportProfile.beginString ≠ c.beginString ∧ c.beginString ≠ [] then
    .fromBeginString c.beginString
  else c.transportProfile

structure ProtocolEnv where
  config : AdminProtocolConfig
  dictionary : Dictionary
  /-- The `n`-th reading of the system clock. -/
  clock : Nat → UtcTime
  /-- The texts `std::from_chars` accepts as a double. -/
  parsesDouble : Bytes → Bool

def isEngineManagedLogonField (tag : Nat) : Bool :=
  [Tag.msgType, Tag.encryptMethod, Tag.heartBtInt, Tag.resetSeqNumFlag,
    Tag.nextExpectedMsgSeqNum].contains tag ||
    (Tag.isFrameStructureTag tag || Tag.isAggregateSessionHeaderTag tag)

/-- The loop of `ValidateLogonFields`; `tags` are those already seen. -/
def validateLogonFields : List Nat → List LogonField → Except Status Unit
  | _, [] => .ok ()
  | tags, f :: fs =>
    if f.tag = 0 then .error (.InvalidArgument "logon field tag must be positive")
    else if f.value = [] then .error (.InvalidArgument "logon field value must not be empty")
    else if isEngineManagedLogonField f.tag then
      .error (.InvalidArgument "logon field overrides an engine-managed Logon tag")
    else if tags.contains f.tag then .error (.InvalidArgument "duplicate logon field tag")
    else validateLogonFields (f.tag :: tags) fs

end NimbleFix
