import NimbleFix.Codec.View
import NimbleFix.Session.Config

/-!
# Inbound validation (`session/admin_protocol.cpp`, `message/typed_message.cpp`)

The checks on a decoded frame. Each returns the rejection the code fills its out-parameters with,
or `none` when the frame passes.
-/

namespace NimbleFix

namespace SessionReject

def invalidTagNumber : Nat := 0
def requiredTagMissing : Nat := 1
def tagNotDefinedForMessage : Nat := 2
def tagSpecifiedWithoutAValue : Nat := 4
def valueIncorrect : Nat := 5
def incorrectDataFormatForValue : Nat := 6
def decryptionProblem : Nat := 7
def compIdProblem : Nat := 9
def sendingTimeAccuracyProblem : Nat := 10
def invalidMsgType : Nat := 11
def tagAppearsMoreThanOnce : Nat := 13
def tagSpecifiedOutOfRequiredOrder : Nat := 14
def repeatingGroupFieldsOutOfRequiredOrder : Nat := 15
def incorrectNumInGroupCount : Nat := 16

end SessionReject

structure Rejection where
  refTagId : Nat
  reason : Nat
  text : Bytes
  disconnect : Bool := false
  deriving DecidableEq, Repr

def isAdminMessage (msgType : Bytes) : Bool :=
  [ascii "0", ascii "1", ascii "2", ascii "3", ascii "4", ascii "5", ascii "A"].contains msgType

def ParsedMessageData.hasBoolean (p : ParsedMessageData) (tag : Nat) : Bool :=
  (p.getBoolean tag).getD false

def isPreActivationState (st : SessionState) : Bool :=
  st == .connected || st == .pendingLogon

def isActiveAdminState (st : SessionState) : Bool :=
  st == .active || st == .awaitingLogout || st == .resendProcessing

def adminPhaseViolationText (st : SessionState) (msgType : Bytes) : Option Bytes :=
  if !isAdminMessage msgType then none
  else if isPreActivationState st ∧ msgType ≠ MsgType.logon ∧ msgType ≠ MsgType.logout then
    some (ascii "received " ++ msgType ++ ascii " before Logon completed")
  else if msgType = MsgType.logon ∧ isActiveAdminState st then
    some (ascii "received unexpected Logon after session activation")
  else none

/-- `RejectUnsupportedSessionEncryption`. -/
def unsupportedEncryption (p : ParsedMessageData) : Option Rejection :=
  if !p.hasField Tag.secureDataLen && !p.hasField Tag.secureData then none
  else some {
    refTagId := if p.hasField Tag.secureData then Tag.secureData else Tag.secureDataLen
    reason := SessionReject.decryptionProblem
    text := ascii "session-layer SecureData is not supported by this runtime" }

/-- `ParseSequenceResetNewSeq`; the value is cut to 32 bits. -/
def parseSequenceResetNewSeq (p : ParsedMessageData) : Except Rejection Nat :=
  match p.getInt Tag.newSeqNo with
  | some n =>
    if n ≤ 0 then .error ⟨Tag.newSeqNo, SessionReject.requiredTagMissing,
      ascii "SequenceReset requires NewSeqNo", false⟩
    else .ok (wrap32 n.toNat)
  | none => .error ⟨Tag.newSeqNo, SessionReject.requiredTagMissing,
      ascii "SequenceReset requires NewSeqNo", false⟩

/-! ## Walking groups -/

namespace ParsedMessageData

/-- The slots in the order the recursive walks visit them: those of the entry, then those of the
entries of its groups. The decoder nests no deeper than `kMaxGroupNestingDepth`. -/
def visitedSlots (p : ParsedMessageData) : Nat → ParsedEntryData → List ParsedFieldSlot
  | 0, e => p.slotsOf e
  | depth + 1, e =>
    p.slotsOf e ++ (p.groupsOf e).flatMap fun g => (p.entriesOf g.2).flatMap (p.visitedSlots depth)

/-- `FindFieldValue`: the text of the first visited field with `tag`, empty for a field that is no
string. -/
def findFieldValue (p : ParsedMessageData) (tag : Nat) : Bytes :=
  match (p.visitedSlots kMaxGroupNestingDepth p.root).find? fun s => s.tag == tag with
  | some slot => if slot.type = .string then slot.value else []
  | none => []

end ParsedMessageData

/-! ## Validation issues -/

/-- `FindEnumValidationIssueInView`. -/
def findEnumIssueInView (d : Dictionary) (p : ParsedMessageData) : Option ValidationIssue :=
  let disallowed := fun s : ParsedFieldSlot =>
    match d.findField s.tag with
    | some f => !f.allowsEnumValue s.value
    | none => false
  ((p.visitedSlots kMaxGroupNestingDepth p.root).find? disallowed).map fun s =>
    ⟨.enumValueNotAllowed, s.tag,
      fieldText s.tag " has an enum value not present in the bound dictionary"⟩

section

variable (env : ProtocolEnv)

/-- The answer of `OnMalformedField`; without a callback the field is accepted. -/
def rejectsMalformed (issue : ValidationIssue) (msgType value : Bytes) : Bool :=
  match env.config.validationPolicy.malformedFieldAction with
  | .ignore => false
  | .log =>
    match env.config.validationCallback with
    | some cb =>
      !cb.onMalformedField env.config.session.sessionId issue.tag value msgType issue.text
    | none => false
  | .reject => true

def shouldRejectValidationIssue (issue : ValidationIssue) (msgType value : Bytes) : Bool :=
  let policy := env.config.validationPolicy
  match issue.kind with
  | .unknownField | .fieldNotAllowed =>
    match policy.unknownFieldAction with
    | .ignore => false
    | .logAndProcess =>
      match env.config.validationCallback with
      | some cb => !cb.onUnknownField env.config.session.sessionId issue.tag value msgType
      | none => false
    | .reject => policy.rejectUnknownFields
  | .tagSpecifiedWithoutAValue => policy.rejectTagWithoutValue
  | .incorrectDataFormatForValue =>
    rejectsMalformed env issue msgType value &&
      (policy.malformedFieldAction != .reject || policy.rejectIncorrectDataFormat)
  | .tagSpecifiedOutOfRequiredOrder => policy.rejectFieldsOutOfOrder
  | .duplicateField => policy.rejectDuplicateFields
  | .repeatingGroupFieldsOutOfRequiredOrder => policy.rejectFieldsOutOfOrder
  | .incorrectNumInGroupCount => policy.rejectInvalidGroupStructure
  | .enumValueNotAllowed =>
    policy.validateEnumValues && rejectsMalformed env issue msgType value

def validationIssueRejectReason (issue : ValidationIssue) : Nat :=
  match issue.kind with
  | .fieldNotAllowed => SessionReject.tagNotDefinedForMessage
  | .unknownField => SessionReject.invalidTagNumber
  | .tagSpecifiedWithoutAValue => SessionReject.tagSpecifiedWithoutAValue
  | .incorrectDataFormatForValue => SessionReject.incorrectDataFormatForValue
  | .duplicateField => SessionReject.tagAppearsMoreThanOnce
  | .tagSpecifiedOutOfRequiredOrder => SessionReject.tagSpecifiedOutOfRequiredOrder
  | .repeatingGroupFieldsOutOfRequiredOrder =>
    SessionReject.repeatingGroupFieldsOutOfRequiredOrder
  | .incorrectNumInGroupCount => SessionReject.incorrectNumInGroupCount
  | .enumValueNotAllowed => SessionReject.valueIncorrect

variable (decoded : DecodedMessageView)

/-- The rejection for a validation issue, if there is one and the policy does not let it pass. -/
def issueRejection (issue : Option ValidationIssue) (disconnect : Bool) : Option Rejection :=
  match issue with
  | none => none
  | some i =>
    if shouldRejectValidationIssue env i decoded.header.msgType
        (decoded.message.findFieldValue i.tag) then
      some ⟨i.tag, validationIssueRejectReason i, i.text, disconnect⟩
    else none

def findEnumValidationIssue : Option ValidationIssue :=
  if !env.config.validationPolicy.validateEnumValues && env.config.validationCallback.isNone then
    none
  else findEnumIssueInView env.dictionary decoded.message

/-! ## Session-level checks -/

def validateCompIds : Option Rejection :=
  let c := env.config
  let policy := c.validationPolicy
  let h := decoded.header
  let isLogon := h.msgType == MsgType.logon
  if c.beginString ≠ [] ∧ h.beginString ≠ c.beginString then
    some ⟨Tag.beginString, SessionReject.valueIncorrect,
      ascii "unexpected BeginString on inbound frame", true⟩
  else if policy.enforceCompIds ∧ c.targetCompId ≠ [] ∧ h.senderCompId ≠ c.targetCompId then
    some ⟨Tag.senderCompID, SessionReject.compIdProblem,
      ascii "unexpected SenderCompID on inbound frame", true⟩
  else if policy.enforceCompIds ∧ c.senderCompId ≠ [] ∧ h.targetCompId ≠ c.senderCompId then
    some ⟨Tag.targetCompID, SessionReject.compIdProblem,
      ascii "unexpected TargetCompID on inbound frame", true⟩
  else if isLogon ∧ policy.requireDefaultApplVerIdOnLogon ∧
      c.effectiveProfile.requiresDefaultApplVerId ∧ h.defaultApplVerId = [] then
    some ⟨Tag.defaultApplVerID, SessionReject.requiredTagMissing,
      ascii "FIXT.1.1 logon requires DefaultApplVerID", true⟩
  else if isLogon ∧ policy.requireDefaultApplVerIdOnLogon ∧ c.defaultApplVerId ≠ [] ∧
      h.defaultApplVerId ≠ c.defaultApplVerId then
    some ⟨Tag.defaultApplVerID, SessionReject.valueIncorrect,
      ascii "unexpected DefaultApplVerID on inbound frame", true⟩
  else none

/-- `ValidatePossDup` and the rejection its failure is turned into. -/
def validatePossDup : Option Rejection :=
  if env.config.validationPolicy.requireOrigSendingTimeOnPossDup ∧ decoded.header.possDup ∧
      decoded.header.origSendingTime = [] then
    some ⟨Tag.origSendingTime, SessionReject.requiredTagMissing,
      ascii "PossDupFlag requires OrigSendingTime", decoded.header.msgType == MsgType.logon⟩
  else none

/-- Byte strings in the order of `std::string_view::operator<`. -/
def bytesLt : Bytes → Bytes → Bool
  | _, [] => false
  | [], _ :: _ => true
  | a :: as, b :: bs => a < b || (a == b && bytesLt as bs)

/-- A duplicate must not claim to have been sent first after it was sent again. -/
def origSendingTimeRejection : Option Rejection :=
  let h := decoded.header
  if h.possDup ∧ h.origSendingTime ≠ [] ∧ h.sendingTime ≠ [] ∧
      bytesLt h.sendingTime h.origSendingTime then
    some ⟨Tag.sendingTime, SessionReject.sendingTimeAccuracyProblem,
      ascii "OrigSendingTime must not be later than SendingTime", h.msgType == MsgType.logon⟩
  else none

/-! ## Administrative messages -/

/-- A required integer field of a session message: `missing` when it is absent, `invalid` when it
is no integer or fails `valid`. -/
def requireInt (p : ParsedMessageData) (tag : Nat) (missing invalid : String) (disconnect : Bool)
    (valid : Int → Bool) : Option Rejection :=
  if !p.hasField tag then
    some ⟨tag, SessionReject.requiredTagMissing, ascii missing, disconnect⟩
  else if (p.getInt tag).any valid then none
  else some ⟨tag, SessionReject.valueIncorrect, ascii invalid, disconnect⟩

def validateLogon (p : ParsedMessageData) : Option Rejection :=
  (requireInt p Tag.encryptMethod "Logon requires EncryptMethod" "Logon EncryptMethod must be 0"
    true (· == 0)).or
  (requireInt p Tag.heartBtInt "Logon requires HeartBtInt" "Logon HeartBtInt must be positive"
    true (0 < ·))

def validateTestRequest (p : ParsedMessageData) : Option Rejection :=
  if p.hasField Tag.testReqID then none
  else some ⟨Tag.testReqID, SessionReject.requiredTagMissing,
    ascii "TestRequest requires TestReqID", false⟩

/-- Both fields are looked for before either value is checked. -/
def validateResendRequest (p : ParsedMessageData) : Option Rejection :=
  let begin_ := p.getInt Tag.beginSeqNo
  let end_ := p.getInt Tag.endSeqNo
  if !p.hasField Tag.beginSeqNo then
    some ⟨Tag.beginSeqNo, SessionReject.requiredTagMissing,
      ascii "ResendRequest requires BeginSeqNo", false⟩
  else if !p.hasField Tag.endSeqNo then
    some ⟨Tag.endSeqNo, SessionReject.requiredTagMissing,
      ascii "ResendRequest requires EndSeqNo", false⟩
  else if !begin_.any (0 < ·) then
    some ⟨Tag.beginSeqNo, SessionReject.valueIncorrect,
      ascii "ResendRequest BeginSeqNo must be positive", false⟩
  else if !end_.any (0 ≤ ·) then
    some ⟨Tag.endSeqNo, SessionReject.valueIncorrect,
      ascii "ResendRequest EndSeqNo must be zero or positive", false⟩
  else if end_.getD 0 ≠ 0 ∧ end_.getD 0 < begin_.getD 0 then
    some ⟨Tag.endSeqNo, SessionReject.valueIncorrect,
      ascii "ResendRequest BeginSeqNo must be less than or equal to EndSeqNo", false⟩
  else none

def validateAdministrativeMessage : Option Rejection :=
  let p := decoded.message
  let msgType := decoded.header.msgType
  let isLogon := msgType == MsgType.logon
  if !isAdminMessage msgType then none
  else
    (unsupportedEncryption p).or <|
    (issueRejection env decoded decoded.validationIssue isLogon).or <|
    (issueRejection env decoded (findEnumValidationIssue env decoded) isLogon).or <|
    if msgType = MsgType.logon then validateLogon p
    else if msgType = MsgType.testRequest then validateTestRequest p
    else if msgType = MsgType.resendRequest then validateResendRequest p
    else none

/-! ## Application messages -/

/-- `MessageHasTag` on a group entry. -/
def entryHasTag (p : ParsedMessageData) (e : ParsedEntryData) (tag : Nat) : Bool :=
  (p.slotsOf e).any (fun s => s.tag == tag) || (p.groupOf e tag).isSome

/-- `ValidateRequiredGroup`: the first missing required field of an entry of the group. As long as
no required rule lies past the 64 bits of the bitmap, a missing field of the entry itself is
reported only after its nested groups. -/
def missingInGroup (d : Dictionary) (p : ParsedMessageData) :
    Nat → GroupDef → ParsedGroupFrame → Option Nat
  | 0, _, _ => none
  | depth + 1, def_, g =>
    (p.entriesOf g).findSome? fun e =>
      let bitmapComplete := !(def_.rules.drop 64).any (·.required)
      let missing := fun rule : FieldRule =>
        if rule.required && !entryHasTag p e rule.tag then some rule.tag else none
      let nested := fun rule : FieldRule =>
        match d.findGroup rule.tag, p.groupOf e rule.tag with
        | some nestedDef, some nested => missingInGroup d p depth nestedDef nested
        | _, _ => none
      if bitmapComplete then (def_.rules.findSome? nested).or (def_.rules.findSome? missing)
      else def_.rules.findSome? fun rule => (missing rule).or (nested rule)

/-- `ValidateRequiredRules` on the root. -/
def missingRequired (d : Dictionary) (p : ParsedMessageData) (rules : List FieldRule) :
    Option Nat :=
  rules.findSome? fun rule =>
    if rule.required && !(p.hasField rule.tag || (p.groupOf p.root rule.tag).isSome) then
      some rule.tag
    else
      match d.findGroup rule.tag, p.groupOf p.root rule.tag with
      | some def_, some g => missingInGroup d p kMaxGroupNestingDepth def_ g
      | _, _ => none

def validateApplicationMessage : Option Rejection :=
  let p := decoded.message
  let policy := env.config.validationPolicy
  if isAdminMessage decoded.header.msgType then none
  else
    (unsupportedEncryption p).or <|
    match env.dictionary.findMessage decoded.header.msgType with
    | none =>
      if !policy.requireKnownAppMessageType then none
      else some ⟨Tag.msgType, SessionReject.invalidMsgType,
        ascii "application message type is not present in the bound dictionary", false⟩
    | some def_ =>
      (issueRejection env decoded decoded.validationIssue false).or <|
      if !policy.requireRequiredFieldsOnAppMessages then none
      else (missingRequired env.dictionary p def_.rules).map fun tag =>
        ⟨tag, SessionReject.requiredTagMissing,
          ascii "typed message is missing required field " ++ decimal tag, false⟩

def unsupportedMessageType : Nat := 3
def applicationNotAvailable : Nat := 4

/-- `ResolveApplicationBusinessRejectReason`. -/
def businessRejectReason : Option Nat :=
  let c := env.config
  if isAdminMessage decoded.header.msgType then none
  else if c.applicationMessagesAvailable ∧ c.supportedAppMsgTypes = [] then none
  else if (env.dictionary.findMessage decoded.header.msgType).isNone then none
  else if !c.applicationMessagesAvailable then some applicationNotAvailable
  else if c.supportedAppMsgTypes.contains decoded.header.msgType then none
  else some unsupportedMessageType

end

end NimbleFix
