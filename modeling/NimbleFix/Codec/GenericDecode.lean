import NimbleFix.Codec.Decode

/-!
# The generic decoder (`DecodeFixMessageView` without a decoder table)

The decoder that looks every field up in the dictionary while it reads. It shares the scan, the
group parser and the checks of the frame with the compiled decoder; its field loop and its
validation are its own.
-/

namespace NimbleFix

def normalizeDelimiter (delimiter : Byte) : Byte := if delimiter = 0 then soh else delimiter

@[simp]
theorem normalizeDelimiter_soh : normalizeDelimiter soh = soh := rfl

def isImplicitStandardField (tag : Nat) : Bool :=
  Tag.isAggregateSessionEnvelopeTag tag || Tag.isCommonAdminTag tag

/-- `ValidateConsumedField` for a field of the root: `known` says whether the message type is
known, and `orderKind` is the issue of a field out of order, if order is checked. -/
def validateConsumedField (d : Dictionary) (tag : Nat) (rules : List FieldRule) (known : Bool)
    (orderKind : Option ValidationIssueKind) (state : ScopeValidation)
    (issue : Option ValidationIssue) : ScopeValidation × Option ValidationIssue :=
  if state.seenTags.contains tag then
    (state, setIssue issue .duplicateField tag (fieldText tag " appears more than once"))
  else
    let state := { state with seenTags := tag :: state.seenTags }
    if Tag.isAggregateSessionEnvelopeTag tag || !known then (state, issue)
    else if (d.findField tag).isNone && !(rules.isEmpty && isImplicitStandardField tag) then
      (state, setIssue issue .unknownField tag
        (fieldText tag " is not present in the bound dictionary"))
    else
      match ruleIndex rules tag, orderKind with
      | none, _ =>
        if rules.isEmpty then (state, issue)
        else
          (state, setIssue issue .fieldNotAllowed tag
            (fieldText tag " is not allowed by the bound message definition"))
      | some _, none => (state, issue)
      | some ri, some kind => trackRuleOrder state ri tag kind issue

/-- The state of the field loop. -/
structure GenericState where
  header : SessionHeaderView
  parsed : ParsedMessageData := {}
  issue : Option ValidationIssue := none
  validation : ScopeValidation := {}
  /-- `cached_message_def`. -/
  messageDef : Option MessageDef := none
  fieldCount : Nat := 2

namespace GenericState

/-- `cached_rules`. -/
def rules (st : GenericState) : List FieldRule := (st.messageDef.map MessageDef.rules).getD []

/-- The group a field of the root opens. -/
def groupDef (d : Dictionary) (st : GenericState) (tag : Nat) : Option GroupDef :=
  st.messageDef.bind fun m => if (ruleIndex m.rules tag).isSome then d.findGroup tag else none

/-- The message type, which decides on the rules of the fields after it. -/
def readMsgType (d : Dictionary) (field : InlineField) (rest : Bytes) (st : GenericState) :
    GenericState :=
  let messageDef := d.findMessage field.value
  let st := { st with messageDef, header := { st.header with msgType := field.value } }
  let (validation, issue) :=
    validateConsumedField d Tag.msgType st.rules messageDef.isSome none st.validation st.issue
  let slot := ParsedFieldSlot.make Tag.msgType field.value
    (resolveFieldType Tag.msgType (d.findField Tag.msgType)) rest.length
  { st with
    validation, issue
    parsed := ({ st.parsed with msgType := field.value }.appendFieldSlot .root slot).1 }

end GenericState

/-- A field of the root other than `MsgType` and the frame fields, after its header value is
extracted. -/
def decodeBodyField (parsesDouble : Bytes → Bool) (d : Dictionary) (delim : Byte)
    (field : InlineField) (rest : Bytes) (st : GenericState) :
    Except Status (GenericState × Bytes) :=
  let tag := field.tag
  let groupDef := st.groupDef d tag
  let type := resolveFieldType tag (d.findField tag)
  let (validation, issue) := validateConsumedField d tag st.rules st.messageDef.isSome
    (if groupDef.isSome then none else some .tagSpecifiedOutOfRequiredOrder) st.validation st.issue
  let issue := validateScalarFieldValue parsesDouble tag field.value type issue
  let parsed := (st.parsed.appendFieldSlot .root (.make tag field.value type rest.length)).1
  match groupDef with
  | some g => do
    let c ← parseGroup delim field.value g .root 1
      (parseEntryFields parsesDouble d delim rest.length g 1 false {}) { rest, parsed, issue }
    .ok ({ st with validation, parsed := c.parsed, issue := c.issue }, c.rest)
  | none => .ok ({ st with validation, parsed, issue }, rest)

/-- One field of the loop other than `CheckSum`. -/
def decodeGenericField (parsesDouble : Bytes → Bool) (d : Dictionary) (delim : Byte)
    (field : InlineField) (rest : Bytes) (st : GenericState) :
    Except Status (GenericState × Bytes) :=
  if Tag.isFrameStructureTag field.tag then .ok (st, rest)
  else if field.tag = Tag.msgType then .ok (st.readMsgType d field rest, rest)
  else do
    let header ← st.header.extract field.tag field.value
    decodeBodyField parsesDouble d delim field rest { st with header }

/-- Where the field loop stopped: the bytes from the `CheckSum` field on and those after it, or
the end of the input without a `CheckSum`. -/
structure GenericLoopEnd where
  state : GenericState
  trailer : Option Bytes
  rest : Bytes

/-- The field loop. Every round reads a field, so the length of the input is enough `fuel`. -/
def decodeGenericLoop (parsesDouble : Bytes → Bool) (d : Dictionary) (delim : Byte) :
    Nat → Bytes → GenericState → Except Status GenericLoopEnd
  | 0, bytes, st => .ok ⟨st, none, bytes⟩
  | fuel + 1, bytes, st =>
    if bytes = [] then .ok ⟨st, none, []⟩
    else do
      let (field, rest) ← scanNextField delim bytes
      let st := { st with fieldCount := st.fieldCount + 1 }
      if field.tag = Tag.checkSum then
        let checksum ← parseUnsigned field.value "CheckSum"
        .ok ⟨{ st with header := { st.header with checksum } }, some bytes, rest⟩
      else
        let (st, rest) ← decodeGenericField parsesDouble d delim field rest st
        decodeGenericLoop parsesDouble d delim fuel rest st

/-- What the checks after the loop read. -/
def GenericLoopEnd.toLoopEnd (e : GenericLoopEnd) : LoopEnd where
  state :=
    { header := e.state.header
      parsed := e.state.parsed
      issue := e.state.issue
      fieldCount := e.state.fieldCount }
  trailer := e.trailer
  rest := e.rest

def decodeFixMessageViewGeneric (parsesDouble : Bytes → Bool) (d : Dictionary) (delimiter : Byte)
    (verifyChecksum : Bool) (bytes : Bytes) : Except Status DecodedMessageView := do
  let delim := normalizeDelimiter delimiter
  let (field0, rest0) ← scanNextField delim bytes
  if field0.tag ≠ Tag.beginString then .error frameShapeError
  else
    let (field1, rest1) ← scanNextField delim rest0
    if field1.tag ≠ Tag.bodyLength then .error frameShapeError
    else
      let declared ← parseUnsigned field1.value "BodyLength"
      let header : SessionHeaderView := { beginString := field0.value, bodyLength := declared }
      let e ← decodeGenericLoop parsesDouble d delim rest1.length rest1 { header }
      checkFrame verifyChecksum bytes rest1 declared e.toLoopEnd

end NimbleFix
