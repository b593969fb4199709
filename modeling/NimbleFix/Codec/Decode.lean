import NimbleFix.Codec.Dictionary
import NimbleFix.Codec.Message

/-!
# The compiled decoder (`codec/compiled_decoder.cpp`, `DecodeFixMessageView` with a decoder table)

`decodeFixMessageView` reads a frame into a header, the pool of parsed fields and the first
validation issue. Field texts of unknown or malformed fields are accepted and reported through
the issue; only structural faults are errors. The decoders of the table are built from the
dictionary when a message type is looked up, which gives the same result as building them once.

`parsesDouble` stands for `std::from_chars` on a double: it says which texts it accepts.
-/

namespace NimbleFix

inductive ValidationIssueKind
  | unknownField
  | fieldNotAllowed
  | duplicateField
  | incorrectNumInGroupCount
  | tagSpecifiedWithoutAValue
  | incorrectDataFormatForValue
  | tagSpecifiedOutOfRequiredOrder
  | repeatingGroupFieldsOutOfRequiredOrder
  | enumValueNotAllowed
  deriving DecidableEq, Repr

structure ValidationIssue where
  kind : ValidationIssueKind
  tag : Nat
  text : Bytes
  deriving DecidableEq, Repr

/-- `SetValidationIssue`: the first issue stays. -/
def setIssue (issue : Option ValidationIssue) (kind : ValidationIssueKind) (tag : Nat)
    (text : Bytes) : Option ValidationIssue :=
  match issue with
  | some i => some i
  | none => some ⟨kind, tag, text⟩

/-- `"field <tag>" ++ tail`, the shape of most issue texts. -/
def fieldText (tag : Nat) (tail : String) : Bytes := ascii "field " ++ decimal tag ++ ascii tail

structure SessionHeaderView where
  beginString : Bytes := []
  msgType : Bytes := []
  senderCompId : Bytes := []
  senderSubId : Bytes := []
  targetCompId : Bytes := []
  targetSubId : Bytes := []
  onBehalfOfCompId : Bytes := []
  deliverToCompId : Bytes := []
  defaultApplVerId : Bytes := []
  applVerId : Bytes := []
  sendingTime : Bytes := []
  origSendingTime : Bytes := []
  bodyLength : Nat := 0
  msgSeqNum : Nat := 0
  checksum : Nat := 0
  possDup : Bool := false
  possResend : Bool := false
  deriving DecidableEq, Repr

/-- The switch that copies session header fields out of the scan. -/
def SessionHeaderView.extract (h : SessionHeaderView) (tag : Nat) (value : Bytes) :
    Except Status SessionHeaderView :=
  if tag = Tag.msgSeqNum then do
    let n ← parseUnsigned value "MsgSeqNum"
    .ok { h with msgSeqNum := n }
  else if tag = Tag.senderCompID then .ok { h with senderCompId := value }
  else if tag = Tag.senderSubID then .ok { h with senderSubId := value }
  else if tag = Tag.targetCompID then .ok { h with targetCompId := value }
  else if tag = Tag.targetSubID then .ok { h with targetSubId := value }
  else if tag = Tag.onBehalfOfCompID then .ok { h with onBehalfOfCompId := value }
  else if tag = Tag.deliverToCompID then .ok { h with deliverToCompId := value }
  else if tag = Tag.sendingTime then .ok { h with sendingTime := value }
  else if tag = Tag.origSendingTime then .ok { h with origSendingTime := value }
  else if tag = Tag.defaultApplVerID then .ok { h with defaultApplVerId := value }
  else if tag = Tag.applVerID then .ok { h with applVerId := value }
  else if tag = Tag.possDupFlag then do
    let b ← parseBoolean value "PossDupFlag"
    .ok { h with possDup := b }
  else if tag = Tag.possResend then do
    let b ← parseBoolean value "PossResend"
    .ok { h with possResend := b }
  else .ok h

/-! ## Field types and value checks -/

def fieldTypeFromDef (f : FieldDef) : FieldType :=
  match f.valueType with
  | .int => .int
  | .char => .char
  | .float => .float
  | .boolean => .boolean
  | _ => .string

def fieldTypeFallback (tag : Nat) : FieldType :=
  if [9, 34, 45, 371, 373, 98, 108, 7, 16, 36].contains tag then .int
  else if [141, 43, 97, 123].contains tag then .boolean
  else .string

/-- `ResolveFieldTypeWithDef`. -/
def resolveFieldType (tag : Nat) (f : Option FieldDef) : FieldType :=
  match f with
  | some f => fieldTypeFromDef f
  | none => fieldTypeFallback tag

section Validation

variable (parsesDouble : Bytes → Bool)

def hasCorrectFormat (type : FieldType) (value : Bytes) : Bool :=
  match type with
  | .int => (parseSigned value).isSome
  | .char => value.length == 1
  | .float => parsesDouble value
  | .boolean => value == ascii "Y" || value == ascii "N"
  | .string => true

def validateScalarFieldValue (tag : Nat) (value : Bytes) (type : FieldType)
    (issue : Option ValidationIssue) : Option ValidationIssue :=
  if value = [] then
    setIssue issue .tagSpecifiedWithoutAValue tag (fieldText tag " is specified without a value")
  else if hasCorrectFormat parsesDouble type value then issue
  else
    setIssue issue .incorrectDataFormatForValue tag (fieldText tag " has incorrect data format")

end Validation

/-- `ScopeValidationState`. -/
structure ScopeValidation where
  seenTags : List Nat := []
  lastRuleIndex : Int := -1
  deriving DecidableEq, Repr

def trackRuleOrder (state : ScopeValidation) (ruleIndex : Nat) (tag : Nat)
    (kind : ValidationIssueKind) (issue : Option ValidationIssue) :
    ScopeValidation × Option ValidationIssue :=
  if (ruleIndex : Int) < state.lastRuleIndex then
    (state, setIssue issue kind tag (fieldText tag
      (if kind = .repeatingGroupFieldsOutOfRequiredOrder
        then " is out of required order within the repeating group"
        else " is out of required order")))
  else ({ state with lastRuleIndex := ruleIndex }, issue)

/-- `ValidateConsumedField` for a field of a group entry, found at `ruleIndex` of the group's
rules. -/
def validateGroupField (d : Dictionary) (tag ruleIndex : Nat) (state : ScopeValidation)
    (issue : Option ValidationIssue) : ScopeValidation × Option ValidationIssue :=
  if state.seenTags.contains tag then
    (state, setIssue issue .duplicateField tag (fieldText tag " appears more than once"))
  else
    let state := { state with seenTags := tag :: state.seenTags }
    if (d.findField tag).isNone then
      (state, setIssue issue .unknownField tag
        (fieldText tag " is not present in the bound dictionary"))
    else trackRuleOrder state ruleIndex tag .repeatingGroupFieldsOutOfRequiredOrder issue

/-! ## Repeating groups -/

/-- What a part of the group parser passes on: the bytes left, the pool, the issue. -/
structure GroupCursor where
  rest : Bytes
  parsed : ParsedMessageData
  issue : Option ValidationIssue

def kMaxGroupEntryCount : Nat := 10000
def kMaxGroupNestingDepth : Nat := 16
def kMaxDeferredSlots : Nat := 128

def expectedDelimiterText (g : GroupDef) (entryNumber : Nat) : Bytes :=
  ascii "group " ++ decimal g.countTag ++ ascii " expected delimiter tag " ++
    decimal g.delimiterTag ++ ascii " for entry " ++ decimal entryNumber

/-- The count announces an entry that does not start with the delimiter tag. -/
def GroupCursor.missingEntry (c : GroupCursor) (g : GroupDef) (entryNumber : Nat) : GroupCursor :=
  let text := expectedDelimiterText g entryNumber
  { c with issue := setIssue c.issue .incorrectNumInGroupCount g.countTag text }

/-- An entry starts with a field of the group other than the delimiter tag. -/
def GroupCursor.misplacedField (c : GroupCursor) (tag : Nat) : GroupCursor :=
  let text := fieldText tag " is out of required order within the repeating group"
  { c with issue := setIssue c.issue .repeatingGroupFieldsOutOfRequiredOrder tag text }

/-- The loop over the entries of a group. `parseFields` reads the fields of one entry into the
container it is given and returns them with the cursor after them. -/
def parseEntries (delim : Byte) (g : GroupDef) (frame : Nat)
    (parseFields : Nat → GroupCursor → Except Status (List ParsedFieldSlot × GroupCursor)) :
    Nat → Nat → GroupCursor → Except Status GroupCursor
  | 0, _, c => .ok c
  | remaining + 1, entryNumber, c =>
    if c.rest = [] then .ok (c.missingEntry g entryNumber)
    else do
      let (peek, _) ← scanNextField delim c.rest
      if peek.tag ≠ g.delimiterTag then
        if (ruleIndex g.rules peek.tag).isSome then .ok (c.misplacedField peek.tag)
        else .ok (c.missingEntry g entryNumber)
      else
        let (p, entry) := c.parsed.appendEntry frame
        let (slots, c) ← parseFields entry { c with parsed := p }
        let p := (slots.take kMaxDeferredSlots).foldl
          (fun p slot => (p.appendFieldSlot (.entry entry) slot).1) c.parsed
        parseEntries delim g frame parseFields remaining (entryNumber + 1) { c with parsed := p }

/-- `ParseParsedGroupEntries`, given the parser of the fields of one entry. -/
def parseGroup (delim : Byte) (countValue : Bytes) (g : GroupDef) (parent : ParsedContainer)
    (depth : Nat)
    (parseFields : Nat → GroupCursor → Except Status (List ParsedFieldSlot × GroupCursor))
    (c : GroupCursor) : Except Status GroupCursor := do
  let count ← parseUnsigned countValue "group count"
  if kMaxGroupEntryCount < count then
    .error (.FormatError ("group " ++ toString g.countTag ++ " entry count " ++ toString count ++
      " exceeds maximum " ++ toString kMaxGroupEntryCount))
  else if kMaxGroupNestingDepth ≤ depth then
    .error (.FormatError ("group " ++ toString g.countTag ++ " nesting depth " ++ toString depth ++
      " exceeds maximum " ++ toString kMaxGroupNestingDepth))
  else
    let (p, frame) := c.parsed.ensureGroup parent g.countTag depth
    parseEntries delim g frame parseFields count 1 { c with parsed := p }

/-- The loop over the fields of one group entry. Every round reads a field, so the length of the
input is enough `fuel`. -/
def parseEntryFields (parsesDouble : Bytes → Bool) (d : Dictionary) (delim : Byte) :
    Nat → GroupDef → Nat → Bool → ScopeValidation → Nat → GroupCursor →
      Except Status (List ParsedFieldSlot × GroupCursor)
  | 0, _, _, _, _, _, c => .ok ([], c)
  | fuel + 1, g, depth, seenAny, state, entry, c =>
    if c.rest = [] then .ok ([], c)
    else do
      let (field, rest) ← scanNextField delim c.rest
      if seenAny ∧ field.tag = g.delimiterTag then .ok ([], c)
      else
        match ruleIndex g.rules field.tag with
        | none => .ok ([], c)
        | some ri =>
          let type := resolveFieldType field.tag (d.findField field.tag)
          let (state, issue) := validateGroupField d field.tag ri state c.issue
          let issue := validateScalarFieldValue parsesDouble field.tag field.value type issue
          let slot := ParsedFieldSlot.make field.tag field.value type rest.length
          let c := { c with rest, issue }
          let c ← match d.findGroup field.tag with
            | some nested =>
              parseGroup delim field.value nested (.entry entry) (depth + 1)
                (parseEntryFields parsesDouble d delim fuel nested (depth + 1) false {}) c
            | none => .ok c
          let (slots, c) ← parseEntryFields parsesDouble d delim fuel g depth true state entry c
          .ok (slot :: slots, c)

/-! ## Compiled message decoders -/

structure CompiledFieldSlot where
  tag : Nat
  fieldType : FieldType
  groupDef : Option GroupDef
  deriving DecidableEq, Repr

structure CompiledMessageDecoder where
  slots : List CompiledFieldSlot := []
  /-- `tag_table_`: the low byte of a tag to the first slot with it. -/
  tagTable : List (Nat × Nat) := []
  overflow : List (Nat × Nat) := []
  overflowExceeded : Bool := false
  deriving DecidableEq, Repr

namespace CompiledMessageDecoder

def kMaxSlots : Nat := 128

def addRule (d : Dictionary) (dec : CompiledMessageDecoder) (rule : FieldRule) :
    CompiledMessageDecoder :=
  if Tag.isAggregateSessionEnvelopeTag rule.tag || kMaxSlots ≤ dec.slots.length then dec
  else
    let slotIdx := dec.slots.length
    let fieldType := match d.findField rule.tag with
      | some f => fieldTypeFromDef f
      | none => .string
    let slot : CompiledFieldSlot := ⟨rule.tag, fieldType, d.findGroup rule.tag⟩
    let dec := { dec with slots := dec.slots ++ [slot] }
    if (dec.tagTable.lookup (rule.tag % 256)).isNone then
      { dec with tagTable := dec.tagTable ++ [(rule.tag % 256, slotIdx)] }
    else if dec.overflow.length < 16 then
      { dec with overflow := dec.overflow ++ [(rule.tag, slotIdx)] }
    else { dec with overflowExceeded := true }

def build (d : Dictionary) (m : MessageDef) : CompiledMessageDecoder :=
  m.rules.foldl (addRule d) {}

def lookup (dec : CompiledMessageDecoder) (tag : Nat) : Option Nat :=
  match dec.tagTable.lookup (tag % 256) with
  | some idx =>
    if ((dec.slots[idx]?).map fun s => s.tag) = some tag then some idx
    else dec.overflow.lookup tag
  | none => dec.overflow.lookup tag

end CompiledMessageDecoder

/-- The decoder the frame is read with once its message type is known: none for an unknown type
or when the table of the type overflowed. -/
def compiledDecoder (d : Dictionary) (msgType : Bytes) : Option CompiledMessageDecoder :=
  match d.findMessage msgType with
  | some m =>
    let dec := CompiledMessageDecoder.build d m
    if dec.overflowExceeded then none else some dec
  | none => none

/-! ## The frame -/

structure DecodedMessageView where
  message : ParsedMessageData
  header : SessionHeaderView
  raw : Bytes
  validationIssue : Option ValidationIssue
  deriving DecidableEq, Repr

structure DecodeState where
  header : SessionHeaderView
  parsed : ParsedMessageData := {}
  issue : Option ValidationIssue := none
  order : ScopeValidation := {}
  compiled : Option CompiledMessageDecoder := none
  fieldCount : Nat := 2

/-- The body of the field loop once a compiled decoder is known, for a field other than
`MsgType` and the frame fields. -/
def decodeCompiledField (parsesDouble : Bytes → Bool) (d : Dictionary) (delim : Byte)
    (dec : CompiledMessageDecoder) (field : InlineField) (rest : Bytes) (st : DecodeState) :
    Except Status (DecodeState × Bytes) :=
  let tag := field.tag
  if Tag.isAggregateSessionEnvelopeTag tag then
    let (p, duplicate) := st.parsed.appendFieldSlot .root
      (.make tag field.value (fieldTypeFallback tag) rest.length)
    let issue := if duplicate then setIssue st.issue .duplicateField tag [] else st.issue
    .ok ({ st with parsed := p, issue }, rest)
  else
    match dec.lookup tag with
    | none =>
      let issue := if (d.findField tag).isNone then
          setIssue st.issue .unknownField tag
            (fieldText tag " is not present in the bound dictionary")
        else
          setIssue st.issue .fieldNotAllowed tag
            (fieldText tag " is not allowed by the bound message definition")
      let slot := ParsedFieldSlot.make tag field.value .string rest.length
      .ok ({ st with parsed := (st.parsed.appendFieldSlot .root slot).1, issue }, rest)
    | some slotIdx =>
      let slot := dec.slots.getD slotIdx ⟨0, .string, none⟩
      let issue := validateScalarFieldValue parsesDouble tag field.value slot.fieldType st.issue
      match slot.groupDef with
      | some g => do
        let (p, duplicate) := st.parsed.appendFieldSlot .root
          (.make tag field.value slot.fieldType rest.length)
        let issue := if duplicate then
            setIssue issue .duplicateField tag (fieldText tag " appears more than once")
          else issue
        let c ← parseGroup delim field.value g .root 1
          (parseEntryFields parsesDouble d delim rest.length g 1 false {})
          { rest, parsed := p, issue }
        .ok ({ st with parsed := c.parsed, issue := c.issue }, c.rest)
      | none =>
        let (order, issue) :=
          trackRuleOrder st.order slotIdx tag .tagSpecifiedOutOfRequiredOrder issue
        let (p, duplicate) := st.parsed.appendFieldSlot .root
          (.make tag field.value slot.fieldType rest.length)
        let issue := if duplicate then
            setIssue issue .duplicateField tag (fieldText tag " appears more than once")
          else issue
        .ok ({ st with parsed := p, issue, order }, rest)

/-- One field of the loop other than `CheckSum`. -/
def decodeField (parsesDouble : Bytes → Bool) (d : Dictionary) (delim : Byte)
    (field : InlineField) (rest : Bytes) (st : DecodeState) :
    Except Status (DecodeState × Bytes) :=
  let tag := field.tag
  if Tag.isFrameStructureTag tag then .ok (st, rest)
  else if tag = Tag.msgType then
    .ok ({ st with
      header := { st.header with msgType := field.value }
      compiled := compiledDecoder d field.value
      parsed := ({ st.parsed with msgType := field.value }.appendFieldSlot .root
        (.make tag field.value .string rest.length)).1 }, rest)
  else do
    let header ← st.header.extract tag field.value
    let st := { st with header }
    match st.compiled with
    | some dec => decodeCompiledField parsesDouble d delim dec field rest st
    | none =>
      let slot := ParsedFieldSlot.make tag field.value .string rest.length
      .ok ({ st with parsed := (st.parsed.appendFieldSlot .root slot).1 }, rest)

/-- Where the field loop stopped: the bytes from the `CheckSum` field on and those after it, or
the end of the input without a `CheckSum`. -/
structure LoopEnd where
  state : DecodeState
  trailer : Option Bytes
  rest : Bytes

/-- The field loop. Every round reads a field, so the length of the input is enough `fuel`. -/
def decodeLoop (parsesDouble : Bytes → Bool) (d : Dictionary) (delim : Byte) :
    Nat → Bytes → DecodeState → Except Status LoopEnd
  | 0, bytes, st => .ok ⟨st, none, bytes⟩
  | fuel + 1, bytes, st =>
    if bytes = [] then .ok ⟨st, none, []⟩
    else do
      let (field, rest) ← scanNextField delim bytes
      let st := { st with fieldCount := st.fieldCount + 1 }
      if field.tag = Tag.checkSum then
        let checksum ← parseUnsigned field.value "CheckSum"
        .ok ⟨{ st with header := { st.header with checksum } }, some bytes, rest⟩
      else
        let (st, rest) ← decodeField parsesDouble d delim field rest st
        decodeLoop parsesDouble d delim fuel rest st

def frameShapeError : Status := .FormatError "FIX frame must begin with 8 and 9 and end with 10"

/-- The checks after the loop. `afterLength` are the bytes after the `BodyLength` field. -/
def checkFrame (verifyChecksum : Bool) (bytes afterLength : Bytes) (declared : Nat)
    (e : LoopEnd) : Except Status DecodedMessageView :=
  if e.rest ≠ [] then .error (.FormatError "FIX frame has trailing data after CheckSum")
  else if e.state.fieldCount < 4 then .error (.FormatError "FIX frame is too short")
  else
    match e.trailer with
    | none => .error frameShapeError
    | some trailer =>
      if declared ≠ afterLength.length - trailer.length then
        .error (.FormatError "BodyLength mismatch")
      else if verifyChecksum ∧
          byteSum (bytes.take (bytes.length - trailer.length)) % 256 ≠ e.state.header.checksum then
        .error (.FormatError "CheckSum mismatch")
      else
        .ok { message := e.state.parsed.locate bytes, header := e.state.header, raw := bytes
              validationIssue := e.state.issue }

def decodeFixMessageView (parsesDouble : Bytes → Bool) (d : Dictionary) (delim : Byte)
    (verifyChecksum : Bool) (bytes : Bytes) : Except Status DecodedMessageView := do
  let (field0, rest0) ← scanNextField delim bytes
  if field0.tag ≠ Tag.beginString then .error frameShapeError
  else
    let (field1, rest1) ← scanNextField delim rest0
    if field1.tag ≠ Tag.bodyLength then .error frameShapeError
    else
      let declared ← parseUnsigned field1.value "BodyLength"
      let header : SessionHeaderView := { beginString := field0.value, bodyLength := declared }
      let e ← decodeLoop parsesDouble d delim rest1.length rest1 { header }
      checkFrame verifyChecksum bytes rest1 declared e

/-! ## The bytes of a decoded frame -/

end NimbleFix
