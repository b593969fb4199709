import NimbleFix.Codec.Dictionary
import NimbleFix.Codec.Message

/-!
# Encoders (`codec/fix_codec.cpp`)

Every encoder of the engine writes the frame fields, a resolved session header, application bytes
and the trailer. `assembleFrame` is the part they share; `resolvedHeaderFields` is the header, and
the application bytes come from a message view (`Codec.ViewEncode`) or are encoded already. The
clock is read by the caller: `sendingTime` is the resolved text.
-/

namespace NimbleFix

structure EncodeOptions where
  beginString : Bytes := ascii "FIX.4.4"
  senderCompId : Bytes := []
  senderSubId : Bytes := []
  targetCompId : Bytes := []
  targetSubId : Bytes := []
  onBehalfOfCompId : Bytes := []
  deliverToCompId : Bytes := []
  defaultApplVerId : Bytes := []
  applVerId : Bytes := []
  sendingTime : Bytes := []
  origSendingTime : Bytes := []
  msgSeqNum : Nat := 0
  possDup : Bool := false
  possResend : Bool := false
  delimiter : Byte := soh
  deriving DecidableEq, Repr

/-- `tag=value` and the delimiter. -/
def field (delim : Byte) (tag : Nat) (value : Bytes) : Bytes :=
  decimal tag ++ equalsByte :: value ++ [delim]

/-- The field, or nothing for an empty value. -/
def optionalField (delim : Byte) (tag : Nat) (value : Bytes) : Bytes :=
  if value = [] then [] else field delim tag value

/-- `AppendResolvedHeaderFields`. -/
def resolvedHeaderFields (msgType : Bytes) (o : EncodeOptions) : Bytes :=
  let fld := field o.delimiter
  let opt := optionalField o.delimiter
  fld Tag.msgType (if msgType = [] then ascii "UNKNOWN" else msgType) ++
  fld Tag.msgSeqNum (decimal (if o.msgSeqNum = 0 then 1 else o.msgSeqNum)) ++
  opt Tag.senderCompID o.senderCompId ++
  opt Tag.senderSubID o.senderSubId ++
  opt Tag.targetCompID o.targetCompId ++
  opt Tag.targetSubID o.targetSubId ++
  fld Tag.sendingTime o.sendingTime ++
  (if msgType = MsgType.logon then opt Tag.defaultApplVerID o.defaultApplVerId else []) ++
  opt Tag.applVerID o.applVerId ++
  (if o.possDup then fld Tag.possDupFlag (ascii "Y") else []) ++
  (if o.possResend then fld Tag.possResend (ascii "Y") else []) ++
  opt Tag.origSendingTime o.origSendingTime ++
  opt Tag.onBehalfOfCompID o.onBehalfOfCompId ++
  opt Tag.deliverToCompID o.deliverToCompId

/-- The three-digit `CheckSum` field that closes the bytes before it. -/
def trailerField (delim : Byte) (before : Bytes) : Bytes :=
  field delim Tag.checkSum (checksumDigits before)

/-- `BeginString` and `BodyLength` in front of `body`. -/
def frameBeforeTrailer (delim : Byte) (beginString body : Bytes) : Bytes :=
  field delim Tag.beginString beginString ++
    (field delim Tag.bodyLength (decimal (wrap32 body.length)) ++ body)

/-- Wrap header and application bytes into a frame. The length must fit the seven digits that the
encoders reserve for it. -/
def assembleFrame (delim : Byte) (beginString body : Bytes) : Except Status Bytes :=
  if 7 < (decimal (wrap32 body.length)).length then
    .error (.FormatError "encoded body length exceeds BodyLength placeholder width")
  else
    let before := frameBeforeTrailer delim beginString body
    .ok (before ++ trailerField delim before)

/-- The `BeginString` an encoder writes for the configured one. -/
def resolvedBeginString (beginString : Bytes) : Bytes :=
  if beginString = [] then ascii "FIX.4.4" else beginString

/-! ## Application bytes -/

def ScalarValue.text : ScalarValue → Bytes
  | .string text => text
  | .int n => formatInt n
  | .float text => text
  | .char b => [b]
  | .boolean b => if b then ascii "Y" else ascii "N"

def encodeFieldValue (delim : Byte) (f : FieldValue) : Bytes := field delim f.tag f.value.text

/-- A field that the body encoders never write: frame fields, fields that a group count stands
for, and in the root the session header. -/
def isSkipped (skipHeader : Bool) (groupTags : List Nat) (tag : Nat) : Bool :=
  Tag.isFrameStructureTag tag || groupTags.contains tag ||
    (skipHeader && Tag.isAggregateSessionHeaderTag tag)

def encodeFields (delim : Byte) (fields : List FieldValue) : Bytes :=
  (fields.map (encodeFieldValue delim)).flatten

/-- The body in rule order, then what the rules do not name. `groups` are the encoded groups by
count tag; `scalar` and `group` say whether a rule writes a field or a group. -/
def encodeByRules (delim : Byte) (skipHeader : Bool) (rules : List FieldRule)
    (fields : List FieldValue) (groups : List (Nat × Bytes)) : Bytes :=
  let rulePart := rules.flatMap fun rule =>
    if Tag.isFrameStructureTag rule.tag ||
        (skipHeader && Tag.isAggregateSessionHeaderTag rule.tag) then []
    else
      match groups.lookup rule.tag with
      | some encoded => encoded
      | none =>
        match fields.find? fun f => f.tag == rule.tag with
        | some f => encodeFieldValue delim f
        | none => []
  let isRule := fun tag => (ruleIndex rules tag).isSome
  let extraFields := encodeFields delim
    (fields.filter fun f => !isSkipped skipHeader (groups.map Prod.fst) f.tag && !isRule f.tag)
  let extraGroups := ((groups.filter fun g => !isRule g.1).map Prod.snd).flatten
  rulePart ++ extraFields ++ extraGroups

/-! ## Frames -/

structure EncodeTemplateConfig where
  beginString : Bytes
  senderCompId : Bytes
  targetCompId : Bytes
  defaultApplVerId : Bytes
  delimiter : Byte := soh
  deriving DecidableEq, Repr

/-- A pre-encoded application body with the fragments that are put before and after it. -/
structure EncodedApplicationMessage where
  msgType : Bytes
  body : Bytes
  headerFragment : Bytes := []
  bodyFragment : Bytes := []
  deriving DecidableEq, Repr

/-- `EncodePreEncodedApplicationToBuffer`. -/
def encodePreEncodedApplication (m : EncodedApplicationMessage) (o : EncodeOptions) :
    Except Status Bytes :=
  if m.msgType = [] then .error (.InvalidArgument "encoded application message is invalid")
  else
    assembleFrame o.delimiter (resolvedBeginString o.beginString)
      (resolvedHeaderFields m.msgType o ++ (m.headerFragment ++ m.body ++ m.bodyFragment))

end NimbleFix
