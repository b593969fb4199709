import NimbleFix.Codec.RawPassThrough

/-!
# Fields of a routed message (`runtime/router.cpp`)

The router reads tags off a pass-through view, and edits a copy of the body by byte offsets.
-/

namespace NimbleFix

/-- The view with the fields of it that only the router reads. -/
structure RoutedMessage extends RawPassThroughView where
  rawMessage : Bytes := []
  valid : Bool := false
  deriving DecidableEq, Repr

namespace Router

def parseUint32Strict (text : Bytes) : Option Nat :=
  let value := parseUint32 text
  if value = 0 then none else some value

structure FieldSpan where
  fieldBegin : Nat
  valueBegin : Nat
  valueEnd : Nat
  fieldEnd : Nat
  deriving DecidableEq, Repr

/-- Where the `=` stands in a field that has the wanted tag. -/
def wantedEquals (wantedTag : Nat) (text : Bytes) : Option Nat :=
  match splitAtByte equalsByte text with
  | none => none
  | some (tagText, _) =>
    if parseUint32Strict tagText = some wantedTag then some tagText.length else none

/-- The loop of `FindField` over the bytes from `fieldBegin` on. Every round reads a byte, so the
length of the body is enough `fuel`. -/
def findFieldFrom (wantedTag : Nat) : Nat → Nat → Bytes → Option FieldSpan
  | 0, _, _ => none
  | fuel + 1, fieldBegin, rest =>
    if rest = [] then none
    else
      let text := rest.takeWhile (· ≠ soh)
      let fieldEndWithoutDelim := fieldBegin + text.length
      let fieldEnd :=
        if text.length < rest.length then fieldEndWithoutDelim + 1 else fieldEndWithoutDelim
      match wantedEquals wantedTag text with
      | some equals =>
        some { fieldBegin, valueBegin := fieldBegin + equals + 1, valueEnd := fieldEndWithoutDelim,
               fieldEnd }
      | none =>
        if text.length = rest.length then none
        else findFieldFrom wantedTag fuel fieldEnd (rest.drop (text.length + 1))

def findField (body : Bytes) (wantedTag : Nat) : Option FieldSpan :=
  findFieldFrom wantedTag body.length 0 body

/-- `substr` from the begin of the value to its end. -/
def FieldSpan.value (span : FieldSpan) (body : Bytes) : Bytes :=
  (body.drop span.valueBegin).take (span.valueEnd - span.valueBegin)

def extractTagValue (bytes : Bytes) (tag : Nat) : Option Bytes :=
  (findField bytes tag).map (·.value bytes)

/-- The switch of `KnownHeaderTagValue`: a header field that is not set has no text. -/
def headerTexts (m : RoutedMessage) : List (Nat × Bytes) :=
  [(Tag.beginString, m.beginString),
    (Tag.msgType, m.msgType),
    (Tag.msgSeqNum, if m.msgSeqNum = 0 then [] else decimal m.msgSeqNum),
    (Tag.possDupFlag, if m.possDup then ascii "Y" else []),
    (Tag.senderCompID, m.senderCompId),
    (Tag.senderSubID, m.senderSubId),
    (Tag.sendingTime, m.sendingTime),
    (Tag.targetCompID, m.targetCompId),
    (Tag.targetSubID, m.targetSubId),
    (Tag.possResend, if m.possResend then ascii "Y" else []),
    (Tag.onBehalfOfCompID, m.onBehalfOfCompId),
    (Tag.origSendingTime, m.origSendingTime),
    (Tag.deliverToCompID, m.deliverToCompId),
    (Tag.applVerID, m.applVerId),
    (Tag.defaultApplVerID, m.defaultApplVerId)]

def knownHeaderTagValue (m : RoutedMessage) (tag : Nat) : Option Bytes :=
  ((headerTexts m).lookup tag).filter (· ≠ [])

def extractMessageTagValue (m : RoutedMessage) (tag : Nat) : Option Bytes :=
  (knownHeaderTagValue m tag).or ((extractTagValue m.rawBody tag).or
    (extractTagValue m.rawMessage tag))

/-! ## Transforms -/

inductive TransformAction
  | set
  | remove
  | add
  | copy
  deriving DecidableEq, Repr

structure FieldTransform where
  action : TransformAction := .set
  tag : UInt32 := 0
  value : Bytes := []
  sourceTag : UInt32 := 0
  deriving DecidableEq, Repr

def appendField (body : Bytes) (tag : Nat) (value : Bytes) : Bytes :=
  (if body ≠ [] ∧ body.getLast? ≠ some soh then body ++ [soh] else body) ++ field soh tag value

def setField (body : Bytes) (tag : Nat) (value : Bytes) : Bytes :=
  match findField body tag with
  | none => appendField body tag value
  | some span => body.take span.valueBegin ++ value ++ body.drop span.valueEnd

def removeField (body : Bytes) (tag : Nat) : Bytes :=
  match findField body tag with
  | none => body
  | some span => body.take span.fieldBegin ++ body.drop span.fieldEnd

/-- One round of the loop of `ApplyTransform`. -/
def applyFieldTransform (m : RoutedMessage) (body : Bytes) (t : FieldTransform) :
    Except Status Bytes :=
  let tag := t.tag.toNat
  if t.tag = 0 then .error (.InvalidArgument "field transform tag must be non-zero")
  else
    match t.action with
    | .set => .ok (setField body tag t.value)
    | .remove => .ok (removeField body tag)
    | .add => .ok (if (findField body tag).isNone then appendField body tag t.value else body)
    | .copy =>
      if t.sourceTag = 0 then
        .error (.InvalidArgument "copy transform source tag must be non-zero")
      else
        match (extractTagValue body t.sourceTag.toNat).or
            (extractMessageTagValue m t.sourceTag.toNat) with
        | some value => .ok (setField body tag value)
        | none => .ok body

def applyTransform (m : RoutedMessage) (transforms : List FieldTransform) : Except Status Bytes :=
  if !m.valid then .error (.InvalidArgument "message view is not valid")
  else transforms.foldlM (applyFieldTransform m) m.rawBody

end Router

end NimbleFix
