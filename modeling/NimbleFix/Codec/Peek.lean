import NimbleFix.Codec.Decode

/-!
# The header of a frame without a dictionary (`PeekSessionHeaderView`)

The live runtimes look at the session header of a frame before they know its session. The scan
stops at the first field that is not of the header; the trailer is then found from the end.
-/

namespace NimbleFix

/-- `tag=value` of one field, both parts not empty. -/
def peekField (text : Bytes) (whenInvalid : Status) : Except Status (Nat × Bytes) :=
  match splitAtByte equalsByte text with
  | none => .error whenInvalid
  | some (tagText, value) =>
    if tagText = [] ∨ value = [] then .error whenInvalid
    else do
      let tag ← parseUnsigned tagText "field tag"
      .ok (tag, value)

structure PeekState where
  header : SessionHeaderView := {}
  fieldCount : Nat := 0
  /-- The bytes after the `BodyLength` field. -/
  afterLength : Bytes := []
  /-- The bytes from the `CheckSum` field on, once it was met. -/
  trailer : Option Bytes := none

/-- The header switch: `MsgType` and the fields `extract` knows. -/
def SessionHeaderView.peek (h : SessionHeaderView) (tag : Nat) (value : Bytes) :
    Except Status SessionHeaderView :=
  if tag = Tag.msgType then .ok { h with msgType := value } else h.extract tag value

/-- One field of the scan; `true` ends it. `rest` are the bytes from the field on, `next` those
after it. -/
def peekStep (tag : Nat) (value rest next : Bytes) (st : PeekState) :
    Except Status (PeekState × Bool) :=
  let count := st.fieldCount + 1
  if count = 1 then
    if tag ≠ Tag.beginString then .error frameShapeError
    else .ok ({ st with header := { st.header with beginString := value }, fieldCount := count },
      false)
  else if count = 2 then
    if tag ≠ Tag.bodyLength then .error frameShapeError
    else do
      let declared ← parseUnsigned value "BodyLength"
      .ok ({ st with
        header := { st.header with bodyLength := declared }
        fieldCount := count
        afterLength := next }, false)
  else if tag = Tag.checkSum then
    if next ≠ [] then .error frameShapeError
    else do
      let checksum ← parseUnsigned value "CheckSum"
      .ok ({ st with
        header := { st.header with checksum }
        fieldCount := count
        trailer := some rest }, true)
  else if !Tag.isAggregateSessionEnvelopeTag tag then .ok ({ st with fieldCount := count }, true)
  else do
    let header ← st.header.peek tag value
    .ok ({ st with header, fieldCount := count }, false)

/-- The scan. Every round reads a field, so the length of the input is enough `fuel`. -/
def peekLoop (delim : Byte) : Nat → Bytes → PeekState → Except Status PeekState
  | 0, _, st => .ok st
  | fuel + 1, rest, st =>
    match splitAtByte delim rest with
    | none => .ok st
    | some (text, next) =>
      if text = [] then .error (.FormatError "empty FIX field is not allowed")
      else do
        let (tag, value) ← peekField text (.FormatError "invalid FIX field syntax")
        let (st, stop) ← peekStep tag value rest next st
        if stop then .ok st else peekLoop delim fuel next st

/-- The text of the last field of a frame that ends with the delimiter. -/
def lastField (delim : Byte) (bytes : Bytes) : Bytes :=
  (bytes.dropLast.reverse.takeWhile (· ≠ delim)).reverse

/-- The trailer, from the scan or from the end of the frame. -/
def peekTrailer (delim : Byte) (bytes : Bytes) (st : PeekState) :
    Except Status (SessionHeaderView × Nat) :=
  match st.trailer with
  | some trailer => .ok (st.header, trailer.length)
  | none =>
    let text := lastField delim bytes
    if text.length = bytes.length - 1 then .error frameShapeError
    else do
      let (tag, value) ← peekField text frameShapeError
      if tag ≠ Tag.checkSum then .error frameShapeError
      else
        let checksum ← parseUnsigned value "CheckSum"
        .ok ({ st.header with checksum }, text.length + 1)

def peekSessionHeaderView (delim : Byte) (verifyChecksum : Bool) (bytes : Bytes) :
    Except Status SessionHeaderView := do
  let st ← peekLoop delim bytes.length bytes {}
  if bytes.getLast? ≠ some delim then
    .error (.FormatError "FIX frame is missing its final delimiter")
  else if st.fieldCount = 0 then .error (.FormatError "FIX frame has no fields")
  else if st.fieldCount < 4 then .error (.FormatError "FIX frame is too short")
  else do
    let (header, trailerLength) ← peekTrailer delim bytes st
    if header.bodyLength ≠ st.afterLength.length - trailerLength then
      .error (.FormatError "BodyLength mismatch")
    else if verifyChecksum ∧
        byteSum (bytes.take (bytes.length - trailerLength)) % 256 ≠ header.checksum then
      .error (.FormatError "CheckSum mismatch")
    else .ok header

end NimbleFix
