import NimbleFix.Codec.Encode
import NimbleFix.Codec.GenericDecode

/-!
# Pass-through decoding, forwarding and replay (`codec/raw_passthrough.cpp`)

`decodeRawPassThrough` splits a frame into session header fields and raw body bytes, scanning only
the header; `encodeForwarded` writes the body under the header of another session,
`encodeReplayInto` writes a frame again under a new header with `PossDupFlag=Y`. The code's offsets
are lengths of what has been read: `data.length - rest.length`.
-/

namespace NimbleFix

/-- `ScanField`: one field up to the delimiter; `none` is the empty result of the code. -/
def scanField (delim : Byte) (bytes : Bytes) : Option (InlineField × Bytes) :=
  match splitAtByte delim bytes with
  | none => none
  | some (content, rest) =>
    match splitAtByte equalsByte content with
    | none => none
    | some (tagText, value) =>
      match parseNat tagText with
      | none => none
      | some tag => if tag < 2 ^ 32 then some ({ tag, value }, rest) else none

/-- `ParseUint32`: `0` for a text that is no 32-bit number. -/
def parseUint32 (text : Bytes) : Nat :=
  match parseNat text with
  | some n => if n < 2 ^ 32 then n else 0
  | none => 0

structure RawPassThroughView where
  beginString : Bytes := []
  msgType : Bytes := []
  msgSeqNum : Nat := 0
  senderCompId : Bytes := []
  senderSubId : Bytes := []
  targetCompId : Bytes := []
  targetSubId : Bytes := []
  onBehalfOfCompId : Bytes := []
  deliverToCompId : Bytes := []
  defaultApplVerId : Bytes := []
  applVerId : Bytes := []
  sendingTime : Bytes := []
  origSendingTime : Bytes := []
  possDup : Bool := false
  possResend : Bool := false
  rawBody : Bytes := []
  bodyStartOffset : Nat := 0
  deriving DecidableEq, Repr

/-- The switch that copies a session header field into the view. -/
def RawPassThroughView.setField (v : RawPassThroughView) (tag : Nat) (value : Bytes) :
    RawPassThroughView :=
  if tag = Tag.msgType then { v with msgType := value }
  else if tag = Tag.msgSeqNum then { v with msgSeqNum := parseUint32 value }
  else if tag = Tag.senderCompID then { v with senderCompId := value }
  else if tag = Tag.senderSubID then { v with senderSubId := value }
  else if tag = Tag.targetCompID then { v with targetCompId := value }
  else if tag = Tag.targetSubID then { v with targetSubId := value }
  else if tag = Tag.onBehalfOfCompID then { v with onBehalfOfCompId := value }
  else if tag = Tag.deliverToCompID then { v with deliverToCompId := value }
  else if tag = Tag.defaultApplVerID then { v with defaultApplVerId := value }
  else if tag = Tag.applVerID then { v with applVerId := value }
  else if tag = Tag.sendingTime then { v with sendingTime := value }
  else if tag = Tag.origSendingTime then { v with origSendingTime := value }
  else if tag = Tag.possDupFlag then { v with possDup := value == ascii "Y" }
  else if tag = Tag.possResend then { v with possResend := value == ascii "Y" }
  else v

/-- The header loop. `bound` is the number of bytes from the scan end to the end of the frame: the
loop runs while more are left. Returns the view and the bytes after the last header field. Every
round reads a field, so the length of the input is enough `fuel`. -/
def scanHeader (delim : Byte) (known : Bool) (bound : Nat) :
    Nat → Bytes → RawPassThroughView → Except Status (RawPassThroughView × Bytes)
  | 0, rest, v => .ok (v, rest)
  | fuel + 1, rest, v =>
    if rest.length ≤ bound then .ok (v, rest)
    else
      match scanField delim rest with
      | none => .error (.FormatError "malformed FIX field")
      | some (f, next) =>
        if !Tag.isAggregateSessionEnvelopeTag f.tag then
          if known then
            .error (.FormatError
              "stored body_start_offset does not align with a FIX body boundary")
          else .ok (v, rest)
        else scanHeader delim known bound fuel next (v.setField f.tag f.value)

/-- The last seven bytes are `10=ddd` and the delimiter, with any three bytes for the digits. -/
def hasTrailer (delim : Byte) (data : Bytes) : Bool :=
  match data.drop (data.length - 7) with
  | [b0, b1, b2, _, _, _, b6] => b0 == 49 && b1 == 48 && b2 == equalsByte && b6 == delim
  | _ => false

/-- The checksum digits of the trailer. -/
def trailerDigits (data : Bytes) : Bytes := (data.drop (data.length - 4)).take 3

def decodeRawPassThrough (delim : Byte) (verifyChecksum : Bool) (known : Option Nat)
    (data : Bytes) : Except Status RawPassThroughView :=
  match scanField delim data with
  | none => .error (.FormatError "FIX frame must begin with tag 8")
  | some (f0, rest0) =>
    if f0.tag ≠ Tag.beginString then .error (.FormatError "FIX frame must begin with tag 8")
    else
      match scanField delim rest0 with
      | none => .error (.FormatError "FIX frame must have tag 9 after tag 8")
      | some (f1, rest1) =>
        if f1.tag ≠ Tag.bodyLength then
          .error (.FormatError "FIX frame must have tag 9 after tag 8")
        else if data.length < 7 then .error (.FormatError "FIX frame too short for CheckSum")
        else if !hasTrailer delim data then
          .error (.FormatError "FIX frame missing CheckSum (tag 10)")
        else
          let checksumStart := data.length - 7
          let prefixEnd := data.length - rest1.length
          if verifyChecksum ∧
              byteSum (data.take checksumStart) % 256 ≠ parseUint32 (trailerDigits data) then
            .error (.FormatError "CheckSum mismatch")
          -- the difference is computed in `size_t`: a trailer inside the prefix never matches
          else if checksumStart < prefixEnd ∨
              parseUint32 f1.value ≠ checksumStart - prefixEnd then
            .error (.FormatError "BodyLength mismatch")
          else
            let scanEnd := known.getD checksumStart
            if scanEnd < prefixEnd ∨ checksumStart < scanEnd then
              .error (.FormatError "stored body_start_offset is outside the FIX body")
            else do
              let (v, rest) ← scanHeader delim known.isSome (data.length - scanEnd)
                rest1.length rest1 { beginString := f0.value }
              let offset := known.getD (wrap32 (data.length - rest.length))
              -- behind the trailer the count wraps and `subspan` is undefined; here nothing is left
              .ok { v with
                rawBody := (data.drop offset).take (checksumStart - offset)
                bodyStartOffset := offset }

/-! ## Forwarding -/

structure ForwardingOptions where
  senderCompId : Bytes := []
  senderSubId : Bytes := []
  targetCompId : Bytes := []
  targetSubId : Bytes := []
  msgSeqNum : Nat := 0
  sendingTime : Bytes := []
  beginString : Bytes := []
  onBehalfOfCompId : Bytes := []
  deliverToCompId : Bytes := []
  possDup : Bool := false
  possResend : Bool := false
  origSendingTime : Bytes := []
  delimiter : Byte := soh
  deriving DecidableEq, Repr

/-- `EncodeForwarded` on a valid view. -/
def encodeForwarded (inbound : RawPassThroughView) (o : ForwardingOptions) : Except Status Bytes :=
  let delim := normalizeDelimiter o.delimiter
  let fld := field delim
  let opt := optionalField delim
  let header :=
    fld Tag.msgType inbound.msgType ++
    fld Tag.msgSeqNum (decimal o.msgSeqNum) ++
    fld Tag.senderCompID o.senderCompId ++
    opt Tag.senderSubID o.senderSubId ++
    fld Tag.targetCompID o.targetCompId ++
    opt Tag.targetSubID o.targetSubId ++
    fld Tag.sendingTime o.sendingTime ++
    (if o.possDup then fld Tag.possDupFlag (ascii "Y") else []) ++
    (if o.possResend then fld Tag.possResend (ascii "Y") else []) ++
    opt Tag.origSendingTime o.origSendingTime ++
    opt Tag.onBehalfOfCompID o.onBehalfOfCompId ++
    opt Tag.deliverToCompID o.deliverToCompId
  (assembleFrame delim (if o.beginString = [] then inbound.beginString else o.beginString)
    (header ++ inbound.rawBody)).mapError fun _ =>
      .FormatError "BodyLength exceeds placeholder width"

/-! ## Replay -/

structure ReplayOptions where
  senderCompId : Bytes := []
  senderSubId : Bytes := []
  targetCompId : Bytes := []
  targetSubId : Bytes := []
  beginString : Bytes := []
  defaultApplVerId : Bytes := []
  applVerId : Bytes := []
  onBehalfOfCompId : Bytes := []
  deliverToCompId : Bytes := []
  msgSeqNum : Nat := 0
  sendingTime : Bytes := []
  origSendingTime : Bytes := []
  possResend : Bool := false
  delimiter : Byte := soh
  deriving DecidableEq, Repr

def resolveReplayString (preferred fallback : Bytes) : Bytes :=
  if preferred = [] then fallback else preferred

def resolveReplayDefaultApplVerID (stored : RawPassThroughView) (o : ReplayOptions) : Bytes :=
  if o.defaultApplVerId ≠ [] then o.defaultApplVerId
  else if stored.msgType = MsgType.logon then stored.defaultApplVerId
  else []

/-- The header part of a replayed frame, from `MsgType` on. -/
def replayHeaderFields (stored : RawPassThroughView) (o : ReplayOptions) : Bytes :=
  let fld := field o.delimiter
  let opt := optionalField o.delimiter
  fld Tag.msgType stored.msgType ++
  fld Tag.msgSeqNum (decimal o.msgSeqNum) ++
  fld Tag.senderCompID o.senderCompId ++
  opt Tag.senderSubID (resolveReplayString o.senderSubId stored.senderSubId) ++
  fld Tag.targetCompID o.targetCompId ++
  opt Tag.targetSubID (resolveReplayString o.targetSubId stored.targetSubId) ++
  fld Tag.sendingTime o.sendingTime ++
  opt Tag.defaultApplVerID (resolveReplayDefaultApplVerID stored o) ++
  opt Tag.applVerID (resolveReplayString o.applVerId stored.applVerId) ++
  fld Tag.possDupFlag (ascii "Y") ++
  (if o.possResend then fld Tag.possResend (ascii "Y") else []) ++
  opt Tag.origSendingTime o.origSendingTime ++
  opt Tag.onBehalfOfCompID (resolveReplayString o.onBehalfOfCompId stored.onBehalfOfCompId) ++
  opt Tag.deliverToCompID (resolveReplayString o.deliverToCompId stored.deliverToCompId)

/-- `EncodeReplayInto` with the body copied into the frame. It has no limit on the length. -/
def encodeReplayInto (stored : RawPassThroughView) (o : ReplayOptions) : Bytes :=
  let before := frameBeforeTrailer o.delimiter
    (if o.beginString = [] then stored.beginString else o.beginString)
    (replayHeaderFields stored o ++ stored.rawBody)
  before ++ trailerField o.delimiter before

end NimbleFix
