import NimbleFix.Codec.RawPassThrough

/-!
# Frames as lists of fields

The encoders write bytes; here the same bytes are read as fields. `resolvedHeader` and
`replayHeader` are the header fields of an encoded and of a replayed frame, `IsFrame` says that
some bytes are a frame with a given header and body, and `HasHeader` what its header carries.
-/

namespace NimbleFix

/-- The text of a list of fields. -/
def fieldsText (delim : Byte) (fields : List InlineField) : Bytes :=
  fields.flatMap fun f => field delim f.tag f.value

section

variable (delim : Byte) (f : InlineField) (fs gs : List InlineField)

@[simp] theorem fieldsText_nil : fieldsText delim [] = [] := rfl

@[simp] theorem fieldsText_cons :
    fieldsText delim (f :: fs) = field delim f.tag f.value ++ fieldsText delim fs := rfl

@[simp] theorem fieldsText_append :
    fieldsText delim (fs ++ gs) = fieldsText delim fs ++ fieldsText delim gs := by
  simp [fieldsText]

end

/-- The field, or none for an empty value. -/
def optionalFields (tag : Nat) (value : Bytes) : List InlineField :=
  if value = [] then [] else [⟨tag, value⟩]

@[simp] theorem fieldsText_optionalFields (delim : Byte) (tag : Nat) (value : Bytes) :
    fieldsText delim (optionalFields tag value) = optionalField delim tag value := by
  unfold optionalFields optionalField
  split <;> simp

/-- The field with the value `Y`, or none. -/
def flagFields (tag : Nat) (flag : Bool) : List InlineField :=
  if flag then [⟨tag, ascii "Y"⟩] else []

@[simp] theorem fieldsText_flagFields (delim : Byte) (tag : Nat) (flag : Bool) :
    fieldsText delim (flagFields tag flag) =
      if flag then field delim tag (ascii "Y") else [] := by
  unfold flagFields
  split <;> simp

/-! ## Headers -/

/-- The fields of `resolvedHeaderFields`. -/
def resolvedHeader (msgType : Bytes) (o : EncodeOptions) : List InlineField :=
  [⟨Tag.msgType, if msgType = [] then ascii "UNKNOWN" else msgType⟩,
    ⟨Tag.msgSeqNum, decimal (if o.msgSeqNum = 0 then 1 else o.msgSeqNum)⟩] ++
  optionalFields Tag.senderCompID o.senderCompId ++
  optionalFields Tag.senderSubID o.senderSubId ++
  optionalFields Tag.targetCompID o.targetCompId ++
  optionalFields Tag.targetSubID o.targetSubId ++
  [⟨Tag.sendingTime, o.sendingTime⟩] ++
  (if msgType = MsgType.logon then optionalFields Tag.defaultApplVerID o.defaultApplVerId
    else []) ++
  optionalFields Tag.applVerID o.applVerId ++
  flagFields Tag.possDupFlag o.possDup ++
  flagFields Tag.possResend o.possResend ++
  optionalFields Tag.origSendingTime o.origSendingTime ++
  optionalFields Tag.onBehalfOfCompID o.onBehalfOfCompId ++
  optionalFields Tag.deliverToCompID o.deliverToCompId

theorem resolvedHeaderFields_eq (msgType : Bytes) (o : EncodeOptions) :
    resolvedHeaderFields msgType o = fieldsText o.delimiter (resolvedHeader msgType o) := by
  unfold resolvedHeaderFields resolvedHeader
  by_cases h : msgType = MsgType.logon <;> simp [h]

/-- The fields of `replayHeaderFields`. -/
def replayHeader (stored : RawPassThroughView) (o : ReplayOptions) : List InlineField :=
  [⟨Tag.msgType, stored.msgType⟩, ⟨Tag.msgSeqNum, decimal o.msgSeqNum⟩,
    ⟨Tag.senderCompID, o.senderCompId⟩] ++
  optionalFields Tag.senderSubID (resolveReplayString o.senderSubId stored.senderSubId) ++
  [⟨Tag.targetCompID, o.targetCompId⟩] ++
  optionalFields Tag.targetSubID (resolveReplayString o.targetSubId stored.targetSubId) ++
  [⟨Tag.sendingTime, o.sendingTime⟩] ++
  optionalFields Tag.defaultApplVerID (resolveReplayDefaultApplVerID stored o) ++
  optionalFields Tag.applVerID (resolveReplayString o.applVerId stored.applVerId) ++
  [⟨Tag.possDupFlag, ascii "Y"⟩] ++
  flagFields Tag.possResend o.possResend ++
  optionalFields Tag.origSendingTime o.origSendingTime ++
  optionalFields Tag.onBehalfOfCompID
    (resolveReplayString o.onBehalfOfCompId stored.onBehalfOfCompId) ++
  optionalFields Tag.deliverToCompID
    (resolveReplayString o.deliverToCompId stored.deliverToCompId)

theorem replayHeaderFields_eq (stored : RawPassThroughView) (o : ReplayOptions) :
    replayHeaderFields stored o = fieldsText o.delimiter (replayHeader stored o) := by
  simp [replayHeaderFields, replayHeader]

/-! ## Frames -/

/-- The bytes are a frame with the given fields between `BodyLength` and the body. -/
def IsFrame (bytes : Bytes) (header : List InlineField) (body : Bytes) : Prop :=
  ∃ beginString, bytes = frameBeforeTrailer soh beginString (fieldsText soh header ++ body) ++
    trailerField soh (frameBeforeTrailer soh beginString (fieldsText soh header ++ body))

/-- The bytes are a frame whose header carries the message type, the number and, if asked,
`PossDupFlag=Y`. -/
def HasHeader (bytes msgType : Bytes) (seqNum : Nat) (possDup : Bool) : Prop :=
  ∃ header body, IsFrame bytes header body ∧ ⟨Tag.msgType, msgType⟩ ∈ header ∧
    ⟨Tag.msgSeqNum, decimal seqNum⟩ ∈ header ∧
    (possDup → ⟨Tag.possDupFlag, ascii "Y"⟩ ∈ header)

/-- The bytes are a frame made of fields, with the given ones in its header and in its body. -/
def HasFields (bytes : Bytes) (inHeader inBody : List InlineField) : Prop :=
  ∃ header body, IsFrame bytes header (fieldsText soh body) ∧ inHeader ⊆ header ∧ inBody ⊆ body

theorem isFrame_of_assembleFrame {beginString body bytes : Bytes} {header : List InlineField}
    (h : assembleFrame soh beginString (fieldsText soh header ++ body) = .ok bytes) :
    IsFrame bytes header body := by
  unfold assembleFrame at h
  split at h
  · cases h
  · cases h
    exact ⟨beginString, rfl⟩

theorem hasHeader_encodeReplayInto (stored : RawPassThroughView) {o : ReplayOptions}
    (hdelim : o.delimiter = soh) :
    HasHeader (encodeReplayInto stored o) stored.msgType o.msgSeqNum true := by
  unfold encodeReplayInto
  rw [replayHeaderFields_eq, hdelim]
  exact ⟨replayHeader stored o, stored.rawBody, ⟨_, rfl⟩, by simp [replayHeader],
    by simp [replayHeader], fun _ => by simp [replayHeader]⟩

end NimbleFix
