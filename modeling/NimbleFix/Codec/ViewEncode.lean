import NimbleFix.Codec.Encode
import NimbleFix.Codec.View
import NimbleFix.Codec.GenericDecode

/-!
# Encoding message views (`codec/fix_codec.cpp`)

The encoders read a message through a `MessageView`, which may stand for an owned message, for a
decoded one or for an entry of a group in either. What they can ask of it are its fields by index,
a field by tag, its groups by index and a group by tag; for a decoded message these need not agree.
The overloads for owned messages pass their view on.

A template is compiled from the dictionary once per message type; here its scope is read off the
rules while encoding, which writes the same bytes.
-/

namespace NimbleFix

/-! ## Views -/

mutual

/-- What an encoder sees of a message or a group entry: its type, the fields by index, a field by
tag, and the linked groups, of which the first `groupCount` are reached by index. -/
inductive MessageView
  | mk (msgType : Bytes) (fields : List FieldValue) (find : Nat → Option FieldValue)
      (groupCount : Nat) (chain : List GroupView)

/-- A group: its size and the entries it iterates over. -/
inductive GroupView
  | mk (countTag size : Nat) (entries : List MessageView)

end

namespace GroupView

def countTag : GroupView → Nat
  | mk countTag _ _ => countTag

def size : GroupView → Nat
  | mk _ size _ => size

def entries : GroupView → List MessageView
  | mk _ _ entries => entries

end GroupView

namespace MessageView

def msgType : MessageView → Bytes
  | mk msgType _ _ _ _ => msgType

/-- `field_at` for the indices below `field_count`. -/
def fields : MessageView → List FieldValue
  | mk _ fields _ _ _ => fields

/-- `find_field_view`. -/
def find : MessageView → Nat → Option FieldValue
  | mk _ _ find _ _ => find

def chain : MessageView → List GroupView
  | mk _ _ _ _ chain => chain

/-- `group_at` for the indices below `group_count`. -/
def groups : MessageView → List GroupView
  | mk _ _ _ groupCount chain => chain.take groupCount

/-- `group(tag)`. -/
def group (v : MessageView) (tag : Nat) : Option GroupView :=
  v.chain.find? fun g => g.countTag == tag

/-- The count tags of the groups, which `HasGroupCountTag` looks through. -/
def groupTags (v : MessageView) : List Nat := v.groups.map GroupView.countTag

end MessageView

/-- `find_field_view` on an owned message: the first field with the tag, or the message type. -/
def MessageData.findFieldView (msgType : Bytes) (fields : List FieldValue) (tag : Nat) :
    Option FieldValue :=
  match fields.find? fun f => f.tag == tag with
  | some f => some f
  | none => if tag = Tag.msgType ∧ msgType ≠ [] then some ⟨tag, .string msgType⟩ else none

mutual

def MessageData.view : MessageData → MessageView
  | .mk msgType fields groups =>
    .mk msgType fields (MessageData.findFieldView msgType fields) groups.length (viewGroups groups)

def viewGroups : List GroupData → List GroupView
  | [] => []
  | g :: gs => g.view :: viewGroups gs

def GroupData.view : GroupData → GroupView
  | .mk countTag entries => .mk countTag entries.length (viewEntries entries)

def viewEntries : List MessageData → List MessageView
  | [] => []
  | e :: es => e.view :: viewEntries es

end

theorem MessageData.view_msgType (m : MessageData) : m.view.msgType = m.msgType := by
  cases m
  rfl

/-- The view of the root or of a group entry of a decoded message. `find` is the lookup of a slot by
tag, the decoder nests no deeper than `depth`. -/
def ParsedMessageData.entryView (readDouble : Bytes → Bytes) (p : ParsedMessageData) :
    Nat → Bytes → (Nat → Option ParsedFieldSlot) → ParsedEntryData → MessageView
  | depth, msgType, find, e =>
    .mk msgType ((p.enumerate e).map (ParsedFieldSlot.toOwned readDouble))
      (fun tag => match find tag with
        | some slot => some (slot.toOwned readDouble)
        | none => if tag = Tag.msgType ∧ msgType ≠ [] then some ⟨tag, .string msgType⟩ else none)
      e.groupCount
      (match depth with
        | 0 => []
        | depth + 1 => (p.groupsOf e).map fun g =>
          .mk g.2.countTag g.2.entryCount ((p.iteratedEntries g.2).map fun entry =>
            p.entryView readDouble depth [] (fun tag => (p.slotsOf entry).find? fun s => s.tag == tag)
              entry))

def ParsedMessageData.view (readDouble : Bytes → Bytes) (p : ParsedMessageData) : MessageView :=
  p.entryView readDouble kMaxGroupNestingDepth p.msgType p.findField p.root

/-! ## The generic encoder -/

mutual

/-- `EncodeMessageBody` without rules. -/
def MessageView.encodePlain (delim : Byte) (skipHeader : Bool) : MessageView → Bytes
  | .mk _ fields _ groupCount chain =>
    let groups := (plainViewTable delim chain).take groupCount
    encodeFields delim (fields.filter fun f => !isSkipped skipHeader (groups.map Prod.fst) f.tag) ++
      (groups.map Prod.snd).flatten

def plainViewTable (delim : Byte) : List GroupView → List (Nat × Bytes)
  | [] => []
  | g :: gs => (g.countTag, g.encodePlain delim) :: plainViewTable delim gs

/-- `EncodeGroupData` without a dictionary. -/
def GroupView.encodePlain (delim : Byte) : GroupView → Bytes
  | .mk countTag size entries =>
    field delim countTag (decimal size) ++ encodePlainEntryViews delim entries

def encodePlainEntryViews (delim : Byte) : List MessageView → Bytes
  | [] => []
  | e :: es => e.encodePlain delim false ++ encodePlainEntryViews delim es

end

mutual

/-- `EncodeMessageBody` with the rules of the message or group. -/
def MessageView.encodeBody (d : Dictionary) (delim : Byte) (rules : List FieldRule)
    (skipHeader : Bool) : MessageView → Bytes
  | .mk _ fields _ groupCount chain =>
    encodeByRules delim skipHeader rules fields ((viewTable d delim chain).take groupCount)

def viewTable (d : Dictionary) (delim : Byte) : List GroupView → List (Nat × Bytes)
  | [] => []
  | g :: gs => (g.countTag, g.encode d delim) :: viewTable d delim gs

/-- `EncodeGroupData`. -/
def GroupView.encode (d : Dictionary) (delim : Byte) : GroupView → Bytes
  | .mk countTag size entries =>
    field delim countTag (decimal size) ++
      match d.findGroup countTag with
      | some g => encodeEntryViews d delim g.rules entries
      | none => encodePlainEntryViews delim entries

def encodeEntryViews (d : Dictionary) (delim : Byte) (rules : List FieldRule) :
    List MessageView → Bytes
  | [] => []
  | e :: es => e.encodeBody d delim rules false ++ encodeEntryViews d delim rules es

end

/-- `EncodeFixMessageGenericToBuffer`. -/
def encodeViewGeneric (d : Dictionary) (v : MessageView) (o : EncodeOptions) :
    Except Status Bytes :=
  let delim := normalizeDelimiter o.delimiter
  let body := match (if v.msgType = [] then none else d.findMessage v.msgType) with
    | some def_ => v.encodeBody d delim def_.rules true
    | none => v.encodePlain delim true
  assembleFrame delim (resolvedBeginString o.beginString)
    (resolvedHeaderFields v.msgType { o with delimiter := delim } ++ body)

/-! ## Compiled templates -/

/-- The rules of a scope that `CompileScopeTemplate` makes steps of. -/
def scopeSteps (skipHeader : Bool) (rules : List FieldRule) : List FieldRule :=
  rules.filter fun r => !(skipHeader && Tag.isAggregateSessionHeaderTag r.tag)

/-- The part of `EncodeScopeTemplate` that does not recurse. `templated` are the linked groups
encoded by the scope of their step, `plain` those reached by index, encoded without a dictionary. -/
def encodeViewScope (d : Dictionary) (delim : Byte) (skipHeader : Bool) (rules : List FieldRule)
    (find : Nat → Option FieldValue) (fields : List FieldValue)
    (templated plain : List (Nat × Bytes)) : Bytes :=
  let steps := scopeSteps skipHeader rules
  let groupTags := plain.map Prod.fst
  let stepPart := steps.flatMap fun step =>
    if (d.findGroup step.tag).isSome then (templated.lookup step.tag).getD []
    else
      match find step.tag with
      | some f => if groupTags.contains f.tag then [] else field delim step.tag f.value.text
      | none => []
  let isStep := fun tag => (ruleIndex steps tag).isSome
  let extraFields := encodeFields delim
    (fields.filter fun f => !isSkipped skipHeader groupTags f.tag && !isStep f.tag)
  let isGroupStep := fun tag => isStep tag && (d.findGroup tag).isSome
  let extraGroups := ((plain.filter fun g => !isGroupStep g.1).map Prod.snd).flatten
  stepPart ++ extraFields ++ extraGroups

mutual

/-- `EncodeScopeTemplate` on the scope compiled from `rules`. -/
def MessageView.encodeScope (d : Dictionary) (delim : Byte) (rules : List FieldRule)
    (skipHeader : Bool) : MessageView → Bytes
  | .mk _ fields find groupCount chain =>
    encodeViewScope d delim skipHeader rules find fields (templatedViewTable d delim chain)
      ((plainViewTable delim chain).take groupCount)

def templatedViewTable (d : Dictionary) (delim : Byte) : List GroupView → List (Nat × Bytes)
  | [] => []
  | g :: gs => (g.countTag, g.encodeTemplated d delim) :: templatedViewTable d delim gs

def GroupView.encodeTemplated (d : Dictionary) (delim : Byte) : GroupView → Bytes
  | .mk countTag size entries =>
    field delim countTag (decimal (wrap32 size)) ++
      match d.findGroup countTag with
      | some g => encodeTemplatedEntryViews d delim g.rules entries
      | none => []

def encodeTemplatedEntryViews (d : Dictionary) (delim : Byte) (rules : List FieldRule) :
    List MessageView → Bytes
  | [] => []
  | e :: es => e.encodeScope d delim rules false ++ encodeTemplatedEntryViews d delim rules es

end

/-- `FrameEncodeTemplate::State`. Its scope is kept as the rules it is compiled from. -/
structure FrameEncodeTemplate where
  dictionary : Dictionary
  msgType : Bytes
  beginString : Bytes
  senderCompId : Bytes
  targetCompId : Bytes
  defaultApplVerId : Bytes
  delimiter : Byte
  rules : List FieldRule

def compileFrameEncodeTemplate (d : Dictionary) (msgType : Bytes) (config : EncodeTemplateConfig) :
    Except Status FrameEncodeTemplate :=
  if msgType = [] then
    .error (.InvalidArgument "cannot compile a frame template without MsgType")
  else
    match d.findMessage msgType with
    | none => .error (.NotFound "message type is not present in the bound dictionary")
    | some def_ =>
      .ok
        { dictionary := d
          msgType
          beginString := resolvedBeginString config.beginString
          senderCompId := config.senderCompId
          targetCompId := config.targetCompId
          defaultApplVerId := config.defaultApplVerId
          delimiter := normalizeDelimiter config.delimiter
          rules := def_.rules }

theorem compileFrameEncodeTemplate_ok {d : Dictionary} {msgType : Bytes}
    {config : EncodeTemplateConfig} {t : FrameEncodeTemplate}
    (h : compileFrameEncodeTemplate d msgType config = .ok t) :
    ∃ def_, d.findMessage msgType = some def_ ∧ t =
      { dictionary := d
        msgType
        beginString := resolvedBeginString config.beginString
        senderCompId := config.senderCompId
        targetCompId := config.targetCompId
        defaultApplVerId := config.defaultApplVerId
        delimiter := normalizeDelimiter config.delimiter
        rules := def_.rules } := by
  unfold compileFrameEncodeTemplate at h
  split at h
  · cases h
  · cases hdef : d.findMessage msgType with
    | none =>
      rw [hdef] at h
      cases h
    | some def_ =>
      rw [hdef] at h
      cases h
      exact ⟨def_, rfl, rfl⟩

/-- `FrameEncodeTemplate::EncodeToBuffer`. The header is the resolved one, with the comp ids and the
`DefaultApplVerID` of the template. -/
def FrameEncodeTemplate.encodeToBuffer (t : FrameEncodeTemplate) (v : MessageView)
    (o : EncodeOptions) : Except Status Bytes :=
  if v.msgType ≠ [] ∧ v.msgType ≠ t.msgType then
    .error (.InvalidArgument "message type does not match compiled frame template")
  else if normalizeDelimiter o.delimiter ≠ t.delimiter then
    .error (.InvalidArgument "delimiter does not match compiled frame template")
  else if o.beginString ≠ [] ∧ o.beginString ≠ t.beginString then
    .error (.InvalidArgument "BeginString does not match compiled frame template")
  else if o.senderCompId ≠ [] ∧ o.senderCompId ≠ t.senderCompId then
    .error (.InvalidArgument "SenderCompID does not match compiled frame template")
  else if o.targetCompId ≠ [] ∧ o.targetCompId ≠ t.targetCompId then
    .error (.InvalidArgument "TargetCompID does not match compiled frame template")
  else if o.defaultApplVerId ≠ [] ∧ o.defaultApplVerId ≠ t.defaultApplVerId then
    .error (.InvalidArgument "DefaultApplVerID does not match compiled frame template")
  else
    let o := { o with
      senderCompId := t.senderCompId
      targetCompId := t.targetCompId
      defaultApplVerId := t.defaultApplVerId
      delimiter := t.delimiter }
    assembleFrame t.delimiter t.beginString
      (resolvedHeaderFields t.msgType o ++
        v.encodeScope t.dictionary t.delimiter t.rules true)

theorem FrameEncodeTemplate.encodeToBuffer_ok {t : FrameEncodeTemplate} {v : MessageView}
    {o : EncodeOptions} {bytes : Bytes} (h : t.encodeToBuffer v o = .ok bytes) :
    (v.msgType ≠ [] → v.msgType = t.msgType) ∧ normalizeDelimiter o.delimiter = t.delimiter ∧
      assembleFrame t.delimiter t.beginString
        (resolvedHeaderFields t.msgType { o with
          senderCompId := t.senderCompId
          targetCompId := t.targetCompId
          defaultApplVerId := t.defaultApplVerId
          delimiter := t.delimiter } ++
          v.encodeScope t.dictionary t.delimiter t.rules true) = .ok bytes := by
  unfold FrameEncodeTemplate.encodeToBuffer at h
  split at h
  · cases h
  rename_i htype
  split at h
  · cases h
  rename_i hdelim
  iterate 4
    split at h
    · cases h
  refine ⟨fun hne => ?_, by_contra hdelim, h⟩
  by_contra hother
  exact htype ⟨hne, hother⟩

end NimbleFix
