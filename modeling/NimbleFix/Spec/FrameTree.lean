import NimbleFix.Codec.GenericDecode
import NimbleFix.Codec.Peek

/-!
# The fields of a frame as a tree

What a frame says, apart from how a decoder stores it: the fields of the root in frame order, and
under each group count field the entries of its group. `readRoot` reads the tree off the bytes,
with the dictionary deciding what is a group and where an entry ends; it knows neither pool nor
validation.
-/

namespace NimbleFix

/-! ## The text of fields -/

/-- A field as it is written, with the digits of its tag. -/
structure RawField where
  tagText : Bytes
  value : Bytes
  deriving DecidableEq, Repr

namespace RawField

def tag (f : RawField) : Nat := parseTagInline f.tagText

/-- The value as far as a 32-bit length reaches. -/
def read (f : RawField) : Bytes := f.value.take (wrap32 f.value.length)

/-- `tag=value` and the delimiter. -/
def text (delim : Byte) (f : RawField) : Bytes := f.tagText ++ equalsByte :: (f.value ++ [delim])

/-- Up to five digits that are not all zero, and a value without the delimiter. -/
structure WellFormed (delim : Byte) (f : RawField) : Prop where
  digits : f.tagText.all isDigit
  length_le : f.tagText.length ≤ 5
  tag_ne_zero : f.tag ≠ 0
  delim_notMem : delim ∉ f.tagText ++ f.value

end RawField

/-- The text of fields one after the other. -/
def rawText (delim : Byte) (fs : List RawField) : Bytes := fs.flatMap (RawField.text delim)

/-- The bytes are a frame: the fields `first`, `second`, those of `body` and `last`, one after the
other, with the tags of a frame, its length and its checksum. -/
structure IsFieldFrame (delim : Byte) (bytes : Bytes) (first second : RawField)
    (body : List RawField) (last : RawField) : Prop where
  wellFormed : ∀ f ∈ first :: second :: (body ++ [last]), f.WellFormed delim
  bytes_eq : bytes = rawText delim (first :: second :: (body ++ [last]))
  first_tag : first.tag = Tag.beginString
  second_tag : second.tag = Tag.bodyLength
  last_tag : last.tag = Tag.checkSum
  bodyLength : parseNat second.value = some (rawText delim body).length
  checkSum : parseNat last.value = some (byteSum (rawText delim (first :: second :: body)) % 256)

/-- A field and the number of bytes of the frame that follow it. -/
structure PlacedField where
  tag : Nat
  value : Bytes
  remaining : Nat
  deriving DecidableEq, Repr

mutual

/-- A field; a group count field comes with the entries of the group. -/
inductive FieldNode
  | plain (field : PlacedField)
  | group (field : PlacedField) (entries : List EntryNode)

inductive EntryNode
  | mk (nodes : List FieldNode)

end

/-- The field itself. -/
def FieldNode.field : FieldNode → PlacedField
  | plain field => field
  | group field _ => field

/-- The fields of a text that is followed by `after` bytes. -/
def place (delim : Byte) : List RawField → Nat → List PlacedField
  | [], _ => []
  | f :: fs, after => ⟨f.tag, f.read, (rawText delim fs).length + after⟩ :: place delim fs after

/-! ## All fields, in frame order -/

mutual

def FieldNode.fields : FieldNode → List PlacedField
  | .plain field => [field]
  | .group field entries => field :: entriesFields entries

def EntryNode.fields : EntryNode → List PlacedField
  | .mk nodes => nodesFields nodes

def entriesFields : List EntryNode → List PlacedField
  | [] => []
  | e :: es => e.fields ++ entriesFields es

def nodesFields : List FieldNode → List PlacedField
  | [] => []
  | n :: ns => n.fields ++ nodesFields ns

end

/-- The fields below a node: those in the entries of its group. -/
def FieldNode.nested : FieldNode → List PlacedField
  | plain _ => []
  | group _ entries => entriesFields entries

/-- The nodes of the root other than the fields of the frame itself. -/
def rootNodes (nodes : List FieldNode) : List FieldNode :=
  nodes.filter fun n => !Tag.isFrameStructureTag n.field.tag

/-- The fields of the root, in frame order. -/
def rootFields (nodes : List FieldNode) : List PlacedField :=
  (rootNodes nodes).map FieldNode.field

theorem rootNodes_cons_of_frame {n : FieldNode} {nodes : List FieldNode}
    (h : Tag.isFrameStructureTag n.field.tag) : rootNodes (n :: nodes) = rootNodes nodes := by
  simp [rootNodes, h]

theorem rootNodes_cons {n : FieldNode} {nodes : List FieldNode}
    (h : ¬Tag.isFrameStructureTag n.field.tag) : rootNodes (n :: nodes) = n :: rootNodes nodes := by
  simp [rootNodes, h]

theorem rootFields_cons_of_frame {n : FieldNode} {nodes : List FieldNode}
    (h : Tag.isFrameStructureTag n.field.tag) : rootFields (n :: nodes) = rootFields nodes := by
  rw [rootFields, rootNodes_cons_of_frame h]
  rfl

theorem rootFields_cons {n : FieldNode} {nodes : List FieldNode}
    (h : ¬Tag.isFrameStructureTag n.field.tag) :
    rootFields (n :: nodes) = n.field :: rootFields nodes := by
  rw [rootFields, rootNodes_cons h]
  rfl

/-- The session header after the fields, each taken where the header has a place for it. -/
def readHeader (fields : List PlacedField) (h : SessionHeaderView) :
    Except Status SessionHeaderView :=
  fields.foldlM (fun h f => h.peek f.tag f.value) h

/-! ## How many slots the fields take -/

/-- The tags after those already seen, each once. -/
def addTags (seen tags : List Nat) : List Nat :=
  tags.foldl (fun seen tag => if tag ∈ seen then seen else seen ++ [tag]) seen

mutual

/-- The slots of the fields below a node. -/
def FieldNode.slotsBelow : FieldNode → Nat
  | .plain _ => 0
  | .group _ entries => entriesSlots entries

/-- The slots of an entry: those below its nodes, and one for each tag among its first fields. -/
def EntryNode.slots : EntryNode → Nat
  | .mk nodes => nodesSlotsBelow nodes +
      (addTags [] ((nodes.map fun n => n.field.tag).take kMaxDeferredSlots)).length

def entriesSlots : List EntryNode → Nat
  | [] => 0
  | e :: es => e.slots + entriesSlots es

def nodesSlotsBelow : List FieldNode → Nat
  | [] => 0
  | n :: ns => n.slotsBelow + nodesSlotsBelow ns

end

/-! ## Reading the tree -/

section

variable (d : Dictionary) (delim : Byte)

/-- Up to `remaining` entries, as long as the next field is the delimiter tag of the group. -/
def readEntries (g : GroupDef)
    (readFields : Bytes → Except Status (List FieldNode × Bytes)) :
    Nat → Bytes → Except Status (List EntryNode × Bytes)
  | 0, bytes => .ok ([], bytes)
  | remaining + 1, bytes =>
    if bytes = [] then .ok ([], bytes)
    else do
      let (peek, _) ← scanNextField delim bytes
      if peek.tag ≠ g.delimiterTag then .ok ([], bytes)
      else
        let (nodes, rest) ← readFields bytes
        let (entries, rest) ← readEntries g readFields remaining rest
        .ok (.mk nodes :: entries, rest)

/-- The entries a group count field announces, within the limits on count and depth. -/
def readGroup (countValue : Bytes) (g : GroupDef) (depth : Nat)
    (readFields : Bytes → Except Status (List FieldNode × Bytes)) (bytes : Bytes) :
    Except Status (List EntryNode × Bytes) := do
  let count ← parseUnsigned countValue "group count"
  if kMaxGroupEntryCount < count ∨ kMaxGroupNestingDepth ≤ depth then
    .error (.FormatError "group exceeds the limits")
  else readEntries delim g readFields count bytes

/-- A field with the bytes after it. -/
def placed (field : InlineField) (rest : Bytes) : PlacedField :=
  ⟨field.tag, field.value, rest.length⟩

/-- The fields of one entry: up to the next delimiter tag or a tag that is not the group's. Every
round reads a field, so the length of the input is enough `fuel`. -/
def readEntryFields : Nat → GroupDef → Nat → Bool → Bytes →
    Except Status (List FieldNode × Bytes)
  | 0, _, _, _, bytes => .ok ([], bytes)
  | fuel + 1, g, depth, seenAny, bytes =>
    if bytes = [] then .ok ([], bytes)
    else do
      let (field, rest) ← scanNextField delim bytes
      if (seenAny ∧ field.tag = g.delimiterTag) ∨ (ruleIndex g.rules field.tag).isNone then
        .ok ([], bytes)
      else
        match d.findGroup field.tag with
        | some nested => do
          let (entries, after) ← readGroup delim field.value nested (depth + 1)
            (readEntryFields fuel nested (depth + 1) false) rest
          let (nodes, after) ← readEntryFields fuel g depth true after
          .ok (.group (placed field rest) entries :: nodes, after)
        | none => do
          let (nodes, after) ← readEntryFields fuel g depth true rest
          .ok (.plain (placed field rest) :: nodes, after)

/-- The group a field of the root opens when the message has the definition `messageDef`. -/
def rootGroup (messageDef : Option MessageDef) (tag : Nat) : Option GroupDef :=
  messageDef.bind fun m => if (ruleIndex m.rules tag).isSome then d.findGroup tag else none

/-- Whether a field may open a group: the frame fields and `MsgType` never do. -/
def mayOpenGroup (tag : Nat) : Bool := !Tag.isFrameStructureTag tag && tag != Tag.msgType

/-- The definition of the message once the field is read. -/
def messageDefAfter (messageDef : Option MessageDef) (field : InlineField) : Option MessageDef :=
  if field.tag = Tag.msgType then d.findMessage field.value else messageDef

/-- The fields of the root up to `CheckSum`, with the bytes from `CheckSum` on. -/
def readRoot : Nat → Option MessageDef → Bytes → Except Status (List FieldNode × Option Bytes)
  | 0, _, _ => .ok ([], none)
  | fuel + 1, messageDef, bytes =>
    if bytes = [] then .ok ([], none)
    else do
      let (field, rest) ← scanNextField delim bytes
      if field.tag = Tag.checkSum then .ok ([], some bytes)
      else
        match (if mayOpenGroup field.tag then rootGroup d messageDef field.tag else none) with
        | some g => do
          let (entries, after) ← readGroup delim field.value g 1
            (readEntryFields d delim rest.length g 1 false) rest
          let (nodes, trailer) ← readRoot fuel messageDef after
          .ok (.group (placed field rest) entries :: nodes, trailer)
        | none => do
          let (nodes, trailer) ← readRoot fuel (messageDefAfter d messageDef field) rest
          .ok (.plain (placed field rest) :: nodes, trailer)

/-- The tree of a frame that starts with two fields, `BeginString` and `BodyLength`. -/
def readFrame (bytes : Bytes) : Except Status (List FieldNode × Option Bytes) := do
  let (_, rest0) ← scanNextField delim bytes
  let (_, rest1) ← scanNextField delim rest0
  readRoot d delim rest1.length none rest1

end

end NimbleFix
