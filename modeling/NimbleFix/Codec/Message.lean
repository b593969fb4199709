import NimbleFix.Codec.Scan

/-!
# Owned and parsed messages (`message/message_structs.h`, `message/message.cpp`)

`MessageData` is an owned message: typed fields and repeating groups. `ParsedMessageData` is the
decoder's pool: field slots of the root and of all group entries in one list, entries and groups
linked by indices, and the lookup tables for root fields. A slot says where in the frame it is by
numbers of bytes from there to the end. It holds the text it was scanned with; `locate` puts the one
in its place that is read at its `value_offset`.
-/

namespace NimbleFix

inductive FieldType
  | string
  | int
  | float
  | char
  | boolean
  deriving DecidableEq, Repr

/-- A typed value. A double is represented by the text `std::to_chars` gives for it. -/
inductive ScalarValue
  | string (text : Bytes)
  | int (n : Int)
  | float (text : Bytes)
  | char (b : Byte)
  | boolean (b : Bool)
  deriving DecidableEq, Repr

structure FieldValue where
  tag : Nat
  value : ScalarValue
  deriving DecidableEq, Repr

mutual

/-- An owned message or group entry. -/
inductive MessageData
  | mk (msgType : Bytes) (fields : List FieldValue) (groups : List GroupData)

inductive GroupData
  | mk (countTag : Nat) (entries : List MessageData)

end

namespace MessageData

def msgType : MessageData → Bytes
  | mk msgType _ _ => msgType

def fields : MessageData → List FieldValue
  | mk _ fields _ => fields

def groups : MessageData → List GroupData
  | mk _ _ groups => groups

/-- `UpsertField`: replace the first field with the same tag, or append. -/
def upsertField (value : FieldValue) : List FieldValue → List FieldValue
  | [] => [value]
  | f :: fs => if f.tag = value.tag then value :: fs else f :: upsertField value fs

/-- `MessageDataWriter::set_*`. -/
def set (m : MessageData) (tag : Nat) (value : ScalarValue) : MessageData :=
  mk m.msgType (upsertField ⟨tag, value⟩ m.fields) m.groups

/-- `MessageDataWriter::add_string`: append without looking for the tag. -/
def addString (m : MessageData) (tag : Nat) (text : Bytes) : MessageData :=
  mk m.msgType (m.fields ++ [⟨tag, .string text⟩]) m.groups

@[simp] theorem set_msgType (m : MessageData) (tag : Nat) (value : ScalarValue) :
    (m.set tag value).msgType = m.msgType := rfl

end MessageData

/-! ## The decoder's pool -/

structure ParsedFieldSlot where
  tag : Nat
  type : FieldType
  value : Bytes
  /-- The bytes of the frame after the field. -/
  remaining : Nat
  /-- The bytes of the frame from the value on, which give its `value_offset`. -/
  fromValue : Nat
  deriving DecidableEq, Repr

/-- The slot for a scanned field with `remaining` bytes after it; `value_length` is a 16-bit
word. -/
def ParsedFieldSlot.make (tag : Nat) (value : Bytes) (type : FieldType) (remaining : Nat) :
    ParsedFieldSlot :=
  { tag, type, value := value.take (value.length % 2 ^ 16), remaining
    fromValue := value.length + 1 + remaining }

/-- The value as it is read from the frame: `value_offset` is a 32-bit word. -/
def ParsedFieldSlot.locate (bytes : Bytes) (s : ParsedFieldSlot) : ParsedFieldSlot :=
  { s with value := (bytes.drop (wrap32 (bytes.length - s.fromValue))).take s.value.length }

structure ParsedEntryData where
  firstFieldIndex : Option Nat := none
  fieldCount : Nat := 0
  firstGroup : Option Nat := none
  lastGroup : Option Nat := none
  groupCount : Nat := 0
  nextEntry : Option Nat := none
  deriving DecidableEq, Repr

structure ParsedGroupFrame where
  countTag : Nat
  firstEntry : Option Nat := none
  lastEntry : Option Nat := none
  entryCount : Nat := 0
  depth : Nat
  nextGroup : Option Nat := none
  deriving DecidableEq, Repr

structure ParsedMessageData where
  msgType : Bytes := []
  root : ParsedEntryData := {}
  fieldSlots : List ParsedFieldSlot := []
  entries : List ParsedEntryData := []
  groups : List ParsedGroupFrame := []
  /-- `field_hash_table` at the current generation: tags below 1024. -/
  fieldHashTable : List (Nat × Nat) := []
  /-- `field_hash_overflow`: the larger tags, cut to 16 bits. -/
  fieldHashOverflow : List (Nat × Nat) := []
  deriving DecidableEq, Repr

/-- The tables are searched from the front. -/
theorem lookup_append_singleton (l : List (Nat × Nat)) (k i key : Nat) :
    (l ++ [(k, i)]).lookup key = (l.lookup key).or (if k = key then some i else none) := by
  rw [List.lookup_append]
  congr 1
  rw [List.lookup_cons]
  by_cases hk : k = key
  · simp [hk]
  · have hbeq : (key == k) = false := by simpa using fun h => hk h.symm
    simp [hbeq, hk]

/-- Where a field or group is stored: the root or a group entry. -/
inductive ParsedContainer
  | root
  | entry (index : Nat)
  deriving DecidableEq, Repr

namespace ParsedMessageData

variable (p : ParsedMessageData)

/-- The root table entry for `tag`. -/
def rootIndex (tag : Nat) : Option Nat :=
  if tag < 1024 then p.fieldHashTable.lookup tag else p.fieldHashOverflow.lookup (tag % 2 ^ 16)

def container : ParsedContainer → ParsedEntryData
  | .root => p.root
  | .entry index => p.entries.getD index {}

def modifyContainer (c : ParsedContainer) (f : ParsedEntryData → ParsedEntryData) :
    ParsedMessageData :=
  match c with
  | .root => { p with root := f p.root }
  | .entry index => { p with entries := p.entries.modify index f }

/-- `FindParsedFieldIndex`: the tables for the root, a scan of its slots for a group entry. -/
def findFieldIndex (c : ParsedContainer) (tag : Nat) : Option Nat :=
  match c with
  | .root => p.rootIndex tag
  | .entry index =>
    let e := p.entries.getD index {}
    e.firstFieldIndex.bind fun first =>
      (((p.fieldSlots.drop first).take e.fieldCount).findIdx? fun s => s.tag == tag).map (first + ·)

def insertIntoRootHashTable (tag slotIndex : Nat) : ParsedMessageData :=
  if tag < 1024 then
    { p with fieldHashTable := p.fieldHashTable ++ [(tag, slotIndex % 2 ^ 16)] }
  else
    { p with fieldHashOverflow :=
        p.fieldHashOverflow ++ [(tag % 2 ^ 16, slotIndex % 2 ^ 16)] }

/-- `AppendParsedFieldSlot`: overwrite the slot with the same tag (`true`), or append one. -/
def appendFieldSlot (c : ParsedContainer) (slot : ParsedFieldSlot) : ParsedMessageData × Bool :=
  match p.findFieldIndex c slot.tag with
  | some existing => ({ p with fieldSlots := p.fieldSlots.set existing slot }, true)
  | none =>
    let newIndex := p.fieldSlots.length
    let p := { p with fieldSlots := p.fieldSlots ++ [slot] }
    let p := p.modifyContainer c fun e =>
      { e with
        firstFieldIndex := e.firstFieldIndex.orElse fun _ => some newIndex
        fieldCount := (e.fieldCount + 1) % 2 ^ 16 }
    (if c = .root then p.insertIntoRootHashTable slot.tag newIndex else p, false)

/-- Follow `next_group` links from `start`; `fuel` bounds the walk by the number of groups. -/
def groupChain : Nat → Option Nat → List (Nat × ParsedGroupFrame)
  | fuel + 1, some index =>
    match p.groups[index]? with
    | some g => (index, g) :: groupChain fuel g.nextGroup
    | none => []
  | _, _ => []

/-- The groups of a container, in the order they were met. -/
def groupsOf (e : ParsedEntryData) : List (Nat × ParsedGroupFrame) :=
  p.groupChain p.groups.length e.firstGroup

/-- `EnsureParsedGroup`. -/
def ensureGroup (c : ParsedContainer) (countTag depth : Nat) : ParsedMessageData × Nat :=
  match (p.groupsOf (p.container c)).find? fun g => g.2.countTag == countTag with
  | some (existing, _) => (p, existing)
  | none =>
    let newIndex := p.groups.length
    let p' := { p with groups := p.groups ++ [({ countTag, depth } : ParsedGroupFrame)] }
    let p' := match (p.container c).firstGroup, (p.container c).lastGroup with
      | some _, some last =>
        { p' with groups := p'.groups.modify last fun g => { g with nextGroup := some newIndex } }
      | _, _ => p'
    (p'.modifyContainer c fun e =>
      { e with
        firstGroup := e.firstGroup.orElse fun _ => some newIndex
        lastGroup := some newIndex
        groupCount := (e.groupCount + 1) % 2 ^ 16 }, newIndex)

/-- `AppendParsedEntry`. -/
def appendEntry (groupIndex : Nat) : ParsedMessageData × Nat :=
  let newIndex := p.entries.length
  let p' := { p with entries := p.entries ++ [({} : ParsedEntryData)] }
  let p' := match (p.groups[groupIndex]?).bind fun g => g.lastEntry with
    | some last =>
      { p' with entries := p'.entries.modify last fun e => { e with nextEntry := some newIndex } }
    | none => p'
  ({ p' with groups := p'.groups.modify groupIndex fun g =>
      { g with
        firstEntry := g.firstEntry.orElse fun _ => some newIndex
        lastEntry := some newIndex
        entryCount := (g.entryCount + 1) % 2 ^ 16 } }, newIndex)

/-- The slots as they are read from the frame. Where every offset fits into its word this is the text
they were scanned with. -/
def locate (bytes : Bytes) (p : ParsedMessageData) : ParsedMessageData :=
  if bytes.length < 2 ^ 32 then p
  else { p with fieldSlots := p.fieldSlots.map (ParsedFieldSlot.locate bytes) }

theorem locate_of_lt {bytes : Bytes} (h : bytes.length < 2 ^ 32) (p : ParsedMessageData) :
    p.locate bytes = p := if_pos h

/-! ## Reading the root (`MessageView` on a parsed message) -/

/-- The eight tags of the quick cache. -/
def isQuickCacheTag (tag : Nat) : Bool := [8, 9, 35, 34, 49, 56, 52, 10].contains tag

/-- `FindParsedField` on the root. -/
def findField (tag : Nat) : Option ParsedFieldSlot :=
  if p.root.firstFieldIndex.isNone ∨ p.root.fieldCount = 0 then none
  else (p.rootIndex tag).bind fun index =>
    if isQuickCacheTag tag ∧ index = 2 ^ 16 - 1 then none else p.fieldSlots[index]?

def hasField (tag : Nat) : Bool :=
  (p.findField tag).isSome || (tag == Tag.msgType && !p.msgType.isEmpty)

def getString (tag : Nat) : Option Bytes :=
  match p.findField tag with
  | some slot => if slot.type = .string then some slot.value else none
  | none => if tag = Tag.msgType ∧ p.msgType ≠ [] then some p.msgType else none

/-- `get_int`; a text that is no number reads as `0`. -/
def getInt (tag : Nat) : Option Int :=
  (p.findField tag).bind fun slot =>
    if slot.type = .int then some ((parseSigned slot.value).getD 0) else none

def getBoolean (tag : Nat) : Option Bool :=
  (p.findField tag).bind fun slot =>
    if slot.type = .boolean then some (slot.value == ascii "Y") else none

end ParsedMessageData

end NimbleFix
