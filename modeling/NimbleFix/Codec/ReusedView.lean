import NimbleFix.Codec.GenericDecode
import NimbleFix.Lib.Simulates

/-!
# Decoding into a view that is reused (`message_structs.h`, `PrepareDecodeOutput`)

A `DecodedMessageView` is decoded into many times. Its vectors are cleared before every decode, but
not the table of the small tags: each entry of the table has the generation of the decode that wrote
it, and only those of the current generation count. `ReusedView` keeps all of this between decodes;
`decodeInto` is the generic decoder on it, which leaves what it has written if it fails.

The decoder reaches the parsed message through a few operations, `PoolOps`; `decodeOn` is written
over them.
-/

namespace NimbleFix

/-! ## The parsed message between decodes -/

def kInvalidHashSlot : Nat := 2 ^ 16 - 1

def kFieldHashTableSize : Nat := 1024

def quickCacheSlotForTag (tag : Nat) : Option Nat :=
  [Tag.beginString, Tag.bodyLength, Tag.msgType, Tag.msgSeqNum, Tag.senderCompID, Tag.targetCompID,
    Tag.sendingTime, Tag.checkSum].findIdx? (· == tag)

/-- `ParsedMessageData` as it is kept. The message type, the vectors and the windows are those of
`pool`, whose own tables are not used. -/
structure ReusedData where
  pool : ParsedMessageData := {}
  /-- A generation in the high half of a word, a slot index in the low half. -/
  fieldHashTable : List Nat := List.replicate kFieldHashTableSize 0
  /-- A tag, then its slot index, both cut to 16 bits. -/
  fieldHashOverflow : List Nat := []
  fieldGeneration : Nat := 1
  quickCache : List Nat := List.replicate 8 kInvalidHashSlot
  deriving DecidableEq, Repr

namespace ReusedData

/-- The scan of the overflow table. -/
def scanOverflow (tag : Nat) : List Nat → Option Nat
  | t :: index :: rest => if t = tag then some index else scanOverflow tag rest
  | _ => none

/-- `FindParsedFieldIndex` for the root. -/
def rootIndex (r : ReusedData) (tag : Nat) : Option Nat :=
  if tag < kFieldHashTableSize then
    let packed := r.fieldHashTable.getD tag 0
    if packed / 2 ^ 16 % 2 ^ 16 = r.fieldGeneration then some (packed % 2 ^ 16) else none
  else scanOverflow (tag % 2 ^ 16) r.fieldHashOverflow

def insertIntoRootHashTable (r : ReusedData) (tag slotIndex : Nat) : ReusedData :=
  if tag < kFieldHashTableSize then
    let packed := r.fieldGeneration * 2 ^ 16 + slotIndex % 2 ^ 16
    { r with fieldHashTable := r.fieldHashTable.set tag packed }
  else
    { r with
      fieldHashOverflow := r.fieldHashOverflow ++ [tag % 2 ^ 16, slotIndex % 2 ^ 16] }

/-- Remember the slot of a tag that has a place in the quick cache. -/
def cacheSlot (r : ReusedData) (tag slotIndex : Nat) : ReusedData :=
  match quickCacheSlotForTag tag with
  | some i => { r with quickCache := r.quickCache.set i (slotIndex % 2 ^ 16) }
  | none => r

/-- `AppendParsedFieldSlot` for the root. -/
def appendRootSlot (slot : ParsedFieldSlot) (r : ReusedData) : ReusedData :=
  match r.rootIndex slot.tag with
  | some existing => { r with pool.fieldSlots := r.pool.fieldSlots.set existing slot }
  | none =>
    let newIndex := r.pool.fieldSlots.length
    let r := { r with
      pool.fieldSlots := r.pool.fieldSlots ++ [slot]
      pool.root.firstFieldIndex := r.pool.root.firstFieldIndex.orElse fun _ => some newIndex
      pool.root.fieldCount := (r.pool.root.fieldCount + 1) % 2 ^ 16 }
    (r.insertIntoRootHashTable slot.tag newIndex).cacheSlot slot.tag newIndex

/-- `ResetForNewDecode`: only if the generation wraps around is the table cleared. -/
def resetForNewDecode (r : ReusedData) : ReusedData :=
  let generation := (r.fieldGeneration + 1) % 2 ^ 16
  { pool := {}
    fieldHashTable :=
      if generation = 0 then List.replicate kFieldHashTableSize 0 else r.fieldHashTable
    fieldHashOverflow := []
    fieldGeneration := if generation = 0 then 1 else generation
    quickCache := List.replicate 8 kInvalidHashSlot }

/-- `FindParsedField` on the root. -/
def findField (r : ReusedData) (tag : Nat) : Option ParsedFieldSlot :=
  if r.pool.root.firstFieldIndex.isNone ∨ r.pool.root.fieldCount = 0 then none
  else
    match quickCacheSlotForTag tag with
    | some i =>
      let index := r.quickCache.getD i kInvalidHashSlot
      if index = kInvalidHashSlot then none else r.pool.fieldSlots[index]?
    | none => (r.rootIndex tag).bind fun index => r.pool.fieldSlots[index]?

end ReusedData

/-! ## The decoder over the operations -/

/-- What the generic decoder does to a parsed message `π`. -/
structure PoolOps (π : Type) where
  setMsgType : Bytes → π → π
  appendRootSlot : ParsedFieldSlot → π → π
  ensureGroup : ParsedContainer → Nat → Nat → π → π × Nat
  appendEntry : Nat → π → π × Nat
  appendEntrySlot : Nat → ParsedFieldSlot → π → π

/-- The operations on a reused one: those on groups do not touch the tables. -/
def ReusedData.ops : PoolOps ReusedData where
  setMsgType msgType r := { r with pool.msgType := msgType }
  appendRootSlot := ReusedData.appendRootSlot
  ensureGroup c countTag depth r :=
    ({ r with pool := (r.pool.ensureGroup c countTag depth).1 },
      (r.pool.ensureGroup c countTag depth).2)
  appendEntry frame r :=
    ({ r with pool := (r.pool.appendEntry frame).1 }, (r.pool.appendEntry frame).2)
  appendEntrySlot entry slot r :=
    { r with pool := (r.pool.appendFieldSlot (.entry entry) slot).1 }

/-- The bytes left, and the issue. -/
structure ScanPos where
  rest : Bytes
  issue : Option ValidationIssue

/-- The state of the field loop apart from the parsed message. -/
structure LoopState where
  header : SessionHeaderView
  issue : Option ValidationIssue := none
  validation : ScopeValidation := {}
  messageDef : Option MessageDef := none
  fieldCount : Nat := 2

namespace LoopState

def rules (st : LoopState) : List FieldRule := (st.messageDef.map MessageDef.rules).getD []

def groupDef (d : Dictionary) (st : LoopState) (tag : Nat) : Option GroupDef :=
  st.messageDef.bind fun m => if (ruleIndex m.rules tag).isSome then d.findGroup tag else none

end LoopState

section

variable {π : Type} (ops : PoolOps π) (parsesDouble : Bytes → Bool) (d : Dictionary) (delim : Byte)

open Fallible

/-- `parseEntries` over the operations. -/
def parseEntriesOn (g : GroupDef) (frame : Nat)
    (parseFields : Nat → ScanPos → Fallible Status π (List ParsedFieldSlot × ScanPos)) :
    Nat → Nat → ScanPos → Fallible Status π ScanPos
  | 0, _, c => pure c
  | remaining + 1, entryNumber, c =>
    let missingEntry : ScanPos := { c with
      issue := setIssue c.issue .incorrectNumInGroupCount g.countTag
        (expectedDelimiterText g entryNumber) }
    if c.rest = [] then pure missingEntry
    else ofExcept (scanNextField delim c.rest) >>= fun peek =>
      if peek.1.tag ≠ g.delimiterTag then
        pure (if (ruleIndex g.rules peek.1.tag).isSome then
          { c with
            issue := setIssue c.issue .repeatingGroupFieldsOutOfRequiredOrder peek.1.tag
              (fieldText peek.1.tag " is out of required order within the repeating group") }
        else missingEntry)
      else do
        let entry ← step (ops.appendEntry frame)
        let fields ← parseFields entry c
        modify fun p =>
          (fields.1.take kMaxDeferredSlots).foldl (fun p slot => ops.appendEntrySlot entry slot p) p
        parseEntriesOn g frame parseFields remaining (entryNumber + 1) fields.2

/-- `parseGroup` over the operations. -/
def parseGroupOn (countValue : Bytes) (g : GroupDef) (parent : ParsedContainer) (depth : Nat)
    (parseFields : Nat → ScanPos → Fallible Status π (List ParsedFieldSlot × ScanPos))
    (c : ScanPos) : Fallible Status π ScanPos :=
  ofExcept (parseUnsigned countValue "group count") >>= fun count =>
    if kMaxGroupEntryCount < count then
      fail (.FormatError ("group " ++ toString g.countTag ++ " entry count " ++ toString count ++
        " exceeds maximum " ++ toString kMaxGroupEntryCount))
    else if kMaxGroupNestingDepth ≤ depth then
      fail (.FormatError ("group " ++ toString g.countTag ++ " nesting depth " ++ toString depth ++
        " exceeds maximum " ++ toString kMaxGroupNestingDepth))
    else do
      let frame ← step (ops.ensureGroup parent g.countTag depth)
      parseEntriesOn ops delim g frame parseFields count 1 c

/-- `parseEntryFields` over the operations. -/
def parseEntryFieldsOn : Nat → GroupDef → Nat → Bool → ScopeValidation → Nat → ScanPos →
    Fallible Status π (List ParsedFieldSlot × ScanPos)
  | 0, _, _, _, _, _, c => pure ([], c)
  | fuel + 1, g, depth, seenAny, state, entry, c =>
    if c.rest = [] then pure ([], c)
    else ofExcept (scanNextField delim c.rest) >>= fun r =>
      if seenAny ∧ r.1.tag = g.delimiterTag then pure ([], c)
      else
        match ruleIndex g.rules r.1.tag with
        | none => pure ([], c)
        | some ri =>
          let type := resolveFieldType r.1.tag (d.findField r.1.tag)
          let checked := validateGroupField d r.1.tag ri state c.issue
          let issue := validateScalarFieldValue parsesDouble r.1.tag r.1.value type checked.2
          let slot := ParsedFieldSlot.make r.1.tag r.1.value type r.2.length
          (match d.findGroup r.1.tag with
            | some nested =>
              parseGroupOn ops delim r.1.value nested (.entry entry) (depth + 1)
                (parseEntryFieldsOn fuel nested (depth + 1) false {}) ⟨r.2, issue⟩
            | none => pure ⟨r.2, issue⟩) >>= fun c =>
              parseEntryFieldsOn fuel g depth true checked.1 entry c >>= fun fields =>
                pure (slot :: fields.1, fields.2)

/-- `readMsgType` over the operations. -/
def readMsgTypeOn (field : InlineField) (rest : Bytes) (st : LoopState) :
    Fallible Status π LoopState :=
  let messageDef := d.findMessage field.value
  let st := { st with messageDef, header := { st.header with msgType := field.value } }
  let checked :=
    validateConsumedField d Tag.msgType st.rules messageDef.isSome none st.validation st.issue
  do
    modify (ops.setMsgType field.value)
    modify (ops.appendRootSlot (.make Tag.msgType field.value
      (resolveFieldType Tag.msgType (d.findField Tag.msgType)) rest.length))
    pure { st with validation := checked.1, issue := checked.2 }

/-- `decodeBodyField` over the operations. -/
def decodeBodyFieldOn (field : InlineField) (rest : Bytes) (st : LoopState) :
    Fallible Status π (LoopState × Bytes) :=
  let tag := field.tag
  let type := resolveFieldType tag (d.findField tag)
  let checked := validateConsumedField d tag st.rules st.messageDef.isSome
    (if (st.groupDef d tag).isSome then none else some .tagSpecifiedOutOfRequiredOrder)
    st.validation st.issue
  let issue := validateScalarFieldValue parsesDouble tag field.value type checked.2
  modify (ops.appendRootSlot (.make tag field.value type rest.length)) >>= fun _ =>
    match st.groupDef d tag with
    | some g =>
      parseGroupOn ops delim field.value g .root 1
        (parseEntryFieldsOn ops parsesDouble d delim rest.length g 1 false {}) ⟨rest, issue⟩ >>=
          fun c => pure ({ st with validation := checked.1, issue := c.issue }, c.rest)
    | none => pure ({ st with validation := checked.1, issue }, rest)

/-- `decodeGenericField` over the operations. -/
def decodeFieldOn (field : InlineField) (rest : Bytes) (st : LoopState) :
    Fallible Status π (LoopState × Bytes) :=
  if Tag.isFrameStructureTag field.tag then pure (st, rest)
  else if field.tag = Tag.msgType then
    readMsgTypeOn ops d field rest st >>= fun st => pure (st, rest)
  else
    ofExcept (st.header.extract field.tag field.value) >>= fun header =>
      decodeBodyFieldOn ops parsesDouble d delim field rest { st with header }

/-- `GenericLoopEnd` without the parsed message. -/
structure ScanEnd where
  state : LoopState
  trailer : Option Bytes
  rest : Bytes

/-- `decodeGenericLoop` over the operations. -/
def decodeLoopOn : Nat → Bytes → LoopState → Fallible Status π ScanEnd
  | 0, bytes, st => pure ⟨st, none, bytes⟩
  | fuel + 1, bytes, st =>
    if bytes = [] then pure ⟨st, none, []⟩
    else ofExcept (scanNextField delim bytes) >>= fun r =>
      let st := { st with fieldCount := st.fieldCount + 1 }
      if r.1.tag = Tag.checkSum then
        ofExcept (parseUnsigned r.1.value "CheckSum") >>= fun checksum =>
          pure ⟨{ st with header := { st.header with checksum } }, some bytes, r.2⟩
      else
        decodeFieldOn ops parsesDouble d delim r.1 r.2 st >>= fun next =>
          decodeLoopOn fuel next.2 next.1

/-- `checkFrame` over the operations: the header and the issue that are handed out. -/
def checkFrameOn (verifyChecksum : Bool) (bytes afterLength : Bytes) (declared : Nat)
    (e : ScanEnd) : Except Status (SessionHeaderView × Option ValidationIssue) :=
  (checkFrame verifyChecksum bytes afterLength declared
    { state := { header := e.state.header, issue := e.state.issue, fieldCount := e.state.fieldCount }
      trailer := e.trailer
      rest := e.rest }).map fun view => (view.header, view.validationIssue)

/-- The generic decoder over the operations, after the output is prepared. -/
def decodeOn (verifyChecksum : Bool) (bytes : Bytes) :
    Fallible Status π (SessionHeaderView × Option ValidationIssue) :=
  ofExcept (scanNextField delim bytes) >>= fun first =>
    if first.1.tag ≠ Tag.beginString then fail frameShapeError
    else
      ofExcept (scanNextField delim first.2) >>= fun second =>
        if second.1.tag ≠ Tag.bodyLength then fail frameShapeError
        else
          ofExcept (parseUnsigned second.1.value "BodyLength") >>= fun declared =>
            decodeLoopOn ops parsesDouble d delim second.2.length second.2
              { header := { beginString := first.1.value, bodyLength := declared } } >>= fun e =>
                ofExcept (checkFrameOn verifyChecksum bytes second.2 declared e)

end

/-! ## The view -/

/-- `DecodedMessageView` as it is kept between decodes. -/
structure ReusedView where
  data : ReusedData := {}
  header : SessionHeaderView := {}
  raw : Bytes := []
  validationIssue : Option ValidationIssue := none

def ReusedView.prepareDecodeOutput (bytes : Bytes) (v : ReusedView) : ReusedView where
  data := v.data.resetForNewDecode
  raw := bytes

/-- `DecodeFixMessageView` into a view. The header and the issue are handed out at the end; a decode
that fails leaves the parsed message as far as it got. -/
def decodeInto (parsesDouble : Bytes → Bool) (d : Dictionary) (delimiter : Byte)
    (verifyChecksum : Bool) (bytes : Bytes) : Fallible Status ReusedView Unit := fun v =>
  let v := v.prepareDecodeOutput bytes
  match decodeOn ReusedData.ops parsesDouble d (normalizeDelimiter delimiter) verifyChecksum bytes
      v.data with
  | (.ok (header, validationIssue), data) => (.ok (), { data, header, raw := bytes, validationIssue })
  | (.error e, data) => (.error e, { v with data })

end NimbleFix
