import NimbleFix.Codec.Decode

/-!
# Views of a parsed message (`message/message.cpp`)

How a reader of a decoded message sees it: fields of the root or of a group entry by index, groups
by tag or by index, entries in order, and the owned copy that `ToOwned` makes.
-/

namespace NimbleFix

namespace ParsedMessageData

variable (p : ParsedMessageData)

/-- The slots of an entry, as `field_at` enumerates them. -/
def slotsOf (e : ParsedEntryData) : List ParsedFieldSlot :=
  match e.firstFieldIndex with
  | some first => (p.fieldSlots.drop first).take e.fieldCount
  | none => []

/-- Follow `next_entry` links from `start`; `fuel` bounds the walk by the number of entries. -/
def entryChain : Nat → Option Nat → List ParsedEntryData
  | fuel + 1, some index =>
    match p.entries[index]? with
    | some e => e :: entryChain fuel e.nextEntry
    | none => []
  | _, _ => []

def entriesOf (g : ParsedGroupFrame) : List ParsedEntryData :=
  p.entryChain p.entries.length g.firstEntry

/-- The entries that iterating over a group visits: none if the counter of its entries is zero. -/
def iteratedEntries (g : ParsedGroupFrame) : List ParsedEntryData :=
  if g.entryCount = 0 then [] else p.entriesOf g

/-- `group(tag)` of a view. -/
def groupOf (e : ParsedEntryData) (tag : Nat) : Option ParsedGroupFrame :=
  ((p.groupsOf e).find? fun g => g.2.countTag == tag).map Prod.snd

/-- `NthParsedField`, which `field_at` returns a view of. -/
def nthField (e : ParsedEntryData) (index : Nat) : Option ParsedFieldSlot :=
  e.firstFieldIndex.bind fun first =>
    if e.fieldCount ≤ index then none else p.fieldSlots[first + index]?

/-- The fields `field_at` gives for the indices below `field_count`. -/
def enumerate (e : ParsedEntryData) : List ParsedFieldSlot :=
  (List.range e.fieldCount).filterMap (p.nthField e)

end ParsedMessageData

/-! ## Owned copies -/

/-- `to_owned` on the view of a slot. `readDouble` gives the double that `std::from_chars` reads off
a text, represented as in `ScalarValue`. -/
def ParsedFieldSlot.toOwned (readDouble : Bytes → Bytes) (s : ParsedFieldSlot) : FieldValue where
  tag := s.tag
  value := match s.type with
    | .string => .string s.value
    | .int => .int ((parseSigned s.value).getD 0)
    | .float => .float (readDouble s.value)
    | .char => .char (if s.value.length = 1 then s.value.headD 0 else 0)
    | .boolean => .boolean (s.value == ascii "Y")

/-- `CopyViewToOwned`: the fields by index, then the groups by index with their entries. Entries
have no message type. The decoder nests no deeper than `depth`. -/
def ParsedMessageData.copyView (readDouble : Bytes → Bytes) (p : ParsedMessageData) :
    Nat → Bytes → ParsedEntryData → MessageData
  | 0, msgType, e => .mk msgType ((p.enumerate e).map (ParsedFieldSlot.toOwned readDouble)) []
  | depth + 1, msgType, e =>
    .mk msgType ((p.enumerate e).map (ParsedFieldSlot.toOwned readDouble))
      (((p.groupsOf e).take e.groupCount).map fun g =>
        .mk g.2.countTag ((p.iteratedEntries g.2).map (p.copyView readDouble depth [])))

def ParsedMessageData.toOwned (readDouble : Bytes → Bytes) (p : ParsedMessageData) : MessageData :=
  p.copyView readDouble kMaxGroupNestingDepth p.msgType p.root

end NimbleFix
