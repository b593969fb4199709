import NimbleFix.Codec.Tags

/-!
# The bound dictionary (`profile/normalized_dictionary.cpp`)

Field, message and group definitions with their ordered rule lists. The code keeps sorted indexes
beside the tables for its binary searches; the lookups here are searches of the tables themselves.
Names, string-table offsets and the header and trailer rule sections are left out.
-/

namespace NimbleFix

inductive ValueType
  | unknown
  | string
  | int
  | char
  | float
  | boolean
  | timestamp
  deriving DecidableEq, Repr

structure FieldDef where
  tag : Nat
  valueType : ValueType
  enumValues : List Bytes := []
  deriving DecidableEq, Repr

structure FieldRule where
  tag : Nat
  required : Bool := false
  deriving DecidableEq, Repr

structure MessageDef where
  msgType : Bytes
  rules : List FieldRule
  deriving DecidableEq, Repr

structure GroupDef where
  countTag : Nat
  delimiterTag : Nat
  rules : List FieldRule
  deriving DecidableEq, Repr

structure Dictionary where
  fields : List FieldDef := []
  messages : List MessageDef := []
  groups : List GroupDef := []
  deriving DecidableEq, Repr

/-- The position of the rule for `tag`. -/
def ruleIndex (rules : List FieldRule) (tag : Nat) : Option Nat :=
  rules.findIdx? fun r => r.tag == tag

namespace Dictionary

/-- Tags below `kDirectLookupSize` go through a direct table that a later definition of the same
tag overwrites, larger ones through the sorted index. -/
def findField (d : Dictionary) (tag : Nat) : Option FieldDef :=
  if tag < 10000 then d.fields.reverse.find? fun f => f.tag == tag
  else d.fields.find? fun f => f.tag == tag

def findMessage (d : Dictionary) (msgType : Bytes) : Option MessageDef :=
  d.messages.find? fun m => m.msgType == msgType

def findGroup (d : Dictionary) (countTag : Nat) : Option GroupDef :=
  d.groups.find? fun g => g.countTag == countTag

end Dictionary

/-- `is_enum_value_allowed`. -/
def FieldDef.allowsEnumValue (f : FieldDef) (value : Bytes) : Bool :=
  f.enumValues.isEmpty || value.isEmpty || f.enumValues.contains value

end NimbleFix
