import NimbleFix.Codec.ViewEncode

/-!
# Required fields (`message/typed_message.cpp`, `profile/artifact_builder.cpp`)

The record of a group in an artifact has a bitmap of its required rules, one bit for each of the
first 64, and a flag if a later rule is required. Entries are checked against the bitmap where the
flag is clear and rule by rule where it is set.
-/

namespace NimbleFix

/-- A bitmap with a bit for each rule in `p` from the rule at `index` on, below the 64th. -/
def ruleBits (p : FieldRule → Bool) : List FieldRule → Nat → BitVec 64 → BitVec 64
  | [], _, bitmap => bitmap
  | rule :: rules, index, bitmap =>
    ruleBits p rules (index + 1)
      (if p rule && index < 64 then bitmap ||| 1#64 <<< index else bitmap)

def computeRequiredFieldBitmap (rules : List FieldRule) : BitVec 64 × Bool :=
  (ruleBits (·.required) rules 0 0, (rules.drop 64).any (·.required))

structure RequiredGroupRecord where
  rules : List FieldRule
  requiredBitmapOverflow : Bool
  requiredFieldBitmap : BitVec 64

/-- What `BuildProfileArtifact` writes for a group; `flagged` says that the flags of the group in
the dictionary have the overflow bit already. -/
def GroupDef.requiredRecord (flagged : Bool) (g : GroupDef) : RequiredGroupRecord where
  rules := g.rules
  requiredBitmapOverflow := flagged || (computeRequiredFieldBitmap g.rules).2
  requiredFieldBitmap := (computeRequiredFieldBitmap g.rules).1

/-- `find_group` in the built artifact. -/
def Dictionary.findRequired (d : Dictionary) (flagged : Nat → Bool) (tag : Nat) :
    Option RequiredGroupRecord :=
  (d.findGroup tag).map fun g => g.requiredRecord (flagged tag)

/-- `MessageHasTag`. -/
def MessageView.hasTag (v : MessageView) (tag : Nat) : Bool :=
  (v.find tag).isSome || (v.group tag).isSome

/-- `group[index]`: an empty view past the last entry. -/
def GroupView.entry (g : GroupView) (index : Nat) : MessageView :=
  g.entries.getD index (.mk [] [] (fun _ => none) 0 [])

theorem GroupView.sizeOf_lt {g nested : GroupView} {index tag : Nat}
    (h : (g.entry index).group tag = some nested) : sizeOf nested < sizeOf g := by
  obtain ⟨countTag, size, entries⟩ := g
  unfold GroupView.entry at h
  rw [List.getD_eq_getElem?_getD] at h
  cases hentry : (GroupView.mk countTag size entries).entries[index]? with
  | none =>
    rw [hentry] at h
    cases h
  | some e =>
    rw [hentry] at h
    obtain ⟨msgType, fields, find, groupCount, chain⟩ := e
    have hnested : sizeOf nested < sizeOf chain :=
      List.sizeOf_lt_of_mem (List.mem_of_find?_eq_some h)
    have he : sizeOf (MessageView.mk msgType fields find groupCount chain) < sizeOf entries :=
      List.sizeOf_lt_of_mem (List.mem_of_getElem? hentry)
    simp only [MessageView.mk.sizeOf_spec, GroupView.mk.sizeOf_spec] at he ⊢
    omega

/-- The first required rule whose tag the bitmap of the entry lacks. -/
def missingBit (record : RequiredGroupRecord) (entry : MessageView) : Option Nat :=
  let present := ruleBits (fun rule => entry.hasTag rule.tag) record.rules 0 0
  let missing := record.requiredFieldBitmap &&& ~~~present
  if missing = 0 then none else some (record.rules.getD missing.ctz.toNat ⟨0, false⟩).tag

/-- The check of one entry of a group, with the outcomes `nested` for the groups under its rules.
The bitmap is read only if the loop over the rules reports nothing. -/
def validateRequiredEntry (record : RequiredGroupRecord) (entry : MessageView)
    (nested : FieldRule → Option Nat) : Option Nat :=
  (record.rules.findSome? fun rule =>
    if record.requiredBitmapOverflow && rule.required && !entry.hasTag rule.tag then some rule.tag
    else nested rule).or
  (if record.requiredBitmapOverflow then none else missingBit record entry)

/-- The check of the group that is present under a rule, if the dictionary has it. -/
def validateUnder (findGroup : Nat → Option RequiredGroupRecord) (v : MessageView)
    (rule : FieldRule)
    (check : RequiredGroupRecord → (g : GroupView) → v.group rule.tag = some g → Option Nat) :
    Option Nat :=
  match findGroup rule.tag, h : v.group rule.tag with
  | some record, some group => check record group h
  | _, _ => none

/-- `ValidateRequiredGroup`: the tag that is reported missing. -/
def validateRequiredGroup (findGroup : Nat → Option RequiredGroupRecord)
    (record : RequiredGroupRecord) (group : GroupView) : Option Nat :=
  (List.range group.size).findSome? fun index =>
    validateRequiredEntry record (group.entry index) fun rule =>
      validateUnder findGroup (group.entry index) rule fun nested g _ =>
        validateRequiredGroup findGroup nested g
termination_by sizeOf group
decreasing_by exact GroupView.sizeOf_lt ‹_›

def validateRequiredRules (findGroup : Nat → Option RequiredGroupRecord) (v : MessageView)
    (rules : List FieldRule) : Option Nat :=
  rules.findSome? fun rule =>
    if rule.required && !v.hasTag rule.tag then some rule.tag
    else validateUnder findGroup v rule fun record group _ =>
      validateRequiredGroup findGroup record group

/-- `validate_required_fields` on a view bound to `m`: the status and `missing_tag`. -/
def validateRequiredFields (d : Dictionary) (flagged : Nat → Bool) (m : MessageDef)
    (v : MessageView) : Except (Status × Nat) Unit :=
  match validateRequiredRules (d.findRequired flagged) v m.rules with
  | none => .ok ()
  | some tag => .error
      (.InvalidArgument ("typed message is missing required field " ++ toString tag), tag)

end NimbleFix
