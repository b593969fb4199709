import NimbleFix.Codec.Scan

/-!
# Loading a profile and compiling its templates

`fromProfile` is `NormalizedDictionaryView::FromProfile` on the sections of a loaded artifact: it
checks string offsets and rule ranges and looks at no reference from one group to another. The
indexes it sorts are left out: the lookups search the tables they are built from, and take the first
of several definitions with one key, where the code takes the one its unstable sort puts first.
Field values, enumerations, rule flags and delimiters are not part of the view here, since the
template compiler reads none of them.

`compileScope` is `CompileScopeTemplate`, which calls itself for every rule that names a group. The
depth of these calls is not bounded in the code: `fuel` is the stack, and `none` stands for a stack
that was too small. What a template writes is modelled in `Codec.ViewEncode`, on a dictionary where
every group has its rules at hand; here it is only asked whether the scope can be built.
-/

namespace NimbleFix

/-! ## The sections -/

structure FieldDefRecord where
  tag : Nat
  nameOffset : Nat
  deriving DecidableEq, Repr

structure FieldRuleRecord where
  tag : Nat
  deriving DecidableEq, Repr

structure MessageDefRecord where
  msgTypeOffset : Nat
  nameOffset : Nat
  firstFieldRule : Nat
  fieldRuleCount : Nat
  deriving DecidableEq, Repr

structure GroupDefRecord where
  countTag : Nat
  nameOffset : Nat
  firstFieldRule : Nat
  fieldRuleCount : Nat
  deriving DecidableEq, Repr

/-- The sections of an artifact; one that is missing is `none`. -/
structure LoadedProfile where
  stringTable : Option Bytes := none
  fieldDefs : Option (List FieldDefRecord) := none
  messageDefs : Option (List MessageDefRecord) := none
  groupDefs : Option (List GroupDefRecord) := none
  messageFieldRules : Option (List FieldRuleRecord) := none
  groupFieldRules : Option (List FieldRuleRecord) := none
  deriving DecidableEq, Repr

structure NormalizedDictionaryView where
  stringTable : Bytes
  messageDefs : List MessageDefRecord
  groupDefs : List GroupDefRecord
  messageFieldRules : List FieldRuleRecord
  groupFieldRules : List FieldRuleRecord
  deriving DecidableEq, Repr

/-- `StringTableView::string_at`: up to the terminating zero. -/
def stringAt (table : Bytes) (offset : Nat) : Option Bytes :=
  if table.length ≤ offset then none else (splitAtByte 0 (table.drop offset)).map Prod.fst

def validateStringOffset (table : Bytes) (offset : Nat) (label : String) : Except Status Unit :=
  if (stringAt table offset).isSome then .ok ()
  else .error (.FormatError ("invalid string offset for " ++ label))

def validateFieldRuleRange (first count total : Nat) (label : String) : Except Status Unit :=
  if total < first then .error (.FormatError ("invalid field-rule start for " ++ label))
  else if total - first < count then
    .error (.FormatError ("invalid field-rule range for " ++ label))
  else .ok ()

/-- The checks of `FromProfile` once the required sections are there. -/
def NormalizedDictionaryView.validate (v : NormalizedDictionaryView)
    (fields : List FieldDefRecord) : Except Status Unit := do
  fields.forM fun field => validateStringOffset v.stringTable field.nameOffset "field definition"
  v.messageDefs.forM fun m => do
    validateStringOffset v.stringTable m.nameOffset "message definition"
    validateStringOffset v.stringTable m.msgTypeOffset "message type"
    validateFieldRuleRange m.firstFieldRule m.fieldRuleCount v.messageFieldRules.length
      "message definition"
  v.groupDefs.forM fun g => do
    validateStringOffset v.stringTable g.nameOffset "group definition"
    validateFieldRuleRange g.firstFieldRule g.fieldRuleCount v.groupFieldRules.length
      "group definition"

def fromProfile (p : LoadedProfile) : Except Status NormalizedDictionaryView :=
  match p.stringTable, p.fieldDefs with
  | none, _ => .error (.FormatError "artifact is missing the string-table section")
  | some _, none => .error (.FormatError "artifact is missing required section: field-defs")
  | some stringTable, some fields =>
    let view : NormalizedDictionaryView :=
      { stringTable
        messageDefs := p.messageDefs.getD []
        groupDefs := p.groupDefs.getD []
        messageFieldRules := p.messageFieldRules.getD []
        groupFieldRules := p.groupFieldRules.getD [] }
    if view.messageDefs ≠ [] ∧ p.messageFieldRules = none then
      .error (.FormatError "artifact has message definitions without message field rules")
    else if view.groupDefs ≠ [] ∧ p.groupFieldRules = none then
      .error (.FormatError "artifact has group definitions without group field rules")
    else do
      view.validate fields
      .ok view

namespace NormalizedDictionaryView

variable (v : NormalizedDictionaryView)

def messageType (m : MessageDefRecord) : Option Bytes := stringAt v.stringTable m.msgTypeOffset

def findMessage (msgType : Bytes) : Option MessageDefRecord :=
  v.messageDefs.find? fun m => v.messageType m == some msgType

def findGroup (countTag : Nat) : Option GroupDefRecord :=
  v.groupDefs.find? fun g => g.countTag == countTag

def messageRules (m : MessageDefRecord) : List FieldRuleRecord :=
  (v.messageFieldRules.drop m.firstFieldRule).take m.fieldRuleCount

def groupRules (g : GroupDefRecord) : List FieldRuleRecord :=
  (v.groupFieldRules.drop g.firstFieldRule).take g.fieldRuleCount

end NormalizedDictionaryView

/-! ## Compiled scopes -/

/-- A step of a compiled scope; `groupScope` is the scope of its entries if it is a group. -/
structure CompiledScopeStep (α : Type) where
  tag : Nat
  ruleIndex : Nat
  tagPrefix : Bytes
  groupScope : Option α

inductive CompiledScopeTemplate
  | mk (steps : List (CompiledScopeStep CompiledScopeTemplate)) (scalarTags groupTags : List Nat)

def makeTagPrefix (tag : Nat) : Bytes := decimal tag ++ [equalsByte]

/-- Append the step of a rule, as a group if it has a scope. -/
def CompiledScopeTemplate.addStep (scope : CompiledScopeTemplate) (tag ruleIndex : Nat)
    (groupScope : Option CompiledScopeTemplate) : CompiledScopeTemplate :=
  match scope with
  | .mk steps scalarTags groupTags =>
    .mk (steps ++ [⟨tag, ruleIndex, makeTagPrefix tag, groupScope⟩])
      (if groupScope.isSome then scalarTags else scalarTags ++ [tag])
      (if groupScope.isSome then groupTags ++ [tag] else groupTags)

namespace NormalizedDictionaryView

variable (v : NormalizedDictionaryView)

/-- The loop of `CompileScopeTemplate`; `compileGroup` is the call for the rules of a group. -/
def compileRules (compileGroup : List FieldRuleRecord → Option CompiledScopeTemplate)
    (skipManagedHeaderFields : Bool) :
    Nat → List FieldRuleRecord → CompiledScopeTemplate → Option CompiledScopeTemplate
  | _, [], scope => some scope
  | index, rule :: rules, scope =>
    if skipManagedHeaderFields ∧ Tag.isAggregateSessionHeaderTag rule.tag then
      compileRules compileGroup skipManagedHeaderFields (index + 1) rules scope
    else
      match v.findGroup rule.tag with
      | none => compileRules compileGroup skipManagedHeaderFields (index + 1) rules
          (scope.addStep rule.tag index none)
      | some g =>
        match compileGroup (v.groupRules g) with
        | none => none
        | some groupScope => compileRules compileGroup skipManagedHeaderFields (index + 1) rules
            (scope.addStep rule.tag index (some groupScope))

/-- `CompileScopeTemplate`. -/
def compileScope : Nat → Bool → List FieldRuleRecord → Option CompiledScopeTemplate
  | 0, _, _ => none
  | fuel + 1, skipManagedHeaderFields, rules =>
    v.compileRules (compileScope fuel false) skipManagedHeaderFields 0 rules (.mk [] [] [])

/-- The message that `PrecompiledTemplateTable::Build` compiles for a definition: the one that is
found under its type, unless the type is empty. -/
def templateMessage (m : MessageDefRecord) : Option MessageDefRecord :=
  match v.messageType m with
  | some msgType => if msgType = [] then none else v.findMessage msgType
  | none => none

/-- `PrecompiledTemplateTable::Build`, with the body scope as the part of a template that depends on
the dictionary. -/
def buildTemplates (fuel : Nat) : Option (List CompiledScopeTemplate) :=
  (v.messageDefs.filterMap v.templateMessage).mapM fun m =>
    v.compileScope fuel true (v.messageRules m)

/-- Some stack is large enough. -/
def CompilationEnds : Prop := ∃ fuel, (v.buildTemplates fuel).isSome

end NormalizedDictionaryView

end NimbleFix
