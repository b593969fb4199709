import Mathlib.Data.List.Basic

/-!
# Merging rule lists (`profile/overlay.cpp`)

An overlay dictionary adds rules to the messages and groups of its baseline. `mergeFieldRules` is
`MergeFieldRules`: a rule whose tag is there gives its flags to it, a new one is put before the next
rule of the overlay that is there, or else after the last one before it.
-/

namespace NimbleFix.Profile

structure FieldRule where
  tag : Nat
  flags : Nat := 0
  deriving DecidableEq, Repr

/-- The tags of a rule list. -/
def tags (rules : List FieldRule) : List Nat := rules.map FieldRule.tag

def findFieldRule (rules : List FieldRule) (tag : Nat) : Option Nat :=
  rules.findIdx? fun existing => existing.tag == tag

/-- Where a new rule goes: `seen` are the overlay's rules before it, the last one first, `rest`
those after it. -/
def insertPosition (rules seen rest : List FieldRule) : Nat :=
  match rest.findSome? fun next => findFieldRule rules next.tag with
  | some rightAnchor => rightAnchor
  | none =>
    match seen.findSome? fun prev => findFieldRule rules prev.tag with
    | some leftAnchor => leftAnchor + 1
    | none => rules.length

/-- The body of the loop. -/
def mergeFieldRule (seen rest : List FieldRule) (rule : FieldRule) (rules : List FieldRule) :
    List FieldRule :=
  match findFieldRule rules rule.tag with
  | some existing => rules.modify existing fun r => { r with flags := rule.flags }
  | none =>
    let position := insertPosition rules seen rest
    rules.take position ++ rule :: rules.drop position

def mergeLoop : List FieldRule → List FieldRule → List FieldRule → List FieldRule
  | _, [], rules => rules
  | seen, rule :: rest, rules => mergeLoop (rule :: seen) rest (mergeFieldRule seen rest rule rules)

def mergeFieldRules (rules overlayRules : List FieldRule) : List FieldRule :=
  mergeLoop [] overlayRules rules

end NimbleFix.Profile
