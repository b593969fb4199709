import Mathlib.Logic.Function.Basic
import NimbleFix.Runtime.RoutingExpression

/-!
# The routing table (`runtime/router.cpp`)

Rules in the order of their priorities, and a balancer state for each rule name. A map from names or
keys is a function: `operator[]` makes a fresh state where there is none. `RouterRun` keeps, next to
the table, what its laws speak of: the rules that were added and not removed, and the balanced
selections under each name since its state was last erased.
-/

namespace NimbleFix

namespace Router

inductive LoadBalancingMode
  | none
  | roundRobin
  | sticky
  deriving DecidableEq, Repr

structure LoadBalancerConfig where
  mode : LoadBalancingMode := .none
  targetSessions : List Nat := []
  stickyKeyTag : UInt32 := 0
  deriving DecidableEq, Repr

inductive RoutingCriterion
  | all
  | msgType
  | custom
  | expression
  deriving DecidableEq, Repr

inductive RoutingAction
  | forward
  | drop
  | reject
  deriving DecidableEq, Repr

structure RoutingRule where
  name : Bytes := []
  criterion : RoutingCriterion := .all
  msgType : Bytes := []
  predicate : Option (RoutedMessage → Nat) := none
  expression : List Clause := []
  action : RoutingAction := .forward
  targetSessionId : Nat := 0
  loadBalancer : LoadBalancerConfig := {}
  priority : Nat := 100
  /-- Which object of the table the rule is. -/
  serial : Nat := 0

structure LoadBalancerState where
  roundRobinIndex : Nat := 0
  stickyMap : Bytes → Option Nat := fun _ => none

structure RoutingTable where
  rules : List RoutingRule := []
  defaultAction : RoutingAction := .drop
  defaultTarget : Nat := 0
  loadBalancerStates : Bytes → LoadBalancerState := fun _ => {}

structure RouteResult where
  action : RoutingAction := .drop
  targetSessionId : Nat := 0
  matchedRuleName : Bytes := []
  matchedRule : Option RoutingRule := none

namespace RoutingTable

/-- The rule goes before the first one of a higher priority value (`std::upper_bound`). -/
def addRule (rule : RoutingRule) (t : RoutingTable) : RoutingTable :=
  { t with rules := t.rules.takeWhile (·.priority ≤ rule.priority) ++
      rule :: t.rules.dropWhile (·.priority ≤ rule.priority) }

def removeRule (name : Bytes) (t : RoutingTable) : RoutingTable :=
  { t with
    rules := t.rules.filter (·.name ≠ name)
    loadBalancerStates := Function.update t.loadBalancerStates name {} }

def clear (t : RoutingTable) : RoutingTable :=
  { t with rules := [], loadBalancerStates := fun _ => {} }

end RoutingTable

namespace RoutingRule

variable (rule : RoutingRule)

/-- The target of a rule that matches the message. -/
def matchTarget (cmp : Comparisons) (m : RoutedMessage) : Option Nat :=
  match rule.criterion with
  | .all => some rule.targetSessionId
  | .msgType => if m.msgType = rule.msgType then some rule.targetSessionId else none
  | .custom =>
    match rule.predicate with
    | none => none
    | some predicate => if predicate m ≠ 0 then some (predicate m) else none
  | .expression =>
    if evaluateExpression cmp rule.expression m then some rule.targetSessionId else none

/-- The pool of a rule. -/
def pool : List Nat := rule.loadBalancer.targetSessions

/-- `round_robin_target`. -/
def roundRobinTarget (state : LoadBalancerState) : Nat × LoadBalancerState :=
  (rule.pool.getD (state.roundRobinIndex % rule.pool.length) 0,
    { state with roundRobinIndex := wrap32 (state.roundRobinIndex + 1) })

def selectLoadBalancedTarget (fallbackTarget : Nat) (m : RoutedMessage)
    (state : LoadBalancerState) : Nat × LoadBalancerState :=
  if rule.loadBalancer.mode = .none ∨ rule.pool = [] then (fallbackTarget, state)
  else
    match rule.loadBalancer.mode with
    | .none => (fallbackTarget, state)
    | .roundRobin => rule.roundRobinTarget state
    | .sticky =>
      match extractMessageTagValue m rule.loadBalancer.stickyKeyTag.toNat with
      | none | some [] => rule.roundRobinTarget state
      | some key =>
        match state.stickyMap key with
        | some existing => (existing, state)
        | none =>
          let (selected, state) := rule.roundRobinTarget state
          (selected, { state with stickyMap := Function.update state.stickyMap key (some selected) })

end RoutingRule

/-- `Route`, with the table as it is afterwards. -/
def RoutingTable.route (cmp : Comparisons) (m : RoutedMessage) (t : RoutingTable) :
    RouteResult × RoutingTable :=
  match t.rules.findSome? fun rule => (rule.matchTarget cmp m).map fun target => (rule, target) with
  | some (rule, target) =>
    if rule.action = .forward then
      let (target, state) := rule.selectLoadBalancedTarget target m (t.loadBalancerStates rule.name)
      ({ action := rule.action, targetSessionId := target, matchedRuleName := rule.name
         matchedRule := some rule },
        { t with loadBalancerStates := Function.update t.loadBalancerStates rule.name state })
    else
      ({ action := rule.action, matchedRuleName := rule.name, matchedRule := some rule }, t)
  | none =>
    ({ action := t.defaultAction
       targetSessionId := if t.defaultAction = .forward then t.defaultTarget else 0 }, t)

/-! ## Runs -/

/-- One balanced forward: its rule, the sticky key of the message, and whether the target was drawn
by round robin. -/
structure Selection where
  rule : RoutingRule
  key : Option Bytes
  drawn : Bool
  target : Nat

structure RouterRun where
  table : RoutingTable := {}
  added : Nat := 0
  /-- The rules that are in force, in the order in which they were added. -/
  live : List RoutingRule := []
  history : Bytes → List Selection := fun _ => []

inductive RouterStep
  | addRule (rule : RoutingRule)
  | removeRule (name : Bytes)
  | clear
  | route (m : RoutedMessage)

/-- The rule takes its targets from its pool. -/
def RoutingRule.IsBalanced (rule : RoutingRule) : Prop :=
  rule.action = .forward ∧ rule.loadBalancer.mode ≠ .none ∧ rule.pool ≠ []

instance (rule : RoutingRule) : Decidable rule.IsBalanced := inferInstanceAs (Decidable (_ ∧ _))

/-- The non-empty key of a message under a sticky rule. -/
def RoutingRule.stickyKey (rule : RoutingRule) (m : RoutedMessage) : Option Bytes :=
  if rule.loadBalancer.mode = .sticky then
    (extractMessageTagValue m rule.loadBalancer.stickyKeyTag.toNat).filter (· ≠ [])
  else none

namespace RouterRun

/-- The balanced selection that routing the message makes. -/
def selection (cmp : Comparisons) (m : RoutedMessage) (s : RouterRun) : Option Selection :=
  let result := (s.table.route cmp m).1
  match result.matchedRule with
  | none => none
  | some rule =>
    if rule.IsBalanced then
      let key := rule.stickyKey m
      let state := s.table.loadBalancerStates rule.name
      some { rule, key, drawn := (key.bind state.stickyMap).isNone, target := result.targetSessionId }
    else none

end RouterRun

def RouterStep.run (cmp : Comparisons) : RouterStep → RouterRun → RouterRun
  | .addRule rule, s =>
    let rule := { rule with serial := s.added }
    { s with
      table := s.table.addRule rule
      added := s.added + 1
      live := s.live ++ [rule] }
  | .removeRule name, s =>
    { s with
      table := s.table.removeRule name
      live := s.live.filter (·.name ≠ name)
      history := Function.update s.history name [] }
  | .clear, s => { s with table := s.table.clear, live := [], history := fun _ => [] }
  | .route m, s =>
    { s with
      table := (s.table.route cmp m).2
      history :=
        match s.selection cmp m with
        | none => s.history
        | some sel => Function.update s.history sel.rule.name (s.history sel.rule.name ++ [sel]) }

end Router

end NimbleFix
