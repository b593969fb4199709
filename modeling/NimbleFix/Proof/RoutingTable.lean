import Mathlib.Data.List.TakeWhile
import NimbleFix.Lib.Transition
import NimbleFix.Runtime.RoutingTable

/-!
# Laws of the routing table

Balancer states are kept by rule name, so two rules of one name draw from one counter and read one
sticky map. `Own` says that a selection is made by the rule that made all others from its state, and
that the 32-bit counter is not about to lose its place in the pool. In a run whose routings are such,
every name's history is `Balanced`: the draws go round the pool, and the sticky map is what its rule
selected.
-/

namespace NimbleFix

namespace Router

/-! ## The laws -/

/-- The order in which rules are tried. -/
def RoutingRule.Before (a b : RoutingRule) : Prop :=
  a.priority < b.priority ∨ a.priority = b.priority ∧ a.serial < b.serial

namespace RouterRun

/-- The round-robin selections of one rule. -/
def drawsOf (s : RouterRun) (name : Bytes) (serial : Nat) : List Selection :=
  (s.history name).filter fun sel => sel.drawn ∧ sel.rule.serial = serial

structure Laws (s : RouterRun) : Prop where
  pool : ∀ name, ∀ sel ∈ s.history name, sel.target ∈ sel.rule.pool
  sticky : ∀ name, ∀ a ∈ s.history name, ∀ b ∈ s.history name, a.rule.serial = b.rule.serial →
    ∀ key, a.key = some key → b.key = some key → a.target = b.target
  rotation : ∀ name, ∀ sel ∈ s.history name, ∀ window,
    window <:+: s.drawsOf name sel.rule.serial → window.length = sel.rule.pool.length →
      (window.map (·.target)).Perm sel.rule.pool

/-- The message goes to the first matching rule in force, if there is one, and without a balanced
pool to the target of that rule. -/
def FirstMatch (cmp : Comparisons) (m : RoutedMessage) (s : RouterRun) : Prop :=
  let result := (s.table.route cmp m).1
  match result.matchedRule with
  | none => ∀ other ∈ s.live, other.matchTarget cmp m = none
  | some rule =>
    result.action = rule.action ∧ result.matchedRuleName = rule.name ∧
    (rule.action = .forward → ¬rule.IsBalanced →
      rule.matchTarget cmp m = some result.targetSessionId) ∧
    rule ∈ s.live ∧ rule.matchTarget cmp m ≠ none ∧
    ∀ other ∈ s.live, other.matchTarget cmp m ≠ none → other = rule ∨ rule.Before other

end RouterRun

def draws (history : List Selection) : List Selection := history.filter (·.drawn)

/-- No other rule has selected from the state since it was made, and the counter either has not
wrapped or keeps its place when it does. -/
def Own (cmp : Comparisons) : RouterStep → RouterRun → Prop
  | .route m, s => ∀ sel, s.selection cmp m = some sel →
    (∀ old ∈ s.history sel.rule.name, old.rule = sel.rule) ∧
    (sel.drawn → (draws (s.history sel.rule.name)).length < 2 ^ 32 ∨ sel.rule.pool.length ∣ 2 ^ 32)
  | _, _ => True

/-! ## Going round a pool -/

/-- The target of the `i`-th draw from a pool. -/
def turn (pool : List Nat) (i : Nat) : Nat := pool.getD (i % pool.length) 0

theorem turn_mem {pool : List Nat} (h : pool ≠ []) (i : Nat) : turn pool i ∈ pool := by
  have hlt : i % pool.length < pool.length := Nat.mod_lt _ (List.length_pos_iff.2 h)
  simp [turn, List.getElem?_eq_getElem hlt]

/-- As many turns as there are targets meet every target once, wherever they begin. -/
theorem turns_perm (pool : List Nat) (a : Nat) :
    ((List.range' a pool.length).map (turn pool)).Perm pool := by
  induction a with
  | zero =>
    refine List.Perm.of_eq (List.ext_getElem (by simp) fun i h₁ h₂ => ?_)
    simp [turn, Nat.mod_eq_of_lt h₂, List.getElem?_eq_getElem h₂]
  | succ a ih =>
    refine List.Perm.trans ?_ ih
    cases hlen : pool.length with
    | zero => rfl
    | succ k =>
      have hround : turn pool (a + 1 + k) = turn pool a := by
        rw [turn, turn, hlen, Nat.add_assoc, Nat.add_comm 1 k, Nat.add_mod_right]
      rw [List.range'_concat, List.range'_succ, List.map_append, List.map_cons, List.map_cons,
        List.map_nil, Nat.one_mul, hround]
      exact List.perm_append_singleton _ _

theorem window_perm {pool window : List Nat} {n : Nat}
    (hwindow : window <:+: (List.range n).map (turn pool)) (hlen : window.length = pool.length) :
    window.Perm pool := by
  obtain ⟨before, after, h⟩ := hwindow
  have hturns : window = (List.range' before.length pool.length).map (turn pool) := by
    refine List.ext_getElem (by simp [hlen]) fun i h₁ h₂ => ?_
    have hget : ((List.range n).map (turn pool))[before.length + i]? = some window[i] := by
      rw [← h, List.append_assoc, List.getElem?_append_right (Nat.le_add_right _ _)]
      simp [List.getElem?_append_left h₁]
    obtain ⟨hi, hvalue⟩ := List.getElem?_eq_some_iff.1 hget
    rw [← hvalue]
    simp
  rw [hturns]
  exact turns_perm pool before.length

/-! ## One balancer state -/

/-- The state a rule's selections have left behind. -/
structure Balanced (history : List Selection) (state : LoadBalancerState) : Prop where
  one : ∀ a ∈ history, ∀ b ∈ history, a.rule = b.rule
  index : state.roundRobinIndex = (draws history).length % 2 ^ 32
  turns : ∀ sel ∈ history, (draws history).map (·.target) =
    (List.range (draws history).length).map (turn sel.rule.pool)
  kept : ∀ sel ∈ history, ∀ key, sel.key = some key → state.stickyMap key = some sel.target
  known : ∀ key target, state.stickyMap key = some target → ∃ sel ∈ history, sel.target = target
  pool : ∀ sel ∈ history, sel.target ∈ sel.rule.pool

namespace Balanced

variable {history : List Selection} {state : LoadBalancerState} {rule : RoutingRule}
  {m : RoutedMessage} {key : Option Bytes}

theorem nil : Balanced [] {} := by
  constructor <;> simp [draws]

theorem turns_of_own (h : Balanced history state) (hown : ∀ old ∈ history, old.rule = rule) :
    (draws history).map (·.target) = (List.range (draws history).length).map (turn rule.pool) := by
  cases history with
  | nil => rfl
  | cons sel history =>
    rw [← hown sel List.mem_cons_self]
    exact h.turns sel List.mem_cons_self

theorem roundRobinTarget_eq_turn (h : Balanced history state)
    (hwrap : (draws history).length < 2 ^ 32 ∨ rule.pool.length ∣ 2 ^ 32) :
    (rule.roundRobinTarget state).1 = turn rule.pool (draws history).length := by
  have hplace : (draws history).length % 2 ^ 32 % rule.pool.length =
      (draws history).length % rule.pool.length := by
    rcases hwrap with hlt | hdvd
    · rw [Nat.mod_eq_of_lt hlt]
    · exact Nat.mod_mod_of_dvd _ hdvd
  rw [RoutingRule.roundRobinTarget, h.index, hplace]
  rfl

theorem draw (h : Balanced history state) (hpool : rule.pool ≠ [])
    (hown : ∀ old ∈ history, old.rule = rule)
    (hwrap : (draws history).length < 2 ^ 32 ∨ rule.pool.length ∣ 2 ^ 32) {target : Nat}
    (htarget : (rule.roundRobinTarget state).1 = target) {stickyMap : Bytes → Option Nat}
    (hkey : ∀ k, key = some k → stickyMap k = some target)
    (hkept : ∀ k old, state.stickyMap k = some old → stickyMap k = some old)
    (hnew : ∀ k old, stickyMap k = some old → state.stickyMap k = some old ∨ target = old) :
    Balanced (history ++ [{ rule, key, drawn := true, target }])
      { (rule.roundRobinTarget state).2 with stickyMap } := by
  have hturn : target = turn rule.pool (draws history).length :=
    htarget.symm.trans (h.roundRobinTarget_eq_turn hwrap)
  have hrules : ∀ sel ∈ history ++ [{ rule, key, drawn := true, target }], sel.rule = rule := by
    simpa [or_imp, forall_and] using hown
  have hdraws : draws (history ++ [{ rule, key, drawn := true, target }]) =
      draws history ++ [{ rule, key, drawn := true, target }] := by
    simp [draws]
  refine ⟨fun a ha b hb => (hrules a ha).trans (hrules b hb).symm, ?_, fun sel hsel => ?_, ?_,
    fun k old hold => ?_, ?_⟩
  · simp [hdraws, RoutingRule.roundRobinTarget, wrap32, h.index]
  · rw [hrules sel hsel, hdraws, List.map_append, h.turns_of_own hown, List.length_append]
    simp [List.range_succ, hturn]
  · simp only [List.mem_append, List.mem_singleton, or_imp, forall_and, forall_eq]
    exact ⟨fun sel hsel k hk => hkept k sel.target (h.kept sel hsel k hk), hkey⟩
  · rcases hnew k old hold with hold | rfl
    · obtain ⟨sel, hsel, heq⟩ := h.known k old hold
      exact ⟨sel, List.mem_append_left _ hsel, heq⟩
    · exact ⟨_, List.mem_append_right _ List.mem_cons_self, rfl⟩
  · simp only [List.mem_append, List.mem_singleton, or_imp, forall_and, forall_eq]
    exact ⟨h.pool, hturn ▸ turn_mem hpool _⟩

theorem hit (h : Balanced history state) (hown : ∀ old ∈ history, old.rule = rule) {k : Bytes}
    {target : Nat} (hhit : state.stickyMap k = some target) :
    Balanced (history ++ [{ rule, key := some k, drawn := false, target }]) state := by
  have hrules : ∀ sel ∈ history ++ [{ rule, key := some k, drawn := false, target }],
      sel.rule = rule := by
    simpa [or_imp, forall_and] using hown
  have hdraws : draws (history ++ [{ rule, key := some k, drawn := false, target }]) =
      draws history := by
    simp [draws]
  obtain ⟨first, hfirst, htarget⟩ := h.known k target hhit
  refine ⟨fun a ha b hb => (hrules a ha).trans (hrules b hb).symm, ?_, fun sel hsel => ?_, ?_,
    fun k' old hold => ?_, ?_⟩
  · rw [hdraws, h.index]
  · rw [hrules sel hsel, hdraws, h.turns_of_own hown]
  · simp only [List.mem_append, List.mem_singleton, or_imp, forall_and, forall_eq]
    exact ⟨h.kept, fun k' hk => Option.some.inj hk ▸ hhit⟩
  · obtain ⟨sel, hsel, heq⟩ := h.known k' old hold
    exact ⟨sel, List.mem_append_left _ hsel, heq⟩
  · simp only [List.mem_append, List.mem_singleton, or_imp, forall_and, forall_eq]
    exact ⟨h.pool, htarget ▸ hown first hfirst ▸ h.pool first hfirst⟩

end Balanced

/-! ## Selections -/

variable {rule : RoutingRule} {m : RoutedMessage} {state : LoadBalancerState} {s : RouterRun}
  {cmp : Comparisons}

/-- A balanced rule draws, unless the sticky map knows the key. -/
theorem selectLoadBalancedTarget_eq (hrule : rule.IsBalanced) (fallbackTarget : Nat) :
    rule.selectLoadBalancedTarget fallbackTarget m state =
      match rule.stickyKey m with
      | none => rule.roundRobinTarget state
      | some key =>
        match state.stickyMap key with
        | some existing => (existing, state)
        | none =>
          ((rule.roundRobinTarget state).1, { (rule.roundRobinTarget state).2 with
            stickyMap := Function.update state.stickyMap key
              (some (rule.roundRobinTarget state).1) }) := by
  obtain ⟨-, hmode, hpool⟩ := hrule
  unfold RoutingRule.selectLoadBalancedTarget RoutingRule.stickyKey
  rw [if_neg (by simp [hmode, hpool])]
  cases hm : rule.loadBalancer.mode with
  | none => exact absurd hm hmode
  | roundRobin => rfl
  | sticky =>
    simp only [if_true]
    cases extractMessageTagValue m rule.loadBalancer.stickyKeyTag.toNat with
    | none => rfl
    | some key =>
      cases key with
      | nil => rfl
      | cons b key => rfl

theorem Balanced.select {history : List Selection} (h : Balanced history state)
    (hrule : rule.IsBalanced) (fallbackTarget : Nat) (hown : ∀ old ∈ history, old.rule = rule)
    (hwrap : ((rule.stickyKey m).bind state.stickyMap).isNone →
      (draws history).length < 2 ^ 32 ∨ rule.pool.length ∣ 2 ^ 32) :
    Balanced (history ++ [{
        rule
        key := rule.stickyKey m
        drawn := ((rule.stickyKey m).bind state.stickyMap).isNone
        target := (rule.selectLoadBalancedTarget fallbackTarget m state).1 }])
      (rule.selectLoadBalancedTarget fallbackTarget m state).2 := by
  rw [selectLoadBalancedTarget_eq hrule]
  cases hkey : rule.stickyKey m with
  | none =>
    rw [hkey] at hwrap
    exact h.draw hrule.2.2 hown (hwrap rfl) rfl nofun (fun _ _ => id) fun _ _ => .inl
  | some key =>
    rw [hkey, Option.bind_some] at hwrap
    rw [Option.bind_some]
    dsimp only
    cases hhit : state.stickyMap key with
    | some target => exact h.hit hown hhit
    | none =>
      rw [hhit] at hwrap
      refine h.draw hrule.2.2 hown (hwrap rfl) rfl ?_ ?_ ?_
      · intro k hk
        cases hk
        exact Function.update_self ..
      · intro k old hold
        have hne : k ≠ key := fun he => by simp [← he, hold] at hhit
        rw [Function.update_of_ne hne, hold]
      · intro k old hold
        by_cases hk : k = key
        · subst hk
          rw [Function.update_self] at hold
          exact .inr (Option.some.inj hold)
        · rw [Function.update_of_ne hk] at hold
          exact .inl hold

/-! ## Routing -/

theorem selectLoadBalancedTarget_of_not_balanced (hforward : rule.action = .forward)
    (h : ¬rule.IsBalanced) (fallbackTarget : Nat) :
    rule.selectLoadBalancedTarget fallbackTarget m state = (fallbackTarget, state) := by
  unfold RoutingRule.selectLoadBalancedTarget
  rw [if_pos]
  by_contra hnot
  exact h ⟨hforward, by simpa using hnot⟩

/-- Either no rule matches and nothing changes, or the first matching rule is applied. -/
theorem route_cases (cmp : Comparisons) (m : RoutedMessage) (t : RoutingTable) :
    ((∀ r ∈ t.rules, r.matchTarget cmp m = none) ∧ (t.route cmp m).1.matchedRule = none ∧
      (t.route cmp m).2 = t) ∨
    ∃ before rule after target, t.rules = before ++ rule :: after ∧
      (∀ r ∈ before, r.matchTarget cmp m = none) ∧ rule.matchTarget cmp m = some target ∧
      t.route cmp m =
        if rule.action = .forward then
          let picked := rule.selectLoadBalancedTarget target m (t.loadBalancerStates rule.name)
          ({ action := rule.action, targetSessionId := picked.1, matchedRuleName := rule.name,
             matchedRule := some rule },
            { t with
              loadBalancerStates := Function.update t.loadBalancerStates rule.name picked.2 })
        else
          ({ action := rule.action, matchedRuleName := rule.name, matchedRule := some rule }, t) := by
  cases hfind : t.rules.findSome? fun rule =>
      (rule.matchTarget cmp m).map fun target => (rule, target) with
  | none =>
    have hnone := List.findSome?_eq_none_iff.1 hfind
    simp only [Option.map_eq_none_iff] at hnone
    exact .inl ⟨hnone, by simp [RoutingTable.route, hfind], by simp [RoutingTable.route, hfind]⟩
  | some found =>
    obtain ⟨before, rule, after, hrules, hrule, hbefore⟩ := List.findSome?_eq_some_iff.1 hfind
    obtain ⟨target, htarget, rfl⟩ := Option.map_eq_some_iff.1 hrule
    simp only [Option.map_eq_none_iff] at hbefore
    refine .inr ⟨before, rule, after, target, hrules, hbefore, htarget, ?_⟩
    simp only [RoutingTable.route, hfind]

theorem route_rules (cmp : Comparisons) (m : RoutedMessage) (t : RoutingTable) :
    (t.route cmp m).2.rules = t.rules := by
  rcases route_cases cmp m t with ⟨-, -, heq⟩ | ⟨-, rule, -, target, -, -, -, heq⟩
  · rw [heq]
  · rw [heq]
    split <;> rfl

theorem route_balanced (hs : ∀ name, Balanced (s.history name) (s.table.loadBalancerStates name))
    (hown : Own cmp (.route m) s) (name : Bytes) :
    Balanced ((RouterStep.run cmp (.route m) s).history name)
      ((s.table.route cmp m).2.loadBalancerStates name) := by
  simp only [Own, RouterRun.selection] at hown
  simp only [RouterStep.run, RouterRun.selection]
  rcases route_cases cmp m s.table with ⟨-, hnone, heq⟩ | ⟨-, rule, -, target, -, -, -, heq⟩
  · rw [hnone, heq]
    exact hs name
  · rw [heq] at hown ⊢
    by_cases hforward : rule.action = .forward
    · simp only [hforward, if_true] at hown ⊢
      by_cases hrule : rule.IsBalanced
      · simp only [hrule, if_true] at hown ⊢
        obtain ⟨hone, hwrap⟩ := hown _ rfl
        by_cases hname : name = rule.name
        · subst hname
          rw [Function.update_self, Function.update_self]
          exact (hs rule.name).select hrule target hone hwrap
        · rw [Function.update_of_ne hname, Function.update_of_ne hname]
          exact hs name
      · simp only [hrule, if_false, selectLoadBalancedTarget_of_not_balanced hforward hrule,
          Function.update_eq_self]
        exact hs name
    · have hrule : ¬rule.IsBalanced := fun h => hforward h.1
      simp only [hforward, if_false, hrule]
      exact hs name

/-! ## Runs -/

structure Inv (s : RouterRun) : Prop where
  order : s.table.rules.Pairwise RoutingRule.Before
  perm : s.table.rules.Perm s.live
  serial : ∀ rule ∈ s.live, rule.serial < s.added
  balanced : ∀ name, Balanced (s.history name) (s.table.loadBalancerStates name)

theorem priority_of_mem_dropWhile {rules : List RoutingRule} {priority : Nat}
    (h : rules.Pairwise RoutingRule.Before) :
    ∀ r ∈ rules.dropWhile (·.priority ≤ priority), priority < r.priority := by
  induction rules with
  | nil => exact nofun
  | cons first rules ih =>
    rw [List.pairwise_cons] at h
    by_cases hfirst : first.priority ≤ priority
    · rw [List.dropWhile_cons_of_pos (by simpa using hfirst)]
      exact ih h.2
    · rw [List.dropWhile_cons_of_neg (by simpa using hfirst), List.forall_mem_cons]
      refine ⟨by omega, fun r hr => ?_⟩
      have := h.1 r hr
      unfold RoutingRule.Before at this
      omega

theorem addRule_order {t : RoutingTable} (h : t.rules.Pairwise RoutingRule.Before)
    (hserial : ∀ r ∈ t.rules, r.serial < rule.serial) :
    (t.addRule rule).rules.Pairwise RoutingRule.Before := by
  have hsplit : t.rules.takeWhile (·.priority ≤ rule.priority) ++
      t.rules.dropWhile (·.priority ≤ rule.priority) = t.rules := List.takeWhile_append_dropWhile
  obtain ⟨htake, hdrop, hacross⟩ := List.pairwise_append.1 (hsplit ▸ h)
  have hbefore : ∀ r ∈ t.rules.takeWhile (·.priority ≤ rule.priority), r.Before rule := by
    intro r hr
    have hpriority : r.priority ≤ rule.priority := by simpa using List.mem_takeWhile_imp hr
    have := hserial r ((List.takeWhile_prefix _).subset hr)
    unfold RoutingRule.Before
    omega
  have hafter : ∀ r ∈ t.rules.dropWhile (·.priority ≤ rule.priority), rule.Before r :=
    fun r hr => .inl (priority_of_mem_dropWhile h r hr)
  refine List.pairwise_append.2 ⟨htake, List.pairwise_cons.2 ⟨hafter, hdrop⟩, fun a ha b hb => ?_⟩
  rcases List.mem_cons.1 hb with rfl | hb
  · exact hbefore a ha
  · exact hacross a ha b hb

theorem inv_step {l : RouterStep} (h : Inv s) (hown : Own cmp l s) : Inv (l.run cmp s) := by
  cases l with
  | addRule rule =>
    refine ⟨addRule_order h.order fun r hr => h.serial r (h.perm.subset hr), ?_, ?_, h.balanced⟩
    · refine List.perm_middle.trans ?_
      rw [List.takeWhile_append_dropWhile]
      exact (h.perm.cons _).trans (List.perm_append_singleton _ _).symm
    · simp only [RouterStep.run, List.forall_mem_append, List.forall_mem_singleton]
      exact ⟨fun r hr => Nat.lt_succ_of_lt (h.serial r hr), Nat.lt_succ_self _⟩
  | removeRule name =>
    refine ⟨h.order.filter _, h.perm.filter _, fun r hr => h.serial r (List.mem_of_mem_filter hr),
      fun other => ?_⟩
    by_cases hname : other = name
    · subst hname
      simp only [RouterStep.run, RoutingTable.removeRule, Function.update_self]
      exact .nil
    · simp only [RouterStep.run, RoutingTable.removeRule, Function.update_of_ne hname]
      exact h.balanced other
  | clear => exact ⟨.nil, .nil, nofun, fun _ => .nil⟩
  | route m =>
    have hrules : (RouterStep.run cmp (.route m) s).table.rules = s.table.rules :=
      route_rules cmp m s.table
    exact ⟨hrules ▸ h.order, hrules ▸ h.perm, h.serial, route_balanced h.balanced hown⟩

theorem Inv.firstMatch (h : Inv s) (cmp : Comparisons) (m : RoutedMessage) :
    s.FirstMatch cmp m := by
  unfold RouterRun.FirstMatch
  rcases route_cases cmp m s.table with ⟨hall, hnone, -⟩ |
    ⟨before, rule, after, target, hrules, hbefore, htarget, heq⟩
  · simp only [hnone]
    exact fun other hother => hall other (h.perm.symm.subset hother)
  · have hfound : (s.table.route cmp m).1.matchedRule = some rule ∧
        (s.table.route cmp m).1.action = rule.action ∧
        (s.table.route cmp m).1.matchedRuleName = rule.name := by
      rw [heq]
      split <;> simp
    have hplain : rule.action = .forward → ¬rule.IsBalanced →
        rule.matchTarget cmp m = some (s.table.route cmp m).1.targetSessionId := by
      intro hforward hplain
      rw [heq, if_pos hforward, htarget, selectLoadBalancedTarget_of_not_balanced hforward hplain]
    simp only [hfound.1]
    refine ⟨hfound.2.1, hfound.2.2, hplain, h.perm.subset (by simp [hrules]), by simp [htarget],
      fun other hother hmatch => ?_⟩
    have horder := h.order
    have hmem := h.perm.symm.subset hother
    rw [hrules] at horder hmem
    rcases List.mem_append.1 hmem with hmem | hmem
    · exact absurd (hbefore other hmem) hmatch
    · rcases List.mem_cons.1 hmem with rfl | hmem
      · exact .inl rfl
      · exact .inr ((List.pairwise_cons.1 (List.pairwise_append.1 horder).2.1).1 other hmem)

theorem Inv.laws (h : Inv s) : s.Laws where
  pool name := (h.balanced name).pool
  sticky name a ha b hb _ key hkey hkey' := by
    have hkept := (h.balanced name).kept
    exact Option.some.inj ((hkept a ha key hkey).symm.trans (hkept b hb key hkey'))
  rotation name sel hsel window hwindow hlen := by
    have hdraws : s.drawsOf name sel.rule.serial = draws (s.history name) := by
      refine List.filter_congr fun other hother => ?_
      simp [(h.balanced name).one other hother sel hsel]
    rw [hdraws] at hwindow
    have hturns := hwindow.map (·.target)
    rw [(h.balanced name).turns sel hsel] at hturns
    exact window_perm hturns (by rw [List.length_map, hlen])

/-- In every run in which no rule selects from the state of another one and no counter loses its
place, the table keeps its laws. -/
theorem routing_laws (cmp : Comparisons) {defaultAction : RoutingAction} {defaultTarget : Nat}
    (h : Reaches (RouterStep.run cmp) (Own cmp) { table := { defaultAction, defaultTarget } } s) :
    s.Laws ∧ ∀ m, s.FirstMatch cmp m := by
  have hinv : Inv s := h.invariant ⟨.nil, .nil, nofun, fun _ => .nil⟩ fun _ _ => inv_step
  exact ⟨hinv.laws, hinv.firstMatch cmp⟩

/-- A sticky rule for one message type, keyed by `SenderCompID(49)`. -/
def sampleRule (msgType : Bytes) (pool : List Nat) : RoutingRule :=
  { name := ascii "r"
    criterion := .msgType
    msgType
    loadBalancer := { mode := .sticky, targetSessions := pool, stickyKeyTag := 49 } }

def sampleOrder (msgType : Bytes) : RoutedMessage :=
  { msgType, senderCompId := ascii "A", valid := true }

def plainComparisons : Comparisons := ⟨fun _ _ => false, fun _ => true, fun _ _ => false⟩

def sampleRun (steps : List RouterStep) : RouterRun :=
  steps.foldl (fun s l => l.run plainComparisons s) {}

theorem routing_laws_sample :
    (sampleRun [.addRule (sampleRule (ascii "D") [1, 2]), .route (sampleOrder (ascii "D"))]).Laws := by
  have hadded : Reaches (RouterStep.run plainComparisons) (Own plainComparisons) {}
      (sampleRun [.addRule (sampleRule (ascii "D") [1, 2])]) :=
    Reaches.start.step (RouterStep.addRule _) trivial
  have hown : Own plainComparisons (.route (sampleOrder (ascii "D")))
      (sampleRun [.addRule (sampleRule (ascii "D") [1, 2])]) :=
    fun _ _ => ⟨nofun, fun _ => .inl (Nat.two_pow_pos 32)⟩
  exact (routing_laws plainComparisons (hadded.step _ hown)).1

/-- Two rules of one name: the key that the first one sent to session 1 takes the second one there
too, although its pool is session 2 alone. -/
theorem shared_name_breaks_laws :
    ¬(sampleRun [.addRule (sampleRule (ascii "D") [1]), .addRule (sampleRule (ascii "E") [2]),
      .route (sampleOrder (ascii "D")), .route (sampleOrder (ascii "E"))]).Laws := by
  intro h
  have hpool := h.pool (ascii "r") _ (List.mem_cons_of_mem _ List.mem_cons_self)
  exact absurd hpool (by decide)

end Router

end NimbleFix
