import Mathlib.Data.List.Nodup
import Mathlib.Data.List.Perm.Basic
import NimbleFix.Profile.Overlay

/-!
# Both orders survive a merge of rule lists

`InOrder o x y`: `x` stands before `y` in `o`, if both stand there. The loop keeps the tags so far
in this order of the overlay, the rules it has not come to included, so that a new rule fits where
its anchor says; and it only inserts, so the order of the base stays.
-/

namespace NimbleFix.Profile

/-! ## The order of a list -/

def InOrder (o : List Nat) (x y : Nat) : Prop := x ∈ o → y ∈ o → o.idxOf x < o.idxOf y

theorem pairwise_inOrder {o : List Nat} (h : o.Nodup) : o.Pairwise (InOrder o) := by
  rw [List.pairwise_iff_getElem]
  intro i j hi hj hlt _ _
  rwa [h.idxOf_getElem, h.idxOf_getElem]

theorem inOrder_around {o l r : List Nat} {t : Nat} (h : o.Nodup) (ho : o = l ++ t :: r) :
    t ∈ o ∧ (∀ x ∈ l, o.idxOf x < o.idxOf t) ∧ ∀ x ∈ r, o.idxOf t < o.idxOf x := by
  have hpair := pairwise_inOrder h
  have hmem : ∀ x, x ∈ o ↔ x ∈ l ∨ x = t ∨ x ∈ r := by simp [ho]
  nth_rewrite 2 [ho] at hpair
  rw [List.pairwise_append, List.pairwise_cons] at hpair
  obtain ⟨-, ⟨hr, -⟩, hl⟩ := hpair
  exact ⟨by simp [hmem], fun x hx => hl x hx t (by simp) (by simp [hmem, hx]) (by simp [hmem]),
    fun x hx => hr x hx (by simp [hmem]) (by simp [hmem, hx])⟩

/-- A list in the order of `o` that has all of `o` has it as a sublist. -/
theorem sublist_of_inOrder {o l : List Nat} (ho : o.Nodup) (hl : l.Nodup)
    (hpair : l.Pairwise (InOrder o)) (hmem : ∀ x ∈ o, x ∈ l) : o.Sublist l := by
  have hperm : (l.filter (· ∈ o)).Perm o := by
    rw [List.perm_ext_iff_of_nodup (hl.filter _) ho]
    intro x
    simpa using hmem x
  have heq : l.filter (· ∈ o) = o := by
    refine hperm.eq_of_pairwise (fun x y hx hy hxy hyx => ?_) (hpair.filter _) (pairwise_inOrder ho)
    have hx := hperm.mem_iff.1 hx
    have := hxy hx hy
    have := hyx hy hx
    omega
  rw [← heq]
  exact List.filter_sublist

/-! ## One rule -/

variable {rules seen rest base : List FieldRule} {rule : FieldRule} {o : List Nat}

theorem findFieldRule_none {tag : Nat} : findFieldRule rules tag = none ↔ tag ∉ tags rules := by
  simp [findFieldRule, tags, List.findIdx?_eq_none_iff]

theorem findFieldRule_some {tag i : Nat} (h : findFieldRule rules tag = some i) :
    ∃ hi : i < rules.length, rules[i].tag = tag := by
  obtain ⟨hi, htag, -⟩ := List.findIdx?_eq_some_iff_getElem.1 h
  exact ⟨hi, by simpa using htag⟩

theorem drop_findFieldRule {tag i : Nat} (h : findFieldRule rules tag = some i) :
    (tags rules).drop i = tag :: (tags rules).drop (i + 1) := by
  obtain ⟨hi, rfl⟩ := findFieldRule_some h
  rw [tags, List.drop_eq_getElem_cons (by simpa using hi), List.getElem_map]

/-- No rule of the list is found, so none of their tags is there. -/
theorem notMem_of_findSome? {l : List FieldRule}
    (h : ∀ r ∈ l, findFieldRule rules r.tag = none) : ∀ x ∈ tags rules, x ∉ tags l := by
  intro x hx hin
  obtain ⟨r, hr, rfl⟩ := List.mem_map.1 hin
  exact findFieldRule_none.1 (h r hr) hx

/-- The place of a new rule splits the rules so far: the overlay's rules on the left are before the
new one in the overlay, those on the right are after it. -/
theorem insertPosition_fits (ho : o = tags seen.reverse ++ rule.tag :: tags rest)
    (hnodup : o.Nodup) (hnew : rule.tag ∉ tags rules) (hpair : (tags rules).Pairwise (InOrder o)) :
    (∀ x ∈ (tags rules).take (insertPosition rules seen rest), InOrder o x rule.tag) ∧
      ∀ x ∈ (tags rules).drop (insertPosition rules seen rest), InOrder o rule.tag x := by
  obtain ⟨-, hbefore, hafter⟩ := inOrder_around hnodup ho
  have hside : ∀ x ∈ tags rules, x ∈ o → x ∉ tags rest → o.idxOf x < o.idxOf rule.tag := by
    intro x hx hxo hrest
    have hne : x ≠ rule.tag := fun h => hnew (h ▸ hx)
    rw [ho, List.mem_append, List.mem_cons] at hxo
    exact hbefore x (by tauto)
  unfold insertPosition
  cases hright : rest.findSome? fun next => findFieldRule rules next.tag with
  | some i =>
    -- the anchor is the first of the overlay's later rules that is there
    obtain ⟨r₁, a, r₂, rfl, ha, hfirst⟩ := List.findSome?_eq_some_iff.1 hright
    obtain ⟨hao, -, hlater⟩ := inOrder_around (t := a.tag) hnodup (r := tags r₂)
      (l := tags seen.reverse ++ rule.tag :: tags r₁) (by simp [ho, tags])
    have hanchor := hafter a.tag (by simp [tags])
    rw [← List.take_append_drop i (tags rules), drop_findFieldRule ha, List.pairwise_append,
      List.pairwise_cons] at hpair
    obtain ⟨-, ⟨hrest, -⟩, hleft⟩ := hpair
    refine ⟨fun x hx hxo _ => hside x (List.mem_of_mem_take hx) hxo fun hin => ?_,
      fun x hx _ hxo => ?_⟩
    · have hlt := hleft x hx a.tag (by simp) hxo hao
      have hcases : x ∈ tags r₁ ∨ x = a.tag ∨ x ∈ tags r₂ := by simpa [tags] using hin
      rcases hcases with hin | rfl | hin
      · exact notMem_of_findSome? hfirst x (List.mem_of_mem_take hx) hin
      · omega
      · have := hlater x hin
        omega
    · rw [drop_findFieldRule ha] at hx
      rcases List.mem_cons.1 hx with rfl | hx
      · exact hanchor
      · exact Nat.lt_trans hanchor (hrest x hx hao hxo)
  | none =>
    have hnone := notMem_of_findSome? (List.findSome?_eq_none_iff.1 hright)
    have hall : ∀ x ∈ tags rules, x ∈ o → o.idxOf x < o.idxOf rule.tag :=
      fun x hx hxo => hside x hx hxo (hnone x hx)
    refine ⟨fun x hx hxo _ => hall x (List.mem_of_mem_take hx) hxo, ?_⟩
    dsimp only
    cases hleft : seen.findSome? fun prev => findFieldRule rules prev.tag with
    | none =>
      intro x hx
      rw [List.drop_eq_nil_of_le (by simp [tags])] at hx
      cases hx
    | some i =>
      -- nothing of the overlay stands after the last of its rules so far
      intro x hx _ hxo
      obtain ⟨s₁, b, s₂, rfl, hb, hlast⟩ := List.findSome?_eq_some_iff.1 hleft
      obtain ⟨hbo, hearlier, -⟩ := inOrder_around (t := b.tag) hnodup (l := tags s₂.reverse)
        (r := tags s₁.reverse ++ rule.tag :: tags rest) (by simp [ho, tags])
      have hxr := List.mem_of_mem_drop hx
      rw [← List.take_append_drop i (tags rules), drop_findFieldRule hb, List.pairwise_append,
        List.pairwise_cons] at hpair
      have hlt := hpair.2.1.1 x hx hbo hxo
      have hlast := notMem_of_findSome? hlast x hxr
      have hcases : x ∈ tags s₂.reverse ∨ x = b.tag := by
        have hne : x ≠ rule.tag := fun he => hnew (he ▸ hxr)
        have hrest := hnone x hxr
        simp only [ho, tags, List.map_append, List.map_reverse, List.map_cons, List.reverse_append,
          List.reverse_cons, List.mem_append, List.mem_reverse, List.mem_cons] at hxo hlast hrest ⊢
        tauto
      rcases hcases with hin | rfl
      · have := hearlier x hin
        omega
      · omega

/-! ## The loop -/

/-- The rules after the rules `seen` of the overlay; `o` are the tags of the whole overlay. -/
structure Merging (base : List FieldRule) (o : List Nat) (seen rules : List FieldRule) : Prop where
  nodup : (tags rules).Nodup
  ordered : (tags rules).Pairwise (InOrder o)
  keeps : (tags base).Sublist (tags rules)
  mem : ∀ t, t ∈ tags rules ↔ t ∈ tags base ∨ t ∈ tags seen
  flags : ∀ r ∈ rules, r ∈ seen ∨ r.tag ∉ tags seen ∧ r ∈ base

/-- The flags are right once the rule is there and everything else was there. -/
theorem Merging.flags_step {new : List FieldRule} (h : Merging base o seen rules)
    (hnodup : (tags new).Nodup) (hin : rule ∈ new) (hnew : ∀ r ∈ new, r = rule ∨ r ∈ rules) :
    ∀ r ∈ new, r ∈ rule :: seen ∨ r.tag ∉ tags (rule :: seen) ∧ r ∈ base := by
  intro r hr
  by_cases htag : r.tag = rule.tag
  · rw [List.inj_on_of_nodup_map hnodup hr hin htag]
    exact .inl (by simp)
  · have hrules := (hnew r hr).resolve_left fun he => htag (by rw [he])
    have := h.flags r hrules
    simp only [tags, List.map_cons, List.mem_cons] at this ⊢
    tauto

theorem Merging.step (h : Merging base o seen rules)
    (ho : o = tags seen.reverse ++ rule.tag :: tags rest) (hnodup : o.Nodup) :
    Merging base o (rule :: seen) (mergeFieldRule seen rest rule rules) := by
  have hmem : ∀ t, t ∈ tags (rule :: seen) ↔ t = rule.tag ∨ t ∈ tags seen := by simp [tags]
  unfold mergeFieldRule
  cases hfind : findFieldRule rules rule.tag with
  | some i =>
    obtain ⟨hi, htag⟩ := findFieldRule_some hfind
    have hset : (rules.modify i fun r => { r with flags := rule.flags }) = rules.set i rule := by
      simp [List.modify_eq_set_getElem?, hi, htag]
    have htags : tags (rules.set i rule) = tags rules := by
      have hi' : i < (rules.map FieldRule.tag).length := by simpa using hi
      have hget : (rules.map FieldRule.tag)[i] = rule.tag := by simpa using htag
      rw [tags, List.map_set, ← hget, List.set_getElem_self]
      rfl
    dsimp only
    rw [hset]
    refine ⟨htags ▸ h.nodup, htags ▸ h.ordered, htags ▸ h.keeps, fun t => ?_,
      h.flags_step (htags ▸ h.nodup) (List.mem_set hi rule)
        fun r hr => (List.mem_or_eq_of_mem_set hr).symm⟩
    have hin : rule.tag ∈ tags rules := htag ▸ List.mem_map_of_mem (List.getElem_mem hi)
    rw [htags, hmem, h.mem]
    rw [h.mem] at hin
    constructor
    · tauto
    · rintro (ht | rfl | ht) <;> tauto
  | none =>
    have hnew := findFieldRule_none.1 hfind
    obtain ⟨hleft, hright⟩ := insertPosition_fits ho hnodup hnew h.ordered
    dsimp only
    generalize insertPosition rules seen rest = i at hleft hright ⊢
    have hperm : (rules.take i ++ rule :: rules.drop i).Perm (rule :: rules) := by
      refine List.perm_middle.trans ?_
      rw [List.take_append_drop]
    have htags : tags (rules.take i ++ rule :: rules.drop i) =
        (tags rules).take i ++ rule.tag :: (tags rules).drop i := by simp [tags]
    have hnd : (tags (rules.take i ++ rule :: rules.drop i)).Nodup :=
      (hperm.map _).nodup_iff.2 (List.nodup_cons.2 ⟨hnew, h.nodup⟩)
    refine ⟨hnd, ?_, ?_, fun t => ?_, h.flags_step hnd (by simp)
      fun r hr => List.mem_cons.1 (hperm.mem_iff.1 hr)⟩
    · have hpairs := h.ordered
      rw [← List.take_append_drop i (tags rules), List.pairwise_append] at hpairs
      rw [htags, List.pairwise_append]
      refine ⟨hpairs.1, List.pairwise_cons.2 ⟨hright, hpairs.2.1⟩, fun x hx => ?_⟩
      exact List.forall_mem_cons.2 ⟨hleft x hx, hpairs.2.2 x hx⟩
    · refine h.keeps.trans ?_
      rw [htags]
      nth_rewrite 1 [← List.take_append_drop i (tags rules)]
      exact (List.Sublist.refl _).append (List.sublist_cons_self _ _)
    · have hcons : t ∈ tags (rules.take i ++ rule :: rules.drop i) ↔
          t = rule.tag ∨ t ∈ tags rules := (hperm.map _).mem_iff.trans List.mem_cons
      rw [hcons, hmem, h.mem]
      tauto

theorem Merging.loop (hnodup : o.Nodup) : ∀ {rest seen rules : List FieldRule},
    o = tags seen.reverse ++ tags rest → Merging base o seen rules →
      Merging base o (rest.reverse ++ seen) (mergeLoop seen rest rules)
  | [], _, _, _, h => h
  | rule :: rest, _, _, ho, h => by
    have := Merging.loop hnodup (by simpa [tags] using ho) (h.step ho hnodup)
    simpa [mergeLoop] using this

/-- Merging rule lists without repeated tags, whose common tags stand in the same order, gives the
tags of both, once each and in both orders, with the overlay's flags where it has the tag. -/
theorem mergeFieldRules_keeps_orders (base overlay : List FieldRule)
    (hbase : (tags base).Nodup) (hover : (tags overlay).Nodup)
    (hcommon : ((tags base).filter (· ∈ tags overlay)).Sublist (tags overlay)) :
    let merged := mergeFieldRules base overlay
    (tags merged).Nodup ∧ (∀ t, t ∈ tags merged ↔ t ∈ tags base ∨ t ∈ tags overlay) ∧
      (tags base).Sublist (tags merged) ∧ (tags overlay).Sublist (tags merged) ∧
      ∀ r ∈ merged, r ∈ overlay ∨ r.tag ∉ tags overlay ∧ r ∈ base := by
  have hordered : (tags base).Pairwise (InOrder (tags overlay)) := by
    have hpair := (pairwise_inOrder hover).sublist hcommon
    rw [List.pairwise_filter] at hpair
    exact hpair.imp fun h hx hy => h (by simpa using hx) (by simpa using hy) hx hy
  have hstart : Merging base (tags overlay) [] base :=
    ⟨hbase, hordered, .refl _, by simp [tags], fun r hr => .inr ⟨by simp [tags], hr⟩⟩
  have hm : Merging base (tags overlay) (overlay.reverse ++ []) (mergeLoop [] overlay base) :=
    hstart.loop hover (by simp [tags])
  have htags : ∀ t, t ∈ tags (overlay.reverse ++ []) ↔ t ∈ tags overlay := by simp [tags]
  have hmem := fun t => (hm.mem t).trans (or_congr_right (htags t))
  refine ⟨hm.nodup, hmem, hm.keeps,
    sublist_of_inOrder hover hm.nodup hm.ordered fun t ht => (hmem t).2 (.inr ht), fun r hr => ?_⟩
  have := hm.flags r hr
  rwa [htags, List.append_nil, List.mem_reverse] at this

theorem mergeFieldRules_keeps_orders_sample :
    tags (mergeFieldRules [⟨1, 0⟩, ⟨2, 0⟩, ⟨3, 1⟩] [⟨7, 0⟩, ⟨2, 1⟩, ⟨9, 0⟩]) = [1, 7, 2, 9, 3] ∧
      (tags [⟨7, 0⟩, ⟨2, 1⟩, ⟨9, 0⟩]).Sublist
        (tags (mergeFieldRules [⟨1, 0⟩, ⟨2, 0⟩, ⟨3, 1⟩] [⟨7, 0⟩, ⟨2, 1⟩, ⟨9, 0⟩])) :=
  ⟨by decide, (mergeFieldRules_keeps_orders [⟨1, 0⟩, ⟨2, 0⟩, ⟨3, 1⟩] [⟨7, 0⟩, ⟨2, 1⟩, ⟨9, 0⟩]
    (by decide) (by decide) (by decide)).2.2.2.1⟩

end NimbleFix.Profile
