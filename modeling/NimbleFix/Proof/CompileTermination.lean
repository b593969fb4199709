import NimbleFix.Lib.Depth
import NimbleFix.Profile.Templates

/-!
# When the template compiler ends

The compiler follows the references from messages to groups and from groups to groups. It ends
exactly when no group that a message reaches leads back to itself. The loader does not exclude that.
-/

namespace NimbleFix

open Relation

namespace NormalizedDictionaryView

variable (v : NormalizedDictionaryView)

/-- The group counted by `outer` has a rule for the count of another group. -/
def Refers (outer inner : Nat) : Prop :=
  (v.findGroup inner).isSome ∧
    ∃ g ∈ v.findGroup outer, ∃ rule ∈ v.groupRules g, rule.tag = inner

/-- A message that is compiled has a rule for this group. -/
def Starts (tag : Nat) : Prop :=
  (v.findGroup tag).isSome ∧ ∃ m ∈ v.messageDefs.filterMap v.templateMessage,
    ∃ rule ∈ v.messageRules m, rule.tag = tag ∧ Tag.isAggregateSessionHeaderTag tag = false

theorem compileRules_isSome_iff (compileGroup : List FieldRuleRecord → Option CompiledScopeTemplate)
    (skip : Bool) : ∀ (index : Nat) (rules : List FieldRuleRecord) (scope : CompiledScopeTemplate),
      (v.compileRules compileGroup skip index rules scope).isSome ↔
        ∀ rule ∈ rules, ¬(skip ∧ Tag.isAggregateSessionHeaderTag rule.tag) →
          ∀ g ∈ v.findGroup rule.tag, (compileGroup (v.groupRules g)).isSome
  | _, [], _ => by simp [compileRules]
  | index, rule :: rules, scope => by
    have ih := fun scope => compileRules_isSome_iff compileGroup skip (index + 1) rules scope
    unfold compileRules
    by_cases hskip : skip ∧ Tag.isAggregateSessionHeaderTag rule.tag
    · rw [if_pos hskip, ih]
      simp [hskip]
    · rw [if_neg hskip]
      cases hgroup : v.findGroup rule.tag with
      | none => simp [ih, hgroup]
      | some g =>
        cases hscope : compileGroup (v.groupRules g) with
        | none => simp [hgroup, hscope, hskip]
        | some scope' => simp [ih, hgroup, hscope]

theorem compileScope_isSome_iff : ∀ (fuel : Nat) {tag : Nat} {g : GroupDefRecord},
    v.findGroup tag = some g →
      ((v.compileScope fuel false (v.groupRules g)).isSome ↔ DepthAtMost v.Refers fuel tag)
  | 0, _, _, _ => by simp [compileScope, DepthAtMost]
  | fuel + 1, tag, g, hg => by
    rw [compileScope, compileRules_isSome_iff]
    constructor
    · rintro h inner ⟨hinner, g', hg', rule, hrule, rfl⟩
      rw [hg] at hg'
      cases hg'
      obtain ⟨g₂, hg₂⟩ := Option.isSome_iff_exists.1 hinner
      exact (compileScope_isSome_iff fuel hg₂).1 (h rule hrule (by simp) g₂ hg₂)
    · intro h rule hrule _ g₂ hg₂
      refine (compileScope_isSome_iff fuel hg₂).2 (h rule.tag ⟨?_, g, hg, rule, hrule, rfl⟩)
      rw [hg₂]
      rfl

theorem mapM_isSome_iff {α β : Type} (f : α → Option β) (xs : List α) :
    (xs.mapM f).isSome ↔ ∀ x ∈ xs, (f x).isSome := by
  induction xs with
  | nil => simp
  | cons x xs ih =>
    cases hx : f x with
    | none => simp [hx]
    | some y => cases hxs : xs.mapM f <;> simp [hx, hxs, ← ih]

theorem buildTemplates_isSome_iff (fuel : Nat) :
    (v.buildTemplates (fuel + 1)).isSome ↔ ∀ tag, v.Starts tag → DepthAtMost v.Refers fuel tag := by
  unfold buildTemplates
  rw [mapM_isSome_iff]
  constructor
  · rintro h tag ⟨htag, m, hm, rule, hrule, rfl, hheader⟩
    obtain ⟨g, hg⟩ := Option.isSome_iff_exists.1 htag
    have hscope := h m hm
    rw [compileScope, compileRules_isSome_iff] at hscope
    exact (v.compileScope_isSome_iff fuel hg).1 (hscope rule hrule (by simp [hheader]) g hg)
  · intro h m hm
    rw [compileScope, compileRules_isSome_iff]
    intro rule hrule hheader g hg
    refine (v.compileScope_isSome_iff fuel hg).2 (h rule.tag ⟨?_, m, hm, rule, hrule, rfl, ?_⟩)
    · rw [hg]
      rfl
    · simpa using hheader

/-- A group from which a reference leads back is never compiled. -/
theorem no_cycle_of_compilationEnds (h : v.CompilationEnds) {tag start : Nat}
    (hstart : v.Starts start) (htag : ReflTransGen v.Refers start tag) :
    ¬TransGen v.Refers tag tag := by
  obtain ⟨fuel, hfuel⟩ := h
  cases fuel with
  | zero =>
    obtain ⟨-, m, hm, -⟩ := hstart
    rw [buildTemplates, mapM_isSome_iff] at hfuel
    exact absurd (hfuel m hm) (by simp [compileScope])
  | succ fuel =>
    exact (((v.buildTemplates_isSome_iff fuel).1 hfuel start hstart).reach htag).no_cycle

theorem compilationEnds_of_no_cycle
    (h : ∀ start tag, v.Starts start → ReflTransGen v.Refers start tag →
      ¬TransGen v.Refers tag tag) : v.CompilationEnds := by
  let reached : Set Nat := { tag | ∃ start, v.Starts start ∧ ReflTransGen v.Refers start tag }
  have hknown : ∀ tag ∈ reached, (v.findGroup tag).isSome := by
    rintro tag ⟨start, hstart, hreach⟩
    rcases ReflTransGen.cases_tail hreach with rfl | ⟨_, _, hlast⟩
    · exact hstart.1
    · exact hlast.1
  have hfinite : reached.Finite := by
    refine (v.groupDefs.map GroupDefRecord.countTag).toFinset.finite_toSet.subset ?_
    intro tag htag
    obtain ⟨g, hg⟩ := Option.isSome_iff_exists.1 (hknown tag htag)
    have hcount := List.find?_some hg
    simp only [beq_iff_eq] at hcount
    simpa using ⟨g, List.mem_of_find?_eq_some hg, hcount⟩
  have hclosed : ∀ tag ∈ reached, ∀ inner, v.Refers tag inner → inner ∈ reached := by
    rintro tag ⟨start, hstart, hreach⟩ inner hinner
    exact ⟨start, hstart, hreach.tail hinner⟩
  have hacyclic : ∀ tag ∈ reached, ¬TransGen v.Refers tag tag := by
    rintro tag ⟨start, hstart, hreach⟩
    exact h start tag hstart hreach
  obtain ⟨n, hn⟩ := DepthAtMost.of_acyclic hfinite hclosed hacyclic
  exact ⟨n + 1, (v.buildTemplates_isSome_iff n).2 fun tag htag => hn tag ⟨tag, htag, .refl⟩⟩

end NormalizedDictionaryView

/-- Compiling the templates of all messages ends exactly when no group that a message leads to leads
back to itself, for the view of an accepted profile as for any other. -/
theorem compilationEnds_iff (v : NormalizedDictionaryView) :
    v.CompilationEnds ↔ ∀ start tag, v.Starts start → ReflTransGen v.Refers start tag →
      ¬TransGen v.Refers tag tag :=
  ⟨fun h _ _ => v.no_cycle_of_compilationEnds h, v.compilationEnds_of_no_cycle⟩

/-- A profile with a message `D` and two groups, of which the first has the second in its rules.
`inner` is the rule of the second group. -/
def Sample.groupProfile (inner : Nat) : LoadedProfile where
  stringTable := some (ascii "D" ++ [0])
  fieldDefs := some []
  messageDefs := some [⟨0, 0, 0, 1⟩]
  groupDefs := some [⟨100, 0, 0, 1⟩, ⟨200, 0, 1, 1⟩]
  messageFieldRules := some [⟨100⟩]
  groupFieldRules := some [⟨200⟩, ⟨inner⟩]

def Sample.groupView (inner : Nat) : NormalizedDictionaryView where
  stringTable := ascii "D" ++ [0]
  messageDefs := [⟨0, 0, 0, 1⟩]
  groupDefs := [⟨100, 0, 0, 1⟩, ⟨200, 0, 1, 1⟩]
  messageFieldRules := [⟨100⟩]
  groupFieldRules := [⟨200⟩, ⟨inner⟩]

open Sample

theorem compilationEnds_iff_nested :
    fromProfile (groupProfile 201) = .ok (groupView 201) ∧ (groupView 201).CompilationEnds ∧
      ∀ start tag, (groupView 201).Starts start →
        ReflTransGen (groupView 201).Refers start tag →
          ¬TransGen (groupView 201).Refers tag tag := by
  have hends : (groupView 201).CompilationEnds := ⟨3, by decide⟩
  exact ⟨by decide, hends, (compilationEnds_iff _).1 hends⟩

/-- The second group has the first in its rules: the profile is accepted, and no stack is large
enough to compile its template. -/
theorem accepted_profile_never_compiled :
    fromProfile (groupProfile 100) = .ok (groupView 100) ∧
      ¬(groupView 100).CompilationEnds := by
  refine ⟨by decide, fun hends => ?_⟩
  have hstart : (groupView 100).Starts 100 :=
    ⟨by decide, ⟨0, 0, 0, 1⟩, by decide, ⟨100⟩, by decide, by decide, by decide⟩
  have hthere : (groupView 100).Refers 100 200 :=
    ⟨by decide, ⟨100, 0, 0, 1⟩, by decide, ⟨200⟩, by decide, by decide⟩
  have hback : (groupView 100).Refers 200 100 :=
    ⟨by decide, ⟨200, 0, 1, 1⟩, by decide, ⟨100⟩, by decide, by decide⟩
  exact (groupView 100).no_cycle_of_compilationEnds hends hstart .refl
    ((TransGen.single hthere).tail hback)

end NimbleFix
