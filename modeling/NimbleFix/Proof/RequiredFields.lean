import NimbleFix.Codec.TypedView

/-!
# The check of required fields against its recursive meaning

`Missing` says which tags are required and absent at some level of a message. The check reports one
of them whenever there is one: the bitmap of a group stands for the required rules below the 64th,
and the flag sends every other group to the rules themselves.
-/

namespace NimbleFix

/-- The tag is required by a rule and missing, in the message or in an entry of a group that is
present under a rule. -/
inductive Missing (d : Dictionary) (tag : Nat) : List FieldRule → MessageView → Prop
  | here {rules : List FieldRule} {v : MessageView} {rule : FieldRule} (hrule : rule ∈ rules)
      (hrequired : rule.required) (htag : rule.tag = tag) (habsent : v.hasTag tag = false) :
      Missing d tag rules v
  | inside {rules : List FieldRule} {v : MessageView} {rule : FieldRule} {g : GroupDef}
      {group : GroupView} {index : Nat} (hrule : rule ∈ rules)
      (hdef : d.findGroup rule.tag = some g) (hgroup : v.group rule.tag = some group)
      (hindex : index < group.size) (h : Missing d tag g.rules (group.entry index)) :
      Missing d tag rules v

/-- Every required tag is present, in the message and in the entries of its groups. -/
def Complete (d : Dictionary) (rules : List FieldRule) (v : MessageView) : Prop :=
  ∀ tag, ¬Missing d tag rules v

/-- What the entries of the group under a rule owe. -/
def CompleteUnder (d : Dictionary) (v : MessageView) (rule : FieldRule) : Prop :=
  ∀ g group, d.findGroup rule.tag = some g → v.group rule.tag = some group →
    ∀ index < group.size, Complete d g.rules (group.entry index)

section

variable {d : Dictionary} {rules : List FieldRule} {v : MessageView}

theorem complete_iff : Complete d rules v ↔ ∀ rule ∈ rules,
    (rule.required → v.hasTag rule.tag) ∧ CompleteUnder d v rule := by
  constructor
  · refine fun h rule hrule => ⟨fun hrequired => ?_, fun g group hdef hgroup index hindex tag => ?_⟩
    · by_contra habsent
      exact h _ (.here hrule hrequired rfl (by simpa using habsent))
    · exact fun hmissing => h tag (.inside hrule hdef hgroup hindex hmissing)
  · intro h tag hmissing
    cases hmissing with
    | here hrule hrequired htag habsent =>
      rw [← htag, (h _ hrule).1 hrequired] at habsent
      cases habsent
    | inside hrule hdef hgroup hindex hinner => exact (h _ hrule).2 _ _ hdef hgroup _ hindex tag hinner

/-! ## Outcomes -/

/-- Nothing is reported only if `ok`, and a tag only if it is in `bad`. -/
def Judges (ok : Prop) (bad : Nat → Prop) (outcome : Option Nat) : Prop :=
  (outcome = none → ok) ∧ ∀ tag, outcome = some tag → bad tag

theorem Judges.findSome {α : Type} {l : List α} {ok : α → Prop} {bad : Nat → Prop}
    {f : α → Option Nat} (h : ∀ a ∈ l, Judges (ok a) bad (f a)) :
    Judges (∀ a ∈ l, ok a) bad (l.findSome? f) := by
  refine ⟨fun hnone a ha => (h a ha).1 (List.findSome?_eq_none_iff.1 hnone a ha), fun tag htag => ?_⟩
  obtain ⟨a, ha, hf⟩ := List.exists_of_findSome?_eq_some htag
  exact (h a ha).2 tag hf

theorem Judges.mono {ok ok' : Prop} {bad bad' : Nat → Prop} {x : Option Nat} (h : Judges ok bad x)
    (hok : ok → ok') (hbad : ∀ tag, bad tag → bad' tag) : Judges ok' bad' x :=
  ⟨fun hnone => hok (h.1 hnone), fun tag htag => hbad tag (h.2 tag htag)⟩

theorem Judges.or {ok ok' : Prop} {bad : Nat → Prop} {x y : Option Nat} (hx : Judges ok bad x)
    (hy : ok → Judges ok' bad y) : Judges ok' bad (x.or y) := by
  cases x with
  | none => exact hy (hx.1 rfl)
  | some tag => exact ⟨nofun, hx.2⟩

/-! ## The bitmap -/

theorem getLsbD_ruleBits (p : FieldRule → Bool) (k : Nat) : ∀ (rules : List FieldRule) (index : Nat)
    (bitmap : BitVec 64), (ruleBits p rules index bitmap).getLsbD k = (bitmap.getLsbD k ||
      (decide (index ≤ k ∧ k < 64) && rules[k - index]?.any p))
  | [], index, bitmap => by simp [ruleBits]
  | rule :: rules, index, bitmap => by
    have hbit : (if p rule && index < 64 then bitmap ||| 1#64 <<< index else bitmap).getLsbD k =
        (bitmap.getLsbD k || (decide (k = index ∧ k < 64) && p rule)) := by
      rw [← BitVec.twoPow_eq]
      by_cases hp : (p rule && index < 64) = true
      · rw [if_pos hp, BitVec.getLsbD_or, BitVec.getLsbD_twoPow]
        rw [Bool.and_eq_true, decide_eq_true_eq] at hp
        by_cases hk : k = index
        · simp [hk, hp]
        · simp [hk, Ne.symm hk]
      · rw [if_neg hp]
        by_cases hk : k = index
        · have hnone : (decide (k < 64) && p rule) = false := by
            rw [hk, Bool.and_comm]
            exact eq_false_of_ne_true hp
          simp [hk, hk ▸ hnone]
        · simp [hk]
    rw [ruleBits, getLsbD_ruleBits p k rules, hbit, Bool.or_assoc]
    congr 1
    rcases Nat.lt_trichotomy k index with hlt | rfl | hlt
    · simp [show ¬index ≤ k by omega, show ¬index + 1 ≤ k by omega, show k ≠ index by omega]
    · simp
    · rw [show k - index = k - (index + 1) + 1 by omega, List.getElem?_cons_succ]
      simp [show index ≤ k by omega, show index + 1 ≤ k by omega, show k ≠ index by omega]

/-- The bit of a rule in the difference of the bitmaps: it is required and its tag is absent. -/
theorem getLsbD_missing (rules : List FieldRule) (v : MessageView) (k : Nat) :
    ((computeRequiredFieldBitmap rules).1 &&&
      ~~~ruleBits (fun rule => v.hasTag rule.tag) rules 0 0).getLsbD k = (decide (k < 64) &&
    rules[k]?.any fun rule => rule.required && !v.hasTag rule.tag) := by
  rw [BitVec.getLsbD_and, BitVec.getLsbD_not, computeRequiredFieldBitmap, getLsbD_ruleBits,
    getLsbD_ruleBits]
  by_cases hk : k < 64
  · cases rules[k]? <;> simp [hk]
  · simp [hk]

/-! ## The check -/

variable {g : GroupDef} (flagged : Bool)

theorem missingBit_judges (hflag : (g.requiredRecord flagged).requiredBitmapOverflow = false)
    (hunder : ∀ rule ∈ g.rules, CompleteUnder d v rule) : Judges (Complete d g.rules v)
      (Missing d · g.rules v) (missingBit (g.requiredRecord flagged) v) := by
  have hbit := getLsbD_missing g.rules v
  unfold missingBit
  dsimp only [GroupDef.requiredRecord]
  split
  · rename_i hzero
    refine ⟨fun _ => complete_iff.2 fun rule hrule => ⟨fun hrequired => ?_, hunder rule hrule⟩, nofun⟩
    obtain ⟨k, hk⟩ := List.mem_iff_getElem?.1 hrule
    by_cases hlow : k < 64
    · have := hbit k
      rw [hzero, hk] at this
      simpa [hlow, hrequired] using this.symm
    · have hlate : rule ∈ g.rules.drop 64 :=
        List.mem_iff_getElem?.2 ⟨k - 64, by rw [List.getElem?_drop, ← hk]; congr 1; omega⟩
      have hnone := (Bool.or_eq_false_iff.1 hflag).2
      exact absurd hrequired (List.any_eq_false.1 hnone rule hlate)
  · rename_i hne
    refine ⟨nofun, fun tag htag => ?_⟩
    have := hbit _ ▸ BitVec.getLsbD_true_ctz_of_ne_zero hne
    simp only [Bool.and_eq_true, Option.any_eq_true] at this
    obtain ⟨-, rule, hrule, hrequired, habsent⟩ := this
    rw [List.getD_eq_getElem?_getD, hrule] at htag
    cases htag
    exact .here (List.mem_of_getElem? hrule) hrequired rfl (by simpa using habsent)

/-- The loop over the rules: with the flag it reports every missing tag, without it only those of
the groups. -/
theorem rules_judges (flag : Bool) {nested : FieldRule → Option Nat}
    (h : ∀ rule ∈ rules, Judges (CompleteUnder d v rule) (Missing d · rules v) (nested rule)) :
    Judges (∀ rule ∈ rules, (flag → rule.required → v.hasTag rule.tag) ∧ CompleteUnder d v rule)
      (Missing d · rules v) (rules.findSome? fun rule =>
        if flag && rule.required && !v.hasTag rule.tag then some rule.tag else nested rule) := by
  refine .findSome fun rule hrule => ?_
  obtain ⟨hnone, hsome⟩ := h rule hrule
  split
  · rename_i hmissing
    simp only [Bool.and_eq_true, Bool.not_eq_true'] at hmissing
    refine ⟨nofun, fun tag htag => ?_⟩
    cases htag
    exact .here hrule hmissing.1.2 rfl hmissing.2
  · rename_i hpresent
    refine ⟨fun hn => ⟨fun hflag hrequired => ?_, hnone hn⟩, hsome⟩
    simpa [hflag, hrequired] using hpresent

theorem validateRequiredEntry_judges {nested : FieldRule → Option Nat}
    (h : ∀ rule ∈ g.rules, Judges (CompleteUnder d v rule) (Missing d · g.rules v) (nested rule)) :
    Judges (Complete d g.rules v) (Missing d · g.rules v)
      (validateRequiredEntry (g.requiredRecord flagged) v nested) := by
  refine (rules_judges _ h).or fun hall => ?_
  split
  · rename_i hflag
    exact ⟨fun _ => complete_iff.2 fun rule hrule =>
      ⟨(hall rule hrule).1 hflag, (hall rule hrule).2⟩, nofun⟩
  · rename_i hflag
    exact missingBit_judges flagged (eq_false_of_ne_true hflag) fun rule hrule =>
      (hall rule hrule).2

/-- Every entry of the group is complete, or a tag that one of them lacks is reported. -/
def JudgesGroup (d : Dictionary) (g : GroupDef) (group : GroupView) : Option Nat → Prop :=
  Judges (∀ index ∈ List.range group.size, Complete d g.rules (group.entry index))
    fun tag => ∃ index < group.size, Missing d tag g.rules (group.entry index)

theorem validateUnder_judges {flagged : Nat → Bool} {rule : FieldRule} (hrule : rule ∈ rules)
    {check : RequiredGroupRecord → (group : GroupView) → v.group rule.tag = some group → Option Nat}
    (h : ∀ g group hgroup, JudgesGroup d g group
      (check (g.requiredRecord (flagged rule.tag)) group hgroup)) :
    Judges (CompleteUnder d v rule) (Missing d · rules v)
      (validateUnder (d.findRequired flagged) v rule check) := by
  unfold validateUnder
  split
  · rename_i record group hrecord hgroup
    obtain ⟨g, hdef, rfl⟩ := Option.map_eq_some_iff.1 hrecord
    obtain ⟨hnone, hsome⟩ := h g group hgroup
    refine ⟨fun hn g' group' hdef' hgroup' index hindex => ?_, fun tag htag => ?_⟩
    · cases hdef.symm.trans hdef'
      cases hgroup.symm.trans hgroup'
      exact hnone hn index (List.mem_range.2 hindex)
    · obtain ⟨index, hindex, hmissing⟩ := hsome tag htag
      exact .inside hrule hdef hgroup hindex hmissing
  · rename_i hno
    refine ⟨fun _ g group hdef hgroup => ?_, nofun⟩
    exact (hno _ group (congrArg (Option.map _) hdef) hgroup).elim

theorem validateRequiredGroup_judges (flagged : Nat → Bool) (tag : Nat) (g : GroupDef)
    (group : GroupView) : JudgesGroup d g group
      (validateRequiredGroup (d.findRequired flagged) (g.requiredRecord (flagged tag)) group) := by
  rw [validateRequiredGroup]
  refine Judges.findSome fun index hindex => Judges.mono (validateRequiredEntry_judges (flagged tag)
    fun rule hrule => validateUnder_judges hrule fun g' group' _ => ?_)
      id fun t ht => ⟨index, List.mem_range.1 hindex, ht⟩
  exact validateRequiredGroup_judges flagged rule.tag g' group'
termination_by sizeOf group
decreasing_by exact GroupView.sizeOf_lt ‹_›

end

/-- The check passes exactly the complete messages, and reports a tag that is required at some level
and missing there. -/
theorem validate_required_fields_iff (d : Dictionary) (flagged : Nat → Bool) (m : MessageDef)
    (v : MessageView) :
    (validateRequiredFields d flagged m v = .ok () ↔ Complete d m.rules v) ∧
      ∀ status tag, validateRequiredFields d flagged m v = .error (status, tag) →
        Missing d tag m.rules v := by
  have hrules : Judges (Complete d m.rules v) (Missing d · m.rules v)
      (validateRequiredRules (d.findRequired flagged) v m.rules) := by
    unfold validateRequiredRules
    refine Judges.mono (rules_judges true fun rule hrule => validateUnder_judges hrule
      fun g group _ => validateRequiredGroup_judges flagged rule.tag g group) ?_ fun _ => id
    exact fun hall => complete_iff.2 fun rule hrule =>
      ⟨(hall rule hrule).1 rfl, (hall rule hrule).2⟩
  unfold validateRequiredFields
  cases houtcome : validateRequiredRules (d.findRequired flagged) v m.rules with
  | none => exact ⟨iff_of_true rfl (hrules.1 houtcome), nofun⟩
  | some tag =>
    have hmissing := hrules.2 tag houtcome
    refine ⟨iff_of_false nofun fun hcomplete => hcomplete tag hmissing, ?_⟩
    rintro _ _ ⟨⟩
    exact hmissing

end NimbleFix
