import NimbleFix.Codec.ViewEncode
import NimbleFix.Session.Sample

/-!
# When a compiled template writes what the generic encoder writes

Both encoders walk the rules of a scope and then the fields and groups that the rules do not name,
but they classify these differently: the template decides by the dictionary whether a rule is a
group and writes unnamed groups without the dictionary, the generic encoder decides by the message
and writes every group by its definition. `Templated` says that a view gives no occasion for this.
-/

namespace NimbleFix

/-! ## Tables of groups -/

section

variable (d : Dictionary) (delim : Byte)

theorem plainViewTable_eq : ∀ gs : List GroupView,
    plainViewTable delim gs = gs.map fun g => (g.countTag, g.encodePlain delim)
  | [] => rfl
  | g :: gs => by rw [plainViewTable, plainViewTable_eq gs, List.map_cons]

theorem viewTable_eq : ∀ gs : List GroupView,
    viewTable d delim gs = gs.map fun g => (g.countTag, g.encode d delim)
  | [] => rfl
  | g :: gs => by rw [viewTable, viewTable_eq gs, List.map_cons]

theorem templatedViewTable_eq : ∀ gs : List GroupView,
    templatedViewTable d delim gs = gs.map fun g => (g.countTag, g.encodeTemplated d delim)
  | [] => rfl
  | g :: gs => by rw [templatedViewTable, templatedViewTable_eq gs, List.map_cons]

theorem encodePlainEntryViews_eq : ∀ es : List MessageView,
    encodePlainEntryViews delim es = es.flatMap fun e => e.encodePlain delim false
  | [] => rfl
  | e :: es => by rw [encodePlainEntryViews, encodePlainEntryViews_eq es, List.flatMap_cons]

theorem encodeEntryViews_eq (rules : List FieldRule) : ∀ es : List MessageView,
    encodeEntryViews d delim rules es = es.flatMap fun e => e.encodeBody d delim rules false
  | [] => rfl
  | e :: es => by rw [encodeEntryViews, encodeEntryViews_eq rules es, List.flatMap_cons]

theorem encodeTemplatedEntryViews_eq (rules : List FieldRule) : ∀ es : List MessageView,
    encodeTemplatedEntryViews d delim rules es =
      es.flatMap fun e => e.encodeScope d delim rules false
  | [] => rfl
  | e :: es => by
    rw [encodeTemplatedEntryViews, encodeTemplatedEntryViews_eq rules es, List.flatMap_cons]

theorem MessageView.encodePlain_eq (skipHeader : Bool) (v : MessageView) :
    v.encodePlain delim skipHeader =
      encodeFields delim (v.fields.filter fun f => !isSkipped skipHeader v.groupTags f.tag) ++
        v.groups.flatMap (GroupView.encodePlain delim) := by
  cases v with
  | mk msgType fields find groupCount chain =>
    simp only [encodePlain, plainViewTable_eq, ← List.map_take, List.map_map, List.flatMap_def]
    rfl

theorem MessageView.encodeBody_eq (rules : List FieldRule) (skipHeader : Bool) (v : MessageView) :
    v.encodeBody d delim rules skipHeader = encodeByRules delim skipHeader rules v.fields
      (v.groups.map fun g => (g.countTag, g.encode d delim)) := by
  cases v with
  | mk msgType fields find groupCount chain =>
    rw [encodeBody, viewTable_eq, ← List.map_take]
    rfl

theorem MessageView.encodeScope_eq (rules : List FieldRule) (skipHeader : Bool) (v : MessageView) :
    v.encodeScope d delim rules skipHeader = encodeViewScope d delim skipHeader rules v.find v.fields
      (v.chain.map fun g => (g.countTag, g.encodeTemplated d delim))
      (v.groups.map fun g => (g.countTag, g.encodePlain delim)) := by
  cases v with
  | mk msgType fields find groupCount chain =>
    rw [encodeScope, templatedViewTable_eq, plainViewTable_eq, ← List.map_take]
    rfl

end

variable {tag : Nat} {d : Dictionary} {delim : Byte} {g : GroupView} {rules : List FieldRule}
  {v : MessageView} {skipHeader : Bool}

theorem lookup_map_countTag {text : GroupView → Bytes} (gs : List GroupView) :
    (gs.map fun g => (g.countTag, text g)).lookup tag =
      (gs.find? fun g => g.countTag == tag).map text := by
  induction gs with
  | nil => rfl
  | cons g gs ih =>
    rw [List.map_cons, List.lookup_cons, List.find?_cons, ih]
    by_cases htag : g.countTag = tag
    · simp [htag]
    · have hbeq : (tag == g.countTag) = false := by simpa using fun h => htag h.symm
      have hbeq' : (g.countTag == tag) = false := by simpa using htag
      simp [hbeq, hbeq']

/-! ## Entries that stand in rule order -/

/-- A field or a group of a view. -/
inductive ViewItem
  | field (f : FieldValue)
  | group (g : GroupView)

def ViewItem.text (delim : Byte) (groupText : GroupView → Bytes) : ViewItem → Bytes
  | field f => encodeFieldValue delim f
  | group g => groupText g

namespace MessageView

/-- The fields and groups of an entry by index, as the encoder without rules walks them. -/
def itemsByIndex (v : MessageView) : List ViewItem :=
  (v.fields.filter fun f => !isSkipped false v.groupTags f.tag).map .field ++ v.groups.map .group

/-- What the generic encoder writes under a rule. -/
def ruleItem (v : MessageView) (tag : Nat) : Option ViewItem :=
  if Tag.isFrameStructureTag tag then none
  else
    match v.groups.find? fun g => g.countTag == tag with
    | some g => some (.group g)
    | none => (v.fields.find? fun f => f.tag == tag).map .field

/-- The fields and groups of an entry in the order of the rules, then those without a rule. -/
def itemsByRules (rules : List FieldRule) (v : MessageView) : List ViewItem :=
  rules.filterMap (fun rule => v.ruleItem rule.tag) ++
    (v.fields.filter fun f =>
      !isSkipped false v.groupTags f.tag && !(ruleIndex rules f.tag).isSome).map .field ++
    (v.groups.filter fun g => !(ruleIndex rules g.countTag).isSome).map .group

/-- The entry and the entries below it have their fields and groups in the order of their rules, so
that it makes no difference whether they are written by the rules. -/
inductive InRuleOrder (d : Dictionary) : List FieldRule → MessageView → Prop
  | mk {rules : List FieldRule} {v : MessageView} : v.itemsByRules rules = v.itemsByIndex →
      (∀ g ∈ v.groups, ∀ groupDef, d.findGroup g.countTag = some groupDef →
        ∀ e ∈ g.entries, InRuleOrder d groupDef.rules e) → InRuleOrder d rules v

end MessageView

theorem encodeFields_eq (delim : Byte) (fields : List FieldValue) (text : GroupView → Bytes) :
    encodeFields delim fields = (fields.map ViewItem.field).flatMap (ViewItem.text delim text) := by
  rw [encodeFields, ← List.flatMap_def, List.flatMap_map]
  rfl

theorem flatMap_filterMap {α β : Type} (f : α → Option β) (text : β → Bytes) (l : List α) :
    (l.filterMap f).flatMap text = l.flatMap fun a => ((f a).map text).getD [] := by
  induction l with
  | nil => rfl
  | cons a l ih =>
    rw [List.flatMap_cons, ← ih]
    cases ha : f a <;> simp [ha]

theorem MessageView.encodePlain_items (delim : Byte) (v : MessageView) :
    v.encodePlain delim false =
      v.itemsByIndex.flatMap (ViewItem.text delim (GroupView.encodePlain delim)) := by
  rw [encodePlain_eq, itemsByIndex, List.flatMap_append, ← encodeFields_eq, List.flatMap_map]
  rfl

theorem flatMap_filter {α : Type} (p : α → Bool) (text : α → Bytes) (l : List α) :
    (l.filter p).flatMap text = l.flatMap fun a => if p a then text a else [] := by
  induction l with
  | nil => rfl
  | cons a l ih =>
    rw [List.flatMap_cons, ← ih]
    by_cases ha : p a = true
    · rw [List.filter_cons_of_pos ha, List.flatMap_cons, if_pos ha]
    · rw [List.filter_cons_of_neg ha, if_neg ha, List.nil_append]

/-- The generic encoder writes what is under each rule, then the rest by index. -/
theorem MessageView.encodeBody_parts (d : Dictionary) (delim : Byte) (rules : List FieldRule)
    (skipHeader : Bool) (v : MessageView) :
    v.encodeBody d delim rules skipHeader =
      (scopeSteps skipHeader rules).flatMap (fun step =>
        ((v.ruleItem step.tag).map (ViewItem.text delim (GroupView.encode d delim))).getD []) ++
      encodeFields delim (v.fields.filter fun f =>
        !isSkipped skipHeader v.groupTags f.tag && !(ruleIndex rules f.tag).isSome) ++
      (v.groups.filter fun g => !(ruleIndex rules g.countTag).isSome).flatMap
        (GroupView.encode d delim) := by
  rw [encodeBody_eq, scopeSteps, flatMap_filter]
  unfold encodeByRules
  dsimp only
  congr 1
  · congr 1
    · apply List.flatMap_congr
      intro rule _
      rw [lookup_map_countTag]
      unfold ruleItem
      by_cases hframe : Tag.isFrameStructureTag rule.tag = true
      · simp [hframe]
      · by_cases hheader : (skipHeader && Tag.isAggregateSessionHeaderTag rule.tag) = true
        · simp [hheader]
        · rw [if_neg (by simp [hframe, hheader]), if_neg hframe,
            if_pos (by rw [eq_false_of_ne_true hheader]; rfl)]
          cases v.groups.find? fun g => g.countTag == rule.tag with
          | some g => rfl
          | none => cases v.fields.find? fun f => f.tag == rule.tag <;> rfl
    · rw [List.map_map]
      rfl
  · rw [List.filter_map, List.map_map, List.flatMap_def]
    rfl

theorem scopeSteps_false (rules : List FieldRule) : scopeSteps false rules = rules := by
  simp [scopeSteps]

theorem MessageView.encodeBody_items (d : Dictionary) (delim : Byte) (rules : List FieldRule)
    (v : MessageView) :
    v.encodeBody d delim rules false =
      (v.itemsByRules rules).flatMap (ViewItem.text delim (GroupView.encode d delim)) := by
  rw [encodeBody_parts, scopeSteps_false, itemsByRules, List.flatMap_append, List.flatMap_append,
    ← encodeFields_eq, flatMap_filterMap, List.flatMap_map]
  rfl

/-- A group without a definition, or whose entries are written alike, is written alike. -/
theorem GroupView.encode_eq_plain
    (h : ∀ groupDef, d.findGroup g.countTag = some groupDef → ∀ e ∈ g.entries,
      e.encodeBody d delim groupDef.rules false = e.encodePlain delim false) :
    g.encode d delim = g.encodePlain delim := by
  cases g with
  | mk countTag size entries =>
    rw [encode, encodePlain]
    cases hdef : d.findGroup countTag with
    | none => rfl
    | some groupDef =>
      have hentries : ∀ e ∈ entries, e.encodeBody d delim groupDef.rules false =
          e.encodePlain delim false := h groupDef hdef
      simp only [encodeEntryViews_eq, encodePlainEntryViews_eq]
      rw [List.flatMap_congr hentries]

theorem MessageView.InRuleOrder.encodeBody_eq_plain (delim : Byte) (h : v.InRuleOrder d rules) :
    v.encodeBody d delim rules false = v.encodePlain delim false := by
  induction h with
  | @mk rules v hitems _ ih =>
    rw [encodeBody_items, encodePlain_items, hitems]
    apply List.flatMap_congr
    intro item hitem
    cases item with
    | field f => rfl
    | group g =>
      have hg : g ∈ v.groups := by simpa [itemsByIndex] using hitem
      exact GroupView.encode_eq_plain (ih g hg)

/-! ## Templated views -/

/-- The field a template writes for a step: the one found by tag, unless a group has its tag. -/
def MessageView.scalar (v : MessageView) (tag : Nat) : Option FieldValue :=
  (v.find tag).filter fun f => !v.groupTags.contains f.tag

/-- The view gives the template of a scope and the generic encoder the same to write under each
rule. Groups are left to `Templated`. -/
structure ScopeAgrees (d : Dictionary) (skipHeader : Bool) (rules : List FieldRule)
    (v : MessageView) : Prop where
  /-- Frame fields named by a rule, which only the template writes. -/
  frame : ∀ step ∈ scopeSteps skipHeader rules, Tag.isFrameStructureTag step.tag →
    if (d.findGroup step.tag).isSome then (v.group step.tag).isNone else (v.scalar step.tag).isNone
  /-- A rule that is a group in the dictionary, but only a field in the message. -/
  groupRule : ∀ step ∈ scopeSteps skipHeader rules, ¬Tag.isFrameStructureTag step.tag →
    (d.findGroup step.tag).isSome → step.tag ∉ v.groupTags →
      (v.group step.tag).isNone ∧ step.tag ∉ v.fields.map FieldValue.tag
  /-- A rule that is a field: the field found by tag is the first one by index. -/
  scalarRule : ∀ step ∈ scopeSteps skipHeader rules, ¬Tag.isFrameStructureTag step.tag →
    (d.findGroup step.tag).isNone → (v.scalar step.tag).map (fun f => f.value.text) =
      (v.fields.find? fun f => f.tag == step.tag).map fun f => f.value.text
  /-- A group of the message that a rule names is a group step of the template. -/
  namedGroup : ∀ g ∈ v.groups, (ruleIndex rules g.countTag).isSome →
    (ruleIndex (scopeSteps skipHeader rules) g.countTag).isSome ∧ (d.findGroup g.countTag).isSome

/-- The view gives no occasion for the template to differ from the generic encoder, in its own scope
and in the entries of its groups. A group that no rule names has no definition or stands in the
order of its definition. -/
inductive MessageView.Templated (d : Dictionary) : Bool → List FieldRule → MessageView → Prop
  | mk {skipHeader : Bool} {rules : List FieldRule} {v : MessageView} :
      ScopeAgrees d skipHeader rules v →
      (∀ step ∈ scopeSteps skipHeader rules, ∀ groupDef, d.findGroup step.tag = some groupDef →
        ∀ g, v.group step.tag = some g → g.size < 2 ^ 32) →
      (∀ step ∈ scopeSteps skipHeader rules, ∀ groupDef, d.findGroup step.tag = some groupDef →
        ∀ g, v.group step.tag = some g → ∀ e ∈ g.entries, e.Templated d false groupDef.rules) →
      (∀ g ∈ v.groups, ¬(ruleIndex rules g.countTag).isSome →
        ∀ groupDef, d.findGroup g.countTag = some groupDef →
          ∀ e ∈ g.entries, e.InRuleOrder d groupDef.rules) →
      Templated d skipHeader rules v

theorem ruleIndex_isSome : (ruleIndex rules tag).isSome ↔ ∃ r ∈ rules, r.tag = tag := by
  simp [ruleIndex]

/-- The template scope writes what is under each step, then the rest by index. -/
theorem MessageView.encodeScope_parts (d : Dictionary) (delim : Byte) (rules : List FieldRule)
    (skipHeader : Bool) (v : MessageView) :
    v.encodeScope d delim rules skipHeader =
      (scopeSteps skipHeader rules).flatMap (fun step =>
        if (d.findGroup step.tag).isSome then
          ((v.group step.tag).map (GroupView.encodeTemplated d delim)).getD []
        else ((v.scalar step.tag).map fun f => field delim step.tag f.value.text).getD []) ++
      encodeFields delim (v.fields.filter fun f =>
        !isSkipped skipHeader v.groupTags f.tag &&
          !(ruleIndex (scopeSteps skipHeader rules) f.tag).isSome) ++
      (v.groups.filter fun g => !((ruleIndex (scopeSteps skipHeader rules) g.countTag).isSome &&
        (d.findGroup g.countTag).isSome)).flatMap (GroupView.encodePlain delim) := by
  rw [encodeScope_eq]
  unfold encodeViewScope
  dsimp only
  congr 1
  · congr 1
    · apply List.flatMap_congr
      intro step _
      rw [lookup_map_countTag, List.map_map]
      split
      · rfl
      · unfold scalar
        cases v.find step.tag with
        | none => rfl
        | some f =>
          change (if v.groupTags.contains f.tag then [] else _) = _
          by_cases hcontains : v.groupTags.contains f.tag = true
          · rw [if_pos hcontains, Option.filter_some, if_neg (by simpa using hcontains)]
            rfl
          · rw [if_neg hcontains, Option.filter_some, if_pos (by simpa using hcontains)]
            rfl
    · rw [List.map_map]
      rfl
  · rw [List.filter_map, List.map_map, List.flatMap_def]
    rfl

theorem MessageView.group_eq_some (h : v.groups.find? (fun g => g.countTag == tag) = some g) :
    v.group tag = some g := by
  cases v with
  | mk msgType fields find groupCount chain =>
    change chain.find? (fun g => g.countTag == tag) = some g
    rw [← List.take_append_drop groupCount chain, List.find?_append]
    rw [show (chain.take groupCount).find? (fun g => g.countTag == tag) = some g from h]
    rfl

theorem MessageView.groups_find_none :
    v.groups.find? (fun g => g.countTag == tag) = none ↔ tag ∉ v.groupTags := by
  simp [groupTags]

theorem GroupView.encodeTemplated_eq {groupDef : GroupDef}
    (hdef : d.findGroup g.countTag = some groupDef) (hsize : g.size < 2 ^ 32)
    (h : ∀ e ∈ g.entries, e.encodeScope d delim groupDef.rules false =
      e.encodeBody d delim groupDef.rules false) :
    g.encodeTemplated d delim = g.encode d delim := by
  cases g with
  | mk countTag size entries =>
    have hdef' : d.findGroup countTag = some groupDef := hdef
    have hentries : ∀ e ∈ entries, e.encodeScope d delim groupDef.rules false =
        e.encodeBody d delim groupDef.rules false := h
    have hsize' : size < 2 ^ 32 := hsize
    rw [encodeTemplated, encode, hdef', wrap32_of_lt hsize']
    simp only [encodeTemplatedEntryViews_eq, encodeEntryViews_eq]
    rw [List.flatMap_congr hentries]

theorem ScopeAgrees.step_eq (h : ScopeAgrees d skipHeader rules v) {step : FieldRule}
    (hstep : step ∈ scopeSteps skipHeader rules)
    (hgroup : ∀ g, v.group step.tag = some g → (d.findGroup step.tag).isSome →
      g.encodeTemplated d delim = g.encode d delim) :
    (if (d.findGroup step.tag).isSome then
        ((v.group step.tag).map (GroupView.encodeTemplated d delim)).getD []
      else ((v.scalar step.tag).map fun f => field delim step.tag f.value.text).getD []) =
      ((v.ruleItem step.tag).map (ViewItem.text delim (GroupView.encode d delim))).getD [] := by
  unfold MessageView.ruleItem
  by_cases hframe : Tag.isFrameStructureTag step.tag = true
  · have hnone := h.frame step hstep hframe
    rw [if_pos hframe]
    split
    · rename_i hdef
      rw [if_pos hdef, Option.isNone_iff_eq_none] at hnone
      rw [hnone]
      rfl
    · rename_i hdef
      rw [if_neg hdef, Option.isNone_iff_eq_none] at hnone
      rw [hnone]
      rfl
  · rw [if_neg hframe]
    by_cases hdef : (d.findGroup step.tag).isSome = true
    · rw [if_pos hdef]
      cases hfind : v.groups.find? fun g => g.countTag == step.tag with
      | some g =>
        have hsome := MessageView.group_eq_some hfind
        rw [hsome]
        exact hgroup g hsome hdef
      | none =>
        obtain ⟨hnone, hfields⟩ :=
          h.groupRule step hstep hframe hdef (MessageView.groups_find_none.1 hfind)
        have hfield : (v.fields.find? fun f => f.tag == step.tag) = none := by
          simpa using hfields
        rw [Option.isNone_iff_eq_none.1 hnone, hfield]
        rfl
    · rw [if_neg hdef]
      have hfind : (v.groups.find? fun g => g.countTag == step.tag) = none := by
        rw [MessageView.groups_find_none]
        intro hmem
        obtain ⟨g, hg, htag⟩ := List.mem_map.1 hmem
        refine hdef ?_
        rw [← htag]
        refine (h.namedGroup g hg (ruleIndex_isSome.2 ⟨step, ?_, htag.symm⟩)).2
        exact List.mem_of_mem_filter hstep
      have hscalar := h.scalarRule step hstep hframe (by simpa using hdef)
      rw [hfind]
      cases hfield : v.fields.find? fun f => f.tag == step.tag with
      | none =>
        rw [hfield] at hscalar
        rw [Option.map_eq_none_iff.1 hscalar]
        rfl
      | some f =>
        rw [hfield] at hscalar
        obtain ⟨f', hf', htext⟩ := Option.map_eq_some_iff.1 hscalar
        have htag : f.tag = step.tag := by simpa using List.find?_some hfield
        rw [hf']
        simp only [Option.map_some, Option.getD_some, ViewItem.text, encodeFieldValue, htext, htag]

/-- A step is a rule, and a rule is a step unless the header is written elsewhere. -/
theorem ruleIndex_scopeSteps (h : ¬(skipHeader && Tag.isAggregateSessionHeaderTag tag)) :
    (ruleIndex (scopeSteps skipHeader rules) tag).isSome = (ruleIndex rules tag).isSome := by
  rw [Bool.eq_iff_iff, ruleIndex_isSome, ruleIndex_isSome]
  constructor
  · rintro ⟨r, hr, htag⟩
    exact ⟨r, List.mem_of_mem_filter hr, htag⟩
  · rintro ⟨r, hr, rfl⟩
    refine ⟨r, List.mem_filter.2 ⟨hr, ?_⟩, rfl⟩
    rw [eq_false_of_ne_true h]
    rfl

theorem MessageView.Templated.encodeScope_eq_body (delim : Byte)
    (h : v.Templated d skipHeader rules) :
    v.encodeScope d delim rules skipHeader = v.encodeBody d delim rules skipHeader := by
  induction h with
  | @mk skipHeader rules v hscope hsize _ hextra ih =>
    rw [encodeScope_parts, encodeBody_parts]
    congr 1
    · congr 1
      · apply List.flatMap_congr
        intro step hstep
        apply hscope.step_eq hstep
        intro g hg hdef
        obtain ⟨groupDef, hdef⟩ := Option.isSome_iff_exists.1 hdef
        have htag : g.countTag = step.tag := by simpa using List.find?_some hg
        exact GroupView.encodeTemplated_eq (by rw [htag]; exact hdef)
          (hsize step hstep groupDef hdef g hg) (ih step hstep groupDef hdef g hg)
      · congr 1
        apply List.filter_congr
        intro f _
        by_cases hheader : (skipHeader && Tag.isAggregateSessionHeaderTag f.tag) = true
        · simp [isSkipped, hheader]
        · rw [ruleIndex_scopeSteps hheader]
    · have hfilter : (v.groups.filter fun g =>
          !((ruleIndex (scopeSteps skipHeader rules) g.countTag).isSome &&
            (d.findGroup g.countTag).isSome)) =
          v.groups.filter fun g => !(ruleIndex rules g.countTag).isSome := by
        apply List.filter_congr
        intro g hg
        congr 1
        rw [Bool.eq_iff_iff, Bool.and_eq_true]
        refine ⟨fun hstep => ?_, hscope.namedGroup g hg⟩
        obtain ⟨r, hr, htag⟩ := ruleIndex_isSome.1 hstep.1
        exact ruleIndex_isSome.2 ⟨r, List.mem_of_mem_filter hr, htag⟩
      rw [hfilter]
      apply List.flatMap_congr
      intro g hg
      obtain ⟨hg, hunnamed⟩ := List.mem_filter.1 hg
      refine (GroupView.encode_eq_plain fun groupDef hdef e he => ?_).symm
      exact (hextra g hg (by simpa using hunnamed) groupDef hdef e he).encodeBody_eq_plain delim

/-! ## Frames -/

/-- A view that a template writes as the generic encoder does: it has a message type, and it is
templated under the rules of that type. -/
structure MessageView.WrittenAlike (d : Dictionary) (v : MessageView) : Prop where
  typed : v.msgType ≠ []
  templated : ∀ def_, d.findMessage v.msgType = some def_ → v.Templated d true def_.rules

/-- Where a template encodes a view that is written alike, the generic encoder gives the same
bytes. -/
theorem template_encodes_as_generic {d : Dictionary} {msgType : Bytes}
    {config : EncodeTemplateConfig} {t : FrameEncodeTemplate} {v : MessageView} {o : EncodeOptions}
    {bytes : Bytes} (hcompile : compileFrameEncodeTemplate d msgType config = .ok t)
    (hbegin : resolvedBeginString o.beginString = resolvedBeginString config.beginString)
    (hsender : o.senderCompId = config.senderCompId)
    (htarget : o.targetCompId = config.targetCompId)
    (hversion : o.defaultApplVerId = config.defaultApplVerId)
    (hok : t.encodeToBuffer v o = .ok bytes) (hview : v.WrittenAlike d) :
    encodeViewGeneric d v o = .ok bytes := by
  obtain ⟨def_, hdef, rfl⟩ := compileFrameEncodeTemplate_ok hcompile
  obtain ⟨htype, hdelim, hframe⟩ := FrameEncodeTemplate.encodeToBuffer_ok hok
  have htype := htype hview.typed
  dsimp only at htype hdelim hframe
  rw [← htype] at hdef hframe
  rw [(hview.templated def_ hdef).encodeScope_eq_body] at hframe
  unfold encodeViewGeneric
  rw [if_neg hview.typed, hdef, hdelim, hbegin]
  dsimp only
  rw [← hframe, ← hsender, ← htarget, ← hversion]

namespace Sample

/-- Four messages around a group of parties: `X` names the group, `Y` does not, `Z` names a count
without a definition, and `W` names a field of the frame. -/
def scopesDictionary : Dictionary where
  fields := [typed 453 .int, typed 448 .string, typed 447 .char, typed Tag.text .string]
  messages :=
    [⟨ascii "X", [optional 453, optional Tag.text]⟩, ⟨ascii "Y", [optional Tag.text]⟩,
      ⟨ascii "Z", [optional 555, optional Tag.text]⟩,
      ⟨ascii "W", [optional Tag.bodyLength, optional Tag.text]⟩]
  groups := [⟨453, 448, [required 448, optional 447]⟩]

def templateConfig : EncodeTemplateConfig where
  beginString := ascii "FIX.4.4"
  senderCompId := ascii "I"
  targetCompId := ascii "A"
  defaultApplVerId := []

def templateOptions : EncodeOptions where
  senderCompId := ascii "I"
  targetCompId := ascii "A"
  msgSeqNum := 2
  sendingTime := sendingTime

/-- What the template for a message type and the generic encoder make of a view. -/
def encodings (msgType : String) (v : MessageView) : Option Bytes × Option Bytes :=
  ((compileFrameEncodeTemplate scopesDictionary (ascii msgType) templateConfig).toOption.bind
      fun t => (t.encodeToBuffer v templateOptions).toOption,
    (encodeViewGeneric scopesDictionary v templateOptions).toOption)

def text (value : String) : FieldValue := ⟨Tag.text, .string (ascii value)⟩

/-- An order with one party. -/
def party : MessageData := .mk [] [⟨448, .string (ascii "a")⟩] []

def parties : MessageData := .mk (ascii "X") [text "t"] [.mk 453 [party]]

/-- The decoded `partiesFrame`, for an engine that passes it on. -/
def decodedParties : MessageView :=
  match decodeFixMessageViewGeneric (fun _ => true) partiesDictionary soh true partiesFrame with
  | .ok view => view.message.view id
  | .error _ => .mk [] [] (fun _ => none) 0 []

/-- Views that a template and the generic encoder write differently, with the type of the template:
a count without a group, a group that no rule names, a group without a definition, a field of the
frame, a message without a type, and a decoded message. -/
def divergentViews : List (String × MessageView) :=
  [("X", (MessageData.mk (ascii "X") [⟨453, .int 0⟩] []).view),
    ("Y", (MessageData.mk (ascii "Y") []
      [.mk 453 [.mk [] [⟨447, .char 68⟩, ⟨448, .string (ascii "a")⟩] []]]).view),
    ("Z", (MessageData.mk (ascii "Z") [text "t"] [.mk 555 [.mk [] [text "leg"] []]]).view),
    ("W", (MessageData.mk (ascii "W") [⟨Tag.bodyLength, .string (ascii "1")⟩] []).view),
    ("X", (MessageData.mk [] [text "t"] []).view),
    ("X", decodedParties)]

end Sample

open Sample

theorem template_differs_from_generic : divergentViews.all fun c =>
    (encodings c.1 c.2).1.isSome &&
      (encodings c.1 c.2).1 != (encodings c.1 c.2).2 := by
  decide +kernel

theorem template_encodes_as_generic_sample :
    ∃ bytes, encodings "X" parties.view = (some bytes, some bytes) := by
  have hparty : party.view.Templated scopesDictionary false
      [required 448, optional 447] := by
    refine .mk ⟨by decide, by decide, by decide, by decide⟩ ?_ ?_ ?_
    · intro _ _ _ _ _ hgroup
      cases hgroup
    · intro _ _ _ _ _ hgroup
      cases hgroup
    · intro _ hgroup
      cases hgroup
  have hgroups : ∀ step ∈ scopeSteps true [optional 453, optional Tag.text],
      ∀ g, parties.view.group step.tag = some g →
        step.tag = 453 ∧ g = .mk 453 1 [party.view] := by
    intro step hstep g hgroup
    have hsteps : scopeSteps true [optional 453, optional Tag.text] =
        [optional 453, optional Tag.text] := by decide
    rw [hsteps, List.mem_cons, List.mem_singleton] at hstep
    rcases hstep with rfl | rfl
    · cases hgroup
      exact ⟨rfl, rfl⟩
    · cases hgroup
  have hview : parties.view.WrittenAlike scopesDictionary := by
    refine ⟨by decide, fun def_ hdef => ?_⟩
    cases hdef
    refine .mk ⟨by decide, by decide, by decide, by decide⟩ ?_ ?_ ?_
    · intro step hstep groupDef _ g hgroup
      rw [(hgroups step hstep g hgroup).2]
      decide
    · intro step hstep groupDef hdef g hgroup e he
      obtain ⟨htag, rfl⟩ := hgroups step hstep g hgroup
      rw [htag] at hdef
      cases hdef
      rw [List.mem_singleton.1 he]
      exact hparty
    · intro g hg hrule
      rw [List.mem_singleton.1 hg] at hrule
      exact absurd (by decide) hrule
  have hok : (encodings "X" parties.view).1.isSome := by decide +kernel
  obtain ⟨bytes, hbytes⟩ := Option.isSome_iff_exists.1 hok
  refine ⟨bytes, Prod.ext hbytes ?_⟩
  unfold encodings at hbytes
  dsimp only at hbytes
  cases hcompile : compileFrameEncodeTemplate scopesDictionary (ascii "X")
      templateConfig with
  | error e =>
    rw [hcompile] at hbytes
    cases hbytes
  | ok t =>
    rw [hcompile] at hbytes
    cases hencode : t.encodeToBuffer parties.view templateOptions with
    | error e =>
      simp [Except.toOption, hencode] at hbytes
    | ok bytes' =>
      have hgeneric := template_encodes_as_generic hcompile rfl rfl rfl rfl hencode hview
      simp only [Except.toOption, Option.bind_some, hencode, Option.some.injEq] at hbytes
      rw [← hbytes]
      unfold encodings
      rw [hgeneric]
      rfl

end NimbleFix
