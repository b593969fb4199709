import NimbleFix.Codec.FieldText
import NimbleFix.Session.Outbound

/-!
# What a built frame is

A frame that one of the builders returns was encoded under the number the builder took, and its
header carries that number and its message type.
-/

namespace NimbleFix

open Fallible

/-! ## Bodies -/

/-- One of the ways in which the encoders write the body of a message. -/
inductive IsBody (d : Dictionary) (m : MessageData) : Bytes → Prop
  | plain : IsBody d m (m.view.encodePlain soh true)
  | ruled (rules : List FieldRule) : IsBody d m (m.view.encodeBody d soh rules true)
  | templated (rules : List FieldRule) : IsBody d m (m.view.encodeScope d soh rules true)

def FieldValue.inline (f : FieldValue) : InlineField := ⟨f.tag, f.value.text⟩

theorem encodeFields_eq_fieldsText (delim : Byte) (fields : List FieldValue) :
    encodeFields delim fields = fieldsText delim (fields.map FieldValue.inline) := by
  rw [encodeFields, fieldsText, List.flatMap_map]
  rfl

theorem fieldsText_flatMap {α : Type} (delim : Byte) (xs : List α) (g : α → List InlineField) :
    fieldsText delim (xs.flatMap g) = xs.flatMap fun x => fieldsText delim (g x) :=
  List.flatMap_assoc

theorem exists_rule_of_isSome {rules : List FieldRule} {tag : Nat}
    (h : (ruleIndex rules tag).isSome) : ∃ rule ∈ rules, rule.tag = tag := by
  simpa [ruleIndex] using h

/-- The body of a message without groups is a list of fields, among them the first field of each
tag that is neither in the header nor, for the dictionary, the count of a group. -/
theorem IsBody.exists_fields {d : Dictionary} {msgType body : Bytes} {fields : List FieldValue}
    (h : IsBody d (.mk msgType fields []) body) :
    ∃ written, body = fieldsText soh written ∧
      ∀ f, (fields.find? fun g => g.tag == f.tag) = some f → isSkipped true [] f.tag = false →
        d.findGroup f.tag = none → f.inline ∈ written := by
  have hextra : ∀ (isRule : Nat → Bool) (f : FieldValue), f ∈ fields →
      isSkipped true [] f.tag = false → isRule f.tag = false →
      f.inline ∈ (fields.filter fun g => !isSkipped true [] g.tag && !isRule g.tag).map
        FieldValue.inline :=
    fun isRule f hf hskip hrule => List.mem_map_of_mem (List.mem_filter.2 ⟨hf, by simp [*]⟩)
  cases h with
  | plain =>
    refine ⟨(fields.filter fun g => !isSkipped true [] g.tag).map FieldValue.inline, ?_, ?_⟩
    · simp [MessageData.view, MessageView.encodePlain, viewGroups, plainViewTable,
        encodeFields_eq_fieldsText]
    · intro f hf hskip _
      simpa using hextra (fun _ => false) f (List.mem_of_find?_eq_some hf) hskip rfl
  | ruled rules =>
    refine ⟨(rules.flatMap fun rule =>
      if Tag.isFrameStructureTag rule.tag || Tag.isAggregateSessionHeaderTag rule.tag then []
      else ((fields.find? fun f => f.tag == rule.tag).map FieldValue.inline).toList) ++
      (fields.filter fun g => !isSkipped true [] g.tag && !(ruleIndex rules g.tag).isSome).map
        FieldValue.inline, ?_, ?_⟩
    · simp only [MessageData.view, MessageView.encodeBody, viewGroups, viewTable, encodeByRules,
        fieldsText_append, encodeFields_eq_fieldsText, fieldsText_flatMap, List.take_nil,
        List.lookup_nil, List.map_nil, List.filter_nil, List.flatten_nil, List.append_nil,
        Bool.true_and]
      congr 2
      funext rule
      split
      · rfl
      · cases fields.find? fun f => f.tag == rule.tag <;>
          simp [FieldValue.inline, encodeFieldValue]
    · intro f hf hskip _
      rw [List.mem_append]
      cases hrule : (ruleIndex rules f.tag).isSome with
      | false =>
        exact .inr (hextra (fun tag => (ruleIndex rules tag).isSome) f
          (List.mem_of_find?_eq_some hf) hskip hrule)
      | true =>
        obtain ⟨rule, hmem, htag⟩ := exists_rule_of_isSome hrule
        refine .inl (List.mem_flatMap.2 ⟨rule, hmem, ?_⟩)
        simp only [isSkipped, List.contains_nil, Bool.or_false, Bool.true_and] at hskip
        rw [htag, hf, if_neg (by simp [hskip])]
        simp
  | templated rules =>
    let steps := scopeSteps true rules
    refine ⟨(steps.flatMap fun rule =>
      if (d.findGroup rule.tag).isSome then []
      else ((MessageData.findFieldView msgType fields rule.tag).map fun f =>
        ⟨rule.tag, f.value.text⟩).toList) ++
      (fields.filter fun g => !isSkipped true [] g.tag && !(ruleIndex steps g.tag).isSome).map
        FieldValue.inline, ?_, ?_⟩
    · simp only [MessageData.view, MessageView.encodeScope, viewGroups, templatedViewTable,
        plainViewTable, encodeViewScope, fieldsText_append, encodeFields_eq_fieldsText,
        fieldsText_flatMap, List.take_nil, List.lookup_nil, List.map_nil, List.filter_nil,
        List.flatten_nil, List.append_nil, List.contains_nil]
      congr 2
      funext rule
      split
      · rfl
      · cases MessageData.findFieldView msgType fields rule.tag <;> simp
    · intro f hf hskip hgroup
      rw [List.mem_append]
      cases hrule : (ruleIndex steps f.tag).isSome with
      | false =>
        exact .inr (hextra (fun tag => (ruleIndex steps tag).isSome) f
          (List.mem_of_find?_eq_some hf) hskip hrule)
      | true =>
        obtain ⟨rule, hmem, htag⟩ := exists_rule_of_isSome hrule
        refine .inl (List.mem_flatMap.2 ⟨rule, hmem, ?_⟩)
        rw [htag, MessageData.findFieldView, hf, if_neg (by simp [hgroup])]
        simp [FieldValue.inline]

/-! ## Encoded messages -/

section

variable {env : ProtocolEnv} {m : MessageData} {o : EncodeOptions} {bytes : Bytes}

theorem resolveEncodeTemplate_some {msgType : Bytes} {template : FrameEncodeTemplate}
    (h : resolveEncodeTemplate env msgType = some template) :
    template.msgType = msgType ∧ template.dictionary = env.dictionary ∧
      template.delimiter = soh := by
  unfold resolveEncodeTemplate Except.toOption at h
  split at h
  · rename_i hcompile
    cases h
    obtain ⟨def_, -, rfl⟩ := compileFrameEncodeTemplate_ok hcompile
    exact ⟨rfl, rfl, rfl⟩
  · cases h

/-- The encoder writes a frame with the type of the message, the number and the flag it is given,
and a body. -/
theorem encodeMessage_assembled (hdelim : o.delimiter = soh)
    (h : encodeMessage env m o = .ok bytes) :
    ∃ o' beginString body, o'.delimiter = soh ∧ o'.msgSeqNum = o.msgSeqNum ∧
      o'.possDup = o.possDup ∧ IsBody env.dictionary m body ∧
      assembleFrame soh beginString (resolvedHeaderFields m.msgType o' ++ body) = .ok bytes := by
  have hgeneric : ∀ {bytes}, encodeViewGeneric env.dictionary m.view o = .ok bytes →
      ∃ o' beginString body, o'.delimiter = soh ∧ o'.msgSeqNum = o.msgSeqNum ∧
        o'.possDup = o.possDup ∧ IsBody env.dictionary m body ∧
        assembleFrame soh beginString (resolvedHeaderFields m.msgType o' ++ body) = .ok bytes := by
    intro bytes h
    unfold encodeViewGeneric at h
    rw [hdelim, m.view_msgType, normalizeDelimiter_soh] at h
    refine ⟨{ o with delimiter := soh }, _, _, rfl, rfl, rfl, ?_, h⟩
    split
    · exact .ruled _
    · exact .plain
  unfold encodeMessage at h
  cases htemplate : resolveEncodeTemplate env m.msgType with
  | none =>
    rw [htemplate] at h
    exact hgeneric h
  | some template =>
    rw [htemplate] at h
    dsimp only at h
    split at h
    · rename_i hencoded
      cases h
      obtain ⟨htype, hdictionary, hsoh⟩ := resolveEncodeTemplate_some htemplate
      obtain ⟨-, -, hframe⟩ := FrameEncodeTemplate.encodeToBuffer_ok hencoded
      rw [htype, hdictionary, hsoh] at hframe
      exact ⟨{ o with
        senderCompId := template.senderCompId
        targetCompId := template.targetCompId
        defaultApplVerId := template.defaultApplVerId
        delimiter := soh }, _, _, rfl, rfl, rfl, .templated _, hframe⟩
    · exact hgeneric h

theorem hasFields_encodeMessage (fields : List FieldValue) (hdelim : o.delimiter = soh)
    (htype : m.msgType ≠ []) (hgroups : m.groups = [])
    (hfields : ∀ f ∈ fields, (m.fields.find? fun g => g.tag == f.tag) = some f ∧
      isSkipped true [] f.tag = false ∧ env.dictionary.findGroup f.tag = none)
    (h : encodeMessage env m o = .ok bytes) :
    HasFields bytes (⟨Tag.msgType, m.msgType⟩ ::
      ⟨Tag.msgSeqNum, decimal (if o.msgSeqNum = 0 then 1 else o.msgSeqNum)⟩ ::
      flagFields Tag.possDupFlag o.possDup) (fields.map FieldValue.inline) := by
  obtain ⟨o', beginString, body, hdelim', hseq', hdup, hbody, hframe⟩ :=
    encodeMessage_assembled hdelim h
  obtain ⟨msgType, all, groups⟩ := m
  cases hgroups
  obtain ⟨written, rfl, hwritten⟩ := hbody.exists_fields
  rw [resolvedHeaderFields_eq, hdelim'] at hframe
  refine ⟨_, written, isFrame_of_assembleFrame hframe, ?_, ?_⟩
  · rw [← hseq', ← hdup]
    intro f hf
    have htype' : msgType ≠ [] := htype
    rcases List.mem_cons.1 hf with rfl | hf
    · simp [resolvedHeader, htype', MessageData.msgType]
    · rcases List.mem_cons.1 hf with rfl | hf
      · simp [resolvedHeader]
      · simp [resolvedHeader, hf]
  · refine List.forall_mem_map.2 fun f hf => ?_
    obtain ⟨hfirst, hskip, hgroup⟩ := hfields f hf
    exact hwritten f hfirst hskip hgroup

end

/-! ## The builders -/

section

variable {env : ProtocolEnv} {σ : Type} [SessionStore σ]

theorem encodeFrameWith_ok {msgType : Bytes} {encode : EncodeOptions → Except Status Bytes}
    {params : FrameParams} {ts : Nat} {p p' : AdminProtocol σ} {frame : EncodedFrame}
    (h : encodeFrameWith env msgType encode params ts p = (.ok frame, p')) :
    ∃ seqNum sendingTime, (takeSeq params p).1 = .ok seqNum ∧
      encode (frameOptions env params seqNum sendingTime) = .ok frame.bytes ∧
      frame.msgType = msgType ∧ frame.admin = params.admin ∧ frame.seqNum = seqNum ∧
      frame.fresh = params.allocateSeq := by
  obtain ⟨seqNum, p₁, hseq, h⟩ := bind_ok h
  obtain ⟨time, p₂, _, h⟩ := bind_ok h
  obtain ⟨bytes, p₃, hbytes, h⟩ := bind_ok h
  obtain ⟨_, p₄, _, h⟩ := bind_ok h
  obtain ⟨_, p₅, _, h⟩ := bind_ok h
  obtain ⟨_, p₆, _, h⟩ := bind_ok h
  cases h
  exact ⟨seqNum, time, congrArg Prod.fst hseq, congrArg Prod.fst hbytes, rfl, rfl, rfl, rfl⟩

end

end NimbleFix
