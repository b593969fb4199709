import Mathlib.Data.List.TakeWhile
import NimbleFix.Codec.FieldText
import NimbleFix.Proof.ScanFields
import NimbleFix.Runtime.MessageTransform

/-!
# What a transform does to the fields of a body

The router edits a body by byte offsets. On a body that is the text of a list of fields every edit
is one of the list: `Effect` says which, and `applyTransform_effects` that the result is again the
text of a list of fields.
-/

namespace NimbleFix

namespace Router

/-! ## Effects on lists of fields -/

def Absent (tag : Nat) (fs : List InlineField) : Prop := ∀ f ∈ fs, f.tag ≠ tag

/-- No value holds a delimiter. -/
def Clean (fs : List InlineField) : Prop := ∀ f ∈ fs, soh ∉ f.value

/-- The first field of the tag gets the value; where there is none, a field is added at the end. -/
inductive SetsFirst (tag : Nat) (value : Bytes) : List InlineField → List InlineField → Prop
  | replace {before after : List InlineField} {old : Bytes} (first : Absent tag before) :
    SetsFirst tag value (before ++ ⟨tag, old⟩ :: after) (before ++ ⟨tag, value⟩ :: after)
  | append {fs : List InlineField} (absent : Absent tag fs) :
    SetsFirst tag value fs (fs ++ [⟨tag, value⟩])

inductive RemovesFirst (tag : Nat) : List InlineField → List InlineField → Prop
  | erase {before after : List InlineField} {old : Bytes} (first : Absent tag before) :
    RemovesFirst tag (before ++ ⟨tag, old⟩ :: after) (before ++ after)
  | keep {fs : List InlineField} (absent : Absent tag fs) : RemovesFirst tag fs fs

/-- The value of a text `tag=value` with the wanted tag. -/
def valueOf (wanted : Nat) (text : Bytes) : Option Bytes :=
  match splitAtByte equalsByte text with
  | none => none
  | some (tagText, value) => if parseUint32Strict tagText = some wanted then some value else none

/-- The value of the first field of a tag in any bytes: they are cut at the delimiters. -/
def firstValue (bytes : Bytes) (wanted : Nat) : Option Bytes :=
  (bytes.splitOnP (· == soh)).findSome? (valueOf wanted)

/-- The value a copy takes: of the first field in the body as it is now; else the text of the header,
if it is set; else of the first field in the body as it came, or in the whole message. -/
def copied (m : RoutedMessage) (sourceTag : Nat) (fs : List InlineField) : Option Bytes :=
  ((fs.find? (·.tag = sourceTag)).map (·.value)).or
    ((((headerTexts m).lookup sourceTag).filter (· ≠ [])).or
      ((firstValue m.rawBody sourceTag).or (firstValue m.rawMessage sourceTag)))

def Effect (m : RoutedMessage) (t : FieldTransform) (fs fs' : List InlineField) : Prop :=
  let tag := t.tag.toNat
  match t.action with
  | .set => SetsFirst tag t.value fs fs'
  | .remove => RemovesFirst tag fs fs' ∧ (fs.countP (·.tag = tag) ≤ 1 → Absent tag fs')
  | .add => Absent tag fs ∧ fs' = fs ++ [⟨tag, t.value⟩] ∨ ¬Absent tag fs ∧ fs' = fs
  | .copy =>
    match copied m t.sourceTag.toNat fs with
    | some value => SetsFirst tag value fs fs'
    | none => fs' = fs

inductive Effects (m : RoutedMessage) :
    List FieldTransform → List InlineField → List InlineField → Prop
  | nil {fs : List InlineField} : Effects m [] fs fs
  | cons {t : FieldTransform} {ts : List FieldTransform} {fs gs hs : List InlineField}
    (one : Effect m t fs gs) (more : Effects m ts gs hs) : Effects m (t :: ts) fs hs

/-- The transform has the tags it needs, and its value is no end of a field. -/
structure Usable (t : FieldTransform) : Prop where
  tag : t.tag ≠ 0
  source : t.action = .copy → t.sourceTag ≠ 0
  value : soh ∉ t.value

variable {m : RoutedMessage} {fs fs' before after : List InlineField} {tag wanted : Nat}
  {value old : Bytes}

theorem SetsFirst.clean (h : SetsFirst tag value fs fs') (hvalue : soh ∉ value) (hfs : Clean fs) :
    Clean fs' := by
  cases h with
  | replace => simp_all [Clean, or_imp, forall_and]
  | append => simp_all [Clean, or_imp]

theorem RemovesFirst.clean (h : RemovesFirst tag fs fs') (hfs : Clean fs) : Clean fs' := by
  cases h with
  | erase => simp_all [Clean, or_imp, forall_and]
  | keep => exact hfs

theorem RemovesFirst.absent (h : RemovesFirst tag fs fs') (hfs : fs.countP (·.tag = tag) ≤ 1) :
    Absent tag fs' := by
  cases h with
  | @erase _ after _ hfirst =>
    rw [List.countP_append, List.countP_cons_of_pos (by simp)] at hfs
    have hafter : after.countP (·.tag = tag) = 0 := by omega
    simp_all [Absent, or_imp]
  | keep habsent => exact habsent

/-! ## Finding a field -/

/-- The span of a field behind those before it. -/
def spanAt (start tag : Nat) (old : Bytes) : FieldSpan :=
  let valueBegin := start + (decimal tag).length + 1
  { fieldBegin := start, valueBegin, valueEnd := valueBegin + old.length
    fieldEnd := valueBegin + old.length + 1 }

theorem soh_notMem_fieldText (h : soh ∉ value) : soh ∉ decimal tag ++ equalsByte :: value := by
  simp only [List.mem_append, List.mem_cons, not_or]
  exact ⟨notMem_decimal rfl tag, by decide, h⟩

theorem takeWhile_field (h : soh ∉ value) (rest : Bytes) :
    (field soh tag value ++ rest).takeWhile (· ≠ soh) = decimal tag ++ equalsByte :: value := by
  have htext : ∀ b ∈ decimal tag ++ equalsByte :: value, decide (b ≠ soh) = true :=
    fun b hb => decide_eq_true fun he => soh_notMem_fieldText h (he ▸ hb)
  unfold field
  rw [List.append_assoc, List.takeWhile_append_of_pos htext]
  simp

theorem wantedEquals_field (hwanted : wanted ≠ 0) (hfits : wanted < 2 ^ 32) (tag : Nat)
    (value : Bytes) :
    wantedEquals wanted (decimal tag ++ equalsByte :: value) =
      if tag = wanted then some (decimal tag).length else none := by
  have hparse : parseUint32Strict (decimal tag) = some wanted ↔ tag = wanted := by
    simp only [parseUint32Strict, parseUint32, parseNat_decimal]
    grind
  simp only [wantedEquals, splitAtByte_append (notMem_decimal (b := equalsByte) rfl tag), hparse]

theorem findFieldFrom_field (hwanted : wanted ≠ 0) (hfits : wanted < 2 ^ 32) (hvalue : soh ∉ value)
    (fuel start : Nat) (rest : Bytes) :
    findFieldFrom wanted (fuel + 1) start (field soh tag value ++ rest) =
      if tag = wanted then some (spanAt start tag value)
      else findFieldFrom wanted fuel (start + (field soh tag value).length) rest := by
  obtain ⟨text, htext⟩ : ∃ text, text = decimal tag ++ equalsByte :: value := ⟨_, rfl⟩
  have hfield : field soh tag value = text ++ [soh] := by
    rw [htext]
    rfl
  have htake : (text ++ [soh] ++ rest).takeWhile (· ≠ soh) = text := by
    rw [← hfield, takeWhile_field hvalue, htext]
  have hdrop : (text ++ [soh] ++ rest).drop (text.length + 1) = rest := by simp
  have hlt : text.length < (text ++ [soh] ++ rest).length := by simp
  have hequals := wantedEquals_field hwanted hfits tag value
  rw [← htext] at hequals
  rw [hfield, findFieldFrom, if_neg (by simp)]
  simp only [htake, hequals, hlt, if_true, hdrop, hlt.ne, if_false]
  by_cases htag : tag = wanted
  · simp [htag, spanAt, htext, Nat.add_assoc, Nat.add_comm, Nat.add_left_comm]
  · simp [htag, Nat.add_assoc]

theorem findFieldFrom_absent (hwanted : wanted ≠ 0) (hfits : wanted < 2 ^ 32) (hfs : Clean fs)
    (habsent : Absent wanted fs) (fuel start : Nat) :
    findFieldFrom wanted fuel start (fieldsText soh fs) = none := by
  induction fs generalizing fuel start with
  | nil => cases fuel <;> rfl
  | cons f fs ih =>
    simp only [Clean, Absent, List.forall_mem_cons] at hfs habsent
    cases fuel with
    | zero => rfl
    | succ fuel =>
      rw [fieldsText_cons, findFieldFrom_field hwanted hfits hfs.1, if_neg habsent.1]
      exact ih hfs.2 habsent.2 _ _

theorem findFieldFrom_first (hwanted : wanted ≠ 0) (hfits : wanted < 2 ^ 32)
    (hfs : Clean (before ++ ⟨wanted, old⟩ :: after)) (hfirst : Absent wanted before)
    {fuel : Nat} (hfuel : before.length < fuel) (start : Nat) :
    findFieldFrom wanted fuel start (fieldsText soh (before ++ ⟨wanted, old⟩ :: after)) =
      some (spanAt (start + (fieldsText soh before).length) wanted old) := by
  induction before generalizing fuel start with
  | nil =>
    obtain ⟨fuel, rfl⟩ := Nat.exists_eq_succ_of_ne_zero hfuel.ne_bot
    have hold : soh ∉ old := hfs ⟨wanted, old⟩ List.mem_cons_self
    rw [List.nil_append, fieldsText_cons, findFieldFrom_field hwanted hfits hold, if_pos rfl]
    rfl
  | cons f before ih =>
    obtain ⟨fuel, rfl⟩ := Nat.exists_eq_succ_of_ne_zero hfuel.ne_bot
    simp only [Clean, Absent, List.cons_append, List.forall_mem_cons] at hfs hfirst
    rw [List.cons_append, fieldsText_cons, findFieldFrom_field hwanted hfits hfs.1,
      if_neg hfirst.1, ih hfs.2 hfirst.2 (by simpa using hfuel)]
    simp [Nat.add_assoc]

theorem length_le_fieldsText (fs : List InlineField) : fs.length ≤ (fieldsText soh fs).length := by
  induction fs with
  | nil => exact Nat.le_refl _
  | cons f fs ih =>
    simp only [fieldsText_cons, List.length_append, List.length_cons, field]
    omega

theorem findField_cases (hwanted : wanted ≠ 0) (hfits : wanted < 2 ^ 32) (hfs : Clean fs) :
    (Absent wanted fs ∧ findField (fieldsText soh fs) wanted = none) ∨
      ∃ before old after, fs = before ++ ⟨wanted, old⟩ :: after ∧ Absent wanted before ∧
        findField (fieldsText soh fs) wanted =
          some (spanAt (fieldsText soh before).length wanted old) := by
  cases hfind : fs.find? (·.tag = wanted) with
  | none =>
    have habsent : Absent wanted fs := by simpa [Absent] using hfind
    exact .inl ⟨habsent, findFieldFrom_absent hwanted hfits hfs habsent _ _⟩
  | some f =>
    obtain ⟨htag, before, after, rfl, hbefore⟩ := List.find?_eq_some_iff_append.1 hfind
    obtain ⟨tag, old⟩ := f
    obtain rfl : tag = wanted := by simpa using htag
    have hfirst : Absent tag before := by simpa [Absent] using hbefore
    have hfuel := length_le_fieldsText (before ++ ⟨tag, old⟩ :: after)
    rw [List.length_append, List.length_cons] at hfuel
    refine .inr ⟨before, old, after, rfl, hfirst, ?_⟩
    rw [findField, findFieldFrom_first hwanted hfits hfs hfirst (by omega), Nat.zero_add]

/-! ## Edits -/

/-- The text around a field, cut where its span says. -/
theorem fieldsText_spanAt (before after : List InlineField) (tag : Nat) (old : Bytes) :
    let body := fieldsText soh (before ++ ⟨tag, old⟩ :: after)
    let span := spanAt (fieldsText soh before).length tag old
    body.take span.fieldBegin = fieldsText soh before ∧
      body.take span.valueBegin = fieldsText soh before ++ decimal tag ++ [equalsByte] ∧
      span.value body = old ∧
      body.drop span.valueEnd = soh :: fieldsText soh after ∧
      body.drop span.fieldEnd = fieldsText soh after := by
  intro body span
  have htext : body = fieldsText soh before ++ (decimal tag ++ equalsByte :: old ++
      soh :: fieldsText soh after) := by
    simp [body, field]
  have hvalue : body = (fieldsText soh before ++ decimal tag ++ [equalsByte]) ++
      (old ++ soh :: fieldsText soh after) := by
    simp [htext]
  have hend : body = (fieldsText soh before ++ decimal tag ++ [equalsByte] ++ old) ++
      soh :: fieldsText soh after := by
    simp [htext]
  have hrest : body = (fieldsText soh before ++ decimal tag ++ [equalsByte] ++ old ++ [soh]) ++
      fieldsText soh after := by
    simp [htext]
  refine ⟨?_, ?_, ?_, ?_, ?_⟩
  · rw [htext]
    exact List.take_left' rfl
  · rw [hvalue]
    exact List.take_left' (by simp [span, spanAt, Nat.add_assoc])
  · unfold FieldSpan.value
    rw [hvalue, List.drop_left' (by simp [span, spanAt, Nat.add_assoc])]
    exact List.take_left' (by simp [span, spanAt])
  · rw [hend]
    exact List.drop_left' (by simp [span, spanAt, Nat.add_assoc, Nat.add_comm, Nat.add_left_comm])
  · rw [hrest]
    exact List.drop_left' (by simp [span, spanAt, Nat.add_assoc, Nat.add_comm, Nat.add_left_comm])

theorem appendField_fieldsText (fs : List InlineField) (tag : Nat) (value : Bytes) :
    appendField (fieldsText soh fs) tag value = fieldsText soh (fs ++ [⟨tag, value⟩]) := by
  have hends : fieldsText soh fs = [] ∨ (fieldsText soh fs).getLast? = some soh := by
    rcases fs.eq_nil_or_concat with rfl | ⟨before, f, rfl⟩
    · exact .inl rfl
    · have hlast : fieldsText soh (before.concat f) =
          fieldsText soh before ++ decimal f.tag ++ equalsByte :: f.value ++ [soh] := by
        simp [field]
      exact .inr (by rw [hlast, List.getLast?_concat])
  unfold appendField
  rw [if_neg (by tauto)]
  simp

theorem setField_effect (htag : tag ≠ 0) (hfits : tag < 2 ^ 32) (hfs : Clean fs) (value : Bytes) :
    ∃ fs', setField (fieldsText soh fs) tag value = fieldsText soh fs' ∧
      SetsFirst tag value fs fs' := by
  rcases findField_cases htag hfits hfs with ⟨habsent, hfind⟩ |
    ⟨before, old, after, rfl, hfirst, hfind⟩
  · refine ⟨_, ?_, .append habsent⟩
    simp only [setField, hfind, appendField_fieldsText]
  · refine ⟨_, ?_, .replace hfirst⟩
    obtain ⟨-, htake, -, hdrop, -⟩ := fieldsText_spanAt before after tag old
    simp only [setField, hfind, htake, hdrop]
    simp [field]

theorem removeField_effect (htag : tag ≠ 0) (hfits : tag < 2 ^ 32) (hfs : Clean fs) :
    ∃ fs', removeField (fieldsText soh fs) tag = fieldsText soh fs' ∧ RemovesFirst tag fs fs' := by
  rcases findField_cases htag hfits hfs with ⟨habsent, hfind⟩ |
    ⟨before, old, after, rfl, hfirst, hfind⟩
  · refine ⟨fs, ?_, .keep habsent⟩
    simp only [removeField, hfind]
  · refine ⟨_, ?_, .erase hfirst⟩
    obtain ⟨htake, -, -, -, hdrop⟩ := fieldsText_spanAt before after tag old
    simp only [removeField, hfind, htake, hdrop]
    exact (fieldsText_append soh before after).symm

theorem extractTagValue_fieldsText (htag : tag ≠ 0) (hfits : tag < 2 ^ 32) (hfs : Clean fs) :
    extractTagValue (fieldsText soh fs) tag = (fs.find? (·.tag = tag)).map (·.value) := by
  rcases findField_cases htag hfits hfs with ⟨habsent, hfind⟩ |
    ⟨before, old, after, rfl, hfirst, hfind⟩
  · have hnone : fs.find? (·.tag = tag) = none := by simpa [Absent] using habsent
    simp [extractTagValue, hfind, hnone]
  · have hsome : (before ++ ⟨tag, old⟩ :: after).find? (·.tag = tag) = some ⟨tag, old⟩ := by
      have hnone : before.find? (·.tag = tag) = none := by simpa [Absent] using hfirst
      simp [List.find?_append, hnone]
    rw [extractTagValue, hfind, hsome, Option.map_some, Option.map_some,
      (fieldsText_spanAt before after tag old).2.2.1]

/-! ## Copied values -/

theorem wantedEquals_cases (wanted : Nat) (text : Bytes) :
    (wantedEquals wanted text = none ∧ valueOf wanted text = none) ∨
      ∃ tagText value, text = tagText ++ equalsByte :: value ∧
        wantedEquals wanted text = some tagText.length ∧ valueOf wanted text = some value := by
  unfold wantedEquals valueOf
  cases hsplit : splitAtByte equalsByte text with
  | none => exact .inl ⟨rfl, rfl⟩
  | some split =>
    obtain ⟨tagText, value⟩ := split
    dsimp only
    split
    · exact .inr ⟨tagText, value, (splitAtByte_ok hsplit).1, rfl, rfl⟩
    · exact .inl ⟨rfl, rfl⟩

/-- Any bytes are a text without delimiter, or one that is followed by a delimiter. -/
theorem takeWhile_soh_cases (rest : Bytes) :
    rest.takeWhile (· ≠ soh) = rest ∧ rest.splitOnP (· == soh) = [rest] ∨
      ∃ text tail, rest = text ++ soh :: tail ∧ rest.takeWhile (· ≠ soh) = text ∧
        rest.splitOnP (· == soh) = text :: tail.splitOnP (· == soh) := by
  have hpieces : ∀ {text : Bytes}, soh ∉ text → ∀ b ∈ text, (b == soh) = false ∧ b ≠ soh := by
    intro text htext b hb
    have hne : b ≠ soh := fun he => htext (he ▸ hb)
    exact ⟨by simpa using hne, hne⟩
  by_cases hmem : soh ∈ rest
  · obtain ⟨text, tail, rfl, htext⟩ := List.eq_append_cons_of_mem hmem
    refine .inr ⟨text, tail, rfl, ?_, List.splitOnP_append_cons_of_forall_mem
      (fun b hb => (hpieces htext b hb).1) soh (by simp) tail⟩
    rw [List.takeWhile_append_of_pos fun b hb => by simpa using (hpieces htext b hb).2]
    simp
  · refine .inl ⟨List.takeWhile_eq_self_iff.2 fun b hb => ?_,
      List.splitOnP_eq_singleton fun b hb => (hpieces hmem b hb).1⟩
    simpa using (hpieces hmem b hb).2

theorem findFieldFrom_value {body rest : Bytes} {fuel start : Nat}
    (hrest : body.drop start = rest) (hfuel : rest.length ≤ fuel) :
    (findFieldFrom wanted fuel start rest).map (·.value body) = firstValue rest wanted := by
  have hnil : firstValue [] wanted = none := rfl
  induction fuel generalizing start rest with
  | zero =>
    obtain rfl : rest = [] := List.eq_nil_of_length_eq_zero (Nat.le_zero.1 hfuel)
    rw [hnil]
    rfl
  | succ fuel ih =>
    rw [findFieldFrom]
    split
    · rename_i hempty
      rw [hempty, hnil]
      rfl
    · dsimp only
      rcases wantedEquals_cases wanted (rest.takeWhile (· ≠ soh)) with ⟨hequals, hvalue⟩ |
        ⟨tagText, value, htext, hequals, hvalue⟩
      · rw [hequals]
        rcases takeWhile_soh_cases rest with ⟨htake, hsplit⟩ | ⟨text, tail, rfl, htake, hsplit⟩
        · rw [htake] at hvalue ⊢
          simp [firstValue, hsplit, hvalue]
        · rw [htake] at hvalue ⊢
          have htail : (text ++ soh :: tail).drop (text.length + 1) = tail := by simp
          simp only [firstValue, hsplit, List.findSome?_cons, hvalue, List.length_append,
            List.length_cons, htail, show ¬text.length = text.length + (tail.length + 1) by omega,
            show text.length < text.length + (tail.length + 1) by omega, if_true, if_false]
          refine ih ?_ (by simp at hfuel; omega)
          rw [Nat.add_assoc, ← List.drop_drop, hrest, htail]
      · rw [hequals]
        have hspan : (body.drop (start + tagText.length + 1)).take value.length = value := by
          have hprefix : rest = tagText ++ equalsByte :: value ++ rest.dropWhile (· ≠ soh) := by
            rw [← htext, List.takeWhile_append_dropWhile]
          rw [Nat.add_assoc, ← List.drop_drop, hrest, hprefix]
          simp
        have hfirst : firstValue rest wanted = some value := by
          rcases takeWhile_soh_cases rest with ⟨htake, hsplit⟩ | ⟨text, tail, -, htake, hsplit⟩ <;>
            rw [htake] at hvalue <;> simp [firstValue, hsplit, hvalue]
        have hlength : (rest.takeWhile (· ≠ soh)).length = tagText.length + (value.length + 1) := by
          rw [htext, List.length_append, List.length_cons]
        simp only [Option.map_some, FieldSpan.value, hfirst, hlength]
        rw [show start + (tagText.length + (value.length + 1)) - (start + tagText.length + 1) =
          value.length by omega, hspan]

theorem extractTagValue_eq (bytes : Bytes) (tag : Nat) :
    extractTagValue bytes tag = firstValue bytes tag :=
  findFieldFrom_value List.drop_zero le_rfl

theorem extractMessageTagValue_eq (m : RoutedMessage) (tag : Nat) :
    extractMessageTagValue m tag = (((headerTexts m).lookup tag).filter (· ≠ [])).or
      ((firstValue m.rawBody tag).or (firstValue m.rawMessage tag)) := by
  simp only [extractMessageTagValue, knownHeaderTagValue, extractTagValue_eq]

theorem soh_notMem_firstValue {bytes : Bytes} (h : firstValue bytes tag = some value) :
    soh ∉ value := by
  obtain ⟨text, hmem, hvalue⟩ := List.exists_of_findSome?_eq_some h
  have hclean : soh ∉ text := by
    clear h hvalue
    induction hlen : bytes.length using Nat.strong_induction_on generalizing bytes with
    | _ n ih =>
      rcases takeWhile_soh_cases bytes with ⟨htake, hsplit⟩ | ⟨first, tail, hbytes, htake, hsplit⟩
      · rw [hsplit, List.mem_singleton] at hmem
        rw [hmem, ← htake]
        exact fun h => absurd (List.mem_takeWhile_imp h) (by simp)
      · rw [hsplit, List.mem_cons] at hmem
        rcases hmem with rfl | hmem
        · rw [← htake]
          exact fun h => absurd (List.mem_takeWhile_imp h) (by simp)
        · exact ih tail.length (by rw [← hlen, hbytes]; simp; omega) hmem rfl
  rcases wantedEquals_cases tag text with ⟨-, hnone⟩ | ⟨tagText, value', rfl, -, hsome⟩
  · rw [hnone] at hvalue
    cases hvalue
  · rw [hsome] at hvalue
    cases hvalue
    exact fun h => hclean (List.mem_append_right _ (List.mem_cons_of_mem _ h))

/-- The view holds no header text with a delimiter. -/
structure HeaderClean (v : RawPassThroughView) : Prop where
  beginString : soh ∉ v.beginString
  msgType : soh ∉ v.msgType
  senderCompId : soh ∉ v.senderCompId
  senderSubId : soh ∉ v.senderSubId
  sendingTime : soh ∉ v.sendingTime
  targetCompId : soh ∉ v.targetCompId
  targetSubId : soh ∉ v.targetSubId
  onBehalfOfCompId : soh ∉ v.onBehalfOfCompId
  origSendingTime : soh ∉ v.origSendingTime
  deliverToCompId : soh ∉ v.deliverToCompId
  applVerId : soh ∉ v.applVerId
  defaultApplVerId : soh ∉ v.defaultApplVerId

theorem HeaderClean.ite {c : Prop} [Decidable c] {v w : RawPassThroughView} (hv : HeaderClean v)
    (hw : HeaderClean w) : HeaderClean (if c then v else w) := by
  split
  · exact hv
  · exact hw

theorem HeaderClean.setField {v : RawPassThroughView} (h : HeaderClean v) (hvalue : soh ∉ value) :
    HeaderClean (v.setField tag value) :=
  .ite { h with msgType := hvalue } <| .ite { h with } <|
  .ite { h with senderCompId := hvalue } <| .ite { h with senderSubId := hvalue } <|
  .ite { h with targetCompId := hvalue } <| .ite { h with targetSubId := hvalue } <|
  .ite { h with onBehalfOfCompId := hvalue } <| .ite { h with deliverToCompId := hvalue } <|
  .ite { h with defaultApplVerId := hvalue } <| .ite { h with applVerId := hvalue } <|
  .ite { h with sendingTime := hvalue } <| .ite { h with origSendingTime := hvalue } <|
  .ite { h with } <| .ite { h with } h

theorem HeaderClean.headerTexts (h : HeaderClean m.toRawPassThroughView) :
    ∀ p ∈ headerTexts m, soh ∉ p.2 := by
  have hflag : ∀ b : Bool, soh ∉ if b then ascii "Y" else [] := by decide
  have hnumber : soh ∉ if m.msgSeqNum = 0 then [] else decimal m.msgSeqNum := by
    split
    · exact List.not_mem_nil
    · exact notMem_decimal rfl _
  obtain ⟨h1, h2, h3, h4, h5, h6, h7, h8, h9, h10, h11, h12⟩ := h
  simp only [Router.headerTexts, List.forall_mem_cons]
  exact ⟨h1, h2, hnumber, hflag _, h3, h4, h5, h6, h7, hflag _, h8, h9, h10, h11, h12, nofun⟩

theorem soh_notMem_extractMessageTagValue (hheader : HeaderClean m.toRawPassThroughView)
    (h : extractMessageTagValue m tag = some value) : soh ∉ value := by
  simp only [extractMessageTagValue_eq, Option.or_eq_some_iff] at h
  rcases h with h | ⟨-, h | ⟨-, h⟩⟩
  · obtain ⟨before, after, htexts, -⟩ :=
      List.lookup_eq_some_iff.1 (Option.filter_eq_some_iff.1 h).1
    exact hheader.headerTexts (tag, value) (by simp [htexts])
  · exact soh_notMem_firstValue h
  · exact soh_notMem_firstValue h

theorem soh_notMem_scanField {bytes rest : Bytes} {f : InlineField}
    (h : scanField soh bytes = some (f, rest)) : soh ∉ f.value := by
  unfold scanField at h
  split at h
  · cases h
  rename_i hcontent
  split at h
  · cases h
  rename_i hsplit
  split at h
  · cases h
  split at h
  · cases h
    obtain ⟨rfl, -⟩ := splitAtByte_ok hsplit
    have hclean := (splitAtByte_ok hcontent).2
    simp_all
  · cases h

theorem HeaderClean.scanHeader {known : Bool} {bound fuel : Nat} {rest rest' : Bytes}
    {v v' : RawPassThroughView} (hv : HeaderClean v)
    (h : scanHeader soh known bound fuel rest v = .ok (v', rest')) : HeaderClean v' := by
  induction fuel generalizing rest v with
  | zero =>
    cases h
    exact hv
  | succ fuel ih =>
    unfold NimbleFix.scanHeader at h
    split at h
    · cases h
      exact hv
    split at h
    · cases h
    · rename_i f next hscan
      split at h
      · split at h
        · cases h
        · cases h
          exact hv
      · exact ih (hv.setField (soh_notMem_scanField hscan)) h

theorem headerClean_of_decode {verifyChecksum : Bool} {known : Option Nat} {data : Bytes}
    {v : RawPassThroughView} (h : decodeRawPassThrough soh verifyChecksum known data = .ok v) :
    HeaderClean v := by
  unfold decodeRawPassThrough at h
  split at h
  · cases h
  rename_i f0 rest0 hscan
  have hbegin : HeaderClean { beginString := f0.value } := by
    constructor <;> simp [soh_notMem_scanField hscan]
  dsimp only at h
  repeat' split at h
  all_goals try cases h
  obtain ⟨⟨v', rest⟩, hheader, h⟩ := exceptBind_ok h
  cases h
  exact { hbegin.scanHeader hheader with }

theorem headerClean_of_decode_heartbeat :
    HeaderClean { beginString := ascii "F", msgType := ascii "0", bodyStartOffset := 13 } :=
  headerClean_of_decode (show decodeRawPassThrough soh false none
    (ascii "8=F\x019=5\x0135=0\x0110=000\x01") = .ok _ by decide +kernel)

/-! ## Transforms -/

theorem applyFieldTransform_effect {t : FieldTransform} (ht : Usable t)
    (hheader : HeaderClean m.toRawPassThroughView) (hfs : Clean fs) :
    ∃ fs', applyFieldTransform m (fieldsText soh fs) t = .ok (fieldsText soh fs') ∧ Clean fs' ∧
      Effect m t fs fs' := by
  have htag : t.tag.toNat ≠ 0 := fun h => ht.tag (UInt32.toNat_inj.1 h)
  have hfits : t.tag.toNat < 2 ^ 32 := t.tag.toNat_lt
  simp only [applyFieldTransform, ht.tag, if_false, Effect]
  cases haction : t.action with
  | set =>
    obtain ⟨fs', htext, heffect⟩ := setField_effect htag hfits hfs t.value
    exact ⟨fs', by simp [htext], heffect.clean ht.value hfs, heffect⟩
  | remove =>
    obtain ⟨fs', htext, heffect⟩ := removeField_effect htag hfits hfs
    exact ⟨fs', by simp [htext], heffect.clean hfs, heffect, heffect.absent⟩
  | add =>
    rcases findField_cases htag hfits hfs with ⟨habsent, hfind⟩ |
      ⟨before, old, after, rfl, -, hfind⟩
    · refine ⟨_, by simp [hfind, appendField_fieldsText],
        (SetsFirst.append habsent).clean ht.value hfs, .inl ⟨habsent, rfl⟩⟩
    · have hpresent : ¬Absent t.tag.toNat (before ++ ⟨t.tag.toNat, old⟩ :: after) :=
        fun h => h ⟨t.tag.toNat, old⟩ (by simp) rfl
      exact ⟨_, by rw [hfind]; rfl, hfs, .inr ⟨hpresent, rfl⟩⟩
  | copy =>
    have hsource : t.sourceTag.toNat ≠ 0 := fun h => ht.source haction (UInt32.toNat_inj.1 h)
    simp only [ht.source haction, if_false,
      extractTagValue_fieldsText hsource t.sourceTag.toNat_lt hfs]
    cases hcopied : copied m t.sourceTag.toNat fs with
    | none =>
      refine ⟨fs, ?_, hfs, rfl⟩
      rw [copied, ← extractMessageTagValue_eq] at hcopied
      simp [hcopied]
    | some value =>
      have hvalue : soh ∉ value := by
        rcases Option.or_eq_some_iff.1 hcopied with h | ⟨-, h⟩
        · obtain ⟨f, hfind, rfl⟩ := Option.map_eq_some_iff.1 h
          exact hfs f (List.mem_of_find?_eq_some hfind)
        · rw [← extractMessageTagValue_eq] at h
          exact soh_notMem_extractMessageTagValue hheader h
      obtain ⟨fs', htext, heffect⟩ := setField_effect htag hfits hfs value
      refine ⟨fs', ?_, heffect.clean hvalue hfs, heffect⟩
      rw [copied, ← extractMessageTagValue_eq] at hcopied
      simp [hcopied, htext]

/-- A transform of a body of fields gives a body of fields, one effect after the other. -/
theorem applyTransform_effects {ts : List FieldTransform} (hvalid : m.valid)
    (hheader : HeaderClean m.toRawPassThroughView) (hbody : m.rawBody = fieldsText soh fs)
    (hfs : Clean fs) (hts : ∀ t ∈ ts, Usable t) :
    ∃ fs', applyTransform m ts = .ok (fieldsText soh fs') ∧ Clean fs' ∧ Effects m ts fs fs' := by
  simp only [applyTransform, hvalid, Bool.not_true, Bool.false_eq_true, if_false, hbody]
  clear hbody
  induction ts generalizing fs with
  | nil => exact ⟨fs, rfl, hfs, .nil⟩
  | cons t ts ih =>
    rw [List.forall_mem_cons] at hts
    obtain ⟨gs, hone, hgs, heffect⟩ := applyFieldTransform_effect hts.1 hheader hfs
    obtain ⟨hs, hmore, hclean, heffects⟩ := ih hgs hts.2
    exact ⟨hs, by rw [List.foldlM_cons, hone]; exact hmore, hclean, .cons heffect heffects⟩

def sampleRouted : RoutedMessage :=
  { msgType := ascii "D"
    rawBody := fieldsText soh [⟨55, ascii "X"⟩, ⟨54, ascii "1"⟩]
    valid := true }

def sampleTransforms : List FieldTransform :=
  [{ tag := 54, value := ascii "2" }, { action := .copy, tag := 58, sourceTag := 35 },
    { action := .remove, tag := 55 }]

theorem applyTransform_effects_sample :
    ∃ fs', applyTransform sampleRouted sampleTransforms = .ok (fieldsText soh fs') ∧ Clean fs' ∧
      Effects sampleRouted sampleTransforms [⟨55, ascii "X"⟩, ⟨54, ascii "1"⟩] fs' := by
  refine applyTransform_effects rfl (by constructor <;> decide) rfl (by unfold Clean; decide) ?_
  intro t ht
  simp only [sampleTransforms, List.mem_cons, List.not_mem_nil, or_false] at ht
  rcases ht with rfl | rfl | rfl <;> exact ⟨by decide, by decide, by decide⟩

end Router

end NimbleFix
