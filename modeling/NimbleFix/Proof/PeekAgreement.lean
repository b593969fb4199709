import Mathlib.Data.List.Induction
import NimbleFix.Proof.FrameCover
import NimbleFix.Runtime.ResolveSession

/-!
# The two readings of a session header

`peekSessionHeaderView` reads the fields of a frame up to the first one that does not belong to the
session header; the decoder takes the header from all fields of the root. Both keep the last field
of a tag. So for a frame both accept, the headers agree exactly when the fields behind that point
change none of the values.
-/

namespace NimbleFix

/-! ## What the fields say -/

/-- The value of the last field with the tag, empty if there is none. -/
def lastText (tag : Nat) (fields : List PlacedField) : Bytes :=
  ((fields.reverse.find? fun f => f.tag == tag).map PlacedField.value).getD []

theorem lastText_snoc (tag : Nat) (fields : List PlacedField) (f : PlacedField) :
    lastText tag (fields ++ [f]) = if f.tag = tag then f.value else lastText tag fields := by
  unfold lastText
  rw [List.reverse_append, List.reverse_singleton, List.singleton_append, List.find?_cons]
  by_cases hf : f.tag = tag
  · rw [if_pos hf, beq_iff_eq.2 hf]
    rfl
  · rw [if_neg hf, beq_false_of_ne hf]

/-- The header has the values of the last fields. -/
structure SessionHeaderView.Says (h : SessionHeaderView) (fields : List PlacedField) : Prop where
  msgType : h.msgType = lastText Tag.msgType fields
  senderCompId : h.senderCompId = lastText Tag.senderCompID fields
  senderSubId : h.senderSubId = lastText Tag.senderSubID fields
  targetCompId : h.targetCompId = lastText Tag.targetCompID fields
  targetSubId : h.targetSubId = lastText Tag.targetSubID fields
  sendingTime : h.sendingTime = lastText Tag.sendingTime fields
  defaultApplVerId : h.defaultApplVerId = lastText Tag.defaultApplVerID fields
  msgSeqNum : h.msgSeqNum = (parseNat (lastText Tag.msgSeqNum fields)).getD 0
  possDup : h.possDup = decide (lastText Tag.possDupFlag fields = ascii "Y")

variable {h h' : SessionHeaderView} {fields : List PlacedField}

theorem SessionHeaderView.Says.of_checksum (heq : { h with checksum := h'.checksum } = h')
    (hsaid : h'.Says fields) : h.Says fields := by
  rw [← heq] at hsaid
  exact ⟨hsaid.msgType, hsaid.senderCompId, hsaid.senderSubId, hsaid.targetCompId,
    hsaid.targetSubId, hsaid.sendingTime, hsaid.defaultApplVerId, hsaid.msgSeqNum, hsaid.possDup⟩

theorem SessionHeaderView.beginString_of_checksum (heq : { h with checksum := h'.checksum } = h') :
    h.beginString = h'.beginString := by
  rw [← heq]

theorem parseBoolean_ok {text : Bytes} {label : String} {b : Bool}
    (h : parseBoolean text label = .ok b) : b = decide (text = ascii "Y") := by
  unfold parseBoolean at h
  split at h
  · rename_i hyes
    cases h
    exact (decide_eq_true hyes).symm
  · rename_i hno
    split at h
    · cases h
      exact (decide_eq_false hno).symm
    · cases h

theorem SessionHeaderView.peek_ok {tag : Nat} {value : Bytes} (hpeek : h.peek tag value = .ok h') :
    h'.beginString = h.beginString ∧
    h'.msgType = (if tag = Tag.msgType then value else h.msgType) ∧
    h'.senderCompId = (if tag = Tag.senderCompID then value else h.senderCompId) ∧
    h'.senderSubId = (if tag = Tag.senderSubID then value else h.senderSubId) ∧
    h'.targetCompId = (if tag = Tag.targetCompID then value else h.targetCompId) ∧
    h'.targetSubId = (if tag = Tag.targetSubID then value else h.targetSubId) ∧
    h'.sendingTime = (if tag = Tag.sendingTime then value else h.sendingTime) ∧
    h'.defaultApplVerId = (if tag = Tag.defaultApplVerID then value else h.defaultApplVerId) ∧
    h'.msgSeqNum = (if tag = Tag.msgSeqNum then (parseNat value).getD 0 else h.msgSeqNum) ∧
    h'.possDup = (if tag = Tag.possDupFlag then decide (value = ascii "Y") else h.possDup) := by
  unfold SessionHeaderView.peek SessionHeaderView.extract at hpeek
  obtain ⟨rfl, hpeek⟩ | ⟨h₀, hpeek⟩ := except_ite_ok hpeek
  · cases hpeek
    exact ⟨rfl, rfl, rfl, rfl, rfl, rfl, rfl, rfl, rfl, rfl⟩
  obtain ⟨rfl, hpeek⟩ | ⟨h₁, hpeek⟩ := except_ite_ok hpeek
  · obtain ⟨n, hparse, hpeek⟩ := exceptBind_ok hpeek
    cases hpeek
    refine ⟨rfl, rfl, rfl, rfl, rfl, rfl, rfl, rfl, ?_, rfl⟩
    rw [if_pos rfl, parseUnsigned_ok hparse]
    rfl
  -- ten fields whose value is copied as it is
  iterate 10
    obtain ⟨rfl, hpeek⟩ | ⟨_, hpeek⟩ := except_ite_ok hpeek
    · cases hpeek
      exact ⟨rfl, rfl, rfl, rfl, rfl, rfl, rfl, rfl, rfl, rfl⟩
  obtain ⟨rfl, hpeek⟩ | ⟨h₂, hpeek⟩ := except_ite_ok hpeek
  · obtain ⟨b, hparse, hpeek⟩ := exceptBind_ok hpeek
    cases hpeek
    exact ⟨rfl, rfl, rfl, rfl, rfl, rfl, rfl, rfl, rfl, parseBoolean_ok hparse⟩
  obtain ⟨rfl, hpeek⟩ | ⟨h₃, hpeek⟩ := except_ite_ok hpeek
  · obtain ⟨b, hparse, hpeek⟩ := exceptBind_ok hpeek
    cases hpeek
    exact ⟨rfl, rfl, rfl, rfl, rfl, rfl, rfl, rfl, rfl, rfl⟩
  cases hpeek
  simp [*]

theorem SessionHeaderView.Says.snoc {f : PlacedField} (hsaid : h.Says fields)
    (hpeek : h.peek f.tag f.value = .ok h') : h'.Says (fields ++ [f]) := by
  obtain ⟨-, h₁, h₂, h₃, h₄, h₅, h₆, h₇, h₈, h₉⟩ := SessionHeaderView.peek_ok hpeek
  constructor
  · rw [lastText_snoc, h₁, hsaid.msgType]
  · rw [lastText_snoc, h₂, hsaid.senderCompId]
  · rw [lastText_snoc, h₃, hsaid.senderSubId]
  · rw [lastText_snoc, h₄, hsaid.targetCompId]
  · rw [lastText_snoc, h₅, hsaid.targetSubId]
  · rw [lastText_snoc, h₆, hsaid.sendingTime]
  · rw [lastText_snoc, h₇, hsaid.defaultApplVerId]
  · rw [lastText_snoc, h₈, hsaid.msgSeqNum]
    split <;> rfl
  · rw [lastText_snoc, h₉, hsaid.possDup]
    split <;> rfl

/-- The header read from a frame that starts with `beginString` says what its fields say. -/
theorem readHeader_says {beginString : Bytes} {bodyLength : Nat}
    (hread : readHeader fields { beginString, bodyLength } = .ok h) :
    h.Says fields ∧ h.beginString = beginString := by
  -- from the end: the last field of a tag decides
  induction fields using List.reverseRecOn generalizing h with
  | nil =>
    cases hread
    exact ⟨⟨rfl, rfl, rfl, rfl, rfl, rfl, rfl, rfl, rfl⟩, rfl⟩
  | append_singleton fields f ih =>
    unfold readHeader at hread ih
    rw [List.foldlM_append] at hread
    obtain ⟨h₁, hfields, hlast⟩ := exceptBind_ok hread
    rw [List.foldlM_cons] at hlast
    obtain ⟨h₂, hpeek, heq⟩ := exceptBind_ok hlast
    cases heq
    obtain ⟨hsaid, hbegin⟩ := ih hfields
    exact ⟨hsaid.snoc hpeek, (SessionHeaderView.peek_ok hpeek).1.trans hbegin⟩

/-! ## What the scan reads -/

section

variable {delim : Byte}

/-- The fields before the first one that is not of the session header. -/
def sessionHead (fields : List PlacedField) : List PlacedField :=
  fields.takeWhile fun f => Tag.isAggregateSessionEnvelopeTag f.tag

variable {bytes value rest next : Bytes} {f : RawField} {st st' : PeekState} {tag : Nat}
  {stop : Bool} {header : SessionHeaderView}

theorem splitAtByte_eq_none (h : delim ∉ bytes) : splitAtByte delim bytes = none := by
  cases hsplit : splitAtByte delim bytes with
  | none => rfl
  | some split =>
    obtain ⟨rfl, -⟩ := splitAtByte_ok hsplit
    exact absurd (List.mem_append_right _ List.mem_cons_self) h

theorem RawField.WellFormed.equals_notMem (hf : f.WellFormed delim) : equalsByte ∉ f.tagText := by
  intro hmem
  have hdigit := List.all_eq_true.1 hf.digits _ hmem
  cases hdigit

theorem RawField.WellFormed.parseNat_eq (hf : f.WellFormed delim) :
    parseNat f.tagText = some f.tag := by
  have hne := hf.tag_ne_zero
  unfold RawField.tag parseTagInline at hne ⊢
  rw [if_pos hf.length_le] at hne ⊢
  cases hparse : parseNat f.tagText with
  | none =>
    rw [hparse] at hne
    exact absurd rfl hne
  | some n => rfl

theorem peekField_ok {whenInvalid : Status} {r : Nat × Bytes} (hf : f.WellFormed delim)
    (h : peekField (f.tagText ++ equalsByte :: f.value) whenInvalid = .ok r) :
    f.value ≠ [] ∧ r = (f.tag, f.value) := by
  unfold peekField at h
  rw [splitAtByte_append hf.equals_notMem] at h
  obtain ⟨hne, h⟩ := except_guard_ok h
  obtain ⟨tag, htag, heq⟩ := exceptBind_ok h
  cases heq
  have hsome := parseUnsigned_ok htag
  rw [hf.parseNat_eq] at hsome
  cases hsome
  exact ⟨fun hv => hne (.inr hv), rfl⟩

/-- One round of the scan over a well formed field. With `=` for a delimiter no field is read. -/
theorem peekLoop_field {fuel : Nat} {more : Bytes} (hf : f.WellFormed delim)
    (h : peekLoop delim (fuel + 1) (f.text delim ++ more) st = .ok st') :
    f.value ≠ [] ∧ ∃ st₁ stop,
      peekStep f.tag f.value (f.text delim ++ more) more st = .ok (st₁, stop) ∧
      (if stop then .ok st₁ else peekLoop delim fuel more st₁) = .ok st' := by
  unfold peekLoop at h
  by_cases hdelim : delim = equalsByte
  · have hsplit : splitAtByte delim (f.text delim ++ more) =
        some (f.tagText, f.value ++ [delim] ++ more) := by
      rw [RawField.text, List.append_assoc, List.cons_append, ← hdelim]
      exact splitAtByte_append (by rw [hdelim]; exact hf.equals_notMem) _
    rw [hsplit] at h
    obtain ⟨-, h⟩ := except_guard_ok h
    obtain ⟨r, hr, -⟩ := exceptBind_ok h
    unfold peekField at hr
    rw [splitAtByte_eq_none hf.equals_notMem] at hr
    cases hr
  · have hnot : delim ∉ f.tagText ++ equalsByte :: f.value := by
      have hmem := hf.delim_notMem
      simp only [List.mem_append, List.mem_cons, not_or] at hmem ⊢
      exact ⟨hmem.1, hdelim, hmem.2⟩
    have hsplit : splitAtByte delim (f.text delim ++ more) =
        some (f.tagText ++ equalsByte :: f.value, more) := by
      rw [show f.text delim ++ more = (f.tagText ++ equalsByte :: f.value) ++ delim :: more by
        simp [RawField.text]]
      exact splitAtByte_append hnot more
    rw [hsplit] at h
    obtain ⟨-, h⟩ := except_guard_ok h
    obtain ⟨r, hr, h⟩ := exceptBind_ok h
    obtain ⟨hvalue, rfl⟩ := peekField_ok hf hr
    obtain ⟨⟨st₁, stop⟩, hstep, hrest⟩ := exceptBind_ok h
    exact ⟨hvalue, st₁, stop, hstep, hrest⟩

/-- A field of the body: the scan ends before it, or it takes its value. -/
theorem peekStep_body (hcount : 2 ≤ st.fieldCount) (hnext : next ≠ [])
    (h : peekStep tag value rest next st = .ok (st', stop)) :
    2 ≤ st'.fieldCount ∧
    (Tag.isAggregateSessionEnvelopeTag tag = false ∧ stop = true ∧ st'.header = st.header ∨
      Tag.isAggregateSessionEnvelopeTag tag = true ∧ stop = false ∧
        st.header.peek tag value = .ok st'.header) := by
  unfold peekStep at h
  obtain ⟨hone, -⟩ | ⟨-, h⟩ := except_ite_ok h
  · omega
  obtain ⟨htwo, -⟩ | ⟨-, h⟩ := except_ite_ok h
  · omega
  obtain ⟨-, h⟩ | ⟨-, h⟩ := except_ite_ok h
  · obtain ⟨-, h⟩ | ⟨hempty, -⟩ := except_ite_ok h
    · cases h
    · exact absurd hnext hempty
  obtain ⟨htag, h⟩ | ⟨htag, h⟩ := except_ite_ok h
  · cases h
    exact ⟨Nat.le_succ_of_le hcount, .inl ⟨by simpa using htag, rfl, rfl⟩⟩
  · obtain ⟨header, hpeek, h⟩ := exceptBind_ok h
    cases h
    exact ⟨Nat.le_succ_of_le hcount, .inr ⟨by simpa using htag, rfl, hpeek⟩⟩

theorem peekStep_last (hcount : 2 ≤ st.fieldCount) (htag : tag = Tag.checkSum)
    (h : peekStep tag value rest [] st = .ok (st', stop)) :
    stop = true ∧ { st'.header with checksum := st.header.checksum } = st.header := by
  unfold peekStep at h
  obtain ⟨hone, -⟩ | ⟨-, h⟩ := except_ite_ok h
  · omega
  obtain ⟨htwo, -⟩ | ⟨-, h⟩ := except_ite_ok h
  · omega
  obtain ⟨-, h⟩ | ⟨hne, -⟩ := except_ite_ok h
  · obtain ⟨hempty, -⟩ | ⟨-, h⟩ := except_ite_ok h
    · exact absurd rfl hempty
    obtain ⟨checksum, -, h⟩ := exceptBind_ok h
    cases h
    exact ⟨rfl, rfl⟩
  · exact absurd htag hne

theorem RawField.text_ne_nil (f : RawField) : f.text delim ≠ [] := by
  simp [RawField.text]

/-- The scan of the body takes the header from its first fields; `CheckSum` is read apart. -/
theorem peekLoop_body {last : RawField} (hlast : last.WellFormed delim)
    (hsum : last.tag = Tag.checkSum) (after : Nat) : ∀ {fs : List RawField} {fuel : Nat}
    {st st' : PeekState}, (∀ f ∈ fs, f.WellFormed delim ∧ f.read = f.value) → 2 ≤ st.fieldCount →
      (rawText delim fs ++ last.text delim).length ≤ fuel →
      peekLoop delim fuel (rawText delim fs ++ last.text delim) st = .ok st' →
      ∃ header, readHeader (sessionHead (place delim fs after)) st.header = .ok header ∧
        { st'.header with checksum := header.checksum } = header
  | [], fuel, st, st', _, hcount, hfuel, h => by
    obtain ⟨fuel, rfl⟩ : ∃ n, fuel = n + 1 := by
      refine Nat.exists_eq_succ_of_ne_zero fun h0 => ?_
      subst h0
      exact last.text_ne_nil (List.length_eq_zero_iff.1 (Nat.le_zero.1 hfuel))
    rw [show rawText delim [] ++ last.text delim = last.text delim ++ [] by simp [rawText]] at h
    obtain ⟨-, st₁, stop, hstep, hend⟩ := peekLoop_field hlast h
    obtain ⟨rfl, hheader⟩ := peekStep_last hcount hsum hstep
    cases hend
    exact ⟨st.header, rfl, hheader⟩
  | f :: fs, fuel, st, st', hfs, hcount, hfuel, h => by
    have htext : rawText delim (f :: fs) ++ last.text delim =
        f.text delim ++ (rawText delim fs ++ last.text delim) := by simp [rawText]
    rw [htext] at h hfuel
    have hne : rawText delim fs ++ last.text delim ≠ [] := fun h0 =>
      last.text_ne_nil (List.append_eq_nil_iff.1 h0).2
    have hpos : 0 < (f.text delim).length := List.length_pos_iff.2 f.text_ne_nil
    rw [List.length_append] at hfuel
    obtain ⟨fuel, rfl⟩ : ∃ n, fuel = n + 1 := Nat.exists_eq_succ_of_ne_zero (by omega)
    obtain ⟨-, st₁, stop, hstep, hend⟩ := peekLoop_field (hfs f List.mem_cons_self).1 h
    obtain ⟨hcount₁, ⟨htag, rfl, hheader⟩ | ⟨htag, rfl, hpeek⟩⟩ := peekStep_body hcount hne hstep
    · cases hend
      refine ⟨st.header, ?_, ?_⟩
      · rw [place, sessionHead, List.takeWhile_cons_of_neg (by simp [htag])]
        rfl
      · rw [hheader]
    · obtain ⟨header, hread, hsame⟩ := peekLoop_body hlast hsum after
        (fun g hg => hfs g (List.mem_cons_of_mem _ hg)) hcount₁ (by omega) hend
      refine ⟨header, ?_, hsame⟩
      rw [place, sessionHead, List.takeWhile_cons_of_pos (by exact htag), readHeader,
        List.foldlM_cons]
      dsimp only
      rw [(hfs f List.mem_cons_self).2, hpeek]
      exact hread

theorem peekStep_first (hcount : st.fieldCount = 0)
    (h : peekStep tag value rest next st = .ok (st', stop)) :
    stop = false ∧ st'.fieldCount = 1 ∧ st'.header = { st.header with beginString := value } := by
  unfold peekStep at h
  rw [hcount, if_pos rfl] at h
  obtain ⟨-, h⟩ := except_guard_ok h
  cases h
  exact ⟨rfl, rfl, rfl⟩

theorem peekStep_second (hcount : st.fieldCount = 1)
    (h : peekStep tag value rest next st = .ok (st', stop)) :
    stop = false ∧ st'.fieldCount = 2 ∧
      ∃ bodyLength, st'.header = { st.header with bodyLength } := by
  unfold peekStep at h
  rw [hcount, if_neg (by decide), if_pos rfl] at h
  obtain ⟨-, h⟩ := except_guard_ok h
  obtain ⟨bodyLength, -, h⟩ := exceptBind_ok h
  cases h
  exact ⟨rfl, rfl, bodyLength, rfl⟩

theorem peekTrailer_ok {n : Nat} (h : peekTrailer delim bytes st = .ok (header, n)) :
    { header with checksum := st.header.checksum } = st.header := by
  unfold peekTrailer at h
  split at h
  · cases h
    rfl
  · obtain ⟨-, h⟩ | ⟨-, h⟩ := except_ite_ok h
    · cases h
    obtain ⟨r, -, h⟩ := exceptBind_ok h
    obtain ⟨-, h⟩ := except_guard_ok h
    obtain ⟨checksum, -, h⟩ := exceptBind_ok h
    cases h
    rfl

theorem peekSessionHeaderView_ok {verifyChecksum : Bool}
    (h : peekSessionHeaderView delim verifyChecksum bytes = .ok header) :
    ∃ st, peekLoop delim bytes.length bytes {} = .ok st ∧
      { header with checksum := st.header.checksum } = st.header := by
  unfold peekSessionHeaderView at h
  obtain ⟨st, hloop, h⟩ := exceptBind_ok h
  iterate 3
    obtain ⟨-, h⟩ | ⟨-, h⟩ := except_ite_ok h
    · cases h
  obtain ⟨⟨header', n⟩, htrailer, h⟩ := exceptBind_ok h
  iterate 2
    obtain ⟨-, h⟩ | ⟨-, h⟩ := except_ite_ok h
    · cases h
  cases h
  exact ⟨st, hloop, peekTrailer_ok htrailer⟩

theorem peek_reads {verifyChecksum : Bool} {first second last : RawField} {body : List RawField}
    (after : Nat) (hfields : ∀ f ∈ first :: second :: (body ++ [last]), f.WellFormed delim)
    (hwhole : ∀ f ∈ first :: second :: (body ++ [last]), f.read = f.value)
    (hsum : last.tag = Tag.checkSum)
    (h : peekSessionHeaderView delim verifyChecksum
      (rawText delim (first :: second :: (body ++ [last]))) = .ok header) :
    first.value ≠ [] ∧ header.beginString = first.value ∧
      header.Says (sessionHead (place delim body after)) := by
  obtain ⟨st, hloop, hsame⟩ := peekSessionHeaderView_ok h
  have htext : rawText delim (first :: second :: (body ++ [last])) =
      first.text delim ++ (second.text delim ++ (rawText delim body ++ last.text delim)) := by
    simp [rawText]
  have hpos : ∀ f : RawField, 0 < (f.text delim).length := fun f =>
    List.length_pos_iff.2 f.text_ne_nil
  have hpos₁ := hpos first
  have hpos₂ := hpos second
  generalize hfuel : (rawText delim (first :: second :: (body ++ [last]))).length = fuel at hloop
  rw [htext] at hloop hfuel
  rw [List.length_append, List.length_append] at hfuel
  obtain ⟨fuel, rfl⟩ : ∃ n, fuel = n + 1 + 1 := ⟨fuel - 2, by omega⟩
  obtain ⟨hvalue, st₁, stop₁, hstep₁, hloop⟩ := peekLoop_field (hfields _ (by simp)) hloop
  obtain ⟨rfl, hcount₁, hheader₁⟩ := peekStep_first rfl hstep₁
  obtain ⟨-, st₂, stop₂, hstep₂, hloop⟩ := peekLoop_field (hfields second (by simp)) hloop
  obtain ⟨rfl, hcount₂, bodyLength, hheader₂⟩ := peekStep_second hcount₁ hstep₂
  obtain ⟨header', hread, hend⟩ := peekLoop_body (hfields last (by simp)) hsum after
    (fun f hf => ⟨hfields f (by simp [hf]), hwhole f (by simp [hf])⟩)
    (Nat.le_of_eq hcount₂.symm) (by omega) hloop
  rw [hheader₂, hheader₁] at hread
  obtain ⟨hsaid, hbegin⟩ := readHeader_says hread
  have hsaid' := hsaid.of_checksum hend
  rw [← hsame] at hsaid'
  refine ⟨hvalue, ?_, .of_checksum rfl hsaid'⟩
  calc header.beginString = st.header.beginString := header.beginString_of_checksum hsame
    _ = header'.beginString := st.header.beginString_of_checksum hend
    _ = first.value := hbegin

end

/-! ## When the readings agree -/

/-- The headers have the same identity, number, time and flag, and lead an acceptor to the same
session. -/
structure SessionHeaderView.Agrees (h h' : SessionHeaderView) : Prop where
  msgType : h.msgType = h'.msgType
  senderCompId : h.senderCompId = h'.senderCompId
  senderSubId : h.senderSubId = h'.senderSubId
  targetCompId : h.targetCompId = h'.targetCompId
  targetSubId : h.targetSubId = h'.targetSubId
  msgSeqNum : h.msgSeqNum = h'.msgSeqNum
  sendingTime : h.sendingTime = h'.sendingTime
  possDup : h.possDup = h'.possDup
  session : ∀ (e : Engine) (next : Nat), e.sessionOfLogon h next = e.sessionOfLogon h' next

/-- The fields `head` at the front say already what all of `root` say: the last value of every tag
of the identity, the number, the flag and, where a Logon names a session, the version of its
application messages. -/
structure HeadDecides (head root : List PlacedField) : Prop where
  texts : ∀ tag ∈ [Tag.msgType, Tag.senderCompID, Tag.senderSubID, Tag.targetCompID,
    Tag.targetSubID, Tag.sendingTime], lastText tag head = lastText tag root
  msgSeqNum : (parseNat (lastText Tag.msgSeqNum head)).getD 0 =
    (parseNat (lastText Tag.msgSeqNum root)).getD 0
  possDup : lastText Tag.possDupFlag head = ascii "Y" ↔ lastText Tag.possDupFlag root = ascii "Y"
  version : lastText Tag.msgType head = MsgType.logon → lastText Tag.senderCompID head ≠ [] →
    lastText Tag.targetCompID head ≠ [] →
      lastText Tag.defaultApplVerID head = lastText Tag.defaultApplVerID root

instance (head root : List PlacedField) : Decidable (HeadDecides head root) :=
  decidable_of_iff (_ ∧ _ ∧ _ ∧ _)
    ⟨fun ⟨h₁, h₂, h₃, h₄⟩ => ⟨h₁, h₂, h₃, h₄⟩, fun ⟨h₁, h₂, h₃, h₄⟩ => ⟨h₁, h₂, h₃, h₄⟩⟩

/-- The same for the fields of a frame. -/
def HeaderInFront (d : Dictionary) (delim : Byte) (bytes : Bytes) : Prop :=
  IfOk (readFrame d delim bytes) fun t =>
    HeadDecides (sessionHead (nodesFields t.1)) (rootFields t.1)

instance (d : Dictionary) (delim : Byte) (bytes : Bytes) :
    Decidable (HeaderInFront d delim bytes) :=
  inferInstanceAs (Decidable (IfOk _ _))

/-- Two Logons with one key lead to the same session everywhere if and only if they agree on the
version, unless they name no session. -/
theorem sessionOfLogon_eq_iff (hbegin : h.beginString ≠ []) (htype : h.msgType = h'.msgType)
    (hkey : h.localKey = h'.localKey) :
    (∀ (e : Engine) (next : Nat), e.sessionOfLogon h next = e.sessionOfLogon h' next) ↔
      (h.msgType = MsgType.logon → h.senderCompId ≠ [] → h.targetCompId ≠ [] →
        h.defaultApplVerId = h'.defaultApplVerId) := by
  constructor
  · intro hsame hlogon hsender htarget
    have hbegin' : h'.beginString ≠ [] := by
      rwa [show h'.beginString = h.beginString from congrArg SessionKey.beginString hkey.symm]
    have hsender' : h'.senderCompId ≠ [] := by
      rwa [show h'.senderCompId = h.senderCompId from congrArg SessionKey.targetCompId hkey.symm]
    have htarget' : h'.targetCompId ≠ [] := by
      rwa [show h'.targetCompId = h.targetCompId from congrArg SessionKey.senderCompId hkey.symm]
    have hresolve : ∀ e : Engine, e.resolveInboundSession h 0 = e.resolveInboundSession h' 0 := by
      intro e
      have heq := hsame e 0
      unfold Engine.sessionOfLogon at heq
      rwa [← htype, if_neg (not_not.2 hlogon), if_neg (not_not.2 hlogon)] at heq
    -- an engine that asks for a version one of the two has tells them apart
    have hboth : ∀ version, version ≠ [] →
        (version = h.defaultApplVerId ↔ version = h'.defaultApplVerId) := by
      intro version hversion
      have heq := hresolve (.single h.localKey version)
      rw [← Engine.single_resolves hversion hbegin hsender htarget 0,
        ← Engine.single_resolves hversion hbegin' hsender' htarget' 0, ← hkey, heq]
    by_cases hempty : h.defaultApplVerId = []
    · by_cases hempty' : h'.defaultApplVerId = []
      · rw [hempty, hempty']
      · exact ((hboth _ hempty').2 rfl).symm
    · exact (hboth _ hempty).1 rfl
  · intro hver e next
    unfold Engine.sessionOfLogon
    rw [← htype]
    by_cases hlogon : h.msgType = MsgType.logon
    · rw [if_neg (not_not.2 hlogon), if_neg (not_not.2 hlogon),
        e.resolveInboundSession_congr hkey (hver hlogon)]
    · rw [if_pos hlogon, if_pos hlogon]

theorem SessionHeaderView.Says.agrees_iff {head root : List PlacedField} (hsaid : h.Says head)
    (hsaid' : h'.Says root) (hfull : h.beginString ≠ []) (hbegin : h.beginString = h'.beginString) :
    h.Agrees h' ↔ HeadDecides head root := by
  have hkey : h.senderCompId = h'.senderCompId → h.targetCompId = h'.targetCompId →
      h.localKey = h'.localKey := by
    intro hsender htarget
    unfold SessionHeaderView.localKey
    rw [hsender, htarget, hbegin]
  constructor
  · intro hagrees
    have hversion := (sessionOfLogon_eq_iff hfull hagrees.msgType
      (hkey hagrees.senderCompId hagrees.targetCompId)).1 hagrees.session
    rw [hsaid.msgType, hsaid.senderCompId, hsaid.targetCompId, hsaid.defaultApplVerId,
      hsaid'.defaultApplVerId] at hversion
    refine ⟨?_, ?_, ?_, hversion⟩
    · simp only [List.forall_mem_cons, List.not_mem_nil, false_implies, implies_true, and_true]
      rw [← hsaid.msgType, ← hsaid.senderCompId, ← hsaid.senderSubId, ← hsaid.targetCompId,
        ← hsaid.targetSubId, ← hsaid.sendingTime, ← hsaid'.msgType, ← hsaid'.senderCompId,
        ← hsaid'.senderSubId, ← hsaid'.targetCompId, ← hsaid'.targetSubId, ← hsaid'.sendingTime]
      exact ⟨hagrees.msgType, hagrees.senderCompId, hagrees.senderSubId, hagrees.targetCompId,
        hagrees.targetSubId, hagrees.sendingTime⟩
    · rw [← hsaid.msgSeqNum, ← hsaid'.msgSeqNum]
      exact hagrees.msgSeqNum
    · have hflag := hagrees.possDup
      rw [hsaid.possDup, hsaid'.possDup] at hflag
      exact decide_eq_decide.1 hflag
  · intro hdecides
    have htexts := hdecides.texts
    simp only [List.forall_mem_cons, List.not_mem_nil, false_implies, implies_true,
      and_true] at htexts
    rw [← hsaid.msgType, ← hsaid.senderCompId, ← hsaid.senderSubId, ← hsaid.targetCompId,
      ← hsaid.targetSubId, ← hsaid.sendingTime, ← hsaid'.msgType, ← hsaid'.senderCompId,
      ← hsaid'.senderSubId, ← hsaid'.targetCompId, ← hsaid'.targetSubId,
      ← hsaid'.sendingTime] at htexts
    obtain ⟨htype, hsender, hsenderSub, htarget, htargetSub, htime⟩ := htexts
    have hversion := hdecides.version
    rw [← hsaid.msgType, ← hsaid.senderCompId, ← hsaid.targetCompId, ← hsaid.defaultApplVerId,
      ← hsaid'.defaultApplVerId] at hversion
    refine ⟨htype, hsender, hsenderSub, htarget, htargetSub, ?_, htime, ?_,
      (sessionOfLogon_eq_iff hfull htype (hkey hsender htarget)).2 hversion⟩
    · rw [hsaid.msgSeqNum, hsaid'.msgSeqNum]
      exact hdecides.msgSeqNum
    · rw [hsaid.possDup, hsaid'.possDup]
      exact decide_eq_decide.2 hdecides.possDup

open Sample

end NimbleFix
