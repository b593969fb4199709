import NimbleFix.Proof.PoolTree
import NimbleFix.Session.Sample

/-!
# What the generic decoder accepts

An accepted input is a frame of well formed fields with the right length and checksum. The fields of
its tree, those in groups included, are the fields of the body, each once and in order, and every
slot of the decoded message is the slot of one of them.
-/

namespace NimbleFix

/-! ## The slots of the pool -/

theorem ParsedMessageData.mem_appendFieldSlot_root {p : ParsedMessageData}
    {slot s : ParsedFieldSlot} (h : s ∈ (p.appendFieldSlot .root slot).1.fieldSlots) :
    s ∈ p.fieldSlots ∨ s = slot := by
  unfold appendFieldSlot at h
  cases hfind : p.findFieldIndex .root slot.tag with
  | some existing =>
    rw [hfind] at h
    exact List.mem_or_eq_of_mem_set h
  | none =>
    rw [hfind] at h
    have hslots : s ∈ p.fieldSlots ++ [slot] := by
      revert h
      simp only [modifyContainer, if_true, insertIntoRootHashTable]
      split <;> exact id
    simpa using hslots

theorem Deposits.madeOf {nodes : List FieldNode} {p p' : ParsedMessageData}
    (h : Deposits nodes p p') : ∀ s ∈ p'.fieldSlots,
      s ∈ p.fieldSlots ∨ ∃ f ∈ nodesFields nodes, s.MadeOf f := by
  induction h with
  | done p => exact fun s hs => .inl hs
  | skip _ _ ih =>
    intro s hs
    rcases ih s hs with hs | ⟨f, hf, hs⟩
    · exact .inl hs
    · exact .inr ⟨f, List.mem_append_right _ hf, hs⟩
  | plain _ _ hslot _ ih =>
    intro s hs
    rcases ih s hs with hs | ⟨f, hf, hs⟩
    · rcases ParsedMessageData.mem_appendFieldSlot_root hs with hs | rfl
      · exact .inl hs
      · exact .inr ⟨_, List.mem_cons_self .., hslot⟩
    · exact .inr ⟨f, List.mem_append_right _ hf, hs⟩
  | group _ hslot hgrow _ _ ih =>
    intro s hs
    obtain ⟨extra, hextra, hmade, -⟩ := hgrow.slots
    rcases ih s hs with hs | ⟨f, hf, hs⟩
    · rw [hextra] at hs
      rcases List.mem_append.1 hs with hs | hs
      · rcases ParsedMessageData.mem_appendFieldSlot_root hs with hs | rfl
        · exact .inl hs
        · exact .inr ⟨_, List.mem_cons_self .., hslot⟩
      · obtain ⟨f, hf, hs⟩ := hmade s hs
        exact .inr ⟨f, List.mem_append_left _ (List.mem_cons_of_mem _ hf), hs⟩
    · exact .inr ⟨f, List.mem_append_right _ hf, hs⟩

theorem mem_place {delim : Byte} {f : PlacedField} : ∀ {fs : List RawField} {after : Nat},
    f ∈ place delim fs after → ∃ before g behind, fs = before ++ g :: behind ∧
      f = ⟨g.tag, g.read, (rawText delim behind).length + after⟩
  | [], _, h => by cases h
  | g :: fs, after, h => by
    rcases List.mem_cons.1 h with rfl | h
    · exact ⟨[], g, fs, rfl, rfl⟩
    · obtain ⟨before, g', behind, rfl, hf⟩ := mem_place h
      exact ⟨g :: before, g', behind, rfl, hf⟩

/-! ## The end of the frame -/

section

variable {parsesDouble : Bytes → Bool} {d : Dictionary} {delim : Byte}

/-- The loop stops at a `CheckSum` field and has read its number. -/
theorem decodeGenericLoop_trailer : ∀ {fuel : Nat} {bytes trailer : Bytes} {st : GenericState}
    {e : GenericLoopEnd}, decodeGenericLoop parsesDouble d delim fuel bytes st = .ok e →
      e.trailer = some trailer → ∃ f, scanNextField delim trailer = .ok (f, e.rest) ∧
        f.tag = Tag.checkSum ∧ parseUnsigned f.value "CheckSum" = .ok e.state.header.checksum
  | 0, bytes, trailer, st, e, h, htrailer => by
    cases h
    cases htrailer
  | fuel + 1, bytes, trailer, st, e, h, htrailer => by
    unfold decodeGenericLoop at h
    split at h
    · cases h
      cases htrailer
    · obtain ⟨⟨f, rest⟩, hscan, hfield⟩ := exceptBind_ok h
      dsimp only at hfield
      split at hfield
      · rename_i hsum
        obtain ⟨checksum, hparse, heq⟩ := exceptBind_ok hfield
        cases heq
        cases htrailer
        exact ⟨f, hscan, hsum, hparse⟩
      · obtain ⟨⟨st₁, rest₁⟩, -, hloop⟩ := exceptBind_ok hfield
        exact decodeGenericLoop_trailer hloop htrailer

theorem parseUnsigned_ok {text : Bytes} {label : String} {n : Nat}
    (h : parseUnsigned text label = .ok n) : parseNat text = some n := by
  unfold parseUnsigned at h
  split at h
  · split at h
    · cases h
      assumption
    · cases h
  · cases h

variable {verify : Bool} {bytes : Bytes} {view : DecodedMessageView}

theorem checkFrame_ok {afterLength : Bytes} {declared : Nat} {e : LoopEnd}
    (h : checkFrame verify bytes afterLength declared e = .ok view) :
    ∃ trailer, e.rest = [] ∧ e.trailer = some trailer ∧
      declared = afterLength.length - trailer.length ∧
      (verify = true →
        byteSum (bytes.take (bytes.length - trailer.length)) % 256 = e.state.header.checksum) ∧
      view.message = e.state.parsed.locate bytes ∧ view.header = e.state.header := by
  unfold checkFrame at h
  split at h
  · cases h
  rename_i hrest
  split at h
  · cases h
  split at h
  · cases h
  rename_i trailer htrailer
  split at h
  · cases h
  rename_i hlength
  split at h
  · cases h
  rename_i hsum
  cases h
  refine ⟨trailer, by_contra hrest, htrailer, by_contra hlength, fun hverify => ?_, rfl, rfl⟩
  by_contra hne
  exact hsum ⟨hverify, hne⟩

/-- The stages of the decoder: the two fields of the frame, the loop and the checks. -/
theorem decodeFixMessageViewGeneric_ok {delimiter : Byte}
    (h : decodeFixMessageViewGeneric parsesDouble d delimiter verify bytes = .ok view)
    (hdelim : normalizeDelimiter delimiter = delim) :
    ∃ f₀ rest₀ f₁ rest₁ declared e,
      scanNextField delim bytes = .ok (f₀, rest₀) ∧ f₀.tag = Tag.beginString ∧
      scanNextField delim rest₀ = .ok (f₁, rest₁) ∧ f₁.tag = Tag.bodyLength ∧
      parseUnsigned f₁.value "BodyLength" = .ok declared ∧
      decodeGenericLoop parsesDouble d delim rest₁.length rest₁
        { header := { beginString := f₀.value, bodyLength := declared } } = .ok e ∧
      checkFrame verify bytes rest₁ declared e.toLoopEnd = .ok view := by
  unfold decodeFixMessageViewGeneric at h
  rw [hdelim] at h
  dsimp only at h
  obtain ⟨⟨f₀, rest₀⟩, hscan₀, h₀⟩ := exceptBind_ok h
  dsimp only at h₀
  split at h₀
  · cases h₀
  rename_i htag₀
  obtain ⟨⟨f₁, rest₁⟩, hscan₁, h₁⟩ := exceptBind_ok h₀
  dsimp only at h₁
  split at h₁
  · cases h₁
  rename_i htag₁
  obtain ⟨declared, hdeclared, h₂⟩ := exceptBind_ok h₁
  obtain ⟨e, hloop, hcheck⟩ := exceptBind_ok h₂
  exact ⟨f₀, rest₀, f₁, rest₁, declared, e, hscan₀, by_contra htag₀, hscan₁, by_contra htag₁,
    hdeclared, hloop, hcheck⟩

variable {rest value : Bytes}

theorem ne_nil_of_scanNextField {f : InlineField} (h : scanNextField delim bytes = .ok (f, rest)) :
    bytes ≠ [] := by
  rintro rfl
  cases h

theorem decodeGenericLoop_msgType
    (hscan : scanNextField delim bytes = .ok (⟨Tag.msgType, value⟩, rest)) (fuel : Nat)
    (st : GenericState) :
    decodeGenericLoop parsesDouble d delim (fuel + 1) bytes st =
      decodeGenericLoop parsesDouble d delim fuel rest
        ({ st with fieldCount := st.fieldCount + 1 }.readMsgType d ⟨Tag.msgType, value⟩ rest) := by
  rw [decodeGenericLoop, if_neg (ne_nil_of_scanNextField hscan), hscan]
  rfl

theorem decodeGenericLoop_checkSum {checksum : Nat}
    (hscan : scanNextField delim bytes = .ok (⟨Tag.checkSum, value⟩, rest))
    (hsum : parseUnsigned value "CheckSum" = .ok checksum) (fuel : Nat) (st : GenericState) :
    decodeGenericLoop parsesDouble d delim (fuel + 1) bytes st =
      .ok ⟨{ st with fieldCount := st.fieldCount + 1, header := { st.header with checksum } },
        some bytes, rest⟩ := by
  rw [decodeGenericLoop, if_neg (ne_nil_of_scanNextField hscan), hscan]
  simp only [bind, Except.bind, if_true, hsum]

theorem checkFrame_isOk {afterLength trailer : Bytes} {declared : Nat} {e : LoopEnd}
    (hrest : e.rest = []) (hcount : 4 ≤ e.state.fieldCount) (htrailer : e.trailer = some trailer)
    (hlength : declared = afterLength.length - trailer.length)
    (hsum : byteSum (bytes.take (bytes.length - trailer.length)) % 256 = e.state.header.checksum) :
    (checkFrame verify bytes afterLength declared e).isOk := by
  unfold checkFrame
  rw [if_neg (not_not.2 hrest), if_neg (Nat.not_lt.2 hcount), htrailer]
  dsimp only
  rw [if_neg (not_not.2 hlength), if_neg fun h => h.2 hsum]
  rfl

theorem decodeFixMessageViewGeneric_eq {rest₀ rest₁ : Bytes} {f₀ f₁ : InlineField}
    {declared : Nat} {e : GenericLoopEnd} (hdelim : normalizeDelimiter delim = delim)
    (hscan₀ : scanNextField delim bytes = .ok (f₀, rest₀)) (htag₀ : f₀.tag = Tag.beginString)
    (hscan₁ : scanNextField delim rest₀ = .ok (f₁, rest₁)) (htag₁ : f₁.tag = Tag.bodyLength)
    (hdeclared : parseUnsigned f₁.value "BodyLength" = .ok declared)
    (hloop : decodeGenericLoop parsesDouble d delim rest₁.length rest₁
      { header := { beginString := f₀.value, bodyLength := declared } } = .ok e) :
    decodeFixMessageViewGeneric parsesDouble d delim verify bytes =
      checkFrame verify bytes rest₁ declared e.toLoopEnd := by
  unfold decodeFixMessageViewGeneric
  rw [hdelim]
  simp only [bind, Except.bind, hscan₀, htag₀, hscan₁, htag₁, hdeclared, hloop, ne_eq,
    not_true_eq_false, if_false]

theorem readFrame_of_scan {rest₀ rest₁ : Bytes} {f₀ f₁ : InlineField}
    {tree : List FieldNode × Option Bytes} (h₀ : scanNextField delim bytes = .ok (f₀, rest₀))
    (h₁ : scanNextField delim rest₀ = .ok (f₁, rest₁))
    (h : readRoot d delim rest₁.length none rest₁ = .ok tree) :
    readFrame d delim bytes = .ok tree := by
  unfold readFrame
  rw [h₀]
  simp only [bind, Except.bind]
  rw [h₁]
  exact h

/-- How a frame was decoded: the fields of its text, and the tree of those in its body, which is put
into the pool and read for the header. -/
structure FrameRead (d : Dictionary) (delim : Byte) (verify : Bool) (bytes : Bytes)
    (view : DecodedMessageView) (first second : RawField) (body : List RawField) (last : RawField)
    (nodes : List FieldNode) : Prop where
  fields : ∀ f ∈ first :: second :: (body ++ [last]), f.WellFormed delim
  whole : ∀ f ∈ first :: second :: (body ++ [last]), f.read = f.value
  text : bytes = rawText delim (first :: second :: (body ++ [last]))
  last_tag : last.tag = Tag.checkSum
  checked : verify → IsFieldFrame delim bytes first second body last
  tree : readFrame d delim bytes = .ok (nodes, some (last.text delim))
  placed : nodesFields nodes = place delim body (last.text delim).length
  deposits : Deposits nodes {} view.message
  header : ∃ bodyLength h,
    readHeader (rootFields nodes) { beginString := first.value, bodyLength } = .ok h ∧
      { view.header with checksum := h.checksum } = h

theorem decode_read {delimiter : Byte} (hsize : bytes.length < 2 ^ 32)
    (h : decodeFixMessageViewGeneric parsesDouble d delimiter verify bytes = .ok view) :
    ∃ first second body last nodes,
      FrameRead d (normalizeDelimiter delimiter) verify bytes view first second body last nodes := by
  generalize hdelim : normalizeDelimiter delimiter = delim
  obtain ⟨f₀, rest₀, f₁, rest₁, declared, e, hscan₀, htag₀, hscan₁, htag₁, hdeclared, hloop,
    hcheck⟩ := decodeFixMessageViewGeneric_ok h hdelim
  obtain ⟨trailer, hrest, htrailer, hlength, hsum, hview, hheader⟩ := checkFrame_ok hcheck
  rw [ParsedMessageData.locate_of_lt hsize] at hview
  obtain ⟨nodes, header, hnodes, hdeposits, hread, hend⟩ := decodeGenericLoop_deposits hloop
  obtain ⟨f₂, hscan₂, htag₂, hchecksum⟩ := decodeGenericLoop_trailer hloop htrailer
  rw [show e.trailer = some trailer from htrailer] at hnodes
  have hframe := readFrame_of_scan hscan₀ hscan₁ hnodes
  obtain ⟨first, hfirst, rfl, hfirstTag, hfirstValue⟩ := scanNextField_ok hscan₀
  obtain ⟨second, hsecond, rfl, hsecondTag, hsecondValue⟩ := scanNextField_ok hscan₁
  obtain ⟨body, hbody, rfl, hplace⟩ := readRoot_covers hnodes
  obtain ⟨last, hlast, hlastText, hlastTag, hlastValue⟩ := scanNextField_ok hscan₂
  rw [show e.rest = [] from hrest, List.append_nil] at hlastText
  subst hlastText
  have hfields : ∀ f ∈ first :: second :: (body ++ [last]), f.WellFormed delim := by
    simp only [List.mem_cons, List.mem_append, List.not_mem_nil, or_false]
    rintro f (rfl | rfl | hf | rfl)
    · exact hfirst
    · exact hsecond
    · exact hbody f hf
    · exact hlast
  have htext : first.text delim ++ (second.text delim ++ (rawText delim body ++ last.text delim)) =
      rawText delim (first :: second :: (body ++ [last])) := by simp [rawText]
  have hwhole : ∀ f ∈ first :: second :: (body ++ [last]), f.read = f.value := fun f hf =>
    read_of_mem hf (htext ▸ hsize)
  rw [hwhole first (by simp)] at hfirstValue
  rw [hwhole second (by simp)] at hsecondValue
  rw [hwhole last (by simp)] at hlastValue
  refine ⟨first, second, body, last, nodes, hfields, hwhole, htext, hlastTag.symm.trans htag₂,
    fun hverify => ⟨hfields, htext, hfirstTag.symm.trans htag₀, hsecondTag.symm.trans htag₁,
      hlastTag.symm.trans htag₂, ?_, ?_⟩, hframe, hplace,
    hview ▸ hdeposits, declared, header, hfirstValue ▸ hread, hheader ▸ hend⟩
  · rw [← hsecondValue, parseUnsigned_ok hdeclared, hlength]
    simp
  · rw [← hlastValue, parseUnsigned_ok hchecksum,
      ← show _ = e.state.header.checksum from hsum hverify]
    congr 3
    rw [show first.text delim ++ (second.text delim ++ (rawText delim body ++ last.text delim)) =
      rawText delim (first :: second :: body) ++ last.text delim by simp [rawText]]
    rw [List.length_append, Nat.add_sub_cancel, List.take_left]

end

open Sample

/-- A Heartbeat whose `CheckSum` value goes on with `pad` after its digits. -/
def paddedHeartbeat (pad : Bytes) : Bytes :=
  rawText soh [⟨ascii "8", ascii "FIX.4.4"⟩, ⟨ascii "9", ascii "5"⟩, ⟨ascii "35", ascii "0"⟩,
    ⟨ascii "10", ascii "163" ++ pad⟩]

/-- If the length of the `CheckSum` value is cut to three, the rest of it is not looked at. -/
theorem decode_paddedHeartbeat {pad : Bytes} (hpad : soh ∉ pad)
    (hlen : wrap32 (ascii "163" ++ pad).length = 3) :
    (decodeFixMessageViewGeneric (fun _ => true) dictionary soh true (paddedHeartbeat pad)).isOk := by
  generalize hvalue : ascii "163" ++ pad = value at hlen
  have hread : value.take (wrap32 value.length) = ascii "163" := by
    rw [hlen, ← hvalue]
    rfl
  have hnot : soh ∉ ascii "10" ++ value := by
    rw [← hvalue, ← List.append_assoc, List.mem_append, not_or]
    exact ⟨by decide, hpad⟩
  have hlast : RawField.WellFormed soh ⟨ascii "10", value⟩ :=
    ⟨(by decide : (ascii "10").all isDigit), (by decide : (ascii "10").length ≤ 5),
      (by decide : parseTagInline (ascii "10") ≠ 0), hnot⟩
  obtain ⟨trailer, htrailer⟩ : ∃ trailer, trailer = RawField.text soh ⟨ascii "10", value⟩ := ⟨_, rfl⟩
  have hscan : scanNextField soh trailer = .ok (⟨Tag.checkSum, ascii "163"⟩, []) := by
    rw [htrailer, ← List.append_nil (RawField.text _ _), scanNextField_text hlast, RawField.read,
      hread]
    rfl
  have htext : paddedHeartbeat pad = RawField.text soh ⟨ascii "8", ascii "FIX.4.4"⟩ ++
      (RawField.text soh ⟨ascii "9", ascii "5"⟩ ++
        (RawField.text soh ⟨ascii "35", ascii "0"⟩ ++ trailer)) := by
    rw [paddedHeartbeat, hvalue, htrailer]
    simp [rawText]
  have hbytes : paddedHeartbeat pad = rawText soh [⟨ascii "8", ascii "FIX.4.4"⟩,
      ⟨ascii "9", ascii "5"⟩, ⟨ascii "35", ascii "0"⟩] ++ trailer := by
    rw [htext]
    simp [rawText]
  have hfuel : (RawField.text soh ⟨ascii "35", ascii "0"⟩ ++ trailer).length =
      trailer.length + 3 + 1 + 1 := by
    rw [List.length_append, Nat.add_comm]
    rfl
  have hfirst : RawField.WellFormed soh ⟨ascii "8", ascii "FIX.4.4"⟩ :=
    ⟨by decide, by decide, by decide, by decide⟩
  have hsecond : RawField.WellFormed soh ⟨ascii "9", ascii "5"⟩ :=
    ⟨by decide, by decide, by decide, by decide⟩
  have htype : RawField.WellFormed soh ⟨ascii "35", ascii "0"⟩ :=
    ⟨by decide, by decide, by decide, by decide⟩
  have hlength : parseUnsigned (ascii "5") "BodyLength" = .ok 5 := by decide
  have hsum : parseUnsigned (ascii "163") "CheckSum" = .ok 163 := by decide
  rw [htext, decodeFixMessageViewGeneric_eq rfl (scanNextField_text hfirst _) rfl
    (scanNextField_text hsecond _) rfl hlength (by
      rw [hfuel, decodeGenericLoop_msgType (scanNextField_text htype trailer)]
      exact decodeGenericLoop_checkSum hscan hsum _ _)]
  have hbody : 5 = (RawField.text soh ⟨ascii "35", ascii "0"⟩ ++ trailer).length - trailer.length := by
    rw [List.length_append, Nat.add_sub_cancel]
    rfl
  refine checkFrame_isOk rfl (Nat.le_refl 4) rfl hbody ?_
  have hprefix : byteSum (rawText soh [⟨ascii "8", ascii "FIX.4.4"⟩, ⟨ascii "9", ascii "5"⟩,
      ⟨ascii "35", ascii "0"⟩]) % 256 = 163 := by decide
  rw [← htext, hbytes, List.length_append, Nat.add_sub_cancel, List.take_left]
  exact hprefix

theorem IsFieldFrame.isDigit_last {delim b : Byte} {bytes : Bytes} {first second last : RawField}
    {body : List RawField}
    (h : IsFieldFrame delim (bytes ++ [b] ++ [delim]) first second body last) : isDigit b := by
  have hsum := h.checkSum
  unfold parseNat at hsum
  split at hsum
  · rename_i hdigits
    obtain ⟨text, c, hvalue⟩ := (List.eq_nil_or_concat' last.value).resolve_left hdigits.1
    have heq := h.bytes_eq
    rw [show rawText delim (first :: second :: (body ++ [last])) =
      rawText delim (first :: second :: body) ++ (last.tagText ++ equalsByte :: text) ++ [c] ++
        [delim] by simp [rawText, RawField.text, hvalue]] at heq
    have hb := List.append_inj_right' (List.append_cancel_right heq) rfl
    rw [hvalue, List.all_append, Bool.and_eq_true] at hdigits
    obtain rfl : b = c := List.singleton_inj.1 hb
    simpa using hdigits.2.2
  · cases hsum

end NimbleFix
