import NimbleFix.Spec.FrameTree

/-!
# What the scanner reads

`scanNextField` reads a field off the input exactly when the input starts with the text of a well
formed one. From this, reading the tree of a frame covers the input with the fields of the tree,
without a gap and without an overlap.
-/

namespace NimbleFix

/-! ## One field -/

section

variable {delim : Byte}

theorem splitAtByte_ok {bytes value rest : Bytes} (h : splitAtByte delim bytes = some (value, rest)) :
    bytes = value ++ delim :: rest ∧ delim ∉ value := by
  induction bytes generalizing value with
  | nil => cases h
  | cons b bs ih =>
    unfold splitAtByte at h
    by_cases hb : b = delim
    · rw [if_pos hb] at h
      cases h
      exact ⟨by rw [hb]; rfl, List.not_mem_nil⟩
    · rw [if_neg hb] at h
      obtain ⟨⟨value', rest'⟩, hsplit, heq⟩ := Option.map_eq_some_iff.1 h
      cases heq
      obtain ⟨rfl, hnot⟩ := ih hsplit
      refine ⟨rfl, ?_⟩
      rw [List.mem_cons, not_or]
      exact ⟨fun he => hb he.symm, hnot⟩

theorem splitAtByte_append {value : Bytes} (h : delim ∉ value) (rest : Bytes) :
    splitAtByte delim (value ++ delim :: rest) = some (value, rest) := by
  induction value with
  | nil => simp [splitAtByte]
  | cons b bs ih =>
    rw [List.mem_cons, not_or] at h
    have hb : ¬b = delim := fun he => h.1 he.symm
    simp [splitAtByte, hb, ih h.2]

theorem scanTag_ok {budget : Nat} {first : Bool} {bytes text rest : Bytes}
    (h : scanTag delim budget first bytes = .ok (text, rest)) :
    bytes = text ++ equalsByte :: rest ∧ text.length < budget ∧ delim ∉ text := by
  induction bytes generalizing budget first text with
  | nil => cases budget <;> cases h
  | cons b bs ih =>
    cases budget with
    | zero => cases h
    | succ budget =>
      unfold scanTag at h
      by_cases hb : b = equalsByte
      · rw [if_pos hb] at h
        cases first with
        | true => cases h
        | false =>
          cases h
          exact ⟨by rw [hb]; rfl, Nat.succ_pos _, List.not_mem_nil⟩
      · rw [if_neg hb] at h
        by_cases hd : b = delim
        · rw [if_pos hd] at h
          cases first <;> cases h
        · rw [if_neg hd] at h
          obtain ⟨⟨text', rest'⟩, hscan, heq⟩ := exceptBind_ok h
          cases heq
          obtain ⟨rfl, hlen, hnot⟩ := ih hscan
          refine ⟨rfl, Nat.succ_lt_succ hlen, ?_⟩
          rw [List.mem_cons, not_or]
          exact ⟨fun he => hd he.symm, hnot⟩

theorem parseTagInline_ne_zero {text : Bytes} (h : parseTagInline text ≠ 0) :
    text.all isDigit ∧ text.length ≤ 5 := by
  unfold parseTagInline parseNat at h
  split at h
  · rename_i hlen
    split at h
    · rename_i hdigits
      exact ⟨hdigits.2, hlen⟩
    · exact absurd rfl h
  · exact absurd rfl h

/-- What is scanned is a well formed field at the front of the input. -/
theorem scanNextField_ok {bytes rest : Bytes} {f : InlineField}
    (h : scanNextField delim bytes = .ok (f, rest)) :
    ∃ raw : RawField, raw.WellFormed delim ∧ bytes = raw.text delim ++ rest ∧ f.tag = raw.tag ∧
      f.value = raw.read := by
  unfold scanNextField at h
  obtain ⟨⟨tagText, afterEq⟩, hscan, hsplit⟩ := exceptBind_ok h
  dsimp only at hsplit
  cases hvalue : splitAtByte delim afterEq with
  | none =>
    rw [hvalue] at hsplit
    cases hsplit
  | some split =>
    rw [hvalue] at hsplit
    dsimp only at hsplit
    by_cases hne : parseTagInline tagText = 0
    · rw [if_pos hne] at hsplit
      cases hsplit
    · rw [if_neg hne] at hsplit
      cases hsplit
      obtain ⟨hdigits, hlen⟩ := parseTagInline_ne_zero hne
      obtain ⟨hbytes, -, htag⟩ := scanTag_ok hscan
      obtain ⟨hafter, hnot⟩ := splitAtByte_ok hvalue
      refine ⟨⟨tagText, split.1⟩, ⟨hdigits, hlen, hne, ?_⟩, ?_, rfl, rfl⟩
      · rw [List.mem_append, not_or]
        exact ⟨htag, hnot⟩
      · rw [hbytes, hafter]
        simp [RawField.text]

theorem scanTag_append {text : Bytes} (hdigits : text.all isDigit)
    (hdelim : delim ∉ text) (rest : Bytes) : ∀ {budget : Nat} {first : Bool},
      text.length < budget → (text = [] → first = false) →
        scanTag delim budget first (text ++ equalsByte :: rest) = .ok (text, rest) := by
  induction text with
  | nil =>
    intro budget first hlen hfirst
    obtain ⟨budget, rfl⟩ := Nat.exists_eq_succ_of_ne_zero (Nat.ne_of_gt hlen)
    rw [hfirst rfl]
    rfl
  | cons b bs ih =>
    intro budget first hlen _
    obtain ⟨budget, rfl⟩ := Nat.exists_eq_succ_of_ne_zero (Nat.ne_of_gt (Nat.zero_lt_of_lt hlen))
    rw [List.all_cons, Bool.and_eq_true] at hdigits
    rw [List.mem_cons, not_or] at hdelim
    have hequals : b ≠ equalsByte := fun he => by
      rw [he] at hdigits
      exact absurd hdigits.1 (by decide)
    rw [List.cons_append, scanTag, if_neg hequals, if_neg fun he => hdelim.1 he.symm,
      ih hdigits.2 hdelim.2 (Nat.lt_of_succ_lt_succ hlen) fun _ => rfl]
    rfl

/-- A well formed field at the front of the input is scanned, its value as far as it is read. -/
theorem scanNextField_text {f : RawField} (h : f.WellFormed delim) (rest : Bytes) :
    scanNextField delim (f.text delim ++ rest) = .ok (⟨f.tag, f.read⟩, rest) := by
  have hdelim := h.delim_notMem
  rw [List.mem_append, not_or] at hdelim
  have hne : f.tagText = [] → true = false := fun he => by
    exact absurd (by rw [RawField.tag, he]; rfl) h.tag_ne_zero
  have hscan := scanTag_append h.digits hdelim.1 (f.value ++ delim :: rest)
    (Nat.lt_succ_of_le h.length_le) hne
  rw [show f.text delim ++ rest = f.tagText ++ equalsByte :: (f.value ++ delim :: rest) by
    simp [RawField.text]]
  unfold scanNextField
  rw [hscan]
  simp only [bind, Except.bind]
  rw [splitAtByte_append hdelim.2]
  exact if_neg h.tag_ne_zero

end

/-! ## The cover of the input -/

/-- The input up to `rest` is the text of well formed fields, which are `fields`. -/
def Covers (delim : Byte) (bytes : Bytes) (fields : List PlacedField) (rest : Bytes) : Prop :=
  ∃ fs : List RawField, (∀ f ∈ fs, f.WellFormed delim) ∧ bytes = rawText delim fs ++ rest ∧
    fields = place delim fs rest.length

section

variable {delim : Byte}

theorem rawText_append (fs gs : List RawField) :
    rawText delim (fs ++ gs) = rawText delim fs ++ rawText delim gs := List.flatMap_append

theorem place_append (fs gs : List RawField) (after : Nat) :
    place delim (fs ++ gs) after =
      place delim fs ((rawText delim gs).length + after) ++ place delim gs after := by
  induction fs with
  | nil => rfl
  | cons f fs ih =>
    rw [List.cons_append, place, ih, place, rawText_append, List.length_append, List.cons_append,
      Nat.add_assoc]

/-- In a text of fewer than `2 ^ 32` bytes every value is read to its end. -/
theorem read_of_mem {fs : List RawField} {f : RawField} (hf : f ∈ fs)
    (h : (rawText delim fs).length < 2 ^ 32) : f.read = f.value := by
  obtain ⟨before, behind, rfl⟩ := List.append_of_mem hf
  have hlt : f.value.length < 2 ^ 32 := by
    rw [rawText_append, List.length_append, rawText, rawText, List.flatMap_cons, RawField.text] at h
    simp only [List.length_append, List.length_cons] at h
    omega
  rw [RawField.read, wrap32_of_lt hlt, List.take_length]

theorem Covers.nil (bytes : Bytes) : Covers delim bytes [] bytes :=
  ⟨[], by simp, rfl, rfl⟩

theorem Covers.append {bytes middle rest : Bytes} {fields fields' : List PlacedField}
    (h : Covers delim bytes fields middle) (h' : Covers delim middle fields' rest) :
    Covers delim bytes (fields ++ fields') rest := by
  obtain ⟨fs, hfs, rfl, rfl⟩ := h
  obtain ⟨gs, hgs, rfl, rfl⟩ := h'
  refine ⟨fs ++ gs, ?_, ?_, ?_⟩
  · intro f hf
    rcases List.mem_append.1 hf with hf | hf
    · exact hfs f hf
    · exact hgs f hf
  · rw [rawText_append, List.append_assoc]
  · rw [place_append, List.length_append]

theorem Covers.scan {bytes rest : Bytes} {f : InlineField}
    (h : scanNextField delim bytes = .ok (f, rest)) :
    Covers delim bytes [placed f rest] rest := by
  obtain ⟨raw, hraw, rfl, htag, hvalue⟩ := scanNextField_ok h
  refine ⟨[raw], by simpa using hraw, by simp [rawText], ?_⟩
  simp [place, placed, rawText, htag, hvalue]

variable {d : Dictionary}

/-- What `readFields` reads off the input it covers with its fields. -/
def Reader.Sound (delim : Byte) (readFields : Bytes → Except Status (List FieldNode × Bytes)) :
    Prop :=
  ∀ bytes nodes rest, readFields bytes = .ok (nodes, rest) →
    Covers delim bytes (nodesFields nodes) rest

theorem readEntries_covers {g : GroupDef}
    {readFields : Bytes → Except Status (List FieldNode × Bytes)}
    (hread : Reader.Sound delim readFields) :
    ∀ {n : Nat} {bytes rest : Bytes} {entries : List EntryNode},
      readEntries delim g readFields n bytes = .ok (entries, rest) →
        Covers delim bytes (entriesFields entries) rest
  | 0, bytes, rest, entries, h => by
    cases h
    exact .nil bytes
  | n + 1, bytes, rest, entries, h => by
    unfold readEntries at h
    split at h
    · cases h
      exact .nil bytes
    · obtain ⟨peek, -, hpeek⟩ := exceptBind_ok h
      dsimp only at hpeek
      split at hpeek
      · cases hpeek
        exact .nil bytes
      · obtain ⟨⟨nodes, middle⟩, hnodes, hrest⟩ := exceptBind_ok hpeek
        obtain ⟨⟨entries', last⟩, hentries, heq⟩ := exceptBind_ok hrest
        cases heq
        exact (hread _ _ _ hnodes).append (readEntries_covers hread hentries)

theorem readGroup_covers {g : GroupDef} {countValue : Bytes} {depth : Nat}
    {readFields : Bytes → Except Status (List FieldNode × Bytes)}
    (hread : Reader.Sound delim readFields) {bytes rest : Bytes} {entries : List EntryNode}
    (h : readGroup delim countValue g depth readFields bytes = .ok (entries, rest)) :
    Covers delim bytes (entriesFields entries) rest := by
  obtain ⟨count, -, hcount⟩ := exceptBind_ok h
  split at hcount
  · cases hcount
  · exact readEntries_covers hread hcount

theorem readEntryFields_covers : ∀ (fuel : Nat) (g : GroupDef) (depth : Nat) (seenAny : Bool),
    Reader.Sound delim (readEntryFields d delim fuel g depth seenAny)
  | 0, g, depth, seenAny, bytes, nodes, rest, h => by
    cases h
    exact .nil bytes
  | fuel + 1, g, depth, seenAny, bytes, nodes, rest, h => by
    unfold readEntryFields at h
    split at h
    · cases h
      exact .nil bytes
    · obtain ⟨⟨f, after⟩, hscan, hfield⟩ := exceptBind_ok h
      dsimp only at hfield
      split at hfield
      · cases hfield
        exact .nil bytes
      · split at hfield
        · rename_i nested _
          obtain ⟨⟨entries, afterGroup⟩, hgroup, hrest⟩ := exceptBind_ok hfield
          obtain ⟨⟨nodes', last⟩, hnodes, heq⟩ := exceptBind_ok hrest
          cases heq
          exact (Covers.scan hscan).append
            ((readGroup_covers (readEntryFields_covers fuel nested _ _) hgroup).append
              (readEntryFields_covers fuel g depth true _ _ _ hnodes))
        · obtain ⟨⟨nodes', last⟩, hnodes, heq⟩ := exceptBind_ok hfield
          cases heq
          exact (Covers.scan hscan).append (readEntryFields_covers fuel g depth true _ _ _ hnodes)

theorem readRoot_covers : ∀ {fuel : Nat} {messageDef : Option MessageDef} {bytes trailer : Bytes}
    {nodes : List FieldNode}, readRoot d delim fuel messageDef bytes = .ok (nodes, some trailer) →
      Covers delim bytes (nodesFields nodes) trailer
  | 0, _, _, _, _, h => by cases h
  | fuel + 1, messageDef, bytes, trailer, nodes, h => by
    unfold readRoot at h
    split at h
    · cases h
    · obtain ⟨⟨f, after⟩, hscan, hfield⟩ := exceptBind_ok h
      dsimp only at hfield
      split at hfield
      · cases hfield
        exact .nil bytes
      · split at hfield
        · obtain ⟨⟨entries, afterGroup⟩, hgroup, hrest⟩ := exceptBind_ok hfield
          obtain ⟨⟨nodes', last⟩, hnodes, heq⟩ := exceptBind_ok hrest
          cases heq
          exact (Covers.scan hscan).append
            ((readGroup_covers (readEntryFields_covers _ _ _ _) hgroup).append
              (readRoot_covers hnodes))
        · obtain ⟨⟨nodes', last⟩, hnodes, heq⟩ := exceptBind_ok hfield
          cases heq
          exact (Covers.scan hscan).append (readRoot_covers hnodes)

end

end NimbleFix
