import NimbleFix.Proof.ScanFields

/-!
# The pool of the decoder and the tree of the frame

The group parser reads what `readGroup` reads, and what it adds to the pool are slots of the fields
it reads; it leaves the slots before them, the window of the root and the windows of the entries
that are complete alone. `Deposits` says what the field loop does to the pool for each node of the
root.
-/

namespace NimbleFix

/-! ## Slots -/

/-- The slot was made for the field. -/
def ParsedFieldSlot.MadeOf (s : ParsedFieldSlot) (f : PlacedField) : Prop :=
  s = .make f.tag f.value s.type f.remaining

namespace ParsedMessageData

/-- The slots of a group entry: where they start and how many there are. -/
def window (p : ParsedMessageData) (i : Nat) : Option Nat × Nat :=
  ((p.entries.getD i {}).firstFieldIndex, (p.entries.getD i {}).fieldCount)

/-- What the group parser leaves alone: the message type, the window of the root and its tables. -/
def rootPart (p : ParsedMessageData) :
    Bytes × (Option Nat × Nat) × List (Nat × Nat) × List (Nat × Nat) :=
  (p.msgType, (p.root.firstFieldIndex, p.root.fieldCount), p.fieldHashTable, p.fieldHashOverflow)

/-- From `p` to `p'` slots of the fields were added, at least one if there is a field. -/
structure Grows (p p' : ParsedMessageData) (fields : List PlacedField) : Prop where
  rootPart_eq : p'.rootPart = p.rootPart
  entries_le : p.entries.length ≤ p'.entries.length
  window_eq : ∀ i < p.entries.length, p'.window i = p.window i
  slots : ∃ extra, p'.fieldSlots = p.fieldSlots ++ extra ∧
    (∀ s ∈ extra, ∃ f ∈ fields, s.MadeOf f) ∧ (extra = [] ↔ fields = [])

namespace Grows

variable {p q r : ParsedMessageData} {fs gs : List PlacedField}

theorem refl (p : ParsedMessageData) : Grows p p [] :=
  ⟨rfl, Nat.le_refl _, fun _ _ => rfl, [], by simp, by simp, by simp⟩

theorem trans (h : Grows p q fs) (h' : Grows q r gs) : Grows p r (fs ++ gs) := by
  obtain ⟨extra, hextra, hmade, hnil⟩ := h.slots
  obtain ⟨extra', hextra', hmade', hnil'⟩ := h'.slots
  refine ⟨h'.rootPart_eq.trans h.rootPart_eq, Nat.le_trans h.entries_le h'.entries_le,
    fun i hi => ?_, extra ++ extra', ?_, ?_, ?_⟩
  · exact (h'.window_eq i (Nat.lt_of_lt_of_le hi h.entries_le)).trans (h.window_eq i hi)
  · rw [hextra', hextra, List.append_assoc]
  · intro s hs
    rcases List.mem_append.1 hs with hs | hs
    · obtain ⟨f, hf, hs⟩ := hmade s hs
      exact ⟨f, List.mem_append_left _ hf, hs⟩
    · obtain ⟨f, hf, hs⟩ := hmade' s hs
      exact ⟨f, List.mem_append_right _ hf, hs⟩
  · rw [List.append_eq_nil_iff, List.append_eq_nil_iff, hnil, hnil']

theorem fieldSlots_eq (h : Grows p q []) : q.fieldSlots = p.fieldSlots := by
  obtain ⟨extra, hextra, -, hnil⟩ := h.slots
  rw [hextra, hnil.2 rfl, List.append_nil]

end Grows

/-! ## The operations of the group parser -/

theorem ensureGroup_grows (p : ParsedMessageData) (c : ParsedContainer) (countTag depth : Nat) :
    Grows p (p.ensureGroup c countTag depth).1 [] := by
  unfold ensureGroup
  split
  · exact .refl p
  · cases c with
    | root =>
      refine ⟨?_, ?_, fun i _ => ?_, [], ?_, by simp, by simp⟩ <;>
        (simp only [modifyContainer, container]; split <;> simp [rootPart, window])
    | entry index =>
      refine ⟨?_, ?_, fun i hi => ?_, [], ?_, by simp, by simp⟩
      · simp only [modifyContainer, container]; split <;> rfl
      · simp only [modifyContainer, container]; split <;> simp
      · simp only [modifyContainer, container]
        split <;>
        · simp only [window, List.getD_eq_getElem?_getD, List.getElem?_modify]
          by_cases hidx : index = i <;> simp [hidx, hi]
      · simp only [modifyContainer, container]; split <;> simp

theorem appendEntry_grows (p : ParsedMessageData) (frame : Nat) :
    Grows p (p.appendEntry frame).1 [] ∧ (p.appendEntry frame).2 = p.entries.length ∧
      (p.appendEntry frame).1.entries.length = p.entries.length + 1 ∧
      (p.appendEntry frame).1.window p.entries.length = (none, 0) := by
  unfold appendEntry
  cases hlast : (p.groups[frame]?).bind fun g => g.lastEntry with
  | none =>
    refine ⟨⟨rfl, by simp, fun i hi => ?_, [], by simp, by simp, by simp⟩, rfl, by simp, ?_⟩
    · simp [window, List.getD_eq_getElem?_getD, List.getElem?_append_left hi]
    · simp [window, List.getD_eq_getElem?_getD]
  | some last =>
    refine ⟨⟨rfl, by simp, fun i hi => ?_, [], by simp, by simp, by simp⟩, rfl, by simp, ?_⟩
    · simp only [window, List.getD_eq_getElem?_getD, List.getElem?_modify]
      rw [List.getElem?_append_left hi]
      by_cases hidx : last = i <;> simp [hidx, hi]
    · simp only [window, List.getD_eq_getElem?_getD, List.getElem?_modify]
      by_cases hidx : last = p.entries.length <;> simp [hidx]

/-- What an append to the entry `i` leaves alone, if the slots of the entry start at `base` or
later: all but the slots from `base` on and the window of the entry. -/
structure AppendsAt (i base : Nat) (slot : ParsedFieldSlot) (p p' : ParsedMessageData) : Prop where
  rootPart_eq : p'.rootPart = p.rootPart
  entries_eq : p'.entries.length = p.entries.length
  window_eq : ∀ j, j ≠ i → p'.window j = p.window j
  starts : ∀ first, (p'.window i).1 = some first → base ≤ first
  slots : ∀ before extra, p.fieldSlots = before ++ extra → before.length = base →
    ∃ extra', p'.fieldSlots = before ++ extra' ∧ (∀ s ∈ extra', s ∈ extra ∨ s = slot) ∧
      (extra ≠ [] ∨ (p.window i).1 = none → extra' ≠ [])

variable {p : ParsedMessageData} {i base : Nat}

theorem appendFieldSlot_appendsAt (hi : i < p.entries.length)
    (hstarts : ∀ first, (p.window i).1 = some first → base ≤ first)
    (hbase : base ≤ p.fieldSlots.length) (slot : ParsedFieldSlot) :
    AppendsAt i base slot p (p.appendFieldSlot (.entry i) slot).1 := by
  unfold appendFieldSlot
  cases hfind : p.findFieldIndex (.entry i) slot.tag with
  | some existing =>
    have hge : base ≤ existing := by
      simp only [findFieldIndex, Option.bind_eq_some_iff, Option.map_eq_some_iff] at hfind
      obtain ⟨first, hfirst, k, -, rfl⟩ := hfind
      have := hstarts first hfirst
      omega
    have hsome : (p.window i).1 ≠ none := by
      simp only [findFieldIndex, Option.bind_eq_some_iff] at hfind
      obtain ⟨first, hfirst, -⟩ := hfind
      simp only [window]
      rw [hfirst]
      simp
    refine ⟨rfl, rfl, fun _ _ => rfl, hstarts, fun before extra hslots hlen => ?_⟩
    refine ⟨extra.set (existing - base) slot, ?_, fun s hs => ?_, ?_⟩
    · dsimp only
      rw [hslots, List.set_append_right _ _ (by omega), hlen]
    · exact List.mem_or_eq_of_mem_set hs
    · rintro (hne | hnone)
      · simpa using hne
      · exact absurd hnone hsome
  | none =>
    refine ⟨rfl, by simp [modifyContainer], fun j hj => ?_, fun first => ?_,
      fun before extra hslots hlen => ⟨extra ++ [slot], ?_, ?_, by simp⟩⟩
    · simp only [modifyContainer, window, List.getD_eq_getElem?_getD, List.getElem?_modify,
        reduceCtorEq, if_false]
      have hij : ¬i = j := fun h => hj h.symm
      simp [hij]
    · simp only [modifyContainer, window, List.getD_eq_getElem?_getD, List.getElem?_modify,
        reduceCtorEq, if_false, if_true, List.getElem?_eq_getElem hi, Option.map_eq_map,
        Option.map_some, Option.getD_some]
      intro hfirst
      cases hf : (p.entries[i]).firstFieldIndex with
      | none =>
        rw [hf] at hfirst
        cases hfirst
        exact hbase
      | some first' =>
        rw [hf] at hfirst
        cases hfirst
        refine hstarts first ?_
        simp only [window, List.getD_eq_getElem?_getD, List.getElem?_eq_getElem hi,
          Option.getD_some]
        exact hf
    · simp only [modifyContainer, reduceCtorEq, if_false]
      rw [hslots, List.append_assoc]
    · intro s hs
      rcases List.mem_append.1 hs with hs | hs
      · exact .inl hs
      · exact .inr (List.mem_singleton.1 hs)

/-- The batch append of the slots of one entry. -/
def appendSlots (i : Nat) (slots : List ParsedFieldSlot) (p : ParsedMessageData) :
    ParsedMessageData :=
  slots.foldl (fun p slot => (p.appendFieldSlot (.entry i) slot).1) p

theorem appendSlots_spec {before : List ParsedFieldSlot} (hbase : base = before.length) :
    ∀ (slots : List ParsedFieldSlot) {p : ParsedMessageData}
      {extra : List ParsedFieldSlot}, i < p.entries.length →
      (∀ first, (p.window i).1 = some first → base ≤ first) →
      p.fieldSlots = before ++ extra →
      (appendSlots i slots p).rootPart = p.rootPart ∧
        (appendSlots i slots p).entries.length = p.entries.length ∧
        (∀ j, j ≠ i → (appendSlots i slots p).window j = p.window j) ∧
        ∃ extra', (appendSlots i slots p).fieldSlots = before ++ extra' ∧
          (∀ s ∈ extra', s ∈ extra ∨ s ∈ slots) ∧
          (extra ≠ [] ∨ ((p.window i).1 = none ∧ slots ≠ []) → extra' ≠ [])
  | [], p, extra, hi, hstarts, hslots =>
    ⟨rfl, rfl, fun _ _ => rfl, extra, hslots, fun s hs => .inl hs, by simp⟩
  | slot :: slots, p, extra, hi, hstarts, hslots => by
    have hstep := appendFieldSlot_appendsAt hi hstarts (by rw [hslots]; simp; omega) slot
    obtain ⟨extra₁, hslots₁, hmem₁, hne₁⟩ := hstep.slots before extra hslots hbase.symm
    obtain ⟨hroot, hentries, hwindow, extra', hslots', hmem', hne'⟩ :=
      appendSlots_spec hbase slots (by rw [hstep.entries_eq]; exact hi) hstep.starts hslots₁
    refine ⟨hroot.trans hstep.rootPart_eq, hentries.trans hstep.entries_eq,
      fun j hj => (hwindow j hj).trans (hstep.window_eq j hj), extra', hslots', fun s hs => ?_,
      fun h => hne' (.inl (hne₁ ?_))⟩
    · rcases hmem' s hs with hs | hs
      · rcases hmem₁ s hs with hs | rfl
        · exact .inl hs
        · exact .inr List.mem_cons_self
      · exact .inr (List.mem_cons_of_mem _ hs)
    · rcases h with h | h
      · exact .inl h
      · exact .inr h.1

/-- The slots from `base` on are those of the entry `i`, with the tags. -/
structure EntryTags (p : ParsedMessageData) (i base : Nat) (tags : List Nat) : Prop where
  lt : i < p.entries.length
  window_eq : p.window i = if tags = [] then (none, 0) else (some base, tags.length)
  base_le : base ≤ p.fieldSlots.length
  tags_eq : (p.fieldSlots.drop base).map (fun s => s.tag) = tags

theorem EntryTags.findFieldIndex {tags : List Nat} (h : EntryTags p i base tags) (tag : Nat) :
    p.findFieldIndex (.entry i) tag = (tags.findIdx? (· == tag)).map (base + ·) := by
  have hwindow := h.window_eq
  simp only [window] at hwindow
  unfold ParsedMessageData.findFieldIndex
  by_cases hnil : tags = []
  · rw [if_pos hnil] at hwindow
    have hfirst : (p.entries.getD i {}).firstFieldIndex = none := congrArg Prod.fst hwindow
    simp only [hfirst, hnil]
    rfl
  · rw [if_neg hnil] at hwindow
    have hfirst : (p.entries.getD i {}).firstFieldIndex = some base := congrArg Prod.fst hwindow
    have hcount : (p.entries.getD i {}).fieldCount = tags.length := congrArg Prod.snd hwindow
    have hlength : (p.fieldSlots.drop base).length = tags.length := by
      rw [← h.tags_eq, List.length_map]
    simp only [hfirst, hcount, Option.bind_some]
    rw [List.take_of_length_le (by omega), ← h.tags_eq, List.findIdx?_map]
    rfl

theorem EntryTags.append {tags : List Nat} (h : EntryTags p i base tags)
    (hfits : tags.length + 1 < 2 ^ 16) (slot : ParsedFieldSlot) :
    EntryTags (p.appendFieldSlot (.entry i) slot).1 i base
      (if slot.tag ∈ tags then tags else tags ++ [slot.tag]) := by
  have hlength : (p.fieldSlots.drop base).length = tags.length := by
    rw [← h.tags_eq, List.length_map]
  unfold appendFieldSlot
  rw [h.findFieldIndex]
  cases hfind : tags.findIdx? (· == slot.tag) with
  | some k =>
    obtain ⟨hk, htag, -⟩ := List.findIdx?_eq_some_iff_getElem.1 hfind
    have htag : tags[k] = slot.tag := by simpa using htag
    rw [if_pos (htag ▸ List.getElem_mem hk)]
    refine ⟨h.lt, h.window_eq, by simpa using h.base_le, ?_⟩
    dsimp only [Option.map_some]
    rw [List.drop_set, if_neg (by omega), List.map_set, h.tags_eq, ← htag, Nat.add_sub_cancel_left,
      List.set_getElem_self]
  | none =>
    have hnew : slot.tag ∉ tags := by
      intro hmem
      have := List.findIdx?_eq_none_iff.1 hfind _ hmem
      simp at this
    rw [if_neg hnew]
    have hwindow := h.window_eq
    have hlt := h.lt
    have hentry : p.entries.getD i {} = p.entries[i] := by
      rw [List.getD_eq_getElem?_getD, List.getElem?_eq_getElem h.lt]
      rfl
    simp only [window, hentry] at hwindow
    simp only [Option.map_none, reduceCtorEq, if_false, modifyContainer]
    refine ⟨by simpa using h.lt, ?_, ?_, ?_⟩
    · simp only [window, List.getD_eq_getElem?_getD, List.getElem?_modify, if_true,
        List.getElem?_eq_getElem h.lt, Option.map_eq_map, Option.map_some, Option.getD_some]
      rw [if_neg (by simp), List.length_append, List.length_singleton]
      have hle := h.base_le
      rw [List.length_drop] at hlength
      by_cases hnil : tags = []
      · rw [if_pos hnil] at hwindow
        have hfirst : (p.entries[i]).firstFieldIndex = none := congrArg Prod.fst hwindow
        have hcount : (p.entries[i]).fieldCount = 0 := congrArg Prod.snd hwindow
        rw [hnil, List.length_nil] at hlength
        rw [hfirst, hcount, hnil, show p.fieldSlots.length = base by omega]
        rfl
      · rw [if_neg hnil] at hwindow
        have hfirst : (p.entries[i]).firstFieldIndex = some base := congrArg Prod.fst hwindow
        have hcount : (p.entries[i]).fieldCount = tags.length := congrArg Prod.snd hwindow
        rw [hfirst, hcount, Nat.mod_eq_of_lt hfits]
        rfl
    · rw [List.length_append]
      exact Nat.le_trans h.base_le (Nat.le_add_right ..)
    · rw [List.drop_append_of_le_length h.base_le, List.map_append, h.tags_eq]
      rfl

theorem EntryTags.appendSlots : ∀ (slots : List ParsedFieldSlot)
    {p : ParsedMessageData} {tags : List Nat}, EntryTags p i base tags →
      tags.length + slots.length < 2 ^ 16 →
      EntryTags (appendSlots i slots p) i base (addTags tags (slots.map fun s => s.tag))
  | [], p, tags, h, _ => h
  | slot :: slots, p, tags, h, hfits => by
    rw [List.length_cons] at hfits
    refine EntryTags.appendSlots slots (h.append (by omega) slot) ?_
    dsimp only
    split
    · omega
    · rw [List.length_append, List.length_singleton]
      omega

theorem appendSlots_length {slots : List ParsedFieldSlot} (hi : i < p.entries.length)
    (hwindow : p.window i = (none, 0)) (hfits : slots.length < 2 ^ 16) :
    (appendSlots i slots p).fieldSlots.length =
      p.fieldSlots.length + (addTags [] (slots.map fun s => s.tag)).length := by
  have hstart : EntryTags p i p.fieldSlots.length [] := ⟨hi, hwindow, Nat.le_refl _, by simp⟩
  have htags := hstart.appendSlots slots (by simpa using hfits)
  have hlength := congrArg List.length htags.tags_eq
  have hle := htags.base_le
  rw [List.length_map, List.length_drop] at hlength
  omega

end ParsedMessageData

/-! ## The group parser reads the tree -/

section

variable {parsesDouble : Bytes → Bool} {d : Dictionary} {delim : Byte}

/-- The slot of a field of a group entry. -/
def entrySlot (d : Dictionary) (f : PlacedField) : ParsedFieldSlot :=
  .make f.tag f.value (resolveFieldType f.tag (d.findField f.tag)) f.remaining

theorem mem_nodesFields {f : PlacedField} : ∀ {nodes : List FieldNode},
    f ∈ nodesFields nodes ↔ f ∈ nodes.map FieldNode.field ∨ f ∈ nodes.flatMap FieldNode.nested
  | [] => by simp [nodesFields]
  | .plain g :: nodes => by
    simp [nodesFields, FieldNode.fields, FieldNode.field, FieldNode.nested,
      @mem_nodesFields f nodes, or_assoc]
  | .group g entries :: nodes => by
    simp only [nodesFields, FieldNode.fields, FieldNode.field, FieldNode.nested, List.cons_append,
      List.mem_cons, List.mem_append, List.map_cons, List.flatMap_cons,
      @mem_nodesFields f nodes]
    tauto

variable {nodes : List FieldNode}

theorem nodesFields_eq_nil : nodesFields nodes = [] ↔ nodes = [] := by
  cases nodes with
  | nil => simp [nodesFields]
  | cons n ns => cases n <;> simp [nodesFields, FieldNode.fields]

/-- The parser of the fields of one entry reads what `readFields` reads: it returns the slots of the
nodes, and has added slots for what is below them. -/
def ReadsEntry (d : Dictionary) (readFields : Bytes → Except Status (List FieldNode × Bytes))
    (parseFields : Nat → GroupCursor → Except Status (List ParsedFieldSlot × GroupCursor)) : Prop :=
  ∀ entry c slots c', entry < c.parsed.entries.length →
    parseFields entry c = .ok (slots, c') → ∃ nodes,
      readFields c.rest = .ok (nodes, c'.rest) ∧
      slots = nodes.map (fun n => entrySlot d n.field) ∧
      c.parsed.Grows c'.parsed (nodes.flatMap FieldNode.nested) ∧
      c'.parsed.fieldSlots.length = c.parsed.fieldSlots.length + nodesSlotsBelow nodes

theorem appendSlots_grows {p₀ p p' : ParsedMessageData} {entry : Nat}
    (hentry : p₀.entries.length ≤ entry) (hlt : entry < p.entries.length)
    (hwindow : p.window entry = (none, 0)) (h₀ : p₀.Grows p [])
    (h : p.Grows p' (nodes.flatMap FieldNode.nested)) :
    p₀.Grows (ParsedMessageData.appendSlots entry
      ((nodes.map fun n => entrySlot d n.field).take kMaxDeferredSlots) p')
      (nodesFields nodes) := by
  have hp' := h₀.trans h
  obtain ⟨extra, hextra, hmade, hnil⟩ := hp'.slots
  have hempty : p'.window entry = (none, 0) := (h.window_eq entry hlt).trans hwindow
  obtain ⟨hroot, hentries, hwindows, extra', hslots, hmem, hne⟩ :=
    ParsedMessageData.appendSlots_spec (i := entry) (Eq.refl p₀.fieldSlots.length)
      ((nodes.map fun n => entrySlot d n.field).take kMaxDeferredSlots)
      (Nat.lt_of_lt_of_le hlt h.entries_le)
      (by rw [hempty]; rintro _ ⟨⟩) hextra
  refine ⟨hroot.trans hp'.rootPart_eq, Nat.le_trans hp'.entries_le (Nat.le_of_eq hentries.symm),
    fun j hj => ?_, extra', hslots, fun s hs => ?_, ?_⟩
  · exact (hwindows j (by omega)).trans (hp'.window_eq j hj)
  · rcases hmem s hs with hs | hs
    · obtain ⟨f, hf, hs⟩ := hmade s hs
      exact ⟨f, mem_nodesFields.2 (.inr (by simpa using hf)), hs⟩
    · obtain ⟨n, hn, rfl⟩ := List.mem_map.1 (List.mem_of_mem_take hs)
      exact ⟨n.field, mem_nodesFields.2 (.inl (List.mem_map_of_mem hn)), rfl⟩
  · rw [nodesFields_eq_nil]
    constructor
    · intro hnone
      by_contra hnodes
      refine hne (.inr ⟨by rw [hempty], ?_⟩) hnone
      simpa [kMaxDeferredSlots] using hnodes
    · rintro rfl
      have : extra = [] := hnil.2 rfl
      subst this
      cases extra' with
      | nil => rfl
      | cons s _ =>
        rcases hmem s List.mem_cons_self with hs | hs <;> cases hs

theorem appendSlots_count {p p' : ParsedMessageData} {entry : Nat} (hlt : entry < p.entries.length)
    (hwindow : p.window entry = (none, 0)) (h : p.Grows p' (nodes.flatMap FieldNode.nested))
    (hcount : p'.fieldSlots.length = p.fieldSlots.length + nodesSlotsBelow nodes) :
    (ParsedMessageData.appendSlots entry
      ((nodes.map fun n => entrySlot d n.field).take kMaxDeferredSlots) p').fieldSlots.length =
        p.fieldSlots.length + (EntryNode.mk nodes).slots := by
  rw [ParsedMessageData.appendSlots_length (Nat.lt_of_lt_of_le hlt h.entries_le)
    ((h.window_eq entry hlt).trans hwindow)
    (Nat.lt_of_le_of_lt (List.length_take_le ..) (by decide)),
    hcount, EntryNode.slots, Nat.add_assoc, List.map_take, List.map_map]
  rfl

theorem parseEntries_reads {g : GroupDef} {frame : Nat}
    {readFields : Bytes → Except Status (List FieldNode × Bytes)}
    {parseFields : Nat → GroupCursor → Except Status (List ParsedFieldSlot × GroupCursor)}
    (hread : ReadsEntry d readFields parseFields) :
    ∀ {n number : Nat} {c c' : GroupCursor},
      parseEntries delim g frame parseFields n number c = .ok c' → ∃ entries,
        readEntries delim g readFields n c.rest = .ok (entries, c'.rest) ∧
        c.parsed.Grows c'.parsed (entriesFields entries) ∧
        c'.parsed.fieldSlots.length = c.parsed.fieldSlots.length + entriesSlots entries
  | 0, _, c, c', h => by
    cases h
    exact ⟨[], rfl, .refl _, rfl⟩
  | n + 1, number, c, c', h => by
    unfold parseEntries at h
    unfold readEntries
    by_cases hrest : c.rest = []
    · rw [if_pos hrest] at h ⊢
      cases h
      exact ⟨[], rfl, .refl _, rfl⟩
    · rw [if_neg hrest] at h ⊢
      obtain ⟨⟨peek, after⟩, hscan, hpeek⟩ := exceptBind_ok h
      dsimp only at hpeek
      by_cases htag : peek.tag ≠ g.delimiterTag
      · rw [if_pos htag] at hpeek
        refine ⟨[], ?_, ?_⟩
        · rw [hscan]
          simp only [bind, Except.bind, if_pos htag]
          split at hpeek <;> (cases hpeek; rfl)
        · split at hpeek <;> (cases hpeek; exact ⟨.refl _, rfl⟩)
      · rw [if_neg htag] at hpeek
        obtain ⟨hgrow, hindex, hlength, hwindow⟩ := c.parsed.appendEntry_grows frame
        cases hentry : c.parsed.appendEntry frame with
        | mk p entry =>
          rw [hentry] at hgrow hindex hlength hwindow hpeek
          dsimp only at hgrow hindex hlength hwindow hpeek
          obtain ⟨⟨slots, c₁⟩, hfields, hmore⟩ := exceptBind_ok hpeek
          obtain ⟨nodes, hnodes, rfl, hbelow, hcount⟩ :=
            hread entry _ slots c₁ (by dsimp only; omega) hfields
          obtain ⟨entries, hentries, hgrow', hcount'⟩ := parseEntries_reads hread hmore
          subst hindex
          refine ⟨.mk nodes :: entries, ?_, ?_, ?_⟩
          · rw [hscan]
            simp only [bind, Except.bind, if_neg htag]
            dsimp only at hnodes hentries
            rw [hnodes]
            dsimp only
            rw [hentries]
          · exact (appendSlots_grows (Nat.le_refl _) (by omega) hwindow hgrow hbelow).trans hgrow'
          · have hentrySlots := appendSlots_count (d := d) (by omega) hwindow hbelow hcount
            rw [hcount', entriesSlots, ← Nat.add_assoc]
            refine congrArg (· + entriesSlots entries) (hentrySlots.trans ?_)
            rw [hgrow.fieldSlots_eq]

theorem parseGroup_reads {g : GroupDef} {countValue : Bytes} {parent : ParsedContainer}
    {depth : Nat} {readFields : Bytes → Except Status (List FieldNode × Bytes)}
    {parseFields : Nat → GroupCursor → Except Status (List ParsedFieldSlot × GroupCursor)}
    (hread : ReadsEntry d readFields parseFields) {c c' : GroupCursor}
    (h : parseGroup delim countValue g parent depth parseFields c = .ok c') : ∃ entries,
      readGroup delim countValue g depth readFields c.rest = .ok (entries, c'.rest) ∧
      c.parsed.Grows c'.parsed (entriesFields entries) ∧
      c'.parsed.fieldSlots.length = c.parsed.fieldSlots.length + entriesSlots entries := by
  unfold parseGroup at h
  obtain ⟨count, hcount, hlimits⟩ := exceptBind_ok h
  unfold readGroup
  rw [hcount]
  simp only [bind, Except.bind]
  split at hlimits
  · cases hlimits
  · split at hlimits
    · cases hlimits
    · rename_i hmax hdepth
      rw [if_neg (by omega)]
      obtain ⟨entries, hentries, hgrow, hslots⟩ := parseEntries_reads hread hlimits
      have hensure := c.parsed.ensureGroup_grows parent g.countTag depth
      refine ⟨entries, hentries, hensure.trans hgrow, hslots.trans ?_⟩
      exact congrArg (fun slots => slots.length + entriesSlots entries) hensure.fieldSlots_eq

theorem parseEntryFields_reads : ∀ (fuel : Nat) (g : GroupDef) (depth : Nat) (seenAny : Bool)
    (state : ScopeValidation), ReadsEntry d (readEntryFields d delim fuel g depth seenAny)
      (parseEntryFields parsesDouble d delim fuel g depth seenAny state)
  | 0, g, depth, seenAny, state, entry, c, slots, c', hentry, h => by
    cases h
    exact ⟨[], rfl, rfl, .refl _, rfl⟩
  | fuel + 1, g, depth, seenAny, state, entry, c, slots, c', hentry, h => by
    unfold parseEntryFields at h
    unfold readEntryFields
    by_cases hrest : c.rest = []
    · rw [if_pos hrest] at h ⊢
      cases h
      exact ⟨[], rfl, rfl, .refl _, rfl⟩
    · rw [if_neg hrest] at h ⊢
      obtain ⟨⟨f, after⟩, hscan, hfield⟩ := exceptBind_ok h
      rw [hscan]
      simp only [bind, Except.bind]
      dsimp only at hfield
      by_cases hdelim : seenAny = true ∧ f.tag = g.delimiterTag
      · rw [if_pos hdelim] at hfield
        rw [if_pos (.inl hdelim)]
        cases hfield
        exact ⟨[], rfl, rfl, .refl _, rfl⟩
      · rw [if_neg hdelim] at hfield
        cases hrule : ruleIndex g.rules f.tag with
        | none =>
          rw [hrule] at hfield
          rw [if_pos (.inr rfl)]
          cases hfield
          exact ⟨[], rfl, rfl, .refl _, rfl⟩
        | some ri =>
          rw [hrule] at hfield
          rw [if_neg (by simpa using hdelim)]
          dsimp only at hfield
          cases hgroup : d.findGroup f.tag with
          | some nested =>
            rw [hgroup] at hfield
            obtain ⟨c₁, hparse, hmore⟩ := exceptBind_ok hfield
            obtain ⟨⟨slots', c₂⟩, hfields, heq⟩ := exceptBind_ok hmore
            cases heq
            obtain ⟨entries, hentries, hgrow, hslots⟩ :=
              parseGroup_reads (parseEntryFields_reads fuel nested (depth + 1) false {}) hparse
            obtain ⟨nodes, hnodes, rfl, hgrow', hslots'⟩ := parseEntryFields_reads fuel g depth true
              _ entry _ _ _ (Nat.lt_of_lt_of_le hentry hgrow.entries_le) hfields
            refine ⟨.group (placed f after) entries :: nodes, ?_, rfl, hgrow.trans hgrow', ?_⟩
            swap
            · rw [hslots', hslots, nodesSlotsBelow, FieldNode.slotsBelow, Nat.add_assoc]
            dsimp only at hentries ⊢
            rw [hentries]
            dsimp only
            rw [hnodes]
          | none =>
            rw [hgroup] at hfield
            obtain ⟨c₁, hparse, hmore⟩ := exceptBind_ok hfield
            cases hparse
            obtain ⟨⟨slots', c₂⟩, hfields, heq⟩ := exceptBind_ok hmore
            cases heq
            obtain ⟨nodes, hnodes, rfl, hgrow', hslots'⟩ := parseEntryFields_reads fuel g depth true
              _ entry _ _ _ (by exact hentry) hfields
            refine ⟨.plain (placed f after) :: nodes, ?_, rfl, hgrow', ?_⟩
            swap
            · rw [hslots', nodesSlotsBelow, FieldNode.slotsBelow, Nat.zero_add]
            dsimp only at hnodes ⊢
            rw [hnodes]

end

/-! ## The field loop -/

/-- What the loop does to the pool for the nodes of the root: nothing for a frame field, else a root
slot, and for a group the slots of its entries. -/
inductive Deposits : List FieldNode → ParsedMessageData → ParsedMessageData → Prop
  | done (p : ParsedMessageData) : Deposits [] p p
  | skip {f : PlacedField} {nodes : List FieldNode} {p p' : ParsedMessageData} :
      Tag.isFrameStructureTag f.tag → Deposits nodes p p' → Deposits (.plain f :: nodes) p p'
  | plain {f : PlacedField} {nodes : List FieldNode} {slot : ParsedFieldSlot} (msgType : Bytes)
      {p p' : ParsedMessageData} : ¬Tag.isFrameStructureTag f.tag → slot.MadeOf f →
      Deposits nodes ({ p with msgType }.appendFieldSlot .root slot).1 p' →
      Deposits (.plain f :: nodes) p p'
  | group {f : PlacedField} {entries : List EntryNode} {nodes : List FieldNode}
      {slot : ParsedFieldSlot} {p q p' : ParsedMessageData} : ¬Tag.isFrameStructureTag f.tag →
      slot.MadeOf f → (p.appendFieldSlot .root slot).1.Grows q (entriesFields entries) →
      q.fieldSlots.length =
        (p.appendFieldSlot .root slot).1.fieldSlots.length + entriesSlots entries →
      Deposits nodes q p' → Deposits (.group f entries :: nodes) p p'

section

variable {parsesDouble : Bytes → Bool} {d : Dictionary} {delim : Byte}

theorem make_madeOf (field : InlineField) (rest : Bytes) (type : FieldType) :
    (ParsedFieldSlot.make field.tag field.value type rest.length).MadeOf (placed field rest) := rfl

/-- A field of the root that is not the type of the message: a node, and what it puts into the
pool. -/
theorem decodeBodyField_deposits {field : InlineField} {rest after : Bytes} {st st' : GenericState}
    (hframe : ¬Tag.isFrameStructureTag field.tag)
    (h : decodeBodyField parsesDouble d delim field rest st = .ok (st', after)) :
    st'.messageDef = st.messageDef ∧ st'.header = st.header ∧
      match rootGroup d st.messageDef field.tag with
      | some g => ∃ entries, readGroup delim field.value g 1
            (readEntryFields d delim rest.length g 1 false) rest = .ok (entries, after) ∧
          ∀ nodes p', Deposits nodes st'.parsed p' →
            Deposits (.group (placed field rest) entries :: nodes) st.parsed p'
      | none => after = rest ∧ ∀ nodes p', Deposits nodes st'.parsed p' →
          Deposits (.plain (placed field rest) :: nodes) st.parsed p' := by
  unfold decodeBodyField at h
  dsimp only at h
  have hgroupDef : st.groupDef d field.tag = rootGroup d st.messageDef field.tag := rfl
  rw [hgroupDef] at h
  cases hgroup : rootGroup d st.messageDef field.tag with
  | some g =>
    rw [hgroup] at h
    obtain ⟨c, hparse, heq⟩ := exceptBind_ok h
    cases heq
    obtain ⟨entries, hentries, hgrow, hslots⟩ :=
      parseGroup_reads (parseEntryFields_reads rest.length g 1 false {}) hparse
    exact ⟨rfl, rfl, entries, hentries,
      fun nodes p' hnodes => .group hframe (make_madeOf ..) hgrow hslots hnodes⟩
  | none =>
    rw [hgroup] at h
    cases h
    exact ⟨rfl, rfl, rfl,
      fun nodes p' hnodes => .plain st.parsed.msgType hframe (make_madeOf ..) hnodes⟩

/-- The loop reads the tree of the root, puts it into the pool and takes the session header from
the fields of the root; `CheckSum` is read apart. -/
theorem decodeGenericLoop_deposits : ∀ {fuel : Nat} {bytes : Bytes} {st : GenericState}
    {e : GenericLoopEnd}, decodeGenericLoop parsesDouble d delim fuel bytes st = .ok e →
      ∃ nodes header, readRoot d delim fuel st.messageDef bytes = .ok (nodes, e.trailer) ∧
        Deposits nodes st.parsed e.state.parsed ∧
        readHeader (rootFields nodes) st.header = .ok header ∧
        { e.state.header with checksum := header.checksum } = header
  | 0, bytes, st, e, h => by
    cases h
    exact ⟨[], _, rfl, .done _, rfl, rfl⟩
  | fuel + 1, bytes, st, e, h => by
    unfold decodeGenericLoop at h
    unfold readRoot
    by_cases hbytes : bytes = []
    · rw [if_pos hbytes] at h ⊢
      cases h
      exact ⟨[], _, rfl, .done _, rfl, rfl⟩
    rw [if_neg hbytes] at h ⊢
    obtain ⟨⟨f, rest⟩, hscan, hfield⟩ := exceptBind_ok h
    rw [hscan]
    simp only [bind, Except.bind]
    dsimp only at hfield
    by_cases hsum : f.tag = Tag.checkSum
    · rw [if_pos hsum] at hfield
      rw [if_pos hsum]
      obtain ⟨checksum, -, heq⟩ := exceptBind_ok hfield
      cases heq
      exact ⟨[], _, rfl, .done _, rfl, rfl⟩
    rw [if_neg hsum] at hfield
    rw [if_neg hsum]
    obtain ⟨⟨st₁, rest₁⟩, hdecode, hloop⟩ := exceptBind_ok hfield
    obtain ⟨nodes, header, hnodes, hdeposits, hheader, hend⟩ := decodeGenericLoop_deposits hloop
    unfold decodeGenericField at hdecode
    by_cases hframe : Tag.isFrameStructureTag f.tag
    · -- a `BeginString` or `BodyLength` between the others is skipped
      rw [if_pos hframe] at hdecode
      cases hdecode
      have htype : ¬f.tag = Tag.msgType := by
        intro heq
        rw [heq] at hframe
        cases hframe
      simp only [mayOpenGroup, hframe, Bool.not_true, Bool.false_and, Bool.false_eq_true, if_false,
        messageDefAfter, if_neg htype]
      refine ⟨.plain (placed f rest) :: nodes, header, by rw [hnodes], .skip hframe hdeposits, ?_,
        hend⟩
      rw [rootFields_cons_of_frame (by exact hframe)]
      exact hheader
    rw [if_neg hframe] at hdecode
    by_cases htype : f.tag = Tag.msgType
    · rw [if_pos htype] at hdecode
      cases hdecode
      simp only [mayOpenGroup, htype, bne_self_eq_false, Bool.and_false, Bool.false_eq_true,
        if_false, messageDefAfter, if_true]
      refine ⟨.plain (placed f rest) :: nodes, header, ?_, .plain f.value hframe ?_ hdeposits, ?_,
        hend⟩
      · rw [show d.findMessage f.value = (st.readMsgType d f rest).messageDef from rfl]
        dsimp only at hnodes
        erw [hnodes]
      · unfold ParsedFieldSlot.MadeOf placed
        dsimp only
        rw [htype]
        rfl
      · rw [rootFields_cons (by exact hframe), readHeader, List.foldlM_cons,
          SessionHeaderView.peek, if_pos (by exact htype)]
        exact hheader
    · rw [if_neg htype] at hdecode
      obtain ⟨header₁, hextract, hbody⟩ := exceptBind_ok hdecode
      obtain ⟨hdef, hkept, hnode⟩ := decodeBodyField_deposits hframe hbody
      dsimp only at hdef hkept hnode
      have hread : ∀ n : FieldNode, n.field = placed f rest →
          readHeader (rootFields (n :: nodes)) st.header = .ok header := by
        intro n hn
        rw [rootFields_cons (by rw [hn]; exact hframe), readHeader, List.foldlM_cons,
          SessionHeaderView.peek, hn, if_neg (by exact htype)]
        rw [show st.header.extract (placed f rest).tag (placed f rest).value = .ok header₁ from
          hextract]
        rw [hkept] at hheader
        exact hheader
      have hmay : mayOpenGroup f.tag = true := by simp [mayOpenGroup, hframe, htype]
      rw [hdef] at hnodes
      rw [hmay, if_pos rfl, messageDefAfter, if_neg htype]
      cases hgroup : rootGroup d st.messageDef f.tag with
      | some g =>
        rw [hgroup] at hnode
        obtain ⟨entries, hentries, hput⟩ := hnode
        refine ⟨.group (placed f rest) entries :: nodes, header, ?_, hput _ _ hdeposits,
          hread _ rfl, hend⟩
        dsimp only
        rw [hentries]
        dsimp only
        rw [hnodes]
      | none =>
        rw [hgroup] at hnode
        obtain ⟨rfl, hput⟩ := hnode
        refine ⟨.plain (placed f rest₁) :: nodes, header, ?_, hput _ _ hdeposits, hread _ rfl, hend⟩
        dsimp only
        rw [hnodes]

end

end NimbleFix
