import NimbleFix.Proof.FrameCover

/-!
# Enumerating the root by index

`field_at` takes the slots of the pool from the first one on, as many as the root has fields. The
slots of the groups stand in the same pool, so this gives the fields of the root exactly if no group
with entries has a field of the root after it, no field of the root took the slot of another, and
neither the number of fields nor the length of a value is cut to 16 bits.
-/

namespace NimbleFix

/-! ## Keys of the root tables -/

/-- What the tables know of a tag: they keep 16 bits of the large ones. -/
def rootKey (tag : Nat) : Nat := if tag < 1024 then tag else 1024 + tag % 2 ^ 16

namespace ParsedMessageData

/-- The keys in the two tables. -/
def rootKeys (p : ParsedMessageData) : List Nat :=
  p.fieldHashTable.map Prod.fst ++ p.fieldHashOverflow.map fun e => 1024 + e.1

/-- How the window and the tables of the root fit together. The first slot of the pool is one of the
root. -/
structure RootWindow (p : ParsedMessageData) : Prop where
  table_lt : ∀ e ∈ p.fieldHashTable, e.1 < 1024
  nodup : p.rootKeys.Nodup
  count : p.root.fieldCount = p.rootKeys.length % 2 ^ 16
  first : p.root.firstFieldIndex = if p.rootKeys = [] then none else some 0
  slots_nil : p.rootKeys = [] → p.fieldSlots = []

theorem RootWindow.empty : RootWindow {} :=
  ⟨by simp, by simp [rootKeys], rfl, rfl, fun _ => rfl⟩

theorem isSome_lookup {l : List (Nat × Nat)} {k : Nat} :
    (l.lookup k).isSome ↔ k ∈ l.map Prod.fst := by
  induction l with
  | nil => simp
  | cons e l ih =>
    rw [List.lookup_cons, List.map_cons, List.mem_cons, ← ih]
    by_cases hk : k = e.1
    · simp [hk]
    · have hbeq : (k == e.1) = false := by simpa using hk
      simp [hbeq, hk]

variable {p : ParsedMessageData}

theorem RootWindow.isSome_rootIndex (h : p.RootWindow) (tag : Nat) :
    (p.rootIndex tag).isSome ↔ rootKey tag ∈ p.rootKeys := by
  unfold rootIndex rootKey rootKeys
  rw [List.mem_append]
  by_cases htag : tag < 1024
  · rw [if_pos htag, if_pos htag, isSome_lookup]
    constructor
    · exact .inl
    · rintro (hmem | hmem)
      · exact hmem
      · obtain ⟨e, -, he⟩ := List.mem_map.1 hmem
        omega
  · rw [if_neg htag, if_neg htag, isSome_lookup]
    constructor
    · intro hmem
      obtain ⟨e, he, hkey⟩ := List.mem_map.1 hmem
      exact .inr (List.mem_map.2 ⟨e, he, by rw [hkey]⟩)
    · rintro (hmem | hmem)
      · obtain ⟨e, he, hkey⟩ := List.mem_map.1 hmem
        have := h.table_lt e he
        omega
      · obtain ⟨e, he, hkey⟩ := List.mem_map.1 hmem
        exact List.mem_map.2 ⟨e, he, by omega⟩

theorem rootKeys_of_rootPart {p' : ParsedMessageData} (h : p'.rootPart = p.rootPart) :
    p'.rootKeys = p.rootKeys := by
  simp only [rootPart, Prod.mk.injEq] at h
  simp only [rootKeys, h.2.2.1, h.2.2.2]

theorem RootWindow.of_grows {p' : ParsedMessageData} {fs : List PlacedField} (h : p.RootWindow)
    (hne : p.rootKeys ≠ []) (hgrow : p.Grows p' fs) : p'.RootWindow := by
  have hkeys := rootKeys_of_rootPart hgrow.rootPart_eq
  have hpart := hgrow.rootPart_eq
  simp only [rootPart, Prod.mk.injEq] at hpart
  refine ⟨?_, ?_, ?_, ?_, ?_⟩
  · rw [hpart.2.2.1]
    exact h.table_lt
  · rw [hkeys]
    exact h.nodup
  · rw [hkeys, hpart.2.1.2]
    exact h.count
  · rw [hkeys, hpart.2.1.1]
    exact h.first
  · rw [hkeys]
    exact fun hnil => absurd hnil hne

/-- A slot whose key is in the tables takes the place of another. -/
theorem RootWindow.overwrite (h : p.RootWindow) {slot : ParsedFieldSlot}
    (hkey : rootKey slot.tag ∈ p.rootKeys) :
    (p.appendFieldSlot .root slot).1.RootWindow ∧
      (p.appendFieldSlot .root slot).1.rootKeys = p.rootKeys := by
  obtain ⟨i, hi⟩ := Option.isSome_iff_exists.1 ((h.isSome_rootIndex _).2 hkey)
  have happend : p.appendFieldSlot .root slot =
      ({ p with fieldSlots := p.fieldSlots.set i slot }, true) := by
    unfold appendFieldSlot findFieldIndex
    rw [hi]
  rw [happend]
  refine ⟨⟨h.table_lt, h.nodup, h.count, h.first, fun hnil => ?_⟩, rfl⟩
  have hempty : p.rootKeys = [] := hnil
  rw [hempty] at hkey
  cases hkey

@[simp] theorem insertIntoRootHashTable_fieldSlots (p : ParsedMessageData) (tag index : Nat) :
    (p.insertIntoRootHashTable tag index).fieldSlots = p.fieldSlots := by
  unfold insertIntoRootHashTable
  split <;> rfl

@[simp] theorem insertIntoRootHashTable_root (p : ParsedMessageData) (tag index : Nat) :
    (p.insertIntoRootHashTable tag index).root = p.root := by
  unfold insertIntoRootHashTable
  split <;> rfl

theorem insertIntoRootHashTable_rootKeys (p : ParsedMessageData) (tag index : Nat) :
    (p.insertIntoRootHashTable tag index).rootKeys.Perm (p.rootKeys ++ [rootKey tag]) := by
  unfold insertIntoRootHashTable rootKey
  split
  · simp only [rootKeys, List.map_append, List.map_cons, List.map_nil, List.append_assoc]
    exact List.Perm.append_left _ List.perm_append_comm
  · simp [rootKeys]

theorem insertIntoRootHashTable_table_lt (h : ∀ e ∈ p.fieldHashTable, e.1 < 1024)
    (tag index : Nat) :
    ∀ e ∈ (p.insertIntoRootHashTable tag index).fieldHashTable, e.1 < 1024 := by
  unfold insertIntoRootHashTable
  split
  · rename_i htag
    intro e he
    rcases List.mem_append.1 he with he | he
    · exact h e he
    · rw [List.mem_singleton.1 he]
      exact htag
  · exact h

theorem RootWindow.append (h : p.RootWindow) {slot : ParsedFieldSlot}
    (hkey : rootKey slot.tag ∉ p.rootKeys) :
    (p.appendFieldSlot .root slot).1.RootWindow ∧
      (p.appendFieldSlot .root slot).1.rootKeys.Perm (p.rootKeys ++ [rootKey slot.tag]) ∧
      (p.appendFieldSlot .root slot).1.fieldSlots = p.fieldSlots ++ [slot] := by
  have hnone : p.rootIndex slot.tag = none := by
    rw [← Option.not_isSome_iff_eq_none, h.isSome_rootIndex]
    exact hkey
  obtain ⟨q, happend, htable, hkeys, hslots, hcount, hfirst⟩ : ∃ q : ParsedMessageData,
      (p.appendFieldSlot .root slot).1 = q.insertIntoRootHashTable slot.tag p.fieldSlots.length ∧
      q.fieldHashTable = p.fieldHashTable ∧ q.rootKeys = p.rootKeys ∧
      q.fieldSlots = p.fieldSlots ++ [slot] ∧
      q.root.fieldCount = (p.root.fieldCount + 1) % 2 ^ 16 ∧
      q.root.firstFieldIndex =
        p.root.firstFieldIndex.orElse fun _ => some p.fieldSlots.length := by
    refine ⟨{ p with
      fieldSlots := p.fieldSlots ++ [slot]
      root := { p.root with
        firstFieldIndex := p.root.firstFieldIndex.orElse fun _ => some p.fieldSlots.length
        fieldCount := (p.root.fieldCount + 1) % 2 ^ 16 } }, ?_, rfl, rfl, rfl, rfl, rfl⟩
    unfold appendFieldSlot findFieldIndex
    rw [hnone]
    rfl
  rw [happend]
  have hperm := insertIntoRootHashTable_rootKeys q slot.tag p.fieldSlots.length
  rw [hkeys] at hperm
  have hne : (q.insertIntoRootHashTable slot.tag p.fieldSlots.length).rootKeys ≠ [] := by
    intro hnil
    rw [hnil] at hperm
    simpa using hperm.length_eq
  refine ⟨⟨?_, ?_, ?_, ?_, fun hnil => absurd hnil hne⟩, hperm, by simpa using hslots⟩
  · apply insertIntoRootHashTable_table_lt
    rw [htable]
    exact h.table_lt
  · rw [hperm.nodup_iff, List.nodup_append]
    refine ⟨h.nodup, by simp, ?_⟩
    rintro a ha b hb rfl
    exact hkey (List.mem_singleton.1 hb ▸ ha)
  · rw [hperm.length_eq, List.length_append, List.length_singleton, insertIntoRootHashTable_root,
      hcount, h.count]
    omega
  · rw [if_neg hne, insertIntoRootHashTable_root, hfirst, h.first]
    by_cases hnil : p.rootKeys = []
    · rw [if_pos hnil, h.slots_nil hnil]
      rfl
    · rw [if_neg hnil]
      rfl

/-- What an append to the root does to its tables, and what it reports. -/
theorem RootWindow.append_root (h : p.RootWindow) (slot : ParsedFieldSlot) :
    (p.appendFieldSlot .root slot).1.RootWindow ∧
      (∀ k, k ∈ (p.appendFieldSlot .root slot).1.rootKeys ↔
        k = rootKey slot.tag ∨ k ∈ p.rootKeys) ∧
      ((p.appendFieldSlot .root slot).2 = true ↔ rootKey slot.tag ∈ p.rootKeys) := by
  have hdup : (p.appendFieldSlot .root slot).2 = (p.rootIndex slot.tag).isSome := by
    unfold appendFieldSlot findFieldIndex
    cases p.rootIndex slot.tag <;> rfl
  rw [hdup, h.isSome_rootIndex]
  by_cases hkey : rootKey slot.tag ∈ p.rootKeys
  · obtain ⟨hwindow, hkeys⟩ := h.overwrite hkey
    refine ⟨hwindow, fun k => ?_, Iff.rfl⟩
    rw [hkeys]
    constructor
    · exact .inr
    · rintro (rfl | hk)
      · exact hkey
      · exact hk
  · obtain ⟨hwindow, hperm, -⟩ := h.append hkey
    refine ⟨hwindow, fun k => ?_, Iff.rfl⟩
    rw [hperm.mem_iff, List.mem_append, List.mem_singleton, or_comm]

theorem filterMap_getElem?_range {α : Type} (l : List α) (n : Nat) :
    (List.range n).filterMap (fun i => l[i]?) = l.take n := by
  induction n with
  | zero => rfl
  | succ n ih =>
    rw [List.range_succ, List.filterMap_append, ih, List.take_add_one]
    cases hn : l[n]? <;> simp [hn]

theorem RootWindow.enumerate_root (h : p.RootWindow) :
    p.enumerate p.root = p.fieldSlots.take p.root.fieldCount := by
  unfold enumerate
  by_cases hnil : p.rootKeys = []
  · have hcount : p.root.fieldCount = 0 := by rw [h.count, hnil]; rfl
    rw [hcount]
    rfl
  · have hfirst := h.first
    rw [if_neg hnil] at hfirst
    have hnth : ∀ i ∈ List.range p.root.fieldCount,
        p.nthField p.root i = p.fieldSlots[i]? := by
      intro i hi
      have hlt : ¬p.root.fieldCount ≤ i := by simpa using hi
      simp [nthField, hfirst, hlt]
    rw [List.filterMap_congr hnth, filterMap_getElem?_range]

end ParsedMessageData

/-! ## The slots of the root -/

/-- What a view shows of a slot. -/
def ParsedFieldSlot.placed (s : ParsedFieldSlot) : PlacedField := ⟨s.tag, s.value, s.remaining⟩

variable {s : ParsedFieldSlot} {f : PlacedField} {n : FieldNode} {nodes : List FieldNode}
  {p : ParsedMessageData}

theorem ParsedFieldSlot.MadeOf.tag_eq (h : s.MadeOf f) : s.tag = f.tag := by
  rw [h]
  rfl

theorem ParsedFieldSlot.MadeOf.remaining_eq (h : s.MadeOf f) : s.remaining = f.remaining := by
  rw [h]
  rfl

/-- A slot shows its field unless the length of the value does not fit into 16 bits. -/
theorem ParsedFieldSlot.MadeOf.placed_eq_iff (h : s.MadeOf f) :
    s.placed = f ↔ f.value.length < 2 ^ 16 := by
  have hplaced : s.placed = ⟨f.tag, f.value.take (f.value.length % 2 ^ 16), f.remaining⟩ := by
    rw [h]
    rfl
  rw [hplaced]
  constructor
  · intro heq
    have hvalue := congrArg (fun f => f.value.length) heq
    simp only [List.length_take] at hvalue
    omega
  · intro hlt
    rw [Nat.mod_eq_of_lt hlt, List.take_length]

/-- The keys of the root fields. -/
def rootFieldKeys (nodes : List FieldNode) : List Nat :=
  (rootFields nodes).map fun f => rootKey f.tag

/-- The slots stand in the pool node by node: that of the node, then those of its group. -/
inductive Laid : List FieldNode → List ParsedFieldSlot → Prop
  | nil : Laid [] []
  | skip {n : FieldNode} {nodes : List FieldNode} {slots : List ParsedFieldSlot} :
      Tag.isFrameStructureTag n.field.tag → Laid nodes slots → Laid (n :: nodes) slots
  | node {n : FieldNode} {nodes : List FieldNode} {slot : ParsedFieldSlot}
      {below slots : List ParsedFieldSlot} : ¬Tag.isFrameStructureTag n.field.tag →
      slot.MadeOf n.field → (∀ s ∈ below, ∃ f ∈ n.nested, s.MadeOf f) →
      (below = [] ↔ n.nested = []) → Laid nodes slots → Laid (n :: nodes) (slot :: (below ++ slots))

@[simp] theorem rootFieldKeys_nil : rootFieldKeys [] = [] := rfl

theorem rootFieldKeys_cons_of_frame (h : Tag.isFrameStructureTag n.field.tag) :
    rootFieldKeys (n :: nodes) = rootFieldKeys nodes := by
  simp [rootFieldKeys, rootFields, rootNodes_cons_of_frame h]

theorem rootFieldKeys_cons (h : ¬Tag.isFrameStructureTag n.field.tag) :
    rootFieldKeys (n :: nodes) = rootKey n.field.tag :: rootFieldKeys nodes := by
  simp [rootFieldKeys, rootFields, rootNodes_cons h]

namespace ParsedMessageData

/-- From `p` to `p'` fields with the keys were put into the root: the tables have at most one entry
more for each, and exactly one more if no key was met before. -/
structure Enters (keys : List Nat) (p p' : ParsedMessageData) : Prop where
  window : p'.RootWindow
  length_le : p'.rootKeys.length ≤ p.rootKeys.length + keys.length
  length_eq_iff : p'.rootKeys.length = p.rootKeys.length + keys.length ↔
    (p.rootKeys ++ keys).Nodup

theorem RootWindow.enters (h : p.RootWindow) : Enters [] p p :=
  ⟨h, Nat.le_refl _, by simpa using h.nodup⟩

theorem RootWindow.enters_cons {q p' : ParsedMessageData} {slot : ParsedFieldSlot}
    {fs : List PlacedField} {keys : List Nat} (h : p.RootWindow)
    (hgrow : (p.appendFieldSlot .root slot).1.Grows q fs)
    (hmore : q.RootWindow → Enters keys q p') :
    Enters (rootKey slot.tag :: keys) p p' := by
  have hq := rootKeys_of_rootPart hgrow.rootPart_eq
  by_cases hkey : rootKey slot.tag ∈ p.rootKeys
  · obtain ⟨hwindow, hkeys⟩ := h.overwrite hkey
    have henters := hmore (hwindow.of_grows (by rw [hkeys]; exact List.ne_nil_of_mem hkey) hgrow)
    have hle := henters.length_le
    rw [hq, hkeys] at hle
    refine ⟨henters.window, ?_, ?_⟩
    · rw [List.length_cons]
      omega
    · rw [List.length_cons]
      constructor
      · intro heq
        omega
      · intro hnodup
        rw [List.nodup_append] at hnodup
        exact absurd rfl (hnodup.2.2 _ hkey _ List.mem_cons_self)
  · obtain ⟨hwindow, hperm, -⟩ := h.append hkey
    have hlength := hperm.length_eq
    rw [List.length_append, List.length_singleton] at hlength
    have henters := hmore (hwindow.of_grows (fun hnil => by simp [hnil] at hlength) hgrow)
    have hle := henters.length_le
    have hiff := henters.length_eq_iff
    rw [hq, hlength] at hle hiff
    refine ⟨henters.window, ?_, ?_⟩
    · rw [List.length_cons]
      omega
    · rw [List.length_cons, Nat.add_comm keys.length 1, ← Nat.add_assoc, hiff,
        (hperm.append_right keys).nodup_iff, List.append_assoc]
      rfl

theorem RootWindow.append_grows {q : ParsedMessageData} {slot : ParsedFieldSlot}
    {fs : List PlacedField} {keys : List Nat} (h : p.RootWindow)
    (hgrow : (p.appendFieldSlot .root slot).1.Grows q fs)
    (hkeys : (p.rootKeys ++ rootKey slot.tag :: keys).Nodup) :
    q.RootWindow ∧ (q.rootKeys ++ keys).Nodup ∧ ∃ below,
      q.fieldSlots = p.fieldSlots ++ slot :: below ∧ (∀ s ∈ below, ∃ f ∈ fs, s.MadeOf f) ∧
      (below = [] ↔ fs = []) := by
  have hnew : rootKey slot.tag ∉ p.rootKeys := by
    intro hmem
    rw [List.nodup_append] at hkeys
    exact hkeys.2.2 _ hmem _ List.mem_cons_self rfl
  obtain ⟨hwindow, hperm, hslots⟩ := h.append hnew
  obtain ⟨below, hbelow, hmade, hnil⟩ := hgrow.slots
  refine ⟨hwindow.of_grows (fun hnone => ?_) hgrow, ?_, below, ?_, hmade, hnil⟩
  · have hlength := hperm.length_eq
    simp [hnone] at hlength
  · rw [rootKeys_of_rootPart hgrow.rootPart_eq, (hperm.append_right keys).nodup_iff,
      List.append_assoc]
    exact hkeys
  · rw [hbelow, hslots, List.append_assoc]
    rfl

end ParsedMessageData

theorem Deposits.enters {p' : ParsedMessageData} (h : Deposits nodes p p') (hp : p.RootWindow) :
    ParsedMessageData.Enters (rootFieldKeys nodes) p p' := by
  induction h with
  | done p => exact hp.enters
  | skip hframe _ ih =>
    rw [rootFieldKeys_cons_of_frame (by exact hframe)]
    exact ih hp
  | @plain f nodes slot msgType p p' hframe hslot _ ih =>
    rw [rootFieldKeys_cons (by exact hframe)]
    have hp' : ParsedMessageData.RootWindow { p with msgType } :=
      ⟨hp.table_lt, hp.nodup, hp.count, hp.first, hp.slots_nil⟩
    have henters := hp'.enters_cons (.refl _) ih
    rw [hslot.tag_eq] at henters
    exact ⟨henters.window, henters.length_le, henters.length_eq_iff⟩
  | group hframe hslot hgrow _ _ ih =>
    rw [rootFieldKeys_cons (by exact hframe)]
    have henters := hp.enters_cons hgrow ih
    rw [hslot.tag_eq] at henters
    exact henters

/-- With keys that were not met before, the pool only grows. -/
theorem Deposits.laid {p' : ParsedMessageData} (h : Deposits nodes p p') (hp : p.RootWindow)
    (hkeys : (p.rootKeys ++ rootFieldKeys nodes).Nodup) :
    ∃ slots, p'.fieldSlots = p.fieldSlots ++ slots ∧ Laid nodes slots := by
  induction h with
  | done p => exact ⟨[], by simp, .nil⟩
  | skip hframe _ ih =>
    rw [rootFieldKeys_cons_of_frame (by exact hframe)] at hkeys
    obtain ⟨slots, hslots, hlaid⟩ := ih hp hkeys
    exact ⟨slots, hslots, .skip hframe hlaid⟩
  | @plain f nodes slot msgType p p' hframe hslot _ ih =>
    rw [rootFieldKeys_cons (by exact hframe), FieldNode.field, ← hslot.tag_eq] at hkeys
    have hp' : ParsedMessageData.RootWindow { p with msgType } :=
      ⟨hp.table_lt, hp.nodup, hp.count, hp.first, hp.slots_nil⟩
    obtain ⟨hq, hkeys', below, hbelow, hmade, hnil⟩ := hp'.append_grows (.refl _) hkeys
    obtain ⟨slots, hslots, hlaid⟩ := ih hq hkeys'
    refine ⟨slot :: (below ++ slots), ?_, .node hframe hslot hmade hnil hlaid⟩
    rw [hslots, hbelow, List.append_assoc]
    rfl
  | @group f entries nodes slot p q p' hframe hslot hgrow _ _ ih =>
    rw [rootFieldKeys_cons (by exact hframe), FieldNode.field, ← hslot.tag_eq] at hkeys
    obtain ⟨hq, hkeys', below, hbelow, hmade, hnil⟩ := hp.append_grows hgrow hkeys
    obtain ⟨slots, hslots, hlaid⟩ := ih hq hkeys'
    refine ⟨slot :: (below ++ slots), ?_, .node hframe hslot hmade hnil hlaid⟩
    rw [hslots, hbelow, List.append_assoc]
    rfl

/-! ## Groups last -/

/-- Every field stands before those after it. -/
def Ordered (fs : List PlacedField) : Prop := fs.Pairwise fun f g => g.remaining < f.remaining

theorem ordered_place {delim : Byte} : ∀ (fs : List RawField) (after : Nat),
    Ordered (place delim fs after)
  | [], _ => List.Pairwise.nil
  | f :: fs, after => by
    refine List.Pairwise.cons ?_ (ordered_place fs after)
    intro g hg
    obtain ⟨before, g', behind, rfl, rfl⟩ := mem_place hg
    rw [rawText_append, List.length_append]
    simp only [rawText, List.flatMap_cons, List.length_append, RawField.text, List.length_cons]
    omega

/-- No field of the root follows a group with entries. -/
def GroupsLast (nodes : List FieldNode) : Prop :=
  (rootNodes nodes).Pairwise fun n _ => n.nested = []

theorem field_mem_nodesFields (h : n ∈ rootNodes nodes) : n.field ∈ nodesFields nodes :=
  mem_nodesFields.2 (.inl (List.mem_map_of_mem (List.mem_filter.1 h).1))

/-- The first slots are those of the root if no group comes before one. -/
theorem Laid.take_eq_iff {slots : List ParsedFieldSlot} (h : Laid nodes slots)
    (hordered : Ordered (nodesFields nodes)) :
    (slots.take (rootFields nodes).length).map ParsedFieldSlot.placed = rootFields nodes ↔
      (∀ f ∈ rootFields nodes, f.value.length < 2 ^ 16) ∧ GroupsLast nodes := by
  induction h with
  | nil => simp [rootFields, rootNodes, GroupsLast]
  | @skip n nodes slots hframe _ ih =>
    have htail : Ordered (nodesFields nodes) := (List.pairwise_append.1 hordered).2.1
    simpa only [rootFields, GroupsLast, rootNodes_cons_of_frame hframe] using ih htail
  | @node n nodes slot below slots hframe hslot hmade hnil _ ih =>
    obtain ⟨-, htail, hbefore⟩ := List.pairwise_append.1 hordered
    have ih := ih htail
    simp only [rootFields, GroupsLast, rootNodes_cons hframe] at ih ⊢
    simp only [List.map_cons, List.length_cons, List.take_succ_cons, List.cons.injEq,
      List.forall_mem_cons, List.pairwise_cons, hslot.placed_eq_iff]
    cases hnodes : rootNodes nodes with
    | nil => simp
    | cons m ms =>
      rw [hnodes] at ih
      cases hbelow : below with
      | nil =>
        have hnested : n.nested = [] := hnil.1 hbelow
        rw [List.nil_append, ih]
        simp [hnested, and_assoc]
      | cons s below' =>
        have hnested : n.nested ≠ [] := fun he => by simp [hnil.2 he] at hbelow
        simp only [List.map_cons, List.length_cons, List.cons_append, List.take_succ_cons,
          List.cons.injEq]
        constructor
        · -- the slot of a field in the group stands where that of `m` should
          rintro ⟨-, hs, -⟩
          obtain ⟨f, hf, hsf⟩ := hmade s (by rw [hbelow]; exact List.mem_cons_self ..)
          have hremaining : f.remaining = m.field.remaining := by
            rw [← hs, ← hsf.remaining_eq]
            rfl
          have hlt := hbefore f ?_ m.field
            (field_mem_nodesFields (by rw [hnodes]; exact List.mem_cons_self ..))
          · omega
          · cases n with
            | plain g => cases hf
            | group g entries => exact List.mem_cons_of_mem _ hf
        · rintro ⟨-, hlast, -⟩
          exact absurd (hlast m List.mem_cons_self) hnested

/-! ## The root of a decoded view -/

/-- When the slots of a view, enumerated by index, are the fields of the root: their keys in the
tables differ, there are fewer than 65536 of them, none has a longer value than 65535 bytes, and no
group with entries comes before one. -/
structure RootsFirst (nodes : List FieldNode) : Prop where
  distinct : (rootFieldKeys nodes).Nodup
  count_lt : (rootFields nodes).length < 2 ^ 16
  value_lt : ∀ f ∈ rootFields nodes, f.value.length < 2 ^ 16
  groupsLast : GroupsLast nodes

theorem Deposits.enumerate_eq_iff (h : Deposits nodes {} p)
    (hordered : Ordered (nodesFields nodes)) :
    (p.enumerate p.root).map ParsedFieldSlot.placed = rootFields nodes ↔ RootsFirst nodes := by
  have henters := h.enters .empty
  have hcount := henters.window.count
  have hle := henters.length_le
  have hiff := henters.length_eq_iff
  have hlength : (rootFieldKeys nodes).length = (rootFields nodes).length := List.length_map ..
  simp only [show ({} : ParsedMessageData).rootKeys = [] from rfl, List.length_nil, Nat.zero_add,
    List.nil_append, hlength] at hle hiff
  rw [henters.window.enumerate_root]
  -- with keys that differ and fit, the count is the number of the root fields
  have hroots : (rootFieldKeys nodes).Nodup → (rootFields nodes).length < 2 ^ 16 →
      ((p.fieldSlots.take p.root.fieldCount).map ParsedFieldSlot.placed = rootFields nodes ↔
        (∀ f ∈ rootFields nodes, f.value.length < 2 ^ 16) ∧ GroupsLast nodes) := by
    intro hdistinct hlt
    obtain ⟨slots, hslots, hlaid⟩ := h.laid .empty hdistinct
    have hfields : p.fieldSlots = slots := hslots
    rw [hcount, hiff.2 hdistinct, Nat.mod_eq_of_lt hlt, hfields]
    exact hlaid.take_eq_iff hordered
  constructor
  · intro heq
    have hlen := congrArg List.length heq
    rw [List.length_map, List.length_take] at hlen
    have hmod := Nat.mod_le p.rootKeys.length (2 ^ 16)
    have hdistinct : (rootFieldKeys nodes).Nodup := hiff.1 (by omega)
    have hlt : (rootFields nodes).length < 2 ^ 16 := by omega
    obtain ⟨hvalues, hlast⟩ := (hroots hdistinct hlt).1 heq
    exact ⟨hdistinct, hlt, hvalues, hlast⟩
  · intro hfirst
    exact (hroots hfirst.distinct hfirst.count_lt).2 ⟨hfirst.value_lt, hfirst.groupsLast⟩

open Sample

end NimbleFix
