import Mathlib.Data.List.Find
import Mathlib.Data.List.Perm.Subperm
import NimbleFix.Proof.RootEnumeration

/-!
# Looking a field of the root up by its tag

The root tables give a tag the slot of its first field, kept in 16 bits, and a later field with the
tag takes over that slot. So a lookup finds the last field with the tag, unless the tables confuse
the tag with another, the slot does not fit into 16 bits, or the value is cut.
-/

namespace NimbleFix

open ParsedMessageData

/-! ## What a lookup should find -/

/-- The last of the fields with the key. -/
def lastWithKey (fields : List PlacedField) (key : Nat) : Option PlacedField :=
  fields.reverse.find? fun f => rootKey f.tag == key

/-- The last field of the root with the tag. -/
def lastOccurrence (nodes : List FieldNode) (tag : Nat) : Option PlacedField :=
  (rootFields nodes).reverse.find? fun f => f.tag == tag

/-- A lookup finds the last field with the tag, with its whole value, and nothing if there is
none. -/
def LookupsRight (nodes : List FieldNode) (p : ParsedMessageData) : Prop :=
  ∀ tag < 2 ^ 32, (p.findField tag).map ParsedFieldSlot.placed = lastOccurrence nodes tag

/-! ## Where the slots of the root are -/

/-- How many slots there are, and at which the first field with a key is. -/
structure RootPlaces where
  size : Nat := 0
  position : Nat → Option Nat := fun _ => none

/-- The slots of a node of the root, and those below it. -/
def RootPlaces.enter (s : RootPlaces) (n : FieldNode) : RootPlaces :=
  match s.position (rootKey n.field.tag) with
  | some _ => { s with size := s.size + n.slotsBelow }
  | none =>
    { size := s.size + 1 + n.slotsBelow
      position := fun key => if key = rootKey n.field.tag then some s.size else s.position key }

def rootPlaces (nodes : List FieldNode) : RootPlaces := (rootNodes nodes).foldl RootPlaces.enter {}

/-- When every lookup finds what it should: the tags are small enough for the direct table, the last
value of each tag fits into the length word, different tags have different slots in 16 bits, a tag
whose first slot is beyond them comes again, and no cached tag has the slot that stands for none. -/
structure LookupSafe (nodes : List FieldNode) : Prop where
  small : ∀ f ∈ rootFields nodes, f.tag < 1024
  whole : ∀ f ∈ rootFields nodes, lastOccurrence nodes f.tag = some f → f.value.length < 2 ^ 16
  apart : ∀ f ∈ rootFields nodes, ∀ g ∈ rootFields nodes,
    ((rootPlaces nodes).position (rootKey f.tag)).map (· % 2 ^ 16) =
      ((rootPlaces nodes).position (rootKey g.tag)).map (· % 2 ^ 16) → f.tag = g.tag
  again : ∀ f ∈ rootFields nodes, ∀ i ∈ (rootPlaces nodes).position (rootKey f.tag), 2 ^ 16 ≤ i →
    2 ≤ (rootFields nodes).countP fun g => g.tag == f.tag
  cached : ∀ f ∈ rootFields nodes, isQuickCacheTag f.tag →
    ((rootPlaces nodes).position (rootKey f.tag)).map (· % 2 ^ 16) ≠ some (2 ^ 16 - 1)

/-! ## The tables of the root -/

namespace ParsedMessageData

theorem rootIndex_of_rootPart {p p' : ParsedMessageData} (h : p'.rootPart = p.rootPart) (tag : Nat) :
    p'.rootIndex tag = p.rootIndex tag := by
  simp only [rootPart, Prod.mk.injEq] at h
  unfold rootIndex
  rw [h.2.2.1, h.2.2.2]

variable {tag : Nat}

theorem rootKey_eq_of_lt {tag' : Nat} (h : tag < 1024) : rootKey tag' = tag ↔ tag' = tag := by
  unfold rootKey
  split <;> omega

theorem rootKey_eq_of_ge {tag' : Nat} (h : ¬tag < 1024) :
    rootKey tag' = rootKey tag ↔ ¬tag' < 1024 ∧ tag' % 2 ^ 16 = tag % 2 ^ 16 := by
  unfold rootKey
  rw [if_neg h]
  split <;> omega

theorem rootKey_eq_self (h : tag < 1024) : rootKey tag = tag := if_pos h

theorem rootIndex_insert {p : ParsedMessageData} (h : p.rootIndex tag = none) (index tag' : Nat) :
    (p.insertIntoRootHashTable tag index).rootIndex tag' =
      if rootKey tag' = rootKey tag then some (index % 2 ^ 16) else p.rootIndex tag' := by
  unfold insertIntoRootHashTable
  by_cases htag : tag < 1024
  · rw [if_pos htag, rootKey_eq_self htag]
    simp only [rootKey_eq_of_lt htag]
    by_cases htag' : tag' = tag
    · rw [if_pos htag']
      unfold rootIndex at h ⊢
      rw [if_pos htag] at h
      rw [htag', if_pos htag]
      simp [List.lookup_append, h]
    · rw [if_neg htag']
      unfold rootIndex
      split
      · rw [lookup_append_singleton, if_neg (fun heq => htag' heq.symm), Option.or_none]
      · rfl
  · rw [if_neg htag]
    simp only [rootKey_eq_of_ge htag]
    unfold rootIndex at h ⊢
    rw [if_neg htag] at h
    by_cases htag' : tag' < 1024
    · simp [htag']
    · by_cases hmod : tag' % 2 ^ 16 = tag % 2 ^ 16
      · rw [if_neg htag', if_pos ⟨htag', hmod⟩, hmod]
        rw [lookup_append_singleton, h, if_pos rfl, Option.none_or]
      · rw [if_neg htag', if_neg (fun hboth => hmod hboth.2), if_neg htag']
        rw [lookup_append_singleton, if_neg (fun heq => hmod heq.symm), Option.or_none]

end ParsedMessageData

/-! ## The tables follow the places -/

/-- The pool has the slots, and its tables the places, of the fields put into the root. -/
structure Places (p : ParsedMessageData) (s : RootPlaces) (fields : List PlacedField) : Prop where
  size : p.fieldSlots.length = s.size
  index : ∀ tag, p.rootIndex tag = (s.position (rootKey tag)).map (· % 2 ^ 16)
  lt : ∀ key i, s.position key = some i → i < s.size
  keys : ∀ key, (s.position key).isSome ↔ ∃ f ∈ fields, rootKey f.tag = key

theorem Places.empty : Places {} {} [] :=
  ⟨rfl, fun tag => by unfold ParsedMessageData.rootIndex; split <;> rfl, by simp, by simp⟩

variable {s : RootPlaces} {n : FieldNode} {i key : Nat} {nodes : List FieldNode}
  {p p' : ParsedMessageData} {fields : List PlacedField} {f : PlacedField}

theorem RootPlaces.enter_known (h : s.position (rootKey n.field.tag) = some i) :
    s.enter n = { s with size := s.size + n.slotsBelow } := by
  unfold enter
  rw [h]

theorem RootPlaces.enter_new (h : s.position (rootKey n.field.tag) = none) :
    s.enter n = { size := s.size + 1 + n.slotsBelow
                  position := fun key =>
                    if key = rootKey n.field.tag then some s.size else s.position key } := by
  unfold enter
  rw [h]

theorem RootPlaces.position_enter (h : s.position key = some i) :
    (s.enter n).position key = some i := by
  cases hkey : s.position (rootKey n.field.tag) with
  | some j =>
    rw [enter_known hkey]
    exact h
  | none =>
    rw [enter_new hkey]
    dsimp only
    rw [if_neg, h]
    rintro rfl
    rw [hkey] at h
    cases h

theorem RootPlaces.position_foldl : ∀ (nodes : List FieldNode) {s : RootPlaces},
    s.position key = some i → (nodes.foldl RootPlaces.enter s).position key = some i
  | [], _, h => h
  | _ :: nodes, _, h => position_foldl nodes (position_enter h)

section

variable {p q : ParsedMessageData} {slot : ParsedFieldSlot} {fs : List PlacedField}

theorem appendFieldSlot_known (hi : p.rootIndex slot.tag = some i) :
    (p.appendFieldSlot .root slot).1 = { p with fieldSlots := p.fieldSlots.set i slot } := by
  unfold appendFieldSlot findFieldIndex
  rw [hi]

theorem appendFieldSlot_new (h : p.rootIndex slot.tag = none) :
    (p.appendFieldSlot .root slot).1.fieldSlots = p.fieldSlots ++ [slot] ∧
      ∀ tag, (p.appendFieldSlot .root slot).1.rootIndex tag =
        if rootKey tag = rootKey slot.tag then some (p.fieldSlots.length % 2 ^ 16)
        else p.rootIndex tag := by
  unfold appendFieldSlot findFieldIndex
  rw [h]
  refine ⟨insertIntoRootHashTable_fieldSlots .., fun tag => ?_⟩
  exact ParsedMessageData.rootIndex_insert (by exact h) ..

theorem Places.enter (h : Places p s fields) (hslot : slot.MadeOf n.field)
    (hgrow : (p.appendFieldSlot .root slot).1.Grows q fs)
    (hcount : q.fieldSlots.length =
      (p.appendFieldSlot .root slot).1.fieldSlots.length + n.slotsBelow) :
    Places q (s.enter n) (fields ++ [n.field]) := by
  have hindex : ∀ tag, q.rootIndex tag = (p.appendFieldSlot .root slot).1.rootIndex tag :=
    ParsedMessageData.rootIndex_of_rootPart hgrow.rootPart_eq
  have htag := hslot.tag_eq
  have hkeys : ∀ key, (∃ f ∈ fields ++ [n.field], rootKey f.tag = key) ↔
      (∃ f ∈ fields, rootKey f.tag = key) ∨ rootKey n.field.tag = key := by
    intro key
    simp only [List.mem_append, List.mem_singleton]
    constructor
    · rintro ⟨f, hf | rfl, hkey⟩
      · exact .inl ⟨f, hf, hkey⟩
      · exact .inr hkey
    · rintro (⟨f, hf, hkey⟩ | hkey)
      · exact ⟨f, .inl hf, hkey⟩
      · exact ⟨n.field, .inr rfl, hkey⟩
  cases hposition : s.position (rootKey n.field.tag) with
  | some i =>
    have hknown : p.rootIndex slot.tag = some (i % 2 ^ 16) := by
      rw [h.index, htag, hposition]
      rfl
    rw [appendFieldSlot_known hknown] at hindex hcount
    rw [RootPlaces.enter_known hposition]
    refine ⟨?_, fun tag => (hindex tag).trans (h.index tag), fun key j hj => ?_, fun key => ?_⟩
    · rw [hcount, List.length_set, h.size]
    · exact Nat.lt_of_lt_of_le (h.lt key j hj) (Nat.le_add_right ..)
    · rw [hkeys, ← h.keys]
      constructor
      · exact .inl
      · rintro (hsome | rfl)
        · exact hsome
        · rw [hposition]
          rfl
  | none =>
    have hnew : p.rootIndex slot.tag = none := by
      rw [h.index, htag, hposition]
      rfl
    obtain ⟨hslots, hinsert⟩ := appendFieldSlot_new hnew
    rw [hslots] at hcount
    rw [RootPlaces.enter_new hposition]
    refine ⟨?_, fun tag => ?_, fun key j hj => ?_, fun key => ?_⟩
    · rw [hcount, List.length_append, List.length_singleton, h.size]
    · rw [hindex, hinsert, htag, h.size, h.index]
      dsimp only
      split <;> rfl
    · dsimp only at hj ⊢
      split at hj
      · cases hj
        omega
      · have := h.lt key j hj
        omega
    · rw [hkeys, ← h.keys]
      dsimp only
      split
      · rename_i hkey
        simp [hkey]
      · rename_i hkey
        constructor
        · exact .inl
        · rintro (hsome | rfl)
          · exact hsome
          · exact absurd rfl hkey

end

theorem Deposits.places (h : Deposits nodes p p') : ∀ {s : RootPlaces} {fields : List PlacedField},
      Places p s fields →
        Places p' ((rootNodes nodes).foldl RootPlaces.enter s) (fields ++ rootFields nodes) := by
  induction h with
  | done p =>
    intro s fields hs
    rw [show rootFields [] = [] from rfl, List.append_nil]
    exact hs
  | skip hframe _ ih =>
    intro s fields hs
    rw [rootNodes_cons_of_frame (by exact hframe), rootFields_cons_of_frame (by exact hframe)]
    exact ih hs
  | @plain f nodes slot msgType p p' hframe hslot _ ih =>
    intro s fields hs
    rw [rootNodes_cons (by exact hframe), rootFields_cons (by exact hframe), List.append_cons]
    have hp : Places { p with msgType } s fields := ⟨hs.size, hs.index, hs.lt, hs.keys⟩
    exact ih (hp.enter (n := .plain f) hslot (.refl _) rfl)
  | @group f entries nodes slot p q p' hframe hslot hgrow hcount _ ih =>
    intro s fields hs
    rw [rootNodes_cons (by exact hframe), rootFields_cons (by exact hframe), List.append_cons]
    exact ih (hs.enter (n := .group f entries) hslot hgrow hcount)

theorem Deposits.placed (h : Deposits nodes {} p) :
    Places p (rootPlaces nodes) (rootFields nodes) := h.places .empty

/-! ## What the slots of the root hold -/

/-- No two keys have the same slot in 16 bits. -/
def RootPlaces.Apart (s : RootPlaces) : Prop :=
  ∀ key key' i i', s.position key = some i → s.position key' = some i' →
    i % 2 ^ 16 = i' % 2 ^ 16 → key = key'

theorem RootPlaces.Apart.of_foldl (h : (nodes.foldl RootPlaces.enter s).Apart) :
    s.Apart := fun key key' i i' hi hi' =>
  h key key' i i' (position_foldl nodes hi) (position_foldl nodes hi')

/-- The slot of a key holds the last field with the key, unless the first one is beyond 16 bits and
is the only one. -/
def Shows (p : ParsedMessageData) (s : RootPlaces) (fields : List PlacedField) : Prop :=
  ∀ key i f, s.position key = some i → lastWithKey fields key = some f →
    ((∃ slot, p.fieldSlots[i % 2 ^ 16]? = some slot ∧ slot.MadeOf f) ↔
      i < 2 ^ 16 ∨ 2 ≤ fields.countP fun g => rootKey g.tag == key)

theorem lastWithKey_append_self (fields : List PlacedField) (f : PlacedField) :
    lastWithKey (fields ++ [f]) (rootKey f.tag) = some f := by
  simp [lastWithKey]

theorem lastWithKey_append_other (h : rootKey f.tag ≠ key) :
    lastWithKey (fields ++ [f]) key = lastWithKey fields key := by
  simp [lastWithKey, h]

theorem countP_append_self (fields : List PlacedField) (f : PlacedField) :
    ((fields ++ [f]).countP fun g => rootKey g.tag == rootKey f.tag) =
      (fields.countP fun g => rootKey g.tag == rootKey f.tag) + 1 := by
  simp [List.countP_append]

theorem countP_append_other (h : rootKey f.tag ≠ key) :
    ((fields ++ [f]).countP fun g => rootKey g.tag == key) =
      fields.countP fun g => rootKey g.tag == key := by
  simp [List.countP_append, h]

section

variable {p q : ParsedMessageData} {slot : ParsedFieldSlot} {fs : List PlacedField}

/-- The slots below the node do not touch those of the root. -/
theorem getElem?_of_grows (hgrow : p.Grows q fs) (hi : i < p.fieldSlots.length) :
    q.fieldSlots[i]? = p.fieldSlots[i]? := by
  obtain ⟨extra, hextra, -⟩ := hgrow.slots
  rw [hextra, List.getElem?_append_left hi]

/-- A node of the root and its group, after which come only slots of later fields. -/
theorem Shows.enter (h : Shows p s fields) (hp : Places p s fields)
    (hslot : slot.MadeOf n.field) (hgrow : (p.appendFieldSlot .root slot).1.Grows q fs)
    (hapart : (s.enter n).Apart)
    (hlater : ∀ slot' ∈ p.fieldSlots, n.field.remaining < slot'.remaining) :
    Shows q (s.enter n) (fields ++ [n.field]) := by
  have htag := hslot.tag_eq
  intro key i f hi hlast
  cases hposition : s.position (rootKey n.field.tag) with
  | some j =>
    have hknown : p.rootIndex slot.tag = some (j % 2 ^ 16) := by
      rw [hp.index, htag, hposition]
      rfl
    have hsize : ∀ k i, s.position k = some i → i % 2 ^ 16 < p.fieldSlots.length := by
      intro k i hk
      rw [hp.size]
      exact Nat.lt_of_le_of_lt (Nat.mod_le ..) (hp.lt k i hk)
    have hold : ∀ k i, s.position k = some i →
        q.fieldSlots[i % 2 ^ 16]? = (p.fieldSlots.set (j % 2 ^ 16) slot)[i % 2 ^ 16]? := by
      intro k i hk
      rw [getElem?_of_grows hgrow, appendFieldSlot_known hknown]
      rw [appendFieldSlot_known hknown, List.length_set]
      exact hsize k i hk
    have hi' : s.position key = some i := by
      rw [RootPlaces.enter_known hposition] at hi
      exact hi
    by_cases hkey : rootKey n.field.tag = key
    · -- the field takes over the slot of its key
      subst hkey
      rw [hposition] at hi'
      cases hi'
      rw [lastWithKey_append_self] at hlast
      cases hlast
      have htwice : 2 ≤ (fields ++ [n.field]).countP
          fun g => rootKey g.tag == rootKey n.field.tag := by
        rw [countP_append_self]
        obtain ⟨g, hg, hgkey⟩ := (hp.keys _).1 (by rw [hposition]; rfl)
        have hpos : 0 < fields.countP fun g => rootKey g.tag == rootKey n.field.tag :=
          List.countP_pos_iff.2 ⟨g, hg, by simpa using hgkey⟩
        omega
      refine iff_of_true ⟨slot, ?_, hslot⟩ (.inr htwice)
      rw [hold _ i hposition, List.getElem?_set_self (hsize _ i hposition)]
    · rw [lastWithKey_append_other hkey] at hlast
      rw [countP_append_other hkey, ← h key i f hi' hlast, hold key i hi', List.getElem?_set_ne]
      intro heq
      exact hkey (hapart _ _ j i (RootPlaces.position_enter hposition) hi heq)
  | none =>
    have hnew : p.rootIndex slot.tag = none := by
      rw [hp.index, htag, hposition]
      rfl
    obtain ⟨hslots, -⟩ := appendFieldSlot_new hnew
    rw [RootPlaces.enter_new hposition] at hi
    dsimp only at hi
    by_cases hkey : rootKey n.field.tag = key
    · -- the first field with its key goes to the end of the pool
      subst hkey
      rw [if_pos rfl] at hi
      cases hi
      rw [lastWithKey_append_self] at hlast
      cases hlast
      have honce : ¬2 ≤ (fields ++ [n.field]).countP
          fun g => rootKey g.tag == rootKey n.field.tag := by
        rw [countP_append_self]
        have : (fields.countP fun g => rootKey g.tag == rootKey n.field.tag) = 0 := by
          rw [List.countP_eq_zero]
          intro g hg hgkey
          have := (hp.keys (rootKey n.field.tag)).2 ⟨g, hg, by simpa using hgkey⟩
          rw [hposition] at this
          cases this
        omega
      have hmod : s.size % 2 ^ 16 < (p.appendFieldSlot .root slot).1.fieldSlots.length := by
        rw [hslots, List.length_append, List.length_singleton, hp.size]
        have := Nat.mod_le s.size (2 ^ 16)
        omega
      rw [getElem?_of_grows hgrow hmod, hslots]
      constructor
      · rintro ⟨slot', hslot', hmade⟩
        refine .inl ?_
        by_contra hge
        have hlt : s.size % 2 ^ 16 < p.fieldSlots.length := by
          rw [hp.size]
          have := Nat.mod_lt s.size (show 0 < 2 ^ 16 by decide)
          omega
        rw [List.getElem?_append_left hlt] at hslot'
        have := hlater slot' (List.mem_of_getElem? hslot')
        rw [hmade.remaining_eq] at this
        exact Nat.lt_irrefl _ this
      · rintro (hlt | htwice)
        · refine ⟨slot, ?_, hslot⟩
          rw [Nat.mod_eq_of_lt hlt, ← hp.size]
          simp
        · exact absurd htwice honce
    · have hkey' : ¬key = rootKey n.field.tag := fun heq => hkey heq.symm
      rw [if_neg hkey'] at hi
      rw [lastWithKey_append_other hkey] at hlast
      have hlt : i % 2 ^ 16 < p.fieldSlots.length := by
        rw [hp.size]
        exact Nat.lt_of_le_of_lt (Nat.mod_le ..) (hp.lt key i hi)
      have hlt' : i % 2 ^ 16 < (p.appendFieldSlot .root slot).1.fieldSlots.length := by
        rw [hslots, List.length_append]
        omega
      rw [countP_append_other hkey, ← h key i f hi hlast, getElem?_of_grows hgrow hlt', hslots,
        List.getElem?_append_left hlt]

end

/-- What is after a field in frame order is later than its slots. -/
theorem later_of_append {slot : ParsedFieldSlot} {g : PlacedField} (hslot : slot.MadeOf f)
    (hp : ∀ s ∈ p.fieldSlots, g.remaining < s.remaining) (hfg : g.remaining < f.remaining) :
    ∀ s ∈ (p.appendFieldSlot .root slot).1.fieldSlots, g.remaining < s.remaining := by
  intro s hs
  rcases mem_appendFieldSlot_root hs with hs | rfl
  · exact hp s hs
  · rw [hslot.remaining_eq]
    exact hfg

theorem Deposits.shows (h : Deposits nodes p p') : ∀ {s : RootPlaces} {fields : List PlacedField},
      Places p s fields → Shows p s fields → Ordered (nodesFields nodes) →
      (∀ slot ∈ p.fieldSlots, ∀ f ∈ nodesFields nodes, f.remaining < slot.remaining) →
      ((rootNodes nodes).foldl RootPlaces.enter s).Apart →
        Shows p' ((rootNodes nodes).foldl RootPlaces.enter s) (fields ++ rootFields nodes) := by
  induction h with
  | done p =>
    intro s fields _ hs _ _ _
    rw [show rootFields [] = [] from rfl, List.append_nil]
    exact hs
  | skip hframe _ ih =>
    intro s fields hp hs hordered hlater hapart
    rw [rootNodes_cons_of_frame (by exact hframe)] at hapart ⊢
    rw [rootFields_cons_of_frame (by exact hframe)]
    exact ih hp hs (List.pairwise_append.1 hordered).2.1
      (fun slot hslot f hf => hlater slot hslot f (List.mem_append_right _ hf)) hapart
  | @plain f nodes slot msgType p p' hframe hslot _ ih =>
    intro s fields hp hs hordered hlater hapart
    rw [rootNodes_cons (by exact hframe)] at hapart ⊢
    rw [rootFields_cons (by exact hframe), List.append_cons]
    have hp' : Places { p with msgType } s fields := ⟨hp.size, hp.index, hp.lt, hp.keys⟩
    obtain ⟨-, htail, hbefore⟩ := List.pairwise_append.1 hordered
    refine ih (hp'.enter (n := .plain f) hslot (.refl _) rfl)
      (Shows.enter (n := .plain f) (show Shows { p with msgType } s fields from hs) hp' hslot
        (.refl _) (.of_foldl hapart)
        (fun slot' hs' => hlater slot' hs' f List.mem_cons_self)) htail ?_ hapart
    intro s' hs' g hg
    exact later_of_append (p := { p with msgType }) hslot
      (fun s hs => hlater s hs g (List.mem_append_right _ hg))
      (hbefore f List.mem_cons_self g hg) s' hs'
  | @group f entries nodes slot p q p' hframe hslot hgrow hcount _ ih =>
    intro s fields hp hs hordered hlater hapart
    rw [rootNodes_cons (by exact hframe)] at hapart ⊢
    rw [rootFields_cons (by exact hframe), List.append_cons]
    obtain ⟨-, htail, hbefore⟩ := List.pairwise_append.1 hordered
    refine ih (hp.enter (n := .group f entries) hslot hgrow hcount)
      (hs.enter (n := .group f entries) hp hslot hgrow (.of_foldl hapart)
        (fun slot' hs' => hlater slot' hs' f List.mem_cons_self)) htail ?_ hapart
    intro s' hs' g hg
    obtain ⟨extra, hextra, hmade, -⟩ := hgrow.slots
    rw [hextra] at hs'
    rcases List.mem_append.1 hs' with hs' | hs'
    · exact later_of_append hslot (fun s hs => hlater s hs g (List.mem_append_right _ hg))
        (hbefore f List.mem_cons_self g hg) s' hs'
    · obtain ⟨f', hf', hs'⟩ := hmade s' hs'
      rw [hs'.remaining_eq]
      exact hbefore f' (List.mem_cons_of_mem _ hf') g hg

/-! ## Lookups -/

theorem Deposits.mem_rootKeys (h : Deposits nodes p p') (hp : p.RootWindow) (key : Nat) :
    key ∈ p'.rootKeys ↔ key ∈ p.rootKeys ∨ key ∈ rootFieldKeys nodes := by
  induction h with
  | done p => simp
  | skip hframe _ ih =>
    rw [rootFieldKeys_cons_of_frame (by exact hframe)]
    exact ih hp
  | @plain f nodes slot msgType p p' hframe hslot _ ih =>
    have hp' : RootWindow { p with msgType } :=
      ⟨hp.table_lt, hp.nodup, hp.count, hp.first, hp.slots_nil⟩
    obtain ⟨hwindow, hkeys, -⟩ := hp'.append_root slot
    rw [ih hwindow, hkeys, rootFieldKeys_cons (by exact hframe), List.mem_cons, hslot.tag_eq,
      or_comm (a := key = _), or_assoc]
    rfl
  | @group f entries nodes slot p q p' hframe hslot hgrow hcount _ ih =>
    obtain ⟨hwindow, hkeys, -⟩ := hp.append_root slot
    have hne := List.ne_nil_of_mem ((hkeys (rootKey slot.tag)).2 (.inl rfl))
    rw [ih (hwindow.of_grows hne hgrow), rootKeys_of_rootPart hgrow.rootPart_eq,
      hkeys, rootFieldKeys_cons (by exact hframe), List.mem_cons, hslot.tag_eq,
      or_comm (a := key = _), or_assoc]
    rfl

/-- With small tags only, the number of the fields of the root fits into its word. -/
theorem Deposits.fieldCount_ne_zero (h : Deposits nodes {} p)
    (hsmall : ∀ f ∈ rootFields nodes, f.tag < 1024) (hf : f ∈ rootFields nodes) :
    p.root.fieldCount ≠ 0 := by
  have hwindow := (h.enters .empty).window
  have hmem : ∀ key, key ∈ p.rootKeys ↔ key ∈ rootFieldKeys nodes := by
    intro key
    rw [h.mem_rootKeys .empty]
    simp [rootKeys]
  have hsub : p.rootKeys ⊆ List.range 1024 := by
    intro key hkey
    obtain ⟨g, hg, rfl⟩ := List.mem_map.1 ((hmem key).1 hkey)
    rw [List.mem_range, ParsedMessageData.rootKey_eq_self (hsmall g hg)]
    exact hsmall g hg
  have hle := (List.Nodup.subperm hwindow.nodup hsub).length_le
  rw [List.length_range] at hle
  have hpos := List.length_pos_of_mem ((hmem _).2 (List.mem_map_of_mem hf))
  rw [hwindow.count]
  omega

theorem Places.findField_eq (h : Places p s fields) (hp : p.RootWindow) (tag : Nat) :
    p.findField tag = if p.root.fieldCount = 0 then none
      else ((s.position (rootKey tag)).map (· % 2 ^ 16)).bind fun index =>
        if isQuickCacheTag tag ∧ index = 2 ^ 16 - 1 then none
        else p.fieldSlots[index]? := by
  unfold findField
  rw [h.index]
  have hiff : p.root.firstFieldIndex.isNone = true ∨ p.root.fieldCount = 0 ↔
      p.root.fieldCount = 0 := by
    constructor
    · rintro (hnone | hzero)
      · rw [hp.first] at hnone
        by_cases hnil : p.rootKeys = []
        · rw [hp.count, hnil]
          rfl
        · rw [if_neg hnil] at hnone
          cases hnone
      · exact hzero
    · exact .inr
  simp only [hiff]

theorem ParsedFieldSlot.MadeOf.value_lt {s : ParsedFieldSlot} (h : s.MadeOf f) :
    s.value.length < 2 ^ 16 := by
  rw [h]
  refine Nat.lt_of_le_of_lt (List.length_take_le ..) (Nat.mod_lt _ (by decide))

theorem lastOccurrence_isSome (hf : f ∈ rootFields nodes) : ∃ g ∈ rootFields nodes, g.tag = f.tag ∧
      lastOccurrence nodes f.tag = some g := by
  cases hlast : lastOccurrence nodes f.tag with
  | none =>
    have := List.find?_eq_none.1 hlast f (List.mem_reverse.2 hf)
    simp at this
  | some g =>
    have hg := List.mem_of_find?_eq_some hlast
    have htag := List.find?_some hlast
    exact ⟨g, List.mem_reverse.1 hg, by simpa using htag, rfl⟩

/-- With small tags, the last field with a key is the last with a tag. -/
theorem lastWithKey_eq (hsmall : ∀ f ∈ rootFields nodes, f.tag < 1024) (hf : f ∈ rootFields nodes) :
    lastWithKey (rootFields nodes) (rootKey f.tag) = lastOccurrence nodes f.tag ∧
      (rootFields nodes).countP (fun g => rootKey g.tag == rootKey f.tag) =
        (rootFields nodes).countP fun g => g.tag == f.tag := by
  have hkeys : ∀ g ∈ rootFields nodes, (rootKey g.tag == rootKey f.tag) = (g.tag == f.tag) := by
    intro g hg
    rw [ParsedMessageData.rootKey_eq_self (hsmall g hg),
      ParsedMessageData.rootKey_eq_self (hsmall f hf)]
  constructor
  · unfold lastWithKey lastOccurrence
    exact List.find?_congr fun g hg => hkeys g (List.mem_reverse.1 hg)
  · exact List.countP_congr fun g hg => by rw [hkeys g hg]

theorem Ordered.eq_of_remaining {fs : List PlacedField} {g : PlacedField} (h : Ordered fs)
    (hf : f ∈ fs) (hg : g ∈ fs) (heq : f.remaining = g.remaining) : f = g :=
  List.inj_on_of_nodup_map (h.map PlacedField.remaining fun _ _ => Nat.ne_of_gt) hf hg heq

theorem LookupsRight.slot (hright : LookupsRight nodes p) (h : Deposits nodes {} p)
    (hordered : Ordered (nodesFields nodes)) (hf : f ∈ rootFields nodes) (hlt : f.tag < 2 ^ 32) :
    ∃ i slot g, (rootPlaces nodes).position (rootKey f.tag) = some i ∧ p.root.fieldCount ≠ 0 ∧
      ¬(isQuickCacheTag f.tag ∧ i % 2 ^ 16 = 2 ^ 16 - 1) ∧
      p.fieldSlots[i % 2 ^ 16]? = some slot ∧ lastOccurrence nodes f.tag = some g ∧
      slot.placed = g ∧ g.tag = f.tag ∧ slot.MadeOf g := by
  have hplaces := h.placed
  have hwindow := (h.enters .empty).window
  obtain ⟨g, hg, htag, hlast⟩ := lastOccurrence_isSome hf
  have hfind := hright f.tag hlt
  rw [hlast, hplaces.findField_eq hwindow] at hfind
  obtain ⟨slot, hslot, hplaced⟩ := Option.map_eq_some_iff.1 hfind
  split at hslot
  · cases hslot
  rename_i hcount
  obtain ⟨index, hindex, hread⟩ := Option.bind_eq_some_iff.1 hslot
  obtain ⟨i, hi, rfl⟩ := Option.map_eq_some_iff.1 hindex
  split at hread
  · cases hread
  rename_i hquick
  have hmade : slot.MadeOf g := by
    rcases h.madeOf slot (List.mem_of_getElem? hread) with hmem | ⟨g', hg', hmade⟩
    · cases hmem
    · obtain ⟨n, hn, rfl⟩ := List.mem_map.1 hg
      have heq : g'.remaining = n.field.remaining := by
        rw [← hmade.remaining_eq, ← hplaced]
        rfl
      rwa [← hordered.eq_of_remaining hg' (field_mem_nodesFields hn) heq]
  exact ⟨i, slot, g, hi, hcount, hquick, hread, hlast, hplaced, htag, hmade⟩

theorem LookupSafe.places_apart (h : Deposits nodes {} p)
    (hapart : ∀ f ∈ rootFields nodes, ∀ g ∈ rootFields nodes,
      ((rootPlaces nodes).position (rootKey f.tag)).map (· % 2 ^ 16) =
        ((rootPlaces nodes).position (rootKey g.tag)).map (· % 2 ^ 16) → f.tag = g.tag) :
    (rootPlaces nodes).Apart := by
  have hplaces := h.placed
  intro key key' i i' hi hi' hmod
  obtain ⟨f, hf, rfl⟩ := (hplaces.keys key).1 (by rw [hi]; rfl)
  obtain ⟨g, hg, rfl⟩ := (hplaces.keys key').1 (by rw [hi']; rfl)
  rw [hapart f hf g hg]
  rw [hi, hi', Option.map_some, Option.map_some, hmod]

theorem Deposits.lookupsRight_iff (h : Deposits nodes {} p) (hordered : Ordered (nodesFields nodes))
    (htags : ∀ f ∈ rootFields nodes, f.tag < 2 ^ 17) : LookupsRight nodes p ↔ LookupSafe nodes := by
  have hplaces := h.placed
  have hwindow := (h.enters .empty).window
  have hshows : (rootPlaces nodes).Apart → Shows p (rootPlaces nodes) (rootFields nodes) := by
    intro hapart
    exact h.shows .empty (by rintro _ _ _ ⟨⟩) hordered (by simp) hapart
  constructor
  · intro hright
    have hslot := fun f (hf : f ∈ rootFields nodes) =>
      hright.slot h hordered hf (Nat.lt_trans (htags f hf) (by decide))
    have hsmall : ∀ f ∈ rootFields nodes, f.tag < 1024 := by
      intro f hf
      by_contra hlarge
      -- a tag that no field has, with the key of `f`
      obtain ⟨i, slot, g, hi, hcount, -, hread, -⟩ := hslot f hf
      have hkey : rootKey (f.tag + 2 ^ 17) = rootKey f.tag := by
        rw [ParsedMessageData.rootKey_eq_of_ge hlarge]
        omega
      have htag := htags f hf
      have hfind := hright (f.tag + 2 ^ 17) (by omega)
      have hquick : isQuickCacheTag (f.tag + 2 ^ 17) = false := by
        simp only [isQuickCacheTag, List.contains_eq_mem, List.mem_cons,
          List.not_mem_nil, or_false, decide_eq_false_iff_not]
        omega
      rw [hplaces.findField_eq hwindow, if_neg hcount, hkey, hi] at hfind
      simp only [Option.map_some, Option.bind_some, hquick, Bool.false_eq_true, false_and, if_false,
        hread] at hfind
      have hsome := hfind.symm
      have hmem := List.mem_reverse.1 (List.mem_of_find?_eq_some hsome)
      have heq := List.find?_some hsome
      have hbound := htags _ hmem
      simp only [beq_iff_eq] at heq
      omega
    have hapart : ∀ f ∈ rootFields nodes, ∀ g ∈ rootFields nodes,
        ((rootPlaces nodes).position (rootKey f.tag)).map (· % 2 ^ 16) =
          ((rootPlaces nodes).position (rootKey g.tag)).map (· % 2 ^ 16) → f.tag = g.tag := by
      intro f hf g hg heq
      obtain ⟨i, slot, f', hi, -, -, hread, -, hplaced, htag, -⟩ := hslot f hf
      obtain ⟨i', slot', g', hi', -, -, hread', -, hplaced', htag', -⟩ := hslot g hg
      rw [hi, hi', Option.map_some, Option.map_some, Option.some.injEq] at heq
      rw [heq, hread'] at hread
      cases hread
      rw [← htag, ← htag', ← hplaced, ← hplaced']
    refine ⟨hsmall, fun f hf hlast => ?_, hapart, fun f hf i hi hge => ?_, fun f hf hquick => ?_⟩
    · obtain ⟨i, slot, g, -, -, -, -, hlast', hplaced, -, hmade⟩ := hslot f hf
      rw [hlast] at hlast'
      cases hlast'
      rw [← hplaced]
      exact hmade.value_lt
    · obtain ⟨i', slot, g, hi', -, -, hread, hlast, -, -, hmade⟩ := hslot f hf
      rw [hi'] at hi
      cases hi
      obtain ⟨hlastKey, hcountKey⟩ := lastWithKey_eq hsmall hf
      have hiff := hshows (LookupSafe.places_apart h hapart) _ i g hi'
        (hlastKey.trans hlast)
      rcases hiff.1 ⟨slot, hread, hmade⟩ with hlt | htwice
      · omega
      · rw [← hcountKey]
        exact htwice
    · obtain ⟨i, slot, g, hi, -, hnot, -⟩ := hslot f hf
      rw [hi]
      exact fun heq => hnot ⟨hquick, Option.some.inj heq⟩
  · intro hsafe tag htag
    have hshown := hshows (LookupSafe.places_apart h hsafe.apart)
    rw [hplaces.findField_eq hwindow]
    cases hlast : lastOccurrence nodes tag with
    | none =>
      have hnone : (rootPlaces nodes).position (rootKey tag) = none := by
        by_contra hsome
        obtain ⟨f, hf, hkey⟩ := (hplaces.keys _).1 (Option.isSome_iff_ne_none.2 hsome)
        have hlt := hsafe.small f hf
        have heq : tag = f.tag := by
          rw [ParsedMessageData.rootKey_eq_self hlt] at hkey
          exact (ParsedMessageData.rootKey_eq_of_lt hlt).1 hkey.symm
        have := List.find?_eq_none.1 hlast f (List.mem_reverse.2 hf)
        simp [heq] at this
      rw [hnone]
      split <;> rfl
    | some f =>
      have hf := List.mem_reverse.1 (List.mem_of_find?_eq_some hlast)
      have heq : f.tag = tag := by simpa using List.find?_some hlast
      subst heq
      have hsome : ((rootPlaces nodes).position (rootKey f.tag)).isSome :=
        (hplaces.keys _).2 ⟨f, hf, rfl⟩
      obtain ⟨i, hi⟩ := Option.isSome_iff_exists.1 hsome
      obtain ⟨hlastKey, hcountKey⟩ := lastWithKey_eq hsafe.small hf
      obtain ⟨slot, hread, hmade⟩ := (hshown _ i f hi (hlastKey.trans hlast)).2 (by
        by_cases hlt : i < 2 ^ 16
        · exact .inl hlt
        · rw [hcountKey]
          exact .inr (hsafe.again f hf i hi (by omega)))
      rw [if_neg (h.fieldCount_ne_zero hsafe.small hf), hi]
      have hquick : ¬(isQuickCacheTag f.tag = true ∧
          i % 2 ^ 16 = 2 ^ 16 - 1) := by
        rintro ⟨hquick, hmod⟩
        refine hsafe.cached f hf hquick ?_
        rw [hi, Option.map_some, hmod]
      simp only [Option.map_some, Option.bind_some, if_neg hquick, hread]
      exact congrArg some (hmade.placed_eq_iff.2 (hsafe.whole f hf hlast))

/-! ## Tags have five digits -/

theorem foldl_digits_lt {text : Bytes} (h : text.all isDigit) (n : Nat) :
    text.foldl (fun n b => 10 * n + digitValue b) n < (n + 1) * 10 ^ text.length := by
  induction text generalizing n with
  | nil => simp
  | cons b bs ih =>
    rw [List.all_cons, Bool.and_eq_true] at h
    have hdigit : digitValue b ≤ 9 := by
      have hle : b ≤ 57 := by
        have := h.1
        simp only [isDigit, Bool.and_eq_true, decide_eq_true_eq] at this
        exact this.2
      have : b.toNat ≤ 57 := UInt8.le_iff_toNat_le.1 hle
      unfold digitValue
      omega
    refine Nat.lt_of_lt_of_le (ih h.2 _) ?_
    dsimp only
    rw [List.length_cons, Nat.pow_succ, Nat.mul_comm (10 ^ bs.length) 10, ← Nat.mul_assoc]
    exact Nat.mul_le_mul_right _ (by omega)

theorem RawField.WellFormed.tag_lt {delim : Byte} {f : RawField} (h : f.WellFormed delim) :
    f.tag < 2 ^ 17 := by
  unfold RawField.tag parseTagInline parseNat
  split
  · split
    · refine Nat.lt_of_lt_of_le (foldl_digits_lt h.digits 0) ?_
      rw [Nat.zero_add, Nat.one_mul]
      exact Nat.le_trans (Nat.pow_le_pow_right (by decide) h.length_le) (by decide)
    · decide
  · decide

/-- For an accepted frame of fewer than `2 ^ 32` bytes every lookup by a tag finds the last field of
the root with the tag, and its whole value, exactly if the root is safe for lookups. -/
theorem root_lookup_iff {parsesDouble : Bytes → Bool} {d : Dictionary} {delimiter : Byte}
    {verifyChecksum : Bool} {bytes : Bytes} {view : DecodedMessageView}
    (hsize : bytes.length < 2 ^ 32)
    (h : decodeFixMessageViewGeneric parsesDouble d delimiter verifyChecksum bytes = .ok view) :
    ∃ nodes trailer, readFrame d (normalizeDelimiter delimiter) bytes = .ok (nodes, some trailer) ∧
      (LookupsRight nodes view.message ↔ LookupSafe nodes) := by
  obtain ⟨first, second, body, last, nodes, hread⟩ := decode_read hsize h
  refine ⟨nodes, _, hread.tree, hread.deposits.lookupsRight_iff ?_ fun f hf => ?_⟩
  · rw [hread.placed]
    exact ordered_place body _
  · obtain ⟨n, hn, rfl⟩ := List.mem_map.1 hf
    have hmem := field_mem_nodesFields hn
    rw [hread.placed] at hmem
    obtain ⟨before, g, behind, rfl, heq⟩ := mem_place hmem
    rw [heq]
    exact (hread.fields g (by simp)).tag_lt

instance (nodes : List FieldNode) : Decidable (LookupSafe nodes) :=
  decidable_of_iff (_ ∧ _ ∧ _ ∧ _ ∧ _)
    ⟨fun ⟨hsmall, hwhole, hapart, hagain, hcached⟩ => ⟨hsmall, hwhole, hapart, hagain, hcached⟩,
      fun h => ⟨h.small, h.whole, h.apart, h.again, h.cached⟩⟩

open Sample

theorem root_lookup_iff_sample :
    ∃ view nodes trailer, decodeFixMessageViewGeneric (fun _ => true) dictionary soh true
        (orderFrame 2) = .ok view ∧
      readFrame dictionary soh (orderFrame 2) = .ok (nodes, some trailer) ∧
      LookupsRight nodes view.message := by
  have hok : (decodeFixMessageViewGeneric (fun _ => true) dictionary soh true
      (orderFrame 2)).isOk := by decide +kernel
  cases hview : decodeFixMessageViewGeneric (fun _ => true) dictionary soh true
      (orderFrame 2) with
  | error e =>
    rw [hview] at hok
    cases hok
  | ok view =>
    obtain ⟨nodes, trailer, hframe, hiff⟩ := root_lookup_iff (by decide +kernel) hview
    refine ⟨view, nodes, trailer, rfl, hframe, hiff.2 ?_⟩
    have hsafe : ((readFrame dictionary soh (orderFrame 2)).toOption.map fun t =>
        decide (LookupSafe t.1)) = some true := by decide +kernel
    rw [show readFrame dictionary soh (orderFrame 2) = _ from hframe] at hsafe
    exact of_decide_eq_true (Option.some.inj hsafe)

/-- With the field 5001 in the root, 70537 is found as well; and if both are there, the second one is
found under either tag. -/
theorem lookup_confuses_tags :
    ((decodeFixMessageViewGeneric (fun _ => true) partiesDictionary soh true
        (frame "X" [(5001, "a")] 2)).toOption.map fun v =>
          [5001, 70537].map fun tag =>
            (v.message.findField tag).map fun s => (s.tag, s.value)) =
      some [some (5001, ascii "a"), some (5001, ascii "a")] ∧
    ((decodeFixMessageViewGeneric (fun _ => true) partiesDictionary soh true
        (frame "X" [(5001, "a"), (70537, "b")] 2)).toOption.map fun v =>
          [5001, 70537].map fun tag =>
            (v.message.findField tag).map fun s => (s.tag, s.value)) =
      some [some (70537, ascii "b"), some (70537, ascii "b")] := by
  decide +kernel

end NimbleFix
