import NimbleFix.Codec.ReusedView
import NimbleFix.Proof.RootLookup

/-!
# A reused view shows nothing of an earlier message

The decoder looks at the parsed message only through the operations. With those of the model it is
the generic decoder (`decodeOn_runs`), and a reused message whose vectors and lookups are those of
one of the model stays so through a decode (`Refines.related`). An entry of the table never has a
later generation than the current one, so after `ResetForNewDecode` none counts.
-/

namespace NimbleFix

open Fallible

/-! ## The decoder sees the operations only -/

/-- The operations keep related parsed messages related, and return the same indices. -/
structure PoolOps.Related {π π' : Type} (ops : PoolOps π) (ops' : PoolOps π')
    (R : π → π' → Prop) : Prop where
  setMsgType (msgType : Bytes) {p p'} : R p p' → R (ops.setMsgType msgType p)
    (ops'.setMsgType msgType p')
  appendRootSlot (slot : ParsedFieldSlot) {p p'} : R p p' → R (ops.appendRootSlot slot p)
    (ops'.appendRootSlot slot p')
  ensureGroup (c : ParsedContainer) (countTag depth : Nat) {p p'} : R p p' →
    (ops.ensureGroup c countTag depth p).2 = (ops'.ensureGroup c countTag depth p').2 ∧
      R (ops.ensureGroup c countTag depth p).1 (ops'.ensureGroup c countTag depth p').1
  appendEntry (frame : Nat) {p p'} : R p p' →
    (ops.appendEntry frame p).2 = (ops'.appendEntry frame p').2 ∧
      R (ops.appendEntry frame p).1 (ops'.appendEntry frame p').1
  appendEntrySlot (entry : Nat) (slot : ParsedFieldSlot) {p p'} : R p p' →
    R (ops.appendEntrySlot entry slot p) (ops'.appendEntrySlot entry slot p')

section

variable {π π' : Type} {ops : PoolOps π} {ops' : PoolOps π'} {R : π → π' → Prop}
  {parsesDouble : Bytes → Bool} {d : Dictionary} {delim : Byte}

theorem foldl_appendEntrySlot (h : ops.Related ops' R) (entry : Nat) :
    ∀ (slots : List ParsedFieldSlot) {p : π} {p' : π'}, R p p' →
      R (slots.foldl (fun p slot => ops.appendEntrySlot entry slot p) p)
        (slots.foldl (fun p slot => ops'.appendEntrySlot entry slot p) p')
  | [], _, _, hp => hp
  | slot :: slots, _, _, hp => foldl_appendEntrySlot h entry slots (h.appendEntrySlot entry slot hp)

theorem parseEntriesOn_simulates (h : ops.Related ops' R) {g : GroupDef} {frame : Nat}
    {parseFields : Nat → ScanPos → Fallible Status π (List ParsedFieldSlot × ScanPos)}
    {parseFields' : Nat → ScanPos → Fallible Status π' (List ParsedFieldSlot × ScanPos)}
    (hfields : ∀ entry c, Simulates R (parseFields entry c) (parseFields' entry c)) :
    ∀ (remaining entryNumber : Nat) (c : ScanPos),
      Simulates R (parseEntriesOn ops delim g frame parseFields remaining entryNumber c)
        (parseEntriesOn ops' delim g frame parseFields' remaining entryNumber c)
  | 0, _, c => .pure c
  | remaining + 1, entryNumber, c => by
    unfold parseEntriesOn
    refine .ite (.pure _) (.bind (.ofExcept _) fun peek => .ite (.pure _) ?_)
    refine .bind (.step fun p p' hp => h.appendEntry frame hp) fun entry => ?_
    refine .bind (hfields entry c) fun fields => ?_
    refine .bind (.modify fun p p' hp => foldl_appendEntrySlot h entry _ hp) fun _ => ?_
    exact parseEntriesOn_simulates h hfields remaining (entryNumber + 1) fields.2

theorem parseGroupOn_simulates (h : ops.Related ops' R) {countValue : Bytes} {g : GroupDef}
    {parent : ParsedContainer} {depth : Nat}
    {parseFields : Nat → ScanPos → Fallible Status π (List ParsedFieldSlot × ScanPos)}
    {parseFields' : Nat → ScanPos → Fallible Status π' (List ParsedFieldSlot × ScanPos)}
    (hfields : ∀ entry c, Simulates R (parseFields entry c) (parseFields' entry c)) (c : ScanPos) :
    Simulates R (parseGroupOn ops delim countValue g parent depth parseFields c)
      (parseGroupOn ops' delim countValue g parent depth parseFields' c) := by
  unfold parseGroupOn
  refine .bind (.ofExcept _) fun count => .ite (.fail _) (.ite (.fail _) ?_)
  refine .bind (.step fun p p' hp => h.ensureGroup parent g.countTag depth hp) fun frame => ?_
  exact parseEntriesOn_simulates h hfields count 1 c

theorem parseEntryFieldsOn_simulates (h : ops.Related ops' R) : ∀ (fuel : Nat) (g : GroupDef)
    (depth : Nat) (seenAny : Bool) (state : ScopeValidation) (entry : Nat) (c : ScanPos),
    Simulates R (parseEntryFieldsOn ops parsesDouble d delim fuel g depth seenAny state entry c)
      (parseEntryFieldsOn ops' parsesDouble d delim fuel g depth seenAny state entry c)
  | 0, _, _, _, _, _, c => .pure _
  | fuel + 1, g, depth, seenAny, state, entry, c => by
    unfold parseEntryFieldsOn
    refine .ite (.pure _) (.bind (.ofExcept _) fun r => .ite (.pure _) ?_)
    split
    · exact .pure _
    · refine .bind ?_ fun c => .bind (parseEntryFieldsOn_simulates h fuel g depth true _ entry c)
        fun fields => .pure _
      split
      · exact parseGroupOn_simulates h
          (fun entry c => parseEntryFieldsOn_simulates h fuel _ _ _ _ entry c) _
      · exact .pure _

theorem decodeFieldOn_simulates (h : ops.Related ops' R) (field : InlineField) (rest : Bytes)
    (st : LoopState) :
    Simulates R (decodeFieldOn ops parsesDouble d delim field rest st)
      (decodeFieldOn ops' parsesDouble d delim field rest st) := by
  unfold decodeFieldOn
  refine .ite (.pure _) (.ite ?_ (.bind (.ofExcept _) fun header => ?_))
  · refine .bind ?_ fun st => .pure _
    refine .bind (.modify fun p p' hp => h.setMsgType _ hp) fun _ => ?_
    exact .bind (.modify fun p p' hp => h.appendRootSlot _ hp) fun _ => .pure _
  · refine .bind (.modify fun p p' hp => h.appendRootSlot _ hp) fun _ => ?_
    split
    · refine .bind (parseGroupOn_simulates h
        (fun entry c => parseEntryFieldsOn_simulates h _ _ _ _ _ entry c) _) fun c => .pure _
    · exact .pure _

theorem decodeLoopOn_simulates (h : ops.Related ops' R) : ∀ (fuel : Nat) (bytes : Bytes)
    (st : LoopState), Simulates R (decodeLoopOn ops parsesDouble d delim fuel bytes st)
      (decodeLoopOn ops' parsesDouble d delim fuel bytes st)
  | 0, _, _ => .pure _
  | fuel + 1, bytes, st => by
    unfold decodeLoopOn
    refine .ite (.pure _) (.bind (.ofExcept _) fun r => .ite ?_ ?_)
    · exact .bind (.ofExcept _) fun checksum => .pure _
    · exact .bind (decodeFieldOn_simulates h r.1 r.2 _) fun next =>
        decodeLoopOn_simulates h fuel next.2 next.1

theorem decodeOn_simulates (h : ops.Related ops' R) (verifyChecksum : Bool) (bytes : Bytes) :
    Simulates R (decodeOn ops parsesDouble d delim verifyChecksum bytes)
      (decodeOn ops' parsesDouble d delim verifyChecksum bytes) := by
  unfold decodeOn
  refine .bind (.ofExcept _) fun first => .ite (.fail _) ?_
  refine .bind (.ofExcept _) fun second => .ite (.fail _) ?_
  refine .bind (.ofExcept _) fun declared => ?_
  exact .bind (decodeLoopOn_simulates h _ _ _) fun e => .ofExcept _

end

/-! ## The operations of the model -/

/-- The operations on the parsed message of the rest of the model. -/
def ParsedMessageData.ops : PoolOps ParsedMessageData where
  setMsgType msgType p := { p with msgType }
  appendRootSlot slot p := (p.appendFieldSlot .root slot).1
  ensureGroup c countTag depth p := p.ensureGroup c countTag depth
  appendEntry frame p := p.appendEntry frame
  appendEntrySlot entry slot p := (p.appendFieldSlot (.entry entry) slot).1

/-- The cursor of the group parser at a position with a parsed message. -/
def ScanPos.cursor (c : ScanPos) (p : ParsedMessageData) : GroupCursor := ⟨c.rest, p, c.issue⟩

section

variable {parsesDouble : Bytes → Bool} {d : Dictionary} {delim : Byte}

/-- The parsers of the fields of an entry do the same. -/
def RunsFields
    (parseFields : Nat → ScanPos →
      Fallible Status ParsedMessageData (List ParsedFieldSlot × ScanPos))
    (parseFields' : Nat → GroupCursor → Except Status (List ParsedFieldSlot × GroupCursor)) :
    Prop :=
  ∀ entry c p, Runs (parseFields entry c) p (parseFields' entry (c.cursor p))
    fun fields p => (fields.1, fields.2.cursor p)

variable
    {parseFields : Nat → ScanPos →
      Fallible Status ParsedMessageData (List ParsedFieldSlot × ScanPos)}
    {parseFields' : Nat → GroupCursor → Except Status (List ParsedFieldSlot × GroupCursor)}

theorem parseEntriesOn_runs (h : RunsFields parseFields parseFields') {g : GroupDef} {frame : Nat} :
    ∀ (n k : Nat) (c : ScanPos) (p : ParsedMessageData),
      Runs (parseEntriesOn ParsedMessageData.ops delim g frame parseFields n k c) p
        (parseEntries delim g frame parseFields' n k (c.cursor p)) ScanPos.cursor
  | 0, _, _, _ => rfl
  | n + 1, k, c, p => by
    rw [parseEntries, parseEntriesOn]
    refine .ite (fun _ => rfl) fun _ => .ofExcept_bind fun peek => .ite (fun _ => ?_) fun _ => ?_
    · split <;> rfl
    · exact (h (p.appendEntry frame).2 c (p.appendEntry frame).1).bind fun fields p =>
        parseEntriesOn_runs h n (k + 1) fields.2 _

theorem parseGroupOn_runs (h : RunsFields parseFields parseFields') {g : GroupDef}
    {countValue : Bytes} {parent : ParsedContainer} {depth : Nat} (c : ScanPos)
    (p : ParsedMessageData) :
    Runs (parseGroupOn ParsedMessageData.ops delim countValue g parent depth parseFields c) p
      (parseGroup delim countValue g parent depth parseFields' (c.cursor p)) ScanPos.cursor := by
  rw [parseGroup, parseGroupOn]
  refine .ofExcept_bind fun count => .ite (fun _ => rfl) fun _ => .ite (fun _ => rfl) fun _ => ?_
  exact parseEntriesOn_runs h count 1 c _

theorem parseEntryFieldsOn_runs : ∀ (fuel : Nat) (g : GroupDef) (depth : Nat) (seenAny : Bool)
    (state : ScopeValidation), RunsFields
      (parseEntryFieldsOn ParsedMessageData.ops parsesDouble d delim fuel g depth seenAny state)
      (parseEntryFields parsesDouble d delim fuel g depth seenAny state)
  | 0, _, _, _, _, _, _, _ => rfl
  | fuel + 1, g, depth, seenAny, state, entry, c, p => by
    rw [parseEntryFields, parseEntryFieldsOn]
    refine .ite (fun _ => rfl) fun _ => .ofExcept_bind fun r => .ite (fun _ => rfl) fun _ => ?_
    cases ruleIndex g.rules r.1.tag with
    | none => rfl
    | some ri =>
      dsimp only
      cases d.findGroup r.1.tag with
      | none =>
        exact (parseEntryFieldsOn_runs fuel g depth true _ entry ⟨r.2, _⟩ p).bind
          fun fields p => rfl
      | some nested =>
        exact (parseGroupOn_runs (parseEntryFieldsOn_runs fuel nested _ _ _) ⟨r.2, _⟩ p).bind
          fun c p => (parseEntryFieldsOn_runs fuel g depth true _ entry c p).bind
            fun fields p => rfl

/-- The state of the field loop with a parsed message. -/
def LoopState.generic (st : LoopState) (p : ParsedMessageData) : GenericState where
  header := st.header
  parsed := p
  issue := st.issue
  validation := st.validation
  messageDef := st.messageDef
  fieldCount := st.fieldCount

theorem decodeFieldOn_runs (field : InlineField) (rest : Bytes) (st : LoopState)
    (p : ParsedMessageData) :
    Runs (decodeFieldOn ParsedMessageData.ops parsesDouble d delim field rest st) p
      (decodeGenericField parsesDouble d delim field rest (st.generic p))
      fun next p => (next.1.generic p, next.2) := by
  unfold decodeFieldOn decodeGenericField
  refine .ite (fun _ => rfl) fun _ => .ite (fun _ => rfl) fun _ => .ofExcept_bind fun header => ?_
  unfold decodeBodyFieldOn decodeBodyField
  refine .modify_bind ?_
  dsimp only
  rw [show ({ st.generic p with header } : GenericState).groupDef d field.tag =
    LoopState.groupDef d { st with header } field.tag from rfl]
  cases LoopState.groupDef d { st with header } field.tag with
  | none => rfl
  | some g =>
    refine (parseGroupOn_runs (parseEntryFieldsOn_runs rest.length g _ _ _) ⟨rest, _⟩ _).bind
      fun c p => ?_
    rfl

theorem decodeLoopOn_runs : ∀ (fuel : Nat) (bytes : Bytes) (st : LoopState)
    (p : ParsedMessageData),
    Runs (decodeLoopOn ParsedMessageData.ops parsesDouble d delim fuel bytes st) p
      (decodeGenericLoop parsesDouble d delim fuel bytes (st.generic p))
      fun e p => ⟨e.state.generic p, e.trailer, e.rest⟩
  | 0, _, _, _ => rfl
  | fuel + 1, bytes, st, p => by
    rw [decodeGenericLoop, decodeLoopOn]
    refine .ite (fun _ => rfl) fun _ => .ofExcept_bind fun r => .ite (fun _ => ?_) fun _ => ?_
    · exact .ofExcept_bind fun checksum => rfl
    · exact (decodeFieldOn_runs r.1 r.2 { st with fieldCount := st.fieldCount + 1 } p).bind
        fun next p => decodeLoopOn_runs fuel next.2 next.1 p

theorem checkFrameOn_runs {verifyChecksum : Bool} {bytes afterLength : Bytes} {declared : Nat}
    (e : ScanEnd) (p : ParsedMessageData) :
    Runs (ofExcept (checkFrameOn verifyChecksum bytes afterLength declared e)) p
      (checkFrame verifyChecksum bytes afterLength declared
        (GenericLoopEnd.toLoopEnd ⟨e.state.generic p, e.trailer, e.rest⟩))
      fun r p => ⟨p.locate bytes, r.1, bytes, r.2⟩ := by
  obtain ⟨st, trailer, rest⟩ := e
  unfold Runs checkFrameOn checkFrame
  cases trailer with
  | none =>
    by_cases hrest : rest = [] <;> by_cases hcount : st.fieldCount < 4 <;>
      simp [GenericLoopEnd.toLoopEnd, LoopState.generic, Except.map, hrest, hcount]
  | some trailer =>
    by_cases hrest : rest = [] <;> by_cases hcount : st.fieldCount < 4 <;>
      by_cases hlength : declared = afterLength.length - trailer.length <;>
      simp [GenericLoopEnd.toLoopEnd, LoopState.generic, Except.map, hrest, hcount, hlength]
    -- what is left is the checksum
    split <;> rfl

/-- With the operations of the model the decoder over operations is the generic decoder. -/
theorem decodeOn_runs (parsesDouble : Bytes → Bool) (d : Dictionary) (delimiter : Byte)
    (verifyChecksum : Bool) (bytes : Bytes) :
    Runs (decodeOn ParsedMessageData.ops parsesDouble d (normalizeDelimiter delimiter)
        verifyChecksum bytes) {}
      (decodeFixMessageViewGeneric parsesDouble d delimiter verifyChecksum bytes)
      fun r p => ⟨p.locate bytes, r.1, bytes, r.2⟩ := by
  unfold decodeFixMessageViewGeneric decodeOn
  refine .ofExcept_bind fun first => .ite (fun _ => rfl) fun _ => .ofExcept_bind fun second =>
    .ite (fun _ => rfl) fun _ => .ofExcept_bind fun declared => ?_
  refine (decodeLoopOn_runs _ _
    { header := { beginString := first.1.value, bodyLength := declared } } _).bind fun e p => ?_
  exact checkFrameOn_runs e p

end

/-! ## Generations -/

namespace ReusedData

/-- No entry of the table is of a later generation than the current one. -/
structure Stamped (r : ReusedData) : Prop where
  length_eq : r.fieldHashTable.length = kFieldHashTableSize
  pos : 0 < r.fieldGeneration
  lt : r.fieldGeneration < 2 ^ 16
  le : ∀ packed ∈ r.fieldHashTable, packed / 2 ^ 16 ≤ r.fieldGeneration

theorem Stamped.fresh : Stamped {} := by
  refine ⟨List.length_replicate .., by decide, by decide, fun packed h => ?_⟩
  rw [List.eq_of_mem_replicate h]
  decide

variable {r : ReusedData}

theorem Stamped.insert (h : r.Stamped) (tag slotIndex : Nat) :
    (r.insertIntoRootHashTable tag slotIndex).Stamped := by
  unfold insertIntoRootHashTable
  split
  · refine ⟨(List.length_set ..).trans h.length_eq, h.pos, h.lt, fun packed hmem => ?_⟩
    rcases List.mem_or_eq_of_mem_set hmem with hmem | rfl
    · exact h.le packed hmem
    · dsimp only
      omega
  · exact ⟨h.length_eq, h.pos, h.lt, h.le⟩

theorem Stamped.cacheSlot (h : r.Stamped) (tag slotIndex : Nat) :
    (r.cacheSlot tag slotIndex).Stamped := by
  unfold ReusedData.cacheSlot
  split
  · exact ⟨h.length_eq, h.pos, h.lt, h.le⟩
  · exact h

theorem Stamped.reset (h : r.Stamped) : r.resetForNewDecode.Stamped := by
  have hlt := h.lt
  unfold resetForNewDecode
  by_cases hwrap : (r.fieldGeneration + 1) % 2 ^ 16 = 0
  · simp only [hwrap, if_true]
    refine ⟨List.length_replicate .., Nat.one_pos, by decide, fun packed hmem => ?_⟩
    rw [List.eq_of_mem_replicate hmem]
    decide
  · simp only [hwrap, if_false]
    refine ⟨h.length_eq, Nat.pos_of_ne_zero hwrap, Nat.mod_lt _ (by decide), fun packed hmem => ?_⟩
    have := h.le packed hmem
    dsimp only
    omega

theorem Stamped.rootIndex_reset (h : r.Stamped) (tag : Nat) :
    r.resetForNewDecode.rootIndex tag = none := by
  have hlt := h.lt
  unfold rootIndex
  split
  · rename_i htag
    refine if_neg ?_
    have hstamp : r.fieldHashTable.getD tag 0 / 2 ^ 16 ≤ r.fieldGeneration := by
      rw [List.getD_eq_getElem?_getD]
      cases hget : r.fieldHashTable[tag]? with
      | none => simp
      | some packed => exact h.le packed (List.mem_of_getElem? hget)
    unfold resetForNewDecode
    by_cases hwrap : (r.fieldGeneration + 1) % 2 ^ 16 = 0
    · simp only [hwrap, if_true, List.getD_eq_getElem?_getD, List.getElem?_replicate, htag,
        Option.getD_some]
      decide
    · simp only [hwrap, if_false]
      omega
  · rfl

end ReusedData

/-! ## The tables of a reused message -/

/-- Without the tables. -/
def ParsedMessageData.bare (p : ParsedMessageData) : ParsedMessageData :=
  { p with fieldHashTable := [], fieldHashOverflow := [] }

/-- An operation that neither reads nor writes the tables. -/
def ParsedMessageData.Untabled {α : Type} (f : ParsedMessageData → ParsedMessageData × α) : Prop :=
  ∀ p, f p.bare = ((f p).1.bare, (f p).2) ∧ (f p).1.fieldHashTable = p.fieldHashTable ∧
    (f p).1.fieldHashOverflow = p.fieldHashOverflow

theorem ParsedMessageData.groupChain_bare (p : ParsedMessageData) :
    ∀ (fuel : Nat) (start : Option Nat), p.bare.groupChain fuel start = p.groupChain fuel start
  | 0, _ => by cases ‹Option Nat› <;> rfl
  | _ + 1, none => rfl
  | fuel + 1, some index => by
    unfold groupChain
    rw [show p.bare.groups = p.groups from rfl]
    cases p.groups[index]? with
    | none => rfl
    | some g =>
      dsimp only
      rw [p.groupChain_bare fuel]

theorem ParsedMessageData.ensureGroup_untabled (c : ParsedContainer) (countTag depth : Nat) :
    Untabled fun p => p.ensureGroup c countTag depth := by
  intro p
  have hgroups : p.bare.groupsOf (p.bare.container c) = p.groupsOf (p.container c) := by
    cases c <;> exact p.groupChain_bare _ _
  have hcontainer : p.bare.container c = p.container c := by cases c <;> rfl
  dsimp only
  unfold ensureGroup
  rw [hgroups, hcontainer]
  cases (p.groupsOf (p.container c)).find? fun g => g.2.countTag == countTag with
  | some g => exact ⟨rfl, rfl, rfl⟩
  | none =>
    cases c <;> cases (p.container _).firstGroup <;> cases (p.container _).lastGroup <;>
      exact ⟨rfl, rfl, rfl⟩

theorem ParsedMessageData.appendEntry_untabled (frame : Nat) :
    Untabled fun p => p.appendEntry frame := by
  intro p
  dsimp only
  unfold appendEntry
  rw [show p.bare.groups = p.groups from rfl]
  cases (p.groups[frame]?).bind fun g => g.lastEntry <;> exact ⟨rfl, rfl, rfl⟩

theorem ParsedMessageData.appendFieldSlot_untabled (entry : Nat) (slot : ParsedFieldSlot) :
    Untabled fun p => p.appendFieldSlot (.entry entry) slot := by
  intro p
  dsimp only
  unfold appendFieldSlot
  rw [show p.bare.findFieldIndex (.entry entry) slot.tag =
    p.findFieldIndex (.entry entry) slot.tag from rfl]
  cases p.findFieldIndex (.entry entry) slot.tag <;> exact ⟨rfl, rfl, rfl⟩

/-- The tags of the quick cache, in the order of its places. -/
def quickCacheTags : List Nat := [8, 9, 35, 34, 49, 56, 52, 10]

/-- The vectors are those of `p`, and the tables find what those of `p` find. -/
structure Refines (r : ReusedData) (p : ParsedMessageData) : Prop where
  pool : r.pool = p.bare
  index : ∀ tag < 1024, r.rootIndex tag = p.fieldHashTable.lookup tag
  overflow : r.fieldHashOverflow = p.fieldHashOverflow.flatMap fun e => [e.1, e.2]
  cached : r.quickCache =
    quickCacheTags.map fun tag => (p.fieldHashTable.lookup tag).getD kInvalidHashSlot
  stamped : r.Stamped

variable {r : ReusedData} {p : ParsedMessageData} {tag : Nat}

theorem Refines.reset (h : r.Stamped) : Refines r.resetForNewDecode {} :=
  ⟨rfl, fun tag _ => h.rootIndex_reset tag, rfl, rfl, h.reset⟩

theorem scanOverflow_flatMap (key : Nat) : ∀ l : List (Nat × Nat),
    ReusedData.scanOverflow key (l.flatMap fun e => [e.1, e.2]) = l.lookup key
  | [] => rfl
  | (k, i) :: l => by
    rw [List.flatMap_cons, List.cons_append, List.cons_append, List.nil_append,
      ReusedData.scanOverflow, scanOverflow_flatMap key l, List.lookup_cons]
    by_cases hk : k = key
    · rw [if_pos hk, beq_iff_eq.2 hk.symm]
    · rw [if_neg hk, beq_false_of_ne fun h => hk h.symm]

theorem Refines.rootIndex_eq (h : Refines r p) (tag : Nat) : r.rootIndex tag = p.rootIndex tag := by
  unfold ParsedMessageData.rootIndex
  split
  · rename_i htag
    exact h.index tag htag
  · rename_i htag
    rw [ReusedData.rootIndex, if_neg (by exact htag), h.overflow, scanOverflow_flatMap]

theorem map_set_findIdx? {tags : List Nat} (hnodup : tags.Nodup) (f : Nat → Nat) (v : Nat)
    {i : Nat} (h : tags.findIdx? (· == tag) = some i) :
    (tags.map f).set i v = tags.map (Function.update f tag v) := by
  induction tags generalizing i with
  | nil => cases h
  | cons t ts ih =>
    obtain ⟨hnot, hnodup⟩ := List.nodup_cons.1 hnodup
    rw [List.findIdx?_cons] at h
    by_cases ht : t = tag
    · subst ht
      rw [beq_self_eq_true, if_pos rfl] at h
      cases h
      rw [List.map_cons, List.set_cons_zero, List.map_cons, Function.update_self]
      congr 1
      exact List.map_congr_left fun t' ht' =>
        (Function.update_of_ne (fun he : t' = t => hnot (he ▸ ht')) ..).symm
    · rw [beq_false_of_ne ht, if_neg Bool.false_ne_true] at h
      obtain ⟨j, hj, rfl⟩ := Option.map_eq_some_iff.1 h
      rw [List.map_cons, List.set_cons_succ, ih hnodup hj, List.map_cons,
        Function.update_of_ne ht]

theorem cacheSlot_quickCache {f : Nat → Nat} (h : r.quickCache = quickCacheTags.map f)
    (slotIndex : Nat) : (r.cacheSlot tag slotIndex).quickCache =
      quickCacheTags.map (Function.update f tag (slotIndex % 2 ^ 16)) := by
  unfold ReusedData.cacheSlot
  cases hslot : quickCacheSlotForTag tag with
  | some i =>
    dsimp only
    rw [h]
    exact map_set_findIdx? (by decide) f _ hslot
  | none =>
    rw [h]
    refine List.map_congr_left fun t ht => (Function.update_of_ne ?_ ..).symm
    rintro rfl
    have := List.findIdx?_eq_none_iff.1 hslot t ht
    simp at this

theorem ReusedData.Stamped.rootIndex_insert (h : r.Stamped) (tag slotIndex : Nat) {tag' : Nat}
    (htag' : tag' < kFieldHashTableSize) :
    (r.insertIntoRootHashTable tag slotIndex).rootIndex tag' =
      if tag = tag' then some (slotIndex % 2 ^ 16) else r.rootIndex tag' := by
  have hlt := h.lt
  unfold insertIntoRootHashTable
  by_cases htag : tag < kFieldHashTableSize
  · rw [if_pos htag]
    unfold rootIndex
    rw [if_pos htag', if_pos htag']
    simp only [List.getD_eq_getElem?_getD, List.getElem?_set, h.length_eq, htag, if_true]
    by_cases heq : tag = tag'
    · rw [if_pos heq, if_pos heq, Option.getD_some, if_pos (by omega)]
      congr 1
      omega
    · rw [if_neg heq, if_neg heq]
  · rw [if_neg htag, if_neg (by omega)]
    unfold rootIndex
    rw [if_pos htag', if_pos htag']

theorem lookup_insert (hnone : p.rootIndex tag = none) (slotIndex : Nat) {t : Nat} (ht : t < 1024) :
    (p.insertIntoRootHashTable tag slotIndex).fieldHashTable.lookup t =
      if tag = t then some (slotIndex % 2 ^ 16) else p.fieldHashTable.lookup t := by
  unfold ParsedMessageData.insertIntoRootHashTable
  unfold ParsedMessageData.rootIndex at hnone
  by_cases htag : tag < 1024
  · rw [if_pos htag] at hnone ⊢
    rw [lookup_append_singleton]
    by_cases heq : tag = t
    · rw [← heq, hnone, if_pos rfl]
      rfl
    · rw [if_neg heq, if_neg heq, Option.or_none]
  · rw [if_neg htag, if_neg (by omega)]

theorem Refines.insert (h : Refines r p) (hnone : p.rootIndex tag = none) (slotIndex : Nat) :
    Refines ((r.insertIntoRootHashTable tag slotIndex).cacheSlot tag slotIndex)
      (p.insertIntoRootHashTable tag slotIndex) := by
  have hkept : ((r.insertIntoRootHashTable tag slotIndex).cacheSlot tag slotIndex).pool = r.pool ∧
      ((r.insertIntoRootHashTable tag slotIndex).cacheSlot tag slotIndex).fieldHashOverflow =
        (r.insertIntoRootHashTable tag slotIndex).fieldHashOverflow ∧
      (∀ t, ((r.insertIntoRootHashTable tag slotIndex).cacheSlot tag slotIndex).rootIndex t =
        (r.insertIntoRootHashTable tag slotIndex).rootIndex t) ∧
      (r.insertIntoRootHashTable tag slotIndex).quickCache = r.quickCache := by
    unfold ReusedData.cacheSlot ReusedData.insertIntoRootHashTable
    refine ⟨?_, ?_, fun t => ?_, ?_⟩ <;> repeat' split
    all_goals rfl
  obtain ⟨hpool, hoverflow, hindex, hcache⟩ := hkept
  refine ⟨?_, fun t ht => ?_, ?_, ?_, (h.stamped.insert ..).cacheSlot ..⟩
  · rw [hpool, h.pool]
    unfold ParsedMessageData.insertIntoRootHashTable
    split <;> rfl
  · rw [hindex, h.stamped.rootIndex_insert _ _ ht, h.index t ht, lookup_insert hnone _ ht]
  · rw [hoverflow]
    unfold ReusedData.insertIntoRootHashTable ParsedMessageData.insertIntoRootHashTable
    by_cases htag : tag < 1024
    · rw [if_pos htag, if_pos (by exact htag)]
      exact h.overflow
    · rw [if_neg htag, if_neg (by exact htag)]
      simp [h.overflow]
  · rw [cacheSlot_quickCache (hcache.trans h.cached)]
    refine List.map_congr_left fun t ht => ?_
    have hsmall : ∀ t ∈ quickCacheTags, t < 1024 := by decide
    rw [lookup_insert hnone _ (hsmall t ht)]
    by_cases heq : tag = t
    · rw [if_pos heq, ← heq, Function.update_self]
      rfl
    · rw [if_neg heq, Function.update_of_ne fun he => heq he.symm]

theorem Refines.withPool (h : Refines r p) {pool q : ParsedMessageData} (hpool : pool = q.bare)
    (htable : q.fieldHashTable = p.fieldHashTable)
    (hoverflow : q.fieldHashOverflow = p.fieldHashOverflow) : Refines { r with pool } q :=
  ⟨hpool, htable ▸ h.index, hoverflow ▸ h.overflow, htable ▸ h.cached,
    ⟨h.stamped.length_eq, h.stamped.pos, h.stamped.lt, h.stamped.le⟩⟩

theorem Refines.untabled {α : Type} {f : ParsedMessageData → ParsedMessageData × α}
    (h : Refines r p) (hf : ParsedMessageData.Untabled f) :
    (f r.pool).2 = (f p).2 ∧ Refines { r with pool := (f r.pool).1 } (f p).1 := by
  obtain ⟨hbare, htable, hoverflow⟩ := hf p
  rw [h.pool, hbare]
  exact ⟨rfl, h.withPool rfl htable hoverflow⟩

theorem Refines.appendRootSlot (h : Refines r p) (slot : ParsedFieldSlot) :
    Refines (ReusedData.appendRootSlot slot r) (p.appendFieldSlot .root slot).1 := by
  unfold ReusedData.appendRootSlot ParsedMessageData.appendFieldSlot
  rw [h.rootIndex_eq, h.pool, show p.findFieldIndex .root slot.tag = p.rootIndex slot.tag from rfl]
  cases hindex : p.rootIndex slot.tag with
  | some existing => exact h.withPool rfl rfl rfl
  | none =>
    dsimp only
    rw [if_pos rfl]
    refine Refines.insert ?_ ?_ _
    · exact h.withPool rfl rfl rfl
    · exact hindex

theorem Refines.related : ReusedData.ops.Related ParsedMessageData.ops Refines where
  setMsgType msgType {r p} h := h.withPool (by rw [h.pool]; rfl) rfl rfl
  appendRootSlot slot {r p} h := h.appendRootSlot slot
  ensureGroup c countTag depth {r p} h :=
    h.untabled (ParsedMessageData.ensureGroup_untabled c countTag depth)
  appendEntry frame {r p} h := h.untabled (ParsedMessageData.appendEntry_untabled frame)
  appendEntrySlot entry slot {r p} h :=
    (h.untabled (ParsedMessageData.appendFieldSlot_untabled entry slot)).2

theorem Refines.findField_eq (h : Refines r p) (tag : Nat) : r.findField tag = p.findField tag := by
  unfold ReusedData.findField ParsedMessageData.findField
  rw [h.pool]
  refine if_congr Iff.rfl rfl ?_
  cases hslot : quickCacheSlotForTag tag with
  | none =>
    have hquick : ParsedMessageData.isQuickCacheTag tag = false := by
      have hnot := List.findIdx?_eq_none_iff.1 hslot
      rw [ParsedMessageData.isQuickCacheTag, List.contains_eq_mem, decide_eq_false_iff_not]
      exact fun hmem => by simpa using hnot tag hmem
    simp only [hquick, Bool.false_eq_true, false_and, if_false, h.rootIndex_eq]
    rfl
  | some i =>
    obtain ⟨hi, htag, -⟩ := List.findIdx?_eq_some_iff_getElem.1
      (show quickCacheTags.findIdx? (· == tag) = some i from hslot)
    have hget : quickCacheTags[i]? = some tag := by
      rw [List.getElem?_eq_getElem hi]
      exact congrArg some (beq_iff_eq.1 htag)
    have hmem : tag ∈ quickCacheTags := List.mem_of_getElem? hget
    have hsmall : ∀ t ∈ quickCacheTags, t < 1024 := by decide
    have hcache : r.quickCache.getD i kInvalidHashSlot =
        (p.fieldHashTable.lookup tag).getD kInvalidHashSlot := by
      rw [h.cached, List.getD_eq_getElem?_getD, List.getElem?_map, hget]
      rfl
    have hquick : ParsedMessageData.isQuickCacheTag tag = true := by
      rw [ParsedMessageData.isQuickCacheTag, List.contains_eq_mem]
      exact decide_eq_true hmem
    dsimp only
    rw [hcache, ParsedMessageData.rootIndex, if_pos (hsmall tag hmem)]
    cases p.fieldHashTable.lookup tag with
    | none => rfl
    | some index =>
      simp only [hquick, true_and, Option.getD_some, Option.bind_some]
      rfl

/-! ## A history of decodes -/

/-- A frame to be decoded, with the dictionary, the delimiter and the checksum flag. -/
structure DecodeCall where
  dictionary : Dictionary
  delimiter : Byte
  verifyChecksum : Bool
  bytes : Bytes

def DecodeCall.run (parsesDouble : Bytes → Bool) (call : DecodeCall) :
    Fallible Status ReusedView Unit :=
  decodeInto parsesDouble call.dictionary call.delimiter call.verifyChecksum call.bytes

/-- The view after the decodes, whether they succeeded or failed. -/
def viewAfter (parsesDouble : Bytes → Bool) (calls : List DecodeCall) : ReusedView :=
  calls.foldl (fun v call => (call.run parsesDouble v).2) {}

/-- What can be read off a view: the header, the bytes, the issue, the vectors (and with them all
fields by index, groups, entries and copies), and every lookup by a tag. -/
structure SameView (v v' : ReusedView) : Prop where
  header : v.header = v'.header
  raw : v.raw = v'.raw
  validationIssue : v.validationIssue = v'.validationIssue
  pool : v.data.pool = v'.data.pool
  findField : ∀ tag, v.data.findField tag = v'.data.findField tag

/-- What a decode leaves in a view whose tables are well stamped, told by the decoder on a parsed
message of the model: its status, the header and the issue it hands out, and the tables. -/
theorem run_refines (parsesDouble : Bytes → Bool) (call : DecodeCall) {v : ReusedView}
    (h : v.data.Stamped) {x : Except Status (SessionHeaderView × Option ValidationIssue)}
    {p : ParsedMessageData}
    (hrun : decodeOn ParsedMessageData.ops parsesDouble call.dictionary
      (normalizeDelimiter call.delimiter) call.verifyChecksum call.bytes {} = (x, p)) :
    (call.run parsesDouble v).1 = x.map (fun _ => ()) ∧
      ((call.run parsesDouble v).2.header, (call.run parsesDouble v).2.validationIssue) =
        x.toOption.getD ({}, none) ∧
      (call.run parsesDouble v).2.raw = call.bytes ∧
      Refines (call.run parsesDouble v).2.data p := by
  have hdecode : Simulates Refines
      (decodeOn ReusedData.ops parsesDouble call.dictionary (normalizeDelimiter call.delimiter)
        call.verifyChecksum call.bytes)
      (decodeOn ParsedMessageData.ops parsesDouble call.dictionary
        (normalizeDelimiter call.delimiter) call.verifyChecksum call.bytes) :=
    decodeOn_simulates Refines.related _ _
  have hsimulates := hdecode _ _ (Refines.reset h)
  rw [hrun] at hsimulates
  unfold DecodeCall.run decodeInto ReusedView.prepareDecodeOutput
  dsimp only
  revert hsimulates
  generalize decodeOn ReusedData.ops parsesDouble call.dictionary _ call.verifyChecksum call.bytes
    v.data.resetForNewDecode = r
  obtain ⟨x', data⟩ := r
  rintro ⟨hvalue, hdata⟩
  cases hvalue
  cases x with
  | error e => exact ⟨rfl, rfl, rfl, hdata⟩
  | ok result => exact ⟨rfl, rfl, rfl, hdata⟩

/-- Decoding into a view whose tables are well stamped is decoding by the generic decoder. -/
theorem decodeInto_refines {parsesDouble : Bytes → Bool} (call : DecodeCall) {v : ReusedView}
    (h : v.data.Stamped) :
    (call.run parsesDouble v).1 = (decodeFixMessageViewGeneric parsesDouble call.dictionary
        call.delimiter call.verifyChecksum call.bytes).map (fun _ => ()) ∧
      ∀ view, decodeFixMessageViewGeneric parsesDouble call.dictionary call.delimiter
          call.verifyChecksum call.bytes = .ok view →
        (call.run parsesDouble v).2.header = view.header ∧
        (call.run parsesDouble v).2.raw = view.raw ∧
        (call.run parsesDouble v).2.validationIssue = view.validationIssue ∧
        ∃ p, Refines (call.run parsesDouble v).2.data p ∧ view.message = p.locate view.raw := by
  have hgeneric := decodeOn_runs parsesDouble call.dictionary call.delimiter call.verifyChecksum
    call.bytes
  unfold Runs at hgeneric
  generalize hrun : decodeOn ParsedMessageData.ops parsesDouble call.dictionary
    (normalizeDelimiter call.delimiter) call.verifyChecksum call.bytes {} = r at hgeneric
  obtain ⟨x, p⟩ := r
  obtain ⟨hstatus, hshown, hraw, hdata⟩ := run_refines parsesDouble call h hrun
  rw [hgeneric, hstatus]
  cases x with
  | error e => exact ⟨rfl, fun view hview => by cases hview⟩
  | ok result =>
    obtain ⟨hheader, hissue⟩ := Prod.mk.inj hshown
    refine ⟨rfl, fun view hview => ?_⟩
    cases hview
    exact ⟨hheader, hraw, hissue, p, hdata, rfl⟩

theorem run_same {parsesDouble : Bytes → Bool} (call : DecodeCall) {v v' : ReusedView}
    (h : v.data.Stamped) (h' : v'.data.Stamped) :
    (call.run parsesDouble v).1 = (call.run parsesDouble v').1 ∧
      SameView (call.run parsesDouble v).2 (call.run parsesDouble v').2 ∧
      (call.run parsesDouble v).2.data.Stamped := by
  obtain ⟨hstatus, hshown, hraw, hdata⟩ := run_refines parsesDouble call h rfl
  obtain ⟨hstatus', hshown', hraw', hdata'⟩ := run_refines parsesDouble call h' rfl
  obtain ⟨hheader, hissue⟩ := Prod.mk.inj (hshown.trans hshown'.symm)
  refine ⟨hstatus.trans hstatus'.symm, ⟨hheader, hraw.trans hraw'.symm, hissue,
    hdata.pool.trans hdata'.pool.symm, fun tag => ?_⟩, hdata.stamped⟩
  rw [hdata.findField_eq, hdata'.findField_eq]

theorem viewAfter_stamped (parsesDouble : Bytes → Bool) (calls : List DecodeCall) :
    (viewAfter parsesDouble calls).data.Stamped := by
  have hrun : ∀ (calls : List DecodeCall) (v : ReusedView), v.data.Stamped →
      (calls.foldl (fun v call => (call.run parsesDouble v).2) v).data.Stamped := by
    intro calls
    induction calls with
    | nil => exact fun v h => h
    | cons call calls ih => exact fun v h => ih _ (run_same call h h).2.2
  exact hrun calls {} .fresh

/-- Decoding into a view after any decodes ends as decoding into a new view, and leaves a view that
shows the same. -/
theorem reused_view_decodes_as_fresh (parsesDouble : Bytes → Bool) (earlier : List DecodeCall)
    (call : DecodeCall) :
    (call.run parsesDouble (viewAfter parsesDouble earlier)).1 = (call.run parsesDouble {}).1 ∧
      SameView (call.run parsesDouble (viewAfter parsesDouble earlier)).2
        (call.run parsesDouble {}).2 := by
  have hfresh : ({} : ReusedView).data.Stamped := .fresh
  obtain ⟨hstatus, hview, -⟩ := run_same call (viewAfter_stamped parsesDouble earlier) hfresh
  exact ⟨hstatus, hview⟩

end NimbleFix
