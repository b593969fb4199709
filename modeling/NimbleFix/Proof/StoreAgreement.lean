import Mathlib.Algebra.Order.BigOperators.Group.List
import NimbleFix.Proof.DurableRefresh
import NimbleFix.Proof.MmapCrash
import NimbleFix.Spec.StoreLog

/-!
# The three stores agree

The store in memory, the memory-mapped store and the durable store without a limit on archived
segments each hold what the log of the saves says. The exception is the combined save of a received
frame in memory, which keeps the state under the session of the frame and not under its own.
-/

namespace NimbleFix

open Fallible StoreLog

open MemorySessionStore (upsertBySequence)

/-! ## The operations of each store -/

namespace StoreOp

def onMemory : StoreOp → MemorySessionStore → MemorySessionStore
  | saveOutbound record, m => (MemorySessionStore.saveOutboundView record m).2
  | saveInbound record, m => (MemorySessionStore.saveInboundView record m).2
  | saveRecovery state, m => (MemorySessionStore.saveRecoveryState state m).2
  | saveOutboundAndRecovery record state, m =>
    (SessionStore.saveOutboundViewAndRecoveryState record state m).2
  | saveInboundAndRecovery record state, m =>
    (SessionStore.saveInboundViewAndRecoveryState record state m).2
  | reset sessionId, m => (MemorySessionStore.resetSession sessionId m).2
  | _, m => m

def onMmap : StoreOp → MmapSessionStore → MmapSessionStore
  | saveOutbound record, p => (MmapSessionStore.append (.outbound record) p).2
  | saveInbound record, p => (MmapSessionStore.append (.inbound record) p).2
  | saveRecovery state, p => (MmapSessionStore.append (.recovery state) p).2
  | saveOutboundAndRecovery record state, p =>
    (SessionStore.saveOutboundViewAndRecoveryState record state p).2
  | saveInboundAndRecovery record state, p =>
    (SessionStore.saveInboundViewAndRecoveryState record state p).2
  | flush, p => (MmapSessionStore.flush p).2
  | rollover, p => p
  | reset sessionId, p => (MmapSessionStore.resetSession sessionId p).2
  | reopen, p => (MmapSessionStore.refresh p).2
  | loadOutbound sessionId beginSeq endSeq, p =>
    (MmapSessionStore.loadOutboundRange sessionId beginSeq endSeq p).2
  | loadInbound sessionId beginSeq endSeq, p =>
    (MmapSessionStore.loadInboundRange sessionId beginSeq endSeq p).2
  | loadRecovery sessionId, p => (MmapSessionStore.loadRecoveryState sessionId p).2

def toDurable : StoreOp → DurableOp
  | saveOutbound record => .saveOutbound record
  | saveInbound record => .saveInbound record
  | saveRecovery state => .saveRecovery state
  | saveOutboundAndRecovery record state => .saveOutboundAndRecovery record state
  | saveInboundAndRecovery record state => .saveInboundAndRecovery record state
  | flush => .flush
  | rollover => .rollover
  | reset sessionId => .reset sessionId
  | reopen => .reopen
  | loadOutbound sessionId beginSeq endSeq => .loadOutbound sessionId beginSeq endSeq
  | loadInbound sessionId beginSeq endSeq => .loadInbound sessionId beginSeq endSeq
  | loadRecovery sessionId => .loadRecovery sessionId

/-- Every store accepts the operation. -/
def Valid (op : StoreOp) : Prop :=
  (∀ e ∈ op.entries, e.Typed ∧ MmapSessionStore.validateEntry e = .ok ()) ∧
    ∀ sessionId, op = .reset sessionId → sessionId ≠ 0

/-- A received frame is saved with the state of its own session. -/
def SameSession : StoreOp → Prop
  | saveInboundAndRecovery record state => state.sessionId = record.sessionId
  | _ => True

end StoreOp

/-! ## The store in memory -/

namespace MemorySessionStore

variable {record : MessageRecord}

theorem validateRecordView_of_mmap (h : MmapSessionStore.validateRecordView record = .ok ()) :
    validateRecordView record = .ok () := by
  obtain ⟨hid, hseq, -⟩ := MmapSessionStore.validateRecordView_ok h
  exact validateRecordView_ok hid hseq

variable {m : MemorySessionStore}

theorem saveOutboundView_sessions (h : MmapSessionStore.validateRecordView record = .ok ()) :
    (saveOutboundView record m).2.sessions = addEntry m.sessions (.outbound record) := by
  rw [saveOutboundView_apply (validateRecordView_of_mmap h)]
  rfl

theorem saveInboundView_sessions (h : MmapSessionStore.validateRecordView record = .ok ()) :
    (saveInboundView record m).2.sessions = addEntry m.sessions (.inbound record) := by
  unfold saveInboundView
  rw [validateRecordView_of_mmap h]
  rfl

theorem saveRecoveryState_sessions {state : SessionRecoveryState} (h : state.sessionId ≠ 0) :
    (saveRecoveryState state m).2.sessions = addEntry m.sessions (.recovery state) := by
  rw [saveRecoveryState_apply h]
  rfl

theorem saveInboundViewAndRecoveryState_sessions {state : SessionRecoveryState}
    (h : MmapSessionStore.validateRecordView record = .ok ())
    (hsame : state.sessionId = record.sessionId) :
    (saveInboundViewAndRecoveryState record state m).2.sessions =
      addEntry (addEntry m.sessions (.inbound record)) (.recovery state) := by
  rw [saveInboundViewAndRecoveryState_apply (validateRecordView_of_mmap h)]
  simp only [addEntry, StoreEntry.sessionId, hsame, Function.update_self, Function.update_idem]
  rfl

theorem onMemory_sessions {op : StoreOp} (hvalid : op.Valid) (hsame : op.SameSession)
    {entries : List StoreEntry} (hm : m.sessions = contentOf entries) :
    (op.onMemory m).sessions = contentOf (act op entries) := by
  have hentries := fun e he => (hvalid.1 e he).2
  cases op with
  | saveOutbound record =>
    have hrecord := hentries _ List.mem_cons_self
    exact (saveOutboundView_sessions hrecord).trans (by rw [hm, ← contentOf_append]; rfl)
  | saveInbound record =>
    have hrecord := hentries _ List.mem_cons_self
    exact (saveInboundView_sessions hrecord).trans (by rw [hm, ← contentOf_append]; rfl)
  | saveRecovery state =>
    have hstate := MmapSessionStore.validateState_ok (hentries _ List.mem_cons_self)
    exact (saveRecoveryState_sessions hstate).trans (by rw [hm, ← contentOf_append]; rfl)
  | saveOutboundAndRecovery record state =>
    have hrecord : MmapSessionStore.validateRecordView record = .ok () :=
      hentries _ List.mem_cons_self
    have hstate := MmapSessionStore.validateState_ok
      (hentries _ (List.mem_cons_of_mem _ List.mem_cons_self))
    change ((do saveOutboundView record; saveRecoveryState state :
      Method MemorySessionStore Unit) m).2.sessions = contentOf (entries ++ ([_] ++ [_]))
    rw [bind_of_ok (saveOutboundView_apply (validateRecordView_of_mmap hrecord) m),
      saveRecoveryState_sessions hstate, ← List.append_assoc, contentOf_append, contentOf_append, ← hm]
    rfl
  | saveInboundAndRecovery record state =>
    have hrecord := hentries _ List.mem_cons_self
    refine (saveInboundViewAndRecoveryState_sessions hrecord hsame).trans ?_
    rw [hm, ← contentOf_append, ← contentOf_append, List.append_assoc]
    rfl
  | reset sessionId =>
    change Function.update m.sessions sessionId {} = _
    rw [hm, ← contentOf_without]
    rfl
  | _ =>
    change m.sessions = contentOf (entries ++ [])
    rw [hm, List.append_nil]

end MemorySessionStore

/-! ## The memory-mapped store -/

namespace MmapSessionStore

theorem indexOf_outbound (entries : List StoreEntry) (sessionId : Nat) :
    (indexOf entries).outbound sessionId = (contentOf entries sessionId).outbound := by
  induction entries using List.reverseRecOn with
  | nil => rfl
  | append_singleton entries entry ih =>
    rw [indexOf_append, contentOf_append, addEntry]
    by_cases hid : sessionId = entry.sessionId
    · subst hid
      rw [Function.update_self]
      cases entry with
      | outbound record =>
        exact (Function.update_self ..).trans (congrArg (upsertBySequence record) ih)
      | inbound record => exact ih
      | recovery state => exact ih
    · rw [Function.update_of_ne hid, ← ih]
      cases entry with
      | outbound record => exact Function.update_of_ne hid _ _
      | inbound record => rfl
      | recovery state => rfl

theorem indexOf_recoveryStates (entries : List StoreEntry) (sessionId : Nat) :
    (indexOf entries).recoveryStates sessionId = (contentOf entries sessionId).recovery := by
  induction entries using List.reverseRecOn with
  | nil => rfl
  | append_singleton entries entry ih =>
    rw [indexOf_append, contentOf_append, addEntry]
    by_cases hid : sessionId = entry.sessionId
    · subst hid
      rw [Function.update_self]
      cases entry with
      | outbound record => exact ih
      | inbound record => exact ih
      | recovery state => exact Function.update_self ..
    · rw [Function.update_of_ne hid, ← ih]
      cases entry with
      | outbound record => rfl
      | inbound record => rfl
      | recovery state => exact Function.update_of_ne hid _ _

theorem inboundIn?_filterMap (entries : List StoreEntry) (sessionId beginSeq endSeq : Nat) :
    entries.filterMap (StoreEntry.inboundIn? sessionId beginSeq endSeq) =
      (contentOf entries sessionId).inbound.filter fun r =>
        beginSeq ≤ r.seqNum && r.seqNum ≤ endSeq := by
  induction entries using List.reverseRecOn with
  | nil => rfl
  | append_singleton entries entry ih =>
    rw [List.filterMap_append, ih, contentOf_append, addEntry]
    by_cases hid : sessionId = entry.sessionId
    · subst hid
      rw [Function.update_self]
      cases entry with
      | outbound record => exact List.append_nil _
      | inbound record =>
        rw [addTo, List.filter_append]
        refine congrArg _ ?_
        by_cases hrange : beginSeq ≤ record.seqNum ∧ record.seqNum ≤ endSeq
        · simp [StoreEntry.inboundIn?, StoreEntry.sessionId, hrange]
        · simp only [List.filterMap_cons, List.filterMap_nil, StoreEntry.inboundIn?,
            StoreEntry.sessionId, true_and, if_neg hrange]
          rw [List.filter_cons_of_neg (by simpa using hrange), List.filter_nil]
      | recovery state => exact List.append_nil _
    · rw [Function.update_of_ne hid]
      have hnone : StoreEntry.inboundIn? sessionId beginSeq endSeq entry = none := by
        cases entry with
        | outbound record => rfl
        | inbound record => exact if_neg fun h => hid h.1.symm
        | recovery state => rfl
      rw [List.filterMap_cons_none hnone, List.filterMap_nil, List.append_nil]

/-- The size of a file with the entries. -/
def fileSizeOf (entries : List StoreEntry) : Nat :=
  kStoreFileHeaderSize +
    (entries.map fun e => kStoreRecordHeaderSize + (entryPayload e).length).sum

/-- The store holds the entries and its file nothing else. -/
def HasOnly (p : MmapSessionStore) (entries : List StoreEntry) : Prop :=
  p.Has ⟨entries, fileSizeOf entries⟩

theorem log_add (entries : List StoreEntry) (entry : StoreEntry) :
    Log.add ⟨entries, fileSizeOf entries⟩ entry =
      ⟨entries ++ [entry], fileSizeOf (entries ++ [entry])⟩ := by
  simp [Log.add, fileSizeOf, Nat.add_assoc]

variable {p : MmapSessionStore} {entries : List StoreEntry}

theorem HasOnly.append (h : p.HasOnly entries) {entry : StoreEntry} (htyped : entry.Typed)
    (hvalid : validateEntry entry = .ok ()) (hsize : fileSizeOf (entries ++ [entry]) < 2 ^ 63) :
    ∃ p', append entry p = (.ok (), p') ∧ p'.HasOnly (entries ++ [entry]) := by
  obtain ⟨hstatus, hhas⟩ := Has.append h htyped
  have hlog : Log.append entry ⟨entries, fileSizeOf entries⟩ =
      (.ok (), ⟨entries ++ [entry], fileSizeOf (entries ++ [entry])⟩) := by
    unfold Log.append
    rw [hvalid, log_add]
    exact if_neg (Nat.not_le.2 hsize)
  rw [hlog] at hstatus hhas
  exact ⟨_, Prod.ext hstatus rfl, hhas⟩

theorem HasOnly.openStore (h : p.HasOnly entries) :
    openStore p = (.ok (), ⟨p.file, some (indexOf entries)⟩) := Has.openStore h

theorem HasOnly.opened (h : p.HasOnly entries) : HasOnly ⟨p.file, some (indexOf entries)⟩ entries :=
  ⟨h.holds, fun _ hindex => (Option.some.inj hindex).symm⟩

theorem HasOnly.ensureMapping (h : p.HasOnly entries) :
    ensureMapping p = (.ok (), ⟨p.file, some (indexOf entries)⟩) := by
  unfold MmapSessionStore.ensureMapping
  split
  · rename_i hopen
    obtain ⟨index, hindex⟩ := Option.isSome_iff_exists.1 hopen
    rw [← h.index index hindex, ← hindex]
  · exact h.openStore

/-- A new store. -/
def opened : MmapSessionStore := ⟨initialized [], some (indexOf [])⟩

theorem openStore_new : openStore {} = (.ok (), opened) := by
  have hnew : Has ⟨initialized [], none⟩ ⟨[], kStoreFileHeaderSize⟩ :=
    ⟨holds_new, fun _ h => by cases h⟩
  have hagain : initialized (initialized []) = initialized [] := by
    have hne := holds_new.ne_nil []
    rw [List.append_nil] at hne
    exact if_neg hne
  refine Eq.trans ?_ hnew.openStore
  unfold MmapSessionStore.openStore
  dsimp only
  rw [hagain]

theorem hasOnly_opened : HasOnly opened [] := ⟨holds_new, fun _ h => (Option.some.inj h).symm⟩

theorem HasOnly.rebuild (sessionId : Nat)
    (hvalid : ∀ e ∈ entries, e.Typed ∧ validateEntry e = .ok ()) :
    ∀ {p : MmapSessionStore} {done : List StoreEntry}, p.HasOnly done →
      fileSizeOf (done ++ without sessionId entries) < 2 ^ 63 →
      ∃ p', rebuild sessionId entries p = (.ok (), p') ∧
        p'.HasOnly (done ++ without sessionId entries) := by
  induction entries with
  | nil =>
    intro p done h _
    exact ⟨p, rfl, (List.append_nil done).symm ▸ h⟩
  | cons entry entries ih =>
    intro p done h hsize
    have hrest : ∀ e ∈ entries, e.Typed ∧ validateEntry e = .ok () :=
      fun e he => hvalid e (List.mem_cons_of_mem _ he)
    by_cases hid : entry.sessionId = sessionId
    · have hwithout : without sessionId (entry :: entries) = without sessionId entries :=
        List.filter_cons_of_neg (by simpa using hid)
      rw [hwithout] at hsize ⊢
      obtain ⟨p', hp', hhas⟩ := ih hrest h hsize
      refine ⟨p', ?_, hhas⟩
      rw [MmapSessionStore.rebuild, if_pos hid]
      exact hp'
    · have hwithout : without sessionId (entry :: entries) = entry :: without sessionId entries :=
        List.filter_cons_of_pos (by simpa using hid)
      rw [hwithout, List.append_cons] at hsize ⊢
      obtain ⟨htyped, hentry⟩ := hvalid entry List.mem_cons_self
      have hone : fileSizeOf (done ++ [entry]) < 2 ^ 63 := by
        refine Nat.lt_of_le_of_lt ?_ hsize
        simp only [fileSizeOf, List.map_append, List.sum_append]
        omega
      obtain ⟨p₁, hp₁, hhas₁⟩ := h.append htyped hentry hone
      obtain ⟨p', hp', hhas⟩ := ih hrest hhas₁ hsize
      refine ⟨p', ?_, hhas⟩
      rw [MmapSessionStore.rebuild, if_neg hid]
      exact (bind_of_ok hp₁).trans hp'

theorem fileSizeOf_without_le (sessionId : Nat) (entries : List StoreEntry) :
    fileSizeOf (without sessionId entries) ≤ fileSizeOf entries :=
  Nat.add_le_add_left
    (List.Sublist.sum_le_sum (List.filter_sublist.map _) fun _ _ => Nat.zero_le _) _

theorem HasOnly.resetSession (h : p.HasOnly entries)
    (hvalid : ∀ e ∈ entries, e.Typed ∧ validateEntry e = .ok ())
    (hsize : fileSizeOf entries < 2 ^ 63) {sessionId : Nat} (hid : sessionId ≠ 0) :
    HasOnly (resetSession sessionId p).2 (without sessionId entries) := by
  have hscan : scanMapping p.file (fileHeader p.file).fileSize =
      ⟨entries, p.file.length, false⟩ := by
    have hmapping := h.holds.scanMapping []
    rw [List.append_nil] at hmapping
    rw [h.holds.fileSize, hmapping]
  obtain ⟨p', hrebuild, hhas⟩ := HasOnly.rebuild sessionId hvalid hasOnly_opened
    (Nat.lt_of_le_of_lt (fileSizeOf_without_le sessionId entries) hsize)
  have hclosed : HasOnly ⟨p'.file, none⟩ (without sessionId entries) :=
    ⟨hhas.holds, fun _ hnone => by cases hnone⟩
  have hreplace : replaceFile sessionId ⟨p.file, some (indexOf entries)⟩ =
      MmapSessionStore.openStore ⟨p'.file, none⟩ := by
    unfold replaceFile
    dsimp only
    rw [hscan, bind_of_ok openStore_new, hrebuild]
  unfold MmapSessionStore.resetSession
  rw [if_neg hid, bind_of_ok h.openStore, hreplace, hclosed.openStore]
  exact hclosed.opened

section

theorem HasOnly.loadOutboundRange (h : p.HasOnly entries) (sessionId beginSeq endSeq : Nat) :
    loadOutboundRange sessionId beginSeq endSeq p =
      if beginSeq = 0 ∨ endSeq = 0 ∨ endSeq < beginSeq then
        (.error (.InvalidArgument "invalid outbound load range"), p)
      else
        (.ok (MemorySessionStore.scanRange beginSeq endSeq (contentOf entries sessionId).outbound),
          ⟨p.file, some (indexOf entries)⟩) := by
  unfold MmapSessionStore.loadOutboundRange
  split
  · rfl
  · rw [bind_of_ok h.ensureMapping, ← indexOf_outbound]
    rfl

theorem HasOnly.loadInboundRange (h : p.HasOnly entries) (sessionId beginSeq endSeq : Nat) :
    loadInboundRange sessionId beginSeq endSeq p =
      if beginSeq = 0 ∨ endSeq = 0 ∨ endSeq < beginSeq then
        (.error (.InvalidArgument "invalid inbound load range"), p)
      else
        (.ok (MemorySessionStore.inboundRange beginSeq endSeq (contentOf entries sessionId).inbound),
          ⟨p.file, some (indexOf entries)⟩) := by
  have hmin : min (fileHeader p.file).fileSize p.file.length = p.file.length := by
    rw [h.holds.fileSize, Nat.min_self]
  have hfound := h.holds.scans.inboundRecords sessionId beginSeq endSeq (Nat.le_refl _)
  rw [inboundIn?_filterMap] at hfound
  unfold MmapSessionStore.loadInboundRange
  split
  · rfl
  · rw [bind_of_ok h.ensureMapping, bind_of_ok (get_apply _)]
    dsimp only
    rw [hmin, List.take_length, hfound]
    rfl

theorem HasOnly.loadRecoveryState (h : p.HasOnly entries) (sessionId : Nat) :
    loadRecoveryState sessionId p =
      match (contentOf entries sessionId).recovery with
      | none => (.error (.NotFound "recovery state not found"), ⟨p.file, some (indexOf entries)⟩)
      | some state => (.ok state, ⟨p.file, some (indexOf entries)⟩) := by
  unfold MmapSessionStore.loadRecoveryState
  rw [bind_of_ok h.openStore, bind_of_ok (get_apply _),
    ← indexOf_recoveryStates]
  dsimp only [index, Option.getD_some]
  cases (indexOf entries).recoveryStates sessionId <;> rfl

theorem HasOnly.append_two (h : p.HasOnly entries) {first second : StoreEntry}
    (hvalid : ∀ e ∈ [first, second], e.Typed ∧ validateEntry e = .ok ())
    (hsize : fileSizeOf (entries ++ [first, second]) < 2 ^ 63) :
    HasOnly ((do MmapSessionStore.append first; MmapSessionStore.append second :
      Method MmapSessionStore Unit) p).2 (entries ++ [first, second]) := by
  have hfirst := hvalid first List.mem_cons_self
  have hsecond := hvalid second (List.mem_cons_of_mem _ List.mem_cons_self)
  have hone : fileSizeOf (entries ++ [first]) < 2 ^ 63 := by
    refine Nat.lt_of_le_of_lt ?_ hsize
    simp only [fileSizeOf, List.map_append, List.sum_append, List.map_cons, List.sum_cons]
    omega
  rw [List.append_cons] at hsize ⊢
  obtain ⟨p₁, hp₁, hhas₁⟩ := h.append hfirst.1 hfirst.2 hone
  obtain ⟨p₂, hp₂, hhas₂⟩ := hhas₁.append hsecond.1 hsecond.2 hsize
  rw [bind_of_ok hp₁, hp₂]
  exact hhas₂

theorem HasOnly.onMmap (h : p.HasOnly entries)
    (hentries : ∀ e ∈ entries, e.Typed ∧ validateEntry e = .ok ())
    (hfits : fileSizeOf entries < 2 ^ 63) {op : StoreOp} (hvalid : op.Valid)
    (hsize : fileSizeOf (act op entries) < 2 ^ 63) : (op.onMmap p).HasOnly (act op entries) := by
  have hsame : ∀ {p' : MmapSessionStore}, p'.HasOnly entries → p'.HasOnly (entries ++ []) :=
    fun h' => (List.append_nil entries).symm ▸ h'
  have hone : ∀ e, e.Typed ∧ validateEntry e = .ok () → fileSizeOf (entries ++ [e]) < 2 ^ 63 →
      HasOnly (MmapSessionStore.append e p).2 (entries ++ [e]) := by
    intro e he hlt
    obtain ⟨p', hp', hhas⟩ := h.append he.1 he.2 hlt
    rw [hp']
    exact hhas
  cases op with
  | saveOutbound record => exact hone _ (hvalid.1 _ List.mem_cons_self) hsize
  | saveInbound record => exact hone _ (hvalid.1 _ List.mem_cons_self) hsize
  | saveRecovery state => exact hone _ (hvalid.1 _ List.mem_cons_self) hsize
  | saveOutboundAndRecovery record state => exact h.append_two hvalid.1 hsize
  | saveInboundAndRecovery record state => exact h.append_two hvalid.1 hsize
  | flush =>
    refine hsame ?_
    change HasOnly (MmapSessionStore.flush p).2 entries
    unfold MmapSessionStore.flush
    split <;> exact h
  | rollover => exact hsame h
  | reset sessionId => exact h.resetSession hentries hfits (hvalid.2 sessionId rfl)
  | reopen =>
    refine hsame ?_
    have hclosed : HasOnly ⟨p.file, none⟩ entries := ⟨h.holds, fun _ hnone => by cases hnone⟩
    change HasOnly (MmapSessionStore.openStore ⟨p.file, none⟩).2 entries
    rw [hclosed.openStore]
    exact hclosed.opened
  | loadOutbound sessionId beginSeq endSeq =>
    refine hsame ?_
    change HasOnly (MmapSessionStore.loadOutboundRange sessionId beginSeq endSeq p).2 entries
    rw [h.loadOutboundRange]
    split
    · exact h
    · exact h.opened
  | loadInbound sessionId beginSeq endSeq =>
    refine hsame ?_
    change HasOnly (MmapSessionStore.loadInboundRange sessionId beginSeq endSeq p).2 entries
    rw [h.loadInboundRange]
    split
    · exact h
    · exact h.opened
  | loadRecovery sessionId =>
    refine hsame ?_
    change HasOnly (MmapSessionStore.loadRecoveryState sessionId p).2 entries
    rw [h.loadRecoveryState]
    split <;> exact h.opened

end

end MmapSessionStore

/-! ## The durable store -/

open MmapSessionStore (validateEntry validateState_ok validateRecordView_ok fileSizeOf
  fileSizeOf_without_le kStoreRecordHeaderSize entryPayload)

namespace DurableBatchSessionStore

variable {o : DurableBatchStoreOptions}

/-- The record of an entry that is one. -/
def logRecord? : StoreEntry → Option LogRecord
  | .outbound record => some (.outbound record)
  | .inbound record => some (.inbound record)
  | .recovery _ => none

theorem validateRecordView_of_mmap {record : MessageRecord}
    (h : MmapSessionStore.validateRecordView record = .ok ()) :
    validateRecordView record = .ok () := by
  obtain ⟨hid, hseq, hlen, hbody⟩ := validateRecordView_ok h
  unfold validateRecordView
  rw [if_neg hid, if_neg hseq, if_neg (Nat.not_lt.2 hlen), if_neg (Nat.not_lt.2 hbody)]

theorem validateRecordView_of_entry {entry : StoreEntry} {record : LogRecord}
    (h : validateEntry entry = .ok ()) (hrecord : logRecord? entry = some record) :
    validateRecordView record.record = .ok () := by
  cases entry with
  | outbound r =>
    cases hrecord
    exact validateRecordView_of_mmap h
  | inbound r =>
    cases hrecord
    exact validateRecordView_of_mmap h
  | recovery state => cases hrecord

/-- The payloads of the operation are queued at offsets below 4 GiB, and so are those of the copy
that a reset makes. -/
def HasRoom (op : StoreOp) (d : DurableBatchSessionStore o) : Prop :=
  match op with
  | .saveOutbound _ | .saveInbound _ => d.arena.length < 2 ^ 32
  | .saveOutboundAndRecovery _ _ | .saveInboundAndRecovery _ _ => d.arena.length < 2 ^ 32
  | .reset sessionId => Fitting o (d.logged.filter (·.isOther sessionId))
  | _ => True

/-- The log on disk and in the queue is that of the entries. -/
structure HasEntries (d : DurableBatchSessionStore o) (entries : List StoreEntry) : Prop where
  logged : d.logged = entries.filterMap logRecord?
  recovered : ∀ sessionId, d.recovered sessionId = (contentOf entries sessionId).recovery

theorem HasEntries.of_sameLog {d d' : DurableBatchSessionStore o} {entries : List StoreEntry}
    (h : d.HasEntries entries) (hsame : SameLog d d') : d'.HasEntries entries :=
  ⟨hsame.1.trans h.logged, fun sessionId => (hsame.2 sessionId).trans (h.recovered sessionId)⟩

theorem outboundIndex_contentOf (entries : List StoreEntry) (sessionId : Nat) :
    outboundIndex sessionId (entries.filterMap logRecord?) =
      (contentOf entries sessionId).outbound := by
  induction entries using List.reverseRecOn with
  | nil => rfl
  | append_singleton entries entry ih =>
    rw [List.filterMap_append, contentOf_append, addEntry]
    by_cases hid : sessionId = entry.sessionId
    · subst hid
      rw [Function.update_self]
      cases entry with
      | outbound record =>
        refine (outboundIndex_append ..).trans ?_
        rw [ih]
        exact if_pos rfl
      | inbound record => exact (outboundIndex_append ..).trans ih
      | recovery state => exact (congrArg _ (List.append_nil _)).trans ih
    · rw [Function.update_of_ne hid]
      cases entry with
      | outbound record =>
        refine (outboundIndex_append ..).trans ?_
        rw [ih]
        exact if_neg fun h => hid h.symm
      | inbound record => exact (outboundIndex_append ..).trans ih
      | recovery state => exact (congrArg _ (List.append_nil _)).trans ih

theorem inboundOf_contentOf (entries : List StoreEntry) (sessionId : Nat) :
    inboundOf sessionId (entries.filterMap logRecord?) = (contentOf entries sessionId).inbound := by
  induction entries using List.reverseRecOn with
  | nil => rfl
  | append_singleton entries entry ih =>
    unfold inboundOf at ih ⊢
    rw [List.filterMap_append, List.filterMap_append, ih, contentOf_append, addEntry]
    by_cases hid : sessionId = entry.sessionId
    · subst hid
      rw [Function.update_self]
      cases entry with
      | outbound record => exact List.append_nil _
      | inbound record => simp [logRecord?, addTo, StoreEntry.sessionId]
      | recovery state => exact List.append_nil _
    · rw [Function.update_of_ne hid]
      cases entry with
      | outbound record => exact List.append_nil _
      | inbound record =>
        have hne : ¬record.sessionId = sessionId := fun h => hid h.symm
        simp [logRecord?, hne]
      | recovery state => exact List.append_nil _

theorem logRecord?_without (sessionId : Nat) (entries : List StoreEntry) :
    (without sessionId entries).filterMap logRecord? =
      (entries.filterMap logRecord?).filter (·.isOther sessionId) := by
  unfold without
  rw [List.filterMap_filter, List.filter_filterMap]
  refine List.filterMap_congr fun entry _ => ?_
  cases entry with
  | outbound record => rfl
  | inbound record => rfl
  | recovery state => exact ite_self none

section

variable {d : DurableBatchSessionStore o} {entries : List StoreEntry}

theorem HasEntries.state (h : d.HasEntries entries) {state : SessionRecoveryState}
    (hid : state.sessionId ≠ 0) :
    ∃ d', queueRecoveryState state d = (.ok (), d') ∧
      d'.HasEntries (entries ++ [.recovery state]) := by
  refine ⟨_, if_neg hid, ?_, fun sessionId => ?_⟩
  · rw [(enqueue_sameLog _ d).1, List.filterMap_append, ← h.logged]
    simp [DurableBatchSessionStore.logged, PendingEntry.message?, logRecord?]
  · have hrecovered := h.recovered sessionId
    rw [(enqueue_sameLog _ d).2, contentOf_append, addEntry]
    unfold DurableBatchSessionStore.recovered at hrecovered ⊢
    rw [List.foldl_append, hrecovered]
    by_cases hsession : sessionId = state.sessionId
    · subst hsession
      rw [StoreEntry.sessionId, Function.update_self]
      exact if_pos rfl
    · rw [StoreEntry.sessionId, Function.update_of_ne hsession]
      exact if_neg fun h => hsession h.symm

variable (hkeep : o.maxArchivedSegments = 0)

include hkeep

theorem HasEntries.message (h : d.HasEntries entries) (harena : d.arena.length < 2 ^ 32)
    {entry : StoreEntry} {record : LogRecord} (hrecord : logRecord? entry = some record)
    (hvalid : validateRecordView record.record = .ok ()) :
    ∃ d', appendMessageView record d = (.ok (), d') ∧ d'.HasEntries (entries ++ [entry]) := by
  refine ⟨_, appendMessageView_of_valid hvalid d, ?_, fun sessionId => ?_⟩
  · rw [(append_log harena fun _ _ _ => .inl hkeep).1, h.logged, List.filterMap_append,
      List.filterMap_cons_some hrecord]
    rfl
  · rw [(append_log harena fun _ _ _ => .inl hkeep).2, h.recovered, contentOf_append, addEntry]
    by_cases hid : sessionId = entry.sessionId
    · subst hid
      rw [Function.update_self]
      cases entry with
      | outbound record => rfl
      | inbound record => rfl
      | recovery state => cases hrecord
    · rw [Function.update_of_ne hid]

theorem appendAll_logged {records : List LogRecord} : ∀ {d : DurableBatchSessionStore o},
    d.Appendable records → (d.appendAll records).logged = d.logged ++ records := by
  induction records with
  | nil => exact fun _ => (List.append_nil _).symm
  | cons record records ih =>
    rintro d ⟨harena, hrecords⟩
    rw [List.append_cons, ← (append_log harena fun _ _ _ => .inl hkeep).1]
    exact ih hrecords

theorem HasEntries.reset (h : d.HasEntries entries)
    (hvalid : ∀ e ∈ entries, validateEntry e = .ok ()) {sessionId : Nat}
    (hfits : Fitting o (d.logged.filter (·.isOther sessionId))) (hid : sessionId ≠ 0) :
    (resetSession sessionId d).2.HasEntries (without sessionId entries) := by
  have hlogged : ∀ r ∈ d.logged, validateRecordView r.record = .ok () := by
    intro r hr
    rw [h.logged] at hr
    obtain ⟨entry, hentry, hrecord⟩ := List.mem_filterMap.1 hr
    exact validateRecordView_of_entry (hvalid entry hentry) hrecord
  rw [resetSession_of_valid hlogged hid, resetTo, prune_eq (.inl hkeep)]
  refine ⟨?_, fun other => ?_⟩
  · refine ((flush_sameLog _).1).trans ?_
    rw [appendAll_logged hkeep hfits.appendable, h.logged, ← logRecord?_without]
    rfl
  · change Function.update d.flush.recoveryStates sessionId none other = _
    rw [contentOf_without]
    by_cases hother : other = sessionId
    · rw [hother, Function.update_self, Function.update_self]
    · rw [Function.update_of_ne hother, Function.update_of_ne hother, flush_recoveryStates,
        h.recovered]

theorem HasEntries.messageAndState (h : d.HasEntries entries) (harena : d.arena.length < 2 ^ 32)
    {entry : StoreEntry} {record : LogRecord} (hrecord : logRecord? entry = some record)
    {state : SessionRecoveryState}
    (hvalid : ∀ e ∈ [entry, .recovery state], validateEntry e = .ok ()) :
    HasEntries ((do appendMessageView record; queueRecoveryState state :
      Method (DurableBatchSessionStore o) Unit) d).2 (entries ++ [entry, .recovery state]) := by
  have hentry := hvalid entry List.mem_cons_self
  have hstate := validateState_ok
    (hvalid _ (List.mem_cons_of_mem _ List.mem_cons_self))
  obtain ⟨d₁, hd₁, hhas₁⟩ :=
    h.message hkeep harena hrecord (validateRecordView_of_entry hentry hrecord)
  obtain ⟨d₂, hd₂, hhas₂⟩ := hhas₁.state hstate
  rw [bind_of_ok hd₁, hd₂, List.append_cons]
  exact hhas₂

theorem HasEntries.act (h : d.HasEntries entries)
    (hentries : ∀ e ∈ entries, validateEntry e = .ok ()) {op : StoreOp}
    (hvalid : op.Valid) (hroom : d.HasRoom op) :
    (op.toDurable.act d).HasEntries (StoreLog.act op entries) := by
  have hop := fun e he => (hvalid.1 e he).2
  have hsame : ∀ {d' : DurableBatchSessionStore o}, SameLog d d' → d'.HasEntries (entries ++ []) :=
    fun h' => (List.append_nil entries).symm ▸ h.of_sameLog h'
  have hone : ∀ entry record, logRecord? entry = some record →
      validateEntry entry = .ok () → d.arena.length < 2 ^ 32 →
      HasEntries (appendMessageView record d).2 (entries ++ [entry]) := by
    intro entry record hrecord hentry harena
    obtain ⟨d', hd', hhas⟩ :=
      h.message hkeep harena hrecord (validateRecordView_of_entry hentry hrecord)
    rw [hd']
    exact hhas
  cases op with
  | saveOutbound record => exact hone _ _ rfl (hop _ List.mem_cons_self) hroom
  | saveInbound record => exact hone _ _ rfl (hop _ List.mem_cons_self) hroom
  | saveRecovery state =>
    obtain ⟨d', hd', hhas⟩ := h.state
      (validateState_ok (hop _ List.mem_cons_self))
    change HasEntries (queueRecoveryState state d).2 _
    rw [hd']
    exact hhas
  | saveOutboundAndRecovery record state => exact h.messageAndState hkeep hroom rfl hop
  | saveInboundAndRecovery record state => exact h.messageAndState hkeep hroom rfl hop
  | flush => exact hsame (flush_sameLog d)
  | rollover => exact hsame (rollover_sameLog (.inl hkeep))
  | reset sessionId => exact h.reset hkeep hentries hroom (hvalid.2 sessionId rfl)
  | reopen => exact hsame (reopen_sameLog (.inl hkeep))
  | loadOutbound sessionId beginSeq endSeq =>
    refine hsame ?_
    change SameLog d (loadOutboundRange sessionId beginSeq endSeq d).2
    unfold loadOutboundRange
    split
    · exact ⟨rfl, fun _ => rfl⟩
    · exact flush_sameLog d
  | loadInbound sessionId beginSeq endSeq =>
    refine hsame ?_
    change SameLog d (loadInboundRange sessionId beginSeq endSeq d).2
    unfold loadInboundRange
    split
    · exact ⟨rfl, fun _ => rfl⟩
    · exact flush_sameLog d
  | loadRecovery sessionId =>
    refine hsame ?_
    change SameLog d (loadRecoveryState sessionId d).2
    unfold loadRecoveryState
    split <;> exact flush_sameLog d

end

end DurableBatchSessionStore

/-! ## Agreement -/

/-- The three stores side by side. -/
structure Stores (o : DurableBatchStoreOptions) where
  memory : MemorySessionStore
  mmap : MmapSessionStore
  durable : DurableBatchSessionStore o

namespace Stores

variable {o : DurableBatchStoreOptions}

/-- New stores, all open. -/
def start : Stores o := ⟨{}, MmapSessionStore.opened, {}⟩

def act (op : StoreOp) (s : Stores o) : Stores o :=
  ⟨op.onMemory s.memory, op.onMmap s.mmap, op.toDurable.act s.durable⟩

/-- The file of the memory-mapped store can be extended for the operation and the queue of the
durable store has room for it. -/
structure Fits (op : StoreOp) (s : Stores o) : Prop where
  mmap : s.mmap.file.length + (op.entries.map fun e => kStoreRecordHeaderSize +
    (entryPayload e).length).sum < 2 ^ 63
  durable : s.durable.HasRoom op

/-- All three hold what one log says. -/
structure Agree (s : Stores o) (entries : List StoreEntry) : Prop where
  valid : ∀ e ∈ entries, e.Typed ∧ validateEntry e = .ok ()
  memory : s.memory.sessions = contentOf entries
  mmap : s.mmap.HasOnly entries
  durable : s.durable.HasEntries entries

theorem fileSizeOf_append (entries entries' : List StoreEntry) :
    fileSizeOf (entries ++ entries') = fileSizeOf entries +
      (entries'.map fun e => kStoreRecordHeaderSize +
        (entryPayload e).length).sum := by
  unfold fileSizeOf
  rw [List.map_append, List.sum_append, Nat.add_assoc]

theorem Agree.act (hkeep : o.maxArchivedSegments = 0) {s : Stores o} {entries : List StoreEntry}
    (h : s.Agree entries) {op : StoreOp} (hvalid : op.Valid) (hfits : s.Fits op)
    (hsame : op.SameSession) : (s.act op).Agree (StoreLog.act op entries) := by
  have hlength : s.mmap.file.length = fileSizeOf entries := h.mmap.holds.size.symm
  obtain ⟨hfits, hroom⟩ := hfits
  rw [hlength] at hfits
  have hold : fileSizeOf entries < 2 ^ 63 := by omega
  have hnew : fileSizeOf (StoreLog.act op entries) < 2 ^ 63 := by
    rw [← fileSizeOf_append] at hfits
    cases op with
    | reset sessionId =>
      exact Nat.lt_of_le_of_lt (fileSizeOf_without_le sessionId entries) hold
    | _ => exact hfits
  refine ⟨?_, MemorySessionStore.onMemory_sessions hvalid hsame h.memory,
    h.mmap.onMmap h.valid hold hvalid hnew,
    h.durable.act hkeep (fun e he => (h.valid e he).2) hvalid hroom⟩
  have happend : ∀ e ∈ entries ++ op.entries, e.Typed ∧ validateEntry e = .ok () :=
    fun e he => (List.mem_append.1 he).elim (h.valid e) (hvalid.1 e)
  cases op with
  | reset sessionId => exact fun e he => h.valid e (List.mem_of_mem_filter he)
  | _ => exact happend

/-- Every load gives the same in all three stores. -/
structure SameResults (s : Stores o) : Prop where
  outbound (sessionId beginSeq endSeq : Nat) :
    (MmapSessionStore.loadOutboundRange sessionId beginSeq endSeq s.mmap).1 =
        (MemorySessionStore.loadOutboundRange sessionId beginSeq endSeq s.memory).1 ∧
      (DurableBatchSessionStore.loadOutboundRange sessionId beginSeq endSeq s.durable).1 =
        (MemorySessionStore.loadOutboundRange sessionId beginSeq endSeq s.memory).1
  inbound (sessionId beginSeq endSeq : Nat) :
    (MmapSessionStore.loadInboundRange sessionId beginSeq endSeq s.mmap).1 =
        (MemorySessionStore.loadInboundRange sessionId beginSeq endSeq s.memory).1 ∧
      (DurableBatchSessionStore.loadInboundRange sessionId beginSeq endSeq s.durable).1 =
        (MemorySessionStore.loadInboundRange sessionId beginSeq endSeq s.memory).1
  recovery (sessionId : Nat) :
    (MmapSessionStore.loadRecoveryState sessionId s.mmap).1 =
        (MemorySessionStore.loadRecoveryState sessionId s.memory).1 ∧
      (DurableBatchSessionStore.loadRecoveryState sessionId s.durable).1 =
        (MemorySessionStore.loadRecoveryState sessionId s.memory).1

theorem Agree.sameResults {s : Stores o} {entries : List StoreEntry} (h : s.Agree entries) :
    s.SameResults where
  outbound sessionId beginSeq endSeq := by
    rw [h.mmap.loadOutboundRange, DurableBatchSessionStore.loadOutboundRange_fst, h.durable.logged,
      DurableBatchSessionStore.outboundIndex_contentOf, MemorySessionStore.loadOutboundRange, h.memory]
    split <;> exact ⟨rfl, rfl⟩
  inbound sessionId beginSeq endSeq := by
    rw [h.mmap.loadInboundRange, DurableBatchSessionStore.loadInboundRange_fst, h.durable.logged,
      DurableBatchSessionStore.inboundOf_contentOf, MemorySessionStore.loadInboundRange, h.memory]
    split <;> exact ⟨rfl, rfl⟩
  recovery sessionId := by
    rw [h.mmap.loadRecoveryState, DurableBatchSessionStore.loadRecoveryState_fst,
      h.durable.recovered, MemorySessionStore.loadRecoveryState, h.memory]
    cases (contentOf entries sessionId).recovery <;> exact ⟨rfl, rfl⟩

/-- The operation is valid for all stores, the file and the queue have room for it, and a received
frame is saved with the state of its own session. -/
def Regular (op : StoreOp) (s : Stores o) : Prop := op.Valid ∧ s.Fits op ∧ op.SameSession

/-- In every run of regular operations the three stores give the same results. -/
theorem stores_agree (hkeep : o.maxArchivedSegments = 0) {s : Stores o}
    (h : Reaches act Regular start s) : s.SameResults := by
  have hagree : ∃ entries, s.Agree entries := by
    refine h.invariant (I := fun s => ∃ entries, s.Agree entries) ⟨[], ?_⟩ ?_
    · exact ⟨by simp, rfl, MmapSessionStore.hasOnly_opened, rfl, fun _ => rfl⟩
    · rintro op s ⟨entries, hs⟩ ⟨hvalid, hfits, hsame⟩
      exact ⟨StoreLog.act op entries, hs.act hkeep hvalid hfits hsame⟩
  obtain ⟨entries, hs⟩ := hagree
  exact hs.sameResults

/-- A received frame with the state of its session. -/
theorem stores_agree_inbound : (act (.saveInboundAndRecovery ⟨1, 1, 1, 0, [65], 0⟩
    ⟨1, 2, 1, 0, 0, true⟩) (start (o := {}))).SameResults :=
  stores_agree rfl (.step _ .start
    ⟨⟨by decide, by simp⟩, ⟨by decide +kernel, Nat.two_pow_pos 32⟩, rfl⟩)

/-- A received frame of session 1 with a state of session 2: all stores accept it, in memory the
state is kept for session 1, in the others for session 2. -/
theorem memory_keeps_state_of_other_session :
    let op : StoreOp := .saveInboundAndRecovery ⟨1, 1, 1, 0, [], 0⟩ ⟨2, 2, 1, 0, 0, true⟩
    let s : Stores {} := start.act op
    op.Valid ∧ Fits op (start : Stores {}) ∧
      (MemorySessionStore.loadRecoveryState 1 s.memory).1 = .ok ⟨2, 2, 1, 0, 0, true⟩ ∧
      (MmapSessionStore.loadRecoveryState 1 s.mmap).1 =
        .error (.NotFound "recovery state not found") ∧
      (DurableBatchSessionStore.loadRecoveryState 1 s.durable).1 =
        .error (.NotFound "recovery state not found") ∧
      (MemorySessionStore.loadRecoveryState 2 s.memory).1 =
        .error (.NotFound "recovery state not found") ∧
      (MmapSessionStore.loadRecoveryState 2 s.mmap).1 = .ok ⟨2, 2, 1, 0, 0, true⟩ ∧
      (DurableBatchSessionStore.loadRecoveryState 2 s.durable).1 = .ok ⟨2, 2, 1, 0, 0, true⟩ := by
  refine ⟨⟨by decide, by simp⟩, ⟨by decide +kernel, Nat.two_pow_pos 32⟩, ?_⟩
  decide +kernel

end Stores

end NimbleFix
