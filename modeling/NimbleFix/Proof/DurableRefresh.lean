import NimbleFix.Proof.DurableReset

/-!
# Refreshing a durable store

`Refresh` reads the files again and forgets the queue. What is loaded stays the same exactly when
the queue holds nothing the files do not have: no received record, and for a number or a session
nothing newer.
-/

namespace NimbleFix

open MemorySessionStore

namespace DurableBatchSessionStore

variable {o : DurableBatchStoreOptions}

/-! ## The record of a number -/

/-- The record is one the session sent with the number. -/
def LogRecord.isSent (sessionId seqNum : Nat) : LogRecord → Bool
  | .outbound record => record.sessionId = sessionId && record.seqNum = seqNum
  | .inbound _ => false

/-- The last record the session sent with the number. -/
def outboundAt (sessionId seqNum : Nat) (records : List LogRecord) : Option LogRecord :=
  (records.filter (·.isSent sessionId seqNum)).getLast?

theorem outboundAt_append (sessionId seqNum : Nat) (records records' : List LogRecord) :
    outboundAt sessionId seqNum (records ++ records') =
      (outboundAt sessionId seqNum records').or (outboundAt sessionId seqNum records) := by
  unfold outboundAt
  rw [List.filter_append, List.getLast?_append]

theorem ascending_outboundIndex (sessionId : Nat) (records : List LogRecord) :
    Ascending (outboundIndex sessionId records) := by
  induction records using List.reverseRecOn with
  | nil => exact List.Pairwise.nil
  | append_singleton records r ih =>
    rw [outboundIndex_append]
    cases r with
    | inbound record => exact ih
    | outbound record =>
      rw [indexRecord]
      split
      · exact ascending_upsertBySequence record ih
      · exact ih

variable {sessionId seqNum : Nat} {records : List LogRecord} {s : DurableBatchSessionStore o}

/-- The index holds for each number the last record that was sent with it. -/
theorem mem_outboundIndex {r : MessageRecord} :
    r ∈ outboundIndex sessionId records ↔
      outboundAt sessionId r.seqNum records = some (.outbound r) := by
  induction records using List.reverseRecOn with
  | nil => simp [outboundIndex, outboundAt]
  | append_singleton records last ih =>
    rw [outboundIndex_append, outboundAt_append]
    cases last with
    | inbound record => simpa [outboundAt, LogRecord.isSent, indexRecord] using ih
    | outbound record =>
      rw [indexRecord]
      split
      · rename_i hid
        rw [mem_upsertBySequence (ascending_outboundIndex sessionId records), ih]
        by_cases hseq : record.seqNum = r.seqNum
        · simp [outboundAt, LogRecord.isSent, hid, hseq, eq_comm]
        · have hne : r ≠ record := fun h => hseq (h ▸ rfl)
          simp [outboundAt, LogRecord.isSent, hid, hseq, hne, Ne.symm hseq]
      · rename_i hid
        rw [ih]
        simp [outboundAt, LogRecord.isSent, hid]

theorem outboundAt_eq_some {x : LogRecord} (h : outboundAt sessionId seqNum records = some x) :
    ∃ r, x = .outbound r ∧ r.sessionId = sessionId ∧ r.seqNum = seqNum := by
  have hx := (List.mem_filter.1 (List.mem_of_getLast? h)).2
  cases x with
  | inbound r => cases hx
  | outbound r => exact ⟨r, rfl, by simpa [LogRecord.isSent] using hx⟩

theorem mem_scanRange_self {r : MessageRecord} :
    r ∈ scanRange seqNum seqNum (outboundIndex sessionId records) ↔
      outboundAt sessionId seqNum records = some (.outbound r) := by
  rw [scanRange_eq_filter seqNum seqNum (ascending_outboundIndex sessionId records),
    List.mem_filter, mem_outboundIndex]
  constructor
  · rintro ⟨hr, hrange⟩
    have : r.seqNum = seqNum := by
      simp only [MessageRecord.inRange, Bool.and_eq_true, decide_eq_true_eq] at hrange
      omega
    rwa [← this]
  · intro hr
    obtain ⟨r', heq, -, hseq⟩ := outboundAt_eq_some hr
    cases heq
    rw [hseq]
    exact ⟨hr, by simp [MessageRecord.inRange, hseq]⟩

theorem outboundAt_eq_of_scanRange {records' : List LogRecord}
    (h : scanRange seqNum seqNum (outboundIndex sessionId records) =
      scanRange seqNum seqNum (outboundIndex sessionId records')) :
    outboundAt sessionId seqNum records = outboundAt sessionId seqNum records' := by
  have hmem : ∀ r, outboundAt sessionId seqNum records = some (.outbound r) ↔
      outboundAt sessionId seqNum records' = some (.outbound r) := by
    intro r
    rw [← mem_scanRange_self, ← mem_scanRange_self, h]
  refine Option.ext fun x => ⟨fun hx => ?_, fun hx => ?_⟩
  · obtain ⟨r, rfl, -⟩ := outboundAt_eq_some hx
    exact (hmem r).1 hx
  · obtain ⟨r, rfl, -⟩ := outboundAt_eq_some hx
    exact (hmem r).2 hx

theorem ascending_ext {records records' : List MessageRecord} (h : Ascending records)
    (h' : Ascending records') (hmem : ∀ r, r ∈ records ↔ r ∈ records') : records = records' := by
  have : Std.Antisymm fun r r' : MessageRecord => r.seqNum < r'.seqNum :=
    ⟨fun _ _ hlt hgt => absurd hlt (Nat.lt_asymm hgt)⟩
  have : Std.Irrefl fun r r' : MessageRecord => r.seqNum < r'.seqNum := ⟨fun _ => Nat.lt_irrefl _⟩
  exact List.Pairwise.eq_of_mem_iff h h' hmem

theorem outboundIndex_eq {records' : List LogRecord}
    (h : ∀ seqNum, outboundAt sessionId seqNum records = outboundAt sessionId seqNum records') :
    outboundIndex sessionId records = outboundIndex sessionId records' :=
  ascending_ext (ascending_outboundIndex sessionId records)
    (ascending_outboundIndex sessionId records') fun r => by
      rw [mem_outboundIndex, mem_outboundIndex, h]

/-! ## The queue -/

/-- The records in the files. -/
def written (s : DurableBatchSessionStore o) : List LogRecord := s.archived.flatten ++ s.active

theorem logged_eq_written (s : DurableBatchSessionStore o) :
    s.logged = s.written ++ s.pending.filterMap (·.message?) := rfl

/-- The queue holds no received record, and what it holds last for a number or for a session is
what the files hold. -/
def QueueWritten (s : DurableBatchSessionStore o) : Prop :=
  ∀ entry ∈ s.pending, match entry with
    | .message (.inbound _) => False
    | .message (.outbound r) =>
      outboundAt r.sessionId r.seqNum s.logged = outboundAt r.sessionId r.seqNum s.written
    | .recovery state => s.recovered state.sessionId = s.recoveryStates state.sessionId

theorem refresh_eq (hlimit : s.WithinLimit) :
    (refresh s).2 = { s with pending := [], arena := [], activeDay := detectActiveDay o s.active } :=
  prune_eq (by exact hlimit)

theorem refresh_logged (hlimit : s.WithinLimit) : (refresh s).2.logged = s.written := by
  rw [refresh_eq hlimit]
  exact List.append_nil _

theorem refresh_recovered (hlimit : s.WithinLimit) (sessionId : Nat) :
    (refresh s).2.recovered sessionId = s.recoveryStates sessionId := by
  rw [refresh_eq hlimit]
  rfl

theorem foldl_recoverEntry_other {entries : List PendingEntry}
    (h : ∀ state, .recovery state ∈ entries → state.sessionId ≠ sessionId)
    (current : Option SessionRecoveryState) :
    entries.foldl (recoverEntry sessionId) current = current := by
  induction entries with
  | nil => rfl
  | cons entry entries ih =>
    have hentry : recoverEntry sessionId current entry = current := by
      cases entry with
      | message r => rfl
      | recovery state => exact if_neg (h state List.mem_cons_self)
    rw [List.foldl_cons, hentry]
    exact ih fun state hstate => h state (List.mem_cons_of_mem _ hstate)

namespace QueueWritten

theorem outboundAt_eq (h : s.QueueWritten) (sessionId seqNum : Nat) :
    outboundAt sessionId seqNum s.logged = outboundAt sessionId seqNum s.written := by
  cases hqueued : outboundAt sessionId seqNum (s.pending.filterMap (·.message?)) with
  | none => rw [logged_eq_written, outboundAt_append, hqueued, Option.none_or]
  | some x =>
    have hx := (List.mem_filter.1 (List.mem_of_getLast? hqueued)).1
    obtain ⟨r, rfl, rfl, rfl⟩ := outboundAt_eq_some hqueued
    obtain ⟨entry, hentry, hmessage⟩ := List.mem_filterMap.1 hx
    cases entry with
    | recovery state => cases hmessage
    | message r' =>
      cases hmessage
      exact h _ hentry

theorem inboundOf_eq (h : s.QueueWritten) (sessionId : Nat) :
    inboundOf sessionId s.logged = inboundOf sessionId s.written := by
  have hqueued : inboundOf sessionId (s.pending.filterMap (·.message?)) = [] := by
    refine List.filterMap_eq_nil_iff.2 fun r hr => ?_
    obtain ⟨entry, hentry, hmessage⟩ := List.mem_filterMap.1 hr
    cases entry with
    | recovery state => cases hmessage
    | message r' =>
      cases hmessage
      cases r with
      | outbound r => rfl
      | inbound r => exact (h _ hentry).elim
  unfold inboundOf at hqueued ⊢
  rw [logged_eq_written, List.filterMap_append, hqueued, List.append_nil]

theorem recovered_eq (h : s.QueueWritten) (sessionId : Nat) :
    s.recovered sessionId = s.recoveryStates sessionId := by
  by_cases hqueued : ∃ state, .recovery state ∈ s.pending ∧ state.sessionId = sessionId
  · obtain ⟨state, hstate, rfl⟩ := hqueued
    exact h _ hstate
  · unfold recovered
    exact foldl_recoverEntry_other (fun state hstate hid => hqueued ⟨state, hstate, hid⟩) _

theorem sameLoads (h : s.QueueWritten) (hlimit : s.WithinLimit) (sessionId : Nat) :
    SameLoads sessionId s (refresh s).2 := by
  refine .of_content ?_ ?_ ?_
  · rw [refresh_logged hlimit]
    exact outboundIndex_eq fun seqNum => (h.outboundAt_eq sessionId seqNum).symm
  · rw [refresh_logged hlimit, h.inboundOf_eq]
  · rw [refresh_recovered hlimit, h.recovered_eq]

end QueueWritten

/-! ## What is lost with the queue -/

section

/-- A queued record that was received is missing from the range of its number. -/
theorem inbound_lost (hlimit : s.WithinLimit) {r : MessageRecord} (hseq : r.seqNum ≠ 0)
    (hr : .message (.inbound r) ∈ s.pending) :
    (loadInboundRange r.sessionId r.seqNum r.seqNum (refresh s).2).1 ≠
      (loadInboundRange r.sessionId r.seqNum r.seqNum s).1 := by
  intro heq
  rw [loadInboundRange_fst, loadInboundRange_fst, if_neg (by omega), if_neg (by omega),
    refresh_logged hlimit, logged_eq_written] at heq
  have hlen := congrArg List.length (Except.ok.inj heq)
  unfold inboundRange sortBySequence inboundOf at hlen
  rw [List.filterMap_append, List.length_insertionSort, List.length_insertionSort,
    List.filter_append, List.length_append, Nat.left_eq_add, List.length_eq_zero_iff,
    List.filter_eq_nil_iff] at hlen
  refine hlen r (List.mem_filterMap.2 ⟨.inbound r, ?_, if_pos rfl⟩) (by simp)
  exact List.mem_filterMap.2 ⟨_, hr, rfl⟩

theorem queueWritten_of_sameLoads {ok : Nat → Prop} (hsaved : s.Saved ok)
    (hlimit : s.WithinLimit) (h : ∀ sessionId, SameLoads sessionId s (refresh s).2) :
    s.QueueWritten := by
  have hseq : ∀ r, .message r ∈ s.pending → r.record.seqNum ≠ 0 := by
    intro r hr hzero
    have hlogged : r ∈ s.logged := by
      rw [logged_eq_written]
      exact List.mem_append_right _ (List.mem_filterMap.2 ⟨_, hr, rfl⟩)
    have hvalid := (hsaved.records r hlogged).1
    unfold validateRecordView at hvalid
    rw [if_pos hzero] at hvalid
    split at hvalid <;> cases hvalid
  intro entry hentry
  match entry with
  | .message (.inbound r) =>
    exact inbound_lost hlimit (hseq (.inbound r) hentry) hentry ((h r.sessionId).2.1 _ _)
  | .message (.outbound r) =>
    have hne : r.seqNum ≠ 0 := hseq (.outbound r) hentry
    have heq := (h r.sessionId).1 r.seqNum r.seqNum
    rw [loadOutboundRange_fst, loadOutboundRange_fst, if_neg (by omega), if_neg (by omega),
      refresh_logged hlimit] at heq
    exact (outboundAt_eq_of_scanRange (Except.ok.inj heq)).symm
  | .recovery state =>
    have heq := (h state.sessionId).2.2
    rw [loadRecoveryState_fst, loadRecoveryState_fst, refresh_recovered hlimit] at heq
    change s.recovered state.sessionId = s.recoveryStates state.sessionId
    cases hqueued : s.recovered state.sessionId <;>
      cases hwritten : s.recoveryStates state.sessionId <;> simp_all

/-- A refresh in any state of a run keeps every load exactly when the queue holds nothing that is
not in the files. -/
theorem refresh_keeps_loads_iff (h : Reaches DurableOp.act (fun _ _ => True) {} s) :
    (∀ sessionId, SameLoads sessionId s (refresh s).2) ↔ s.QueueWritten := by
  have hlimit := reaches_withinLimit h
  have hsaved : s.Saved fun _ => True := reaches_saved (h.mono fun _ _ _ _ _ => trivial)
  exact ⟨queueWritten_of_sameLoads hsaved hlimit, fun hqueue => hqueue.sameLoads hlimit⟩

end

/-- A frame saved with its state, with the defaults of the options. -/
def sampleSave : DurableOp := .saveOutboundAndRecovery ⟨1, 1, 1, 0, [], 0⟩ ⟨1, 1, 2, 0, 1, true⟩

theorem refresh_keeps_loads_iff_flushed :
    SameLoads 1 (sampleSave.act ({} : DurableBatchSessionStore {})).flush
      (refresh (sampleSave.act ({} : DurableBatchSessionStore {})).flush).2 :=
  (refresh_keeps_loads_iff (.of_stepsOk [sampleSave, .flush] .start (by simp [StepsOk]))).2
    (fun _ hentry => nomatch hentry) 1

/-- The save is accepted and its state can be loaded, with 2 as the next number to send; after the
refresh there is no state and no record. -/
theorem refresh_loses_saved_state :
    (SessionStore.saveOutboundViewAndRecoveryState ⟨1, 1, 1, 0, [], 0⟩ ⟨1, 1, 2, 0, 1, true⟩
      ({} : DurableBatchSessionStore {})).1 = .ok () ∧
    (loadRecoveryState 1 (sampleSave.act ({} : DurableBatchSessionStore {}))).1 =
      .ok ⟨1, 1, 2, 0, 1, true⟩ ∧
    (loadRecoveryState 1 (refresh (sampleSave.act ({} : DurableBatchSessionStore {}))).2).1 =
      .error (.NotFound "recovery state not found") ∧
    (loadOutboundRange 1 1 1 (refresh (sampleSave.act ({} : DurableBatchSessionStore {}))).2).1 =
      .ok [] := by
  decide +kernel

end DurableBatchSessionStore

end NimbleFix
