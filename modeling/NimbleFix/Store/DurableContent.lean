import NimbleFix.Store.DurableBatch
import NimbleFix.Store.Lawful

/-!
# What the durable batch store holds

Its content is that of the log with the queued entries after it. Flushing and archiving move
entries without changing it as long as no segment is deleted.
-/

namespace NimbleFix

namespace DurableBatchSessionStore

variable {o : DurableBatchStoreOptions}

/-- The records on disk and in the queue, in the order they were saved. -/
def logged (s : DurableBatchSessionStore o) : List LogRecord :=
  s.archived.flatten ++ s.active ++ s.pending.filterMap (·.message?)

/-- The recovery state of a session after one more entry. -/
def recoverEntry (sessionId : Nat) (current : Option SessionRecoveryState) :
    PendingEntry → Option SessionRecoveryState
  | .message _ => current
  | .recovery state => if state.sessionId = sessionId then some state else current

def recovered (sessionId : Nat) (s : DurableBatchSessionStore o) : Option SessionRecoveryState :=
  s.pending.foldl (recoverEntry sessionId) (s.recoveryStates sessionId)

/-- Both logs replay to the same records and recovery states. -/
def SameLog (s s' : DurableBatchSessionStore o) : Prop :=
  s'.logged = s.logged ∧ ∀ sessionId, s'.recovered sessionId = s.recovered sessionId

theorem SameLog.trans {s₁ s₂ s₃ : DurableBatchSessionStore o} (h : SameLog s₁ s₂)
    (h' : SameLog s₂ s₃) : SameLog s₁ s₃ :=
  ⟨h'.1.trans h.1, fun sessionId => (h'.2 sessionId).trans (h.2 sessionId)⟩

variable {s s' : DurableBatchSessionStore o} {record : LogRecord}

/-! ## Flushing and archiving -/

theorem foldl_writeEntry (entries : List PendingEntry) : ∀ s : DurableBatchSessionStore o,
    (entries.foldl writeEntry s).archived = s.archived ∧
      (entries.foldl writeEntry s).active = s.active ++ entries.filterMap (·.message?) ∧
      ∀ sessionId, (entries.foldl writeEntry s).recoveryStates sessionId =
        entries.foldl (recoverEntry sessionId) (s.recoveryStates sessionId) := by
  induction entries with
  | nil => simp
  | cons entry entries ih =>
    intro s
    obtain ⟨ha, hs, hr⟩ := ih (writeEntry s entry)
    cases entry with
    | message record => exact ⟨ha, by rw [List.foldl_cons, hs]; simp [writeEntry,
        PendingEntry.message?], fun sessionId => hr sessionId⟩
    | recovery state =>
      refine ⟨ha, hs, fun sessionId => (hr sessionId).trans ?_⟩
      by_cases h : state.sessionId = sessionId
      · simp [writeEntry, recoverEntry, h]
      · simp [writeEntry, recoverEntry, h, Function.update_of_ne (Ne.symm h)]

theorem flush_pending (s : DurableBatchSessionStore o) : s.flush.pending = [] := rfl

theorem flush_archived (s : DurableBatchSessionStore o) : s.flush.archived = s.archived :=
  (foldl_writeEntry s.pending s).1

theorem flush_active (s : DurableBatchSessionStore o) :
    s.flush.active = s.active ++ s.pending.filterMap (·.message?) :=
  (foldl_writeEntry s.pending s).2.1

theorem flush_log (s : DurableBatchSessionStore o) :
    s.flush.archived.flatten ++ s.flush.active = s.logged := by
  rw [flush_archived, flush_active, ← List.append_assoc]
  rfl

theorem flush_recoveryStates (s : DurableBatchSessionStore o) (sessionId : Nat) :
    s.flush.recoveryStates sessionId = s.recovered sessionId :=
  (foldl_writeEntry s.pending s).2.2 sessionId

theorem flush_sameLog (s : DurableBatchSessionStore o) : SameLog s s.flush := by
  refine ⟨?_, fun sessionId => flush_recoveryStates s sessionId⟩
  show s.flush.archived.flatten ++ s.flush.active ++ [] = s.logged
  rw [List.append_nil, flush_log]

/-- The archived segments are within the limit. -/
def WithinLimit (s : DurableBatchSessionStore o) : Prop :=
  o.maxArchivedSegments = 0 ∨ s.archived.length ≤ o.maxArchivedSegments

/-- One more archived segment is within the limit. -/
def Room (s : DurableBatchSessionStore o) : Prop :=
  o.maxArchivedSegments = 0 ∨ s.archived.length < o.maxArchivedSegments

theorem prune_eq (h : s.WithinLimit) : prune s = s := by
  unfold prune
  split
  · rfl
  · rename_i hmax
    rcases h with h | h
    · exact absurd h hmax
    · rw [Nat.sub_eq_zero_of_le h, List.drop_zero]

theorem prune_withinLimit (s : DurableBatchSessionStore o) : (prune s).WithinLimit := by
  unfold prune
  split
  · rename_i hmax
    exact .inl hmax
  · right
    simp only [List.length_drop]
    omega

theorem archiveActive_sameLog (hpending : s.pending = []) (hroom : s.Room) :
    SameLog s (archiveActive s) := by
  unfold archiveActive
  split
  · exact ⟨rfl, fun _ => rfl⟩
  · rw [prune_eq (by
      refine hroom.imp_right fun h => ?_
      rw [List.length_append, List.length_singleton]
      exact h)]
    refine ⟨?_, fun _ => rfl⟩
    simp [logged, hpending]

theorem rollover_sameLog (hroom : s.Room) : SameLog s s.rollover := by
  refine (flush_sameLog s).trans (archiveActive_sameLog rfl ?_)
  unfold Room
  rw [flush_archived]
  exact hroom

/-- A record of the day archives the active segment. -/
def RollsFor (day : Int) (s : DurableBatchSessionStore o) : Prop :=
  s.hasMessages ∧ s.activeDay.isSome ∧ s.activeDay ≠ some day

instance (day : Int) (s : DurableBatchSessionStore o) : Decidable (s.RollsFor day) :=
  inferInstanceAs (Decidable (_ ∧ _ ∧ _))

theorem rolloverFor_sameLog {day : Int} (hroom : s.RollsFor day → s.Room) :
    SameLog s (s.rolloverFor day) := by
  have hday : ∀ s' : DurableBatchSessionStore o,
      SameLog s' (if s'.activeDay.isNone then { s' with activeDay := some day } else s') := by
    intro s'
    split <;> exact ⟨rfl, fun _ => rfl⟩
  unfold rolloverFor
  refine SameLog.trans ?_ (hday _)
  split
  · rename_i hrolls
    exact rollover_sameLog (hroom hrolls)
  · exact ⟨rfl, fun _ => rfl⟩

theorem rolloverBefore_sameLog
    (hroom : ∀ day, recordDay o record.record.timestampNs = some day → s.RollsFor day → s.Room) :
    SameLog s (s.rolloverBefore record) := by
  unfold rolloverBefore
  split
  · rename_i day hday
    exact rolloverFor_sameLog (hroom day hday)
  · exact ⟨rfl, fun _ => rfl⟩

theorem enqueue_sameLog (entry : PendingEntry) (s : DurableBatchSessionStore o) :
    SameLog { s with pending := s.pending ++ [entry] } (s.enqueue entry) := by
  unfold enqueue
  dsimp only
  split
  · exact flush_sameLog _
  · exact ⟨rfl, fun _ => rfl⟩

theorem appendMessageView_of_valid (h : validateRecordView record.record = .ok ())
    (s : DurableBatchSessionStore o) : appendMessageView record s = (.ok (), s.append record) := by
  unfold appendMessageView
  rw [h]
  rfl

/-! ## The payloads of the queue -/

theorem LogRecord.record_withPayload (payload : Bytes) (r : LogRecord) :
    (r.withPayload payload).record = { r.record with payload } := by
  cases r <;> rfl

theorem LogRecord.length_payload_queuedIn (arena : Bytes) (r : LogRecord) :
    (r.queuedIn arena).record.payload.length = r.record.payload.length := by
  have hoffset : wrap32 arena.length ≤ arena.length := Nat.mod_le ..
  unfold LogRecord.queuedIn
  rw [record_withPayload, List.length_take, List.length_drop, List.length_append]
  omega

/-- Below 4 GiB the offset is that of the payload. -/
theorem LogRecord.queuedIn_of_lt {arena : Bytes} (h : arena.length < 2 ^ 32) (r : LogRecord) :
    r.queuedIn arena = r := by
  unfold LogRecord.queuedIn
  rw [wrap32_of_lt h, List.drop_left, List.take_length]
  cases r <;> rfl

theorem validateRecordView_queuedIn (arena : Bytes) (r : LogRecord) :
    validateRecordView (r.queuedIn arena).record = validateRecordView r.record := by
  have hlength := r.length_payload_queuedIn arena
  unfold validateRecordView
  rw [hlength]
  unfold LogRecord.queuedIn
  rw [LogRecord.record_withPayload]

theorem timestampNs_queuedIn (arena : Bytes) (r : LogRecord) :
    (r.queuedIn arena).record.timestampNs = r.record.timestampNs := by
  unfold LogRecord.queuedIn
  rw [LogRecord.record_withPayload]

theorem enqueue_message_log (record : LogRecord) (s : DurableBatchSessionStore o) (arena : Bytes) :
    (enqueue (o := o) (.message record) { s with arena }).logged = s.logged ++ [record] ∧
      ∀ sessionId, (enqueue (o := o) (.message record) { s with arena }).recovered sessionId =
        s.recovered sessionId := by
  have hs := enqueue_sameLog (o := o) (.message record) { s with arena }
  refine ⟨?_, fun sessionId => ?_⟩
  · rw [hs.1]
    simp [logged, PendingEntry.message?]
  · rw [hs.2]
    simp [recovered, recoverEntry]

/-! ## The index of sent records -/

theorem outboundIndex_append (sessionId : Nat) (records : List LogRecord) (record : LogRecord) :
    outboundIndex sessionId (records ++ [record]) =
      indexRecord sessionId (outboundIndex sessionId records) record := by
  simp [outboundIndex]

theorem outboundIndex_other {sessionId : Nat} {records : List LogRecord}
    (h : ∀ r ∈ records, r.record.sessionId ≠ sessionId) : outboundIndex sessionId records = [] := by
  induction records with
  | nil => rfl
  | cons record records ih =>
    have hrecord : indexRecord sessionId [] record = [] := by
      have hne := h record (by simp)
      cases record with
      | outbound r => exact if_neg hne
      | inbound r => rfl
    unfold outboundIndex at ih ⊢
    rw [List.foldl_cons, hrecord]
    exact ih fun r hr => h r (List.mem_cons_of_mem _ hr)

end DurableBatchSessionStore

end NimbleFix
