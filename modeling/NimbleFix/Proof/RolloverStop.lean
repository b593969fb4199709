import NimbleFix.Proof.DurableReads

/-!
# Stops within `Rollover`

The process stops between two file operations of `Rollover`. What had been flushed before can still
be loaded, except while the log of the segment and its index, or those of the next one, are not
both in place, and while the recovery log is written again.
-/

namespace NimbleFix

namespace DurableBatchSessionStore

variable {o : DurableBatchStoreOptions}

/-! ## What is still loaded -/

/-- What the sessions `others` had in the files, `records` and `states`, is still found, or for a
number or a session something newer from the queue. -/
structure Keeps (others : Nat → Prop) (records : List LogRecord)
    (states : Nat → Option SessionRecoveryState) (queue : List PendingEntry) (d : Disk) : Prop where
  outbound : ∀ sessionId, others sessionId → ∀ r ∈ outboundIndex sessionId records,
    ∃ r' ∈ d.outbound sessionId, r'.seqNum = r.seqNum ∧
      (r' = r ∨ .message (.outbound r') ∈ queue)
  inbound : ∀ sessionId, others sessionId → ∀ r ∈ inboundOf sessionId records,
    r ∈ d.inbound sessionId
  recovery : ∀ sessionId, others sessionId → ∀ state, states sessionId = some state →
    ∃ state', d.recoveryState sessionId = some state' ∧
      (state' = state ∨ .recovery state' ∈ queue)

theorem Closed.not_opensWith {d : Disk} (h : Closed o d) (P : Disk → Prop) :
    ¬OpensWith o P d := fun ⟨_, hopen, _⟩ => h.not_opens hopen

theorem inboundOf_append (sessionId : Nat) (records records' : List LogRecord) :
    inboundOf sessionId (records ++ records') =
      inboundOf sessionId records ++ inboundOf sessionId records' := List.filterMap_append ..

/-- With more in front, and records of the queue behind, the last record of a number is the one it
was or one of the queue. -/
theorem outboundIndex_between {sessionId : Nat} {records : List LogRecord} {r : MessageRecord}
    (h : r ∈ outboundIndex sessionId records) (front more : List LogRecord) :
    ∃ r' ∈ outboundIndex sessionId (front ++ records ++ more), r'.seqNum = r.seqNum ∧
      (r' = r ∨ .outbound r' ∈ more) := by
  have hr := mem_outboundIndex.1 h
  have hall : outboundAt sessionId r.seqNum (front ++ records ++ more) =
      (outboundAt sessionId r.seqNum more).or (some (.outbound r)) := by
    rw [outboundAt_append, outboundAt_append, hr]
    rfl
  cases hmore : outboundAt sessionId r.seqNum more with
  | none =>
    rw [hmore] at hall
    exact ⟨r, mem_outboundIndex.2 hall, rfl, .inl rfl⟩
  | some x =>
    rw [hmore] at hall
    obtain ⟨r', rfl, -, hseq⟩ := outboundAt_eq_some hmore
    have hmem : .outbound r' ∈ more := (List.mem_filter.1 (List.mem_of_getLast? hmore)).1
    refine ⟨r', mem_outboundIndex.2 ?_, hseq, .inr hmem⟩
    rw [hseq]
    exact hall

theorem lastState_between {sessionId : Nat} {states : List SessionRecoveryState}
    {state : SessionRecoveryState} (h : Disk.lastState sessionId states = some state)
    (more : List SessionRecoveryState) :
    ∃ state', Disk.lastState sessionId (states ++ more) = some state' ∧
      (state' = state ∨ state' ∈ more) := by
  rw [lastState_append, h]
  cases hmore : Disk.lastState sessionId more with
  | none => exact ⟨state, rfl, .inl rfl⟩
  | some state' =>
    exact ⟨state', rfl, .inr (List.mem_filter.1 (List.mem_of_getLast? hmore)).1⟩

theorem mem_messagesOf {entries : List PendingEntry} {r : LogRecord} (h : r ∈ messagesOf entries) :
    .message r ∈ entries := by
  obtain ⟨entry, hentry, heq⟩ := List.mem_filterMap.1 h
  cases entry with
  | message record =>
    cases heq
    exact hentry
  | recovery state => cases heq

theorem mem_statesOf {entries : List PendingEntry} {state : SessionRecoveryState}
    (h : state ∈ statesOf entries) : .recovery state ∈ entries := by
  obtain ⟨entry, hentry, heq⟩ := List.mem_filterMap.1 h
  cases entry with
  | message record => cases heq
  | recovery state =>
    cases heq
    exact hentry

/-- The records, with others in front of them and some of the queue behind. -/
def Extends (queue : List PendingEntry) (records all : List LogRecord) : Prop :=
  ∃ front more, all = front ++ records ++ more ∧ ∀ r ∈ more, .message r ∈ queue

/-- The states, with some of the queue behind. -/
def ExtendsStates (queue : List PendingEntry) (states all : List SessionRecoveryState) : Prop :=
  ∃ behind, all = states ++ behind ∧ ∀ state ∈ behind, .recovery state ∈ queue

theorem ExtendsStates.refl (queue : List PendingEntry) (states : List SessionRecoveryState) :
    ExtendsStates queue states states :=
  ⟨[], (List.append_nil _).symm, fun _ h => absurd h List.not_mem_nil⟩

theorem ExtendsStates.flushed (queue : List PendingEntry) (states : List SessionRecoveryState) :
    ExtendsStates queue states (states ++ statesOf queue) :=
  ⟨statesOf queue, rfl, fun _ => mem_statesOf⟩

/-- Files that are read to the records and states, and nothing newer that is not of the queue. -/
theorem Keeps.of_reads {others : Nat → Prop} {d : Disk} {records indexed all : List LogRecord}
    {states : Nat → Option SessionRecoveryState} {states' states'' : List SessionRecoveryState}
    {queue : List PendingEntry}
    (houtbound : ∀ sessionId, others sessionId →
      d.outbound sessionId = outboundIndex sessionId indexed)
    (hinbound : ∀ sessionId, others sessionId → d.inbound sessionId = inboundOf sessionId all)
    (hrecovery : ∀ sessionId, others sessionId →
      d.recoveryState sessionId = Disk.lastState sessionId states'')
    (hindexed : Extends queue records indexed) (hall : Extends queue records all)
    (hstates : ExtendsStates queue states' states'')
    (hlast : ∀ sessionId, Disk.lastState sessionId states' = states sessionId) :
    Keeps others records states queue d where
  outbound sessionId hother r hr := by
    obtain ⟨front, more, rfl, hmore⟩ := hindexed
    obtain ⟨r', hr', hseq, heq⟩ := outboundIndex_between hr front more
    rw [houtbound sessionId hother]
    exact ⟨r', hr', hseq, heq.imp_right (hmore _)⟩
  inbound sessionId hother r hr := by
    obtain ⟨front, more, rfl, -⟩ := hall
    rw [hinbound sessionId hother, inboundOf_append, inboundOf_append]
    exact List.mem_append_left _ (List.mem_append_right _ hr)
  recovery sessionId hother state hstate := by
    obtain ⟨behind, rfl, hbehind⟩ := hstates
    obtain ⟨state', hstate', heq⟩ := lastState_between ((hlast sessionId).trans hstate) behind
    rw [hrecovery sessionId hother]
    exact ⟨state', hstate', heq.imp_right (hbehind _)⟩

/-! ## The records a rollover keeps -/

/-- The records in the files before a rollover, without those of the archived segments it deletes
because of the limit. -/
def rolloverKept (s : DurableBatchSessionStore o) : List LogRecord :=
  if s.flush.active = [] then s.written else (kept o (s.archived ++ [s.active])).flatten

theorem rolloverKept_suffix (s : DurableBatchSessionStore o) : rolloverKept s <:+ s.written := by
  unfold rolloverKept
  split
  · exact List.suffix_refl _
  · rw [kept_eq_drop]
    refine ⟨((s.archived ++ [s.active]).take (dropped o (s.archived ++ [s.active]).length)).flatten,
      ?_⟩
    rw [← List.flatten_append, List.take_append_drop, List.flatten_append]
    simp [written]

theorem extends_written {s : DurableBatchSessionStore o} {records : List LogRecord}
    (h : records <:+ s.written) : Extends s.pending records s.written := by
  obtain ⟨front, hfront⟩ := h
  exact ⟨front, [], by rw [hfront, List.append_nil], fun _ h => absurd h List.not_mem_nil⟩

theorem extends_logged {s : DurableBatchSessionStore o} {records : List LogRecord}
    (h : records <:+ s.written) : Extends s.pending records s.logged := by
  obtain ⟨front, hfront⟩ := h
  exact ⟨front, messagesOf s.pending, by rw [hfront]; rfl, fun _ => mem_messagesOf⟩

theorem flatten_kept_concat (archived : List (List LogRecord)) (log more : List LogRecord) :
    (kept o (archived ++ [log ++ more])).flatten = (kept o (archived ++ [log])).flatten ++ more := by
  have hle : dropped o (archived.length + 1) ≤ archived.length := by
    unfold dropped
    split <;> omega
  rw [kept_eq_drop, kept_eq_drop, List.length_append, List.length_append, List.length_singleton,
    List.length_singleton, List.drop_append_of_le_length hle, List.drop_append_of_le_length hle]
  simp

end DurableBatchSessionStore

namespace DurableFiles

open DurableBatchSessionStore

variable {o : DurableBatchStoreOptions}

/-! ## The stops of a rollover -/

/-- What was flushed before a rollover can be loaded. -/
def RolloverKeeps (f : DurableFiles o) : Disk → Prop :=
  Keeps (fun _ => True) (rolloverKept f.store) f.store.recoveryStates f.store.pending

/-- The file operations of `Rollover`, each with whether a stop before it keeps what was flushed:
not while the log and the index of a segment are not both there, nor while the recovery log is
written again, if it had any state. -/
def rolloverStops (f : DurableFiles o) : List (DiskOp × Prop) :=
  flushStops True True True f.store.active.length f.store.pending ++
    if f.flush.store.active.isEmpty then []
    else rollStops o (∀ sessionId, f.store.recoveryStates sessionId = none) f.flush.disk

theorem map_fst_rolloverStops (f : DurableFiles o) :
    f.rolloverStops.map Prod.fst = f.rolloverOps := by
  unfold rolloverStops rolloverOps
  rw [List.map_append, map_fst_flushStops]
  split
  · rfl
  · rw [map_fst_rollStops]

section

variable {f : DurableFiles o} {first : Nat} {states : List SessionRecoveryState}

theorem opensWith_keeps {d : Disk} {indexed all : List LogRecord}
    {states' : List SessionRecoveryState} (h : f.store.OnDisk f.disk first states)
    (hindexed : Extends f.store.pending (rolloverKept f.store) indexed)
    (hall : Extends f.store.pending (rolloverKept f.store) all)
    (hstates : ExtendsStates f.store.pending states states')
    (hopens : OpensTo o indexed all states' d) : OpensWith o f.RolloverKeeps d ↔ True := by
  obtain ⟨opened, hopen, hreads⟩ := hopens
  exact iff_true_intro ⟨opened, hopen, Keeps.of_reads (fun id _ => hreads.outbound id)
    (fun id _ => hreads.inbound id) (fun id _ => hreads.recovery id) hindexed hall hstates h.recovered⟩

/-- Without a recovery log nothing is lost only if it had nothing. -/
theorem opensWith_keeps_lost {d : Disk} {indexed : List LogRecord}
    (hindexed : Extends f.store.pending (rolloverKept f.store) indexed)
    (hopens : OpensTo o indexed indexed [] d) :
    OpensWith o f.RolloverKeeps d ↔ ∀ sessionId, f.store.recoveryStates sessionId = none := by
  obtain ⟨opened, hopen, hreads⟩ := hopens
  constructor
  · rintro ⟨opened', hopen', hkeeps⟩ sessionId
    cases hopen.symm.trans hopen'
    cases hstate : f.store.recoveryStates sessionId with
    | none => rfl
    | some state =>
      obtain ⟨state', hfound, -⟩ := hkeeps.recovery sessionId trivial state hstate
      rw [hreads.recovery] at hfound
      cases hfound
  · intro hnone
    refine ⟨opened, hopen, Keeps.of_reads (fun id _ => hreads.outbound id)
      (fun id _ => hreads.inbound id) (fun id _ => hreads.recovery id) hindexed hindexed
      (ExtendsStates.refl _ _) ?_⟩
    intro sessionId
    rw [hnone]
    rfl

theorem rollover_atStops (hf : f.Sound) :
    AtStops DiskOp.apply (fun flag d => OpensWith o f.RolloverKeeps d ↔ flag) f.rolloverStops
      f.disk := by
  obtain ⟨first, states, h⟩ := hf.mirrored
  have hwritten := extends_written (rolloverKept_suffix f.store)
  have hlogged := extends_logged (rolloverKept_suffix f.store)
  have hsame := ExtendsStates.refl f.store.pending states
  unfold rolloverStops
  refine AtStops.append (h.flush_atStops hf.saved hf.limit
    (fun _ => opensWith_keeps h hwritten hwritten hsame)
    (fun _ _ => opensWith_keeps h hwritten hlogged hsame)
    fun _ _ => opensWith_keeps h hlogged hlogged hsame) ?_
  rw [map_fst_flushStops]
  split
  · trivial
  · rename_i hactive
    have hflushed := ExtendsStates.flushed f.store.pending states
    have hnonempty : f.store.flush.active ≠ [] := by
      simpa [DurableFiles.flush, write] using hactive
    have hrolled : Extends f.store.pending (rolloverKept f.store)
        (kept o (f.store.flush.archived ++ [f.store.flush.active])).flatten := by
      unfold rolloverKept
      rw [if_neg hnonempty, flush_archived, flush_active, flatten_kept_concat]
      exact ⟨[], _, rfl, fun _ => mem_messagesOf⟩
    have hall : f.store.flush.written = f.store.logged := flush_log f.store
    refine h.flush.roll_atStops hf.saved.flush (flush_withinLimit hf.limit) (fun d' hd => ?_)
      (fun d' hd => iff_of_false (hd.not_opensWith _) id)
      (fun _ => opensWith_keeps h hrolled hrolled hflushed) fun _ => opensWith_keeps_lost hrolled
    rw [hall] at hd
    exact opensWith_keeps h hlogged hlogged hflushed hd

theorem rollover_done (hf : f.Sound) :
    OpensWith o f.RolloverKeeps (f.disk.run f.rolloverOps) ↔ True := by
  obtain ⟨first, states, h⟩ := hf.mirrored
  have hlogged := extends_logged (rolloverKept_suffix f.store)
  have hflushed := ExtendsStates.flushed f.store.pending states
  have hsound := hf.act .rollover
  unfold rolloverOps Disk.run
  rw [runOps_append]
  split
  · have hopens := h.flush.opensTo hf.saved.flush (flush_withinLimit hf.limit)
    rw [show f.store.flush.written = f.store.logged from flush_log f.store] at hopens
    exact opensWith_keeps h hlogged hlogged hflushed hopens
  · rename_i hactive
    have hnonempty : f.store.flush.active ≠ [] := by
      simpa [DurableFiles.flush, write] using hactive
    have hopens := (h.flush.roll hnonempty).opensTo hsound.saved hsound.limit
    have hwritten : (archiveActive f.store.flush).written = rolloverKept f.store ++
        messagesOf f.store.pending := by
      unfold archiveActive rolloverKept
      rw [if_neg (by simpa using hnonempty), if_neg hnonempty]
      unfold written
      rw [prune_archived, prune_active, flush_archived, flush_active, List.append_nil]
      exact flatten_kept_concat ..
    rw [hwritten] at hopens
    have hrolled : Extends f.store.pending (rolloverKept f.store)
        (rolloverKept f.store ++ messagesOf f.store.pending) :=
      ⟨[], _, rfl, fun _ => mem_messagesOf⟩
    exact opensWith_keeps h hrolled hrolled hflushed
      (hopens.of_states fun sessionId => (lastState_latestStates sessionId _).symm)

end

end DurableFiles

end NimbleFix
