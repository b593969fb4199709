import NimbleFix.Proof.DurableStops

/-!
# The files of a durable store over its runs

In every state of a run the files hold what the store says they hold: `OnDisk`. Each call is
followed through its file operations.
-/

namespace NimbleFix

open Directory (numbered)

namespace DurableBatchSessionStore

variable {o : DurableBatchStoreOptions}

/-! ## Numbered segments -/

/-- Archived segments with the numbers from `first` on. -/
def segmentsFrom (first : Nat) (archived : List (List LogRecord)) : List Segment :=
  (numbered first archived).map fun p => wholeSegment p.1 p.2

variable {first : Nat} {s : DurableBatchSessionStore o}

theorem mem_segmentsFrom {archived : List (List LogRecord)} {segment : Segment}
    (h : segment ∈ segmentsFrom first archived) :
    segment.segmentId < first + archived.length ∧ segment.log ∈ archived ∧
      segment.index = indexOf segment.log := by
  obtain ⟨p, hp, rfl⟩ := List.mem_map.1 h
  obtain ⟨-, hlt, hmem⟩ := Directory.mem_numbered hp
  exact ⟨hlt, hmem, rfl⟩

theorem segmentsFrom_append (first : Nat) (archived : List (List LogRecord))
    (log : List LogRecord) :
    segmentsFrom first (archived ++ [log]) =
      segmentsFrom first archived ++ [wholeSegment (first + archived.length) log] := by
  unfold segmentsFrom
  rw [Directory.numbered_append, List.map_append]
  rfl

theorem length_segmentsFrom (first : Nat) (archived : List (List LogRecord)) :
    (segmentsFrom first archived).length = archived.length := by
  have h := congrArg List.length (Directory.map_snd_numbered first archived)
  rw [List.length_map] at h
  unfold segmentsFrom
  rw [List.length_map, h]

/-- How many archived segments are beyond the limit. -/
def dropped (o : DurableBatchStoreOptions) (n : Nat) : Nat :=
  if o.maxArchivedSegments = 0 then 0 else n - o.maxArchivedSegments

theorem kept_eq_drop {α : Type} (xs : List α) : kept o xs = xs.drop (dropped o xs.length) := by
  unfold kept dropped
  split <;> rfl

theorem kept_segmentsFrom (first : Nat) (archived : List (List LogRecord)) :
    kept o (segmentsFrom first archived) =
      segmentsFrom (first + dropped o archived.length) (kept o archived) := by
  rw [kept_eq_drop, kept_eq_drop, length_segmentsFrom]
  unfold segmentsFrom
  rw [← List.map_drop, Directory.drop_numbered]

theorem distinct_segmentsFrom (first : Nat) (archived : List (List LogRecord)) :
    Distinct (segmentsFrom first archived) := by
  unfold Distinct segmentsFrom
  rw [List.map_map]
  exact (Directory.map_fst_numbered first archived) ▸ List.nodup_range'

theorem segmentsOk_segmentsFrom {archived : List (List LogRecord)} {log : List LogRecord}
    (harchived : ∀ segment ∈ archived, RecordsOk segment) (hlog : RecordsOk log)
    (first segmentId : Nat) (more : List LogRecord) :
    SegmentsOk (segmentsFrom first archived) ⟨segmentId, log ++ more, indexOf log⟩ := by
  refine ⟨fun segment hsegment => ?_, indexOf_ok hlog more, distinct_segmentsFrom first archived⟩
  obtain ⟨-, hmem, hindex⟩ := mem_segmentsFrom hsegment
  have hok := indexOf_ok (harchived _ hmem) []
  rw [List.append_nil] at hok
  rwa [hindex]

/-! ## What the files say about the store -/

/-- The files hold the segments of the store and a recovery log that replays to its states. -/
structure OnDisk (s : DurableBatchSessionStore o) (d : Disk) (first : Nat)
    (states : List SessionRecoveryState) : Prop where
  holds : Holds d (segmentsFrom first s.archived)
    (wholeSegment (first + s.archived.length) s.active) states
  recovered : ∀ sessionId, Disk.lastState sessionId states = s.recoveryStates sessionId

theorem lastState_append (sessionId : Nat) (states states' : List SessionRecoveryState) :
    Disk.lastState sessionId (states ++ states') =
      (Disk.lastState sessionId states').or (Disk.lastState sessionId states) := by
  unfold Disk.lastState
  rw [List.filter_append, List.getLast?_append]

theorem lastState_statesOf (sessionId : Nat) (entries : List PendingEntry) :
    ∀ states : List SessionRecoveryState,
      Disk.lastState sessionId (states ++ statesOf entries) =
        entries.foldl (recoverEntry sessionId) (Disk.lastState sessionId states) := by
  induction entries with
  | nil =>
    intro states
    rw [show statesOf [] = [] from rfl, List.append_nil]
    rfl
  | cons entry entries ih =>
    intro states
    cases entry with
    | message record => exact ih states
    | recovery state =>
      have hcons : statesOf (.recovery state :: entries) = [state] ++ statesOf entries := rfl
      rw [hcons, ← List.append_assoc, ih, List.foldl_cons, lastState_append]
      congr 1
      unfold recoverEntry Disk.lastState
      by_cases hid : state.sessionId = sessionId <;> simp [hid]

namespace OnDisk

variable {d : Disk} {states : List SessionRecoveryState}

theorem flush (h : s.OnDisk d first states) :
    s.flush.OnDisk (d.run (flushOps s)) first (states ++ statesOf s.pending) where
  holds := by
    rw [flush_archived, flush_active]
    exact h.holds.run_flushOps
  recovered sessionId := by
    rw [lastState_statesOf, h.recovered, flush_recoveryStates]
    rfl

end OnDisk

/-- In `kept` form, the archived segments after a prune. -/
theorem prune_archived (s : DurableBatchSessionStore o) :
    (prune s).archived = kept o s.archived := by
  unfold prune kept
  split <;> rfl

theorem prune_active (s : DurableBatchSessionStore o) : (prune s).active = s.active := by
  unfold prune
  split <;> rfl

theorem prune_recoveryStates (s : DurableBatchSessionStore o) :
    (prune s).recoveryStates = s.recoveryStates := by
  unfold prune
  split <;> rfl

theorem latestStates_append (states : List SessionRecoveryState) (state : SessionRecoveryState) :
    latestStates (states ++ [state]) =
      (latestStates states).filter (·.sessionId ≠ state.sessionId) ++ [state] := by
  unfold latestStates
  rw [List.foldl_append]
  rfl

theorem lastState_filter_ne (sessionId other : Nat) (states : List SessionRecoveryState) :
    Disk.lastState other (states.filter (·.sessionId ≠ sessionId)) =
      if other = sessionId then none else Disk.lastState other states := by
  unfold Disk.lastState
  rw [List.filter_filter]
  split
  · rename_i heq
    rw [List.getLast?_eq_none_iff, List.filter_eq_nil_iff]
    intro state _
    simp only [Bool.and_eq_true, decide_eq_true_eq]
    exact fun h => h.2 (h.1.trans heq)
  · rename_i hne
    congr 1
    refine List.filter_congr fun state _ => ?_
    rw [Bool.eq_iff_iff]
    simp only [Bool.and_eq_true, decide_eq_true_eq]
    exact ⟨And.left, fun h => ⟨h, fun heq => hne (h.symm.trans heq)⟩⟩

theorem lastState_latestStates (sessionId : Nat) (states : List SessionRecoveryState) :
    Disk.lastState sessionId (latestStates states) = Disk.lastState sessionId states := by
  induction states using List.reverseRecOn with
  | nil => rfl
  | append_singleton states state ih =>
    rw [latestStates_append, lastState_append, lastState_append]
    by_cases hid : state.sessionId = sessionId
    · simp [Disk.lastState, hid]
    · rw [lastState_filter_ne, if_neg fun heq => hid heq.symm, ih]

/-- The states of a rollover: the recovery log is written again if anything is archived. -/
theorem OnDisk.roll {d : Disk} {states : List SessionRecoveryState} (h : s.OnDisk d first states)
    (hactive : s.active ≠ []) :
    (archiveActive s).OnDisk (d.run (rollOps o d))
      (first + dropped o (s.archived.length + 1)) (latestStates states) := by
  have hbelow : ∀ segment ∈ segmentsFrom first s.archived,
      segment.segmentId < first + s.archived.length := fun _ hs => (mem_segmentsFrom hs).1
  have hdistinct := distinct_segmentsFrom first (s.archived ++ [s.active])
  rw [segmentsFrom_append] at hdistinct
  have hroll := h.holds.run_rollOps (o := o) hbelow hdistinct
  have harchive : archiveActive s =
      prune { s with archived := s.archived ++ [s.active], active := [], activeDay := none } := by
    unfold archiveActive
    rw [if_neg (by simpa using hactive)]
  rw [harchive]
  have hid : first + dropped o (s.archived.length + 1) + (kept o (s.archived ++ [s.active])).length =
      first + s.archived.length + 1 := by
    rw [kept_eq_drop, List.length_drop, List.length_append, List.length_singleton]
    unfold dropped
    split <;> omega
  refine ⟨?_, fun sessionId => ?_⟩
  · rw [prune_archived, prune_active, hid]
    rw [← segmentsFrom_append, kept_segmentsFrom, List.length_append] at hroll
    exact hroll
  · rw [prune_recoveryStates, lastState_latestStates]
    exact h.recovered sessionId

/-! ## Opening the files again -/

theorem Saved.recordsOk {ok : Nat → Prop} (h : s.Saved ok) :
    (∀ segment ∈ s.archived, RecordsOk segment) ∧ RecordsOk s.active ∧
      RecordsOk (messagesOf s.pending) := by
  refine ⟨fun segment hsegment r hr => (h.records r ?_).1, fun r hr => (h.records r ?_).1,
    fun r hr => (h.records r ?_).1⟩ <;> unfold logged
  · exact List.mem_append_left _
      (List.mem_append_left _ (List.mem_flatten.2 ⟨segment, hsegment, hr⟩))
  · exact List.mem_append_left _ (List.mem_append_right _ hr)
  · exact List.mem_append_right _ hr

theorem OnDisk.opens {d : Disk} {states : List SessionRecoveryState} (h : s.OnDisk d first states)
    (harchived : ∀ segment ∈ s.archived, RecordsOk segment) (hactive : RecordsOk s.active) :
    ∃ opened, openDisk o d = .ok opened ∧
      (prune s).OnDisk opened (first + dropped o s.archived.length) states := by
  have hok := segmentsOk_segmentsFrom harchived hactive first (first + s.archived.length) []
  rw [List.append_nil] at hok
  obtain ⟨opened, hopen, hholds⟩ := h.holds.opens (o := o) hok
  refine ⟨opened, hopen, ?_, fun sessionId => ?_⟩
  · have hid : first + dropped o s.archived.length + (kept o s.archived).length =
        first + s.archived.length := by
      rw [kept_eq_drop, List.length_drop]
      unfold dropped
      split <;> omega
    rw [prune_archived, prune_active, hid, ← kept_segmentsFrom]
    exact hholds
  · rw [prune_recoveryStates]
    exact h.recovered sessionId

end DurableBatchSessionStore

namespace DurableFiles

open DurableBatchSessionStore

variable {o : DurableBatchStoreOptions} {f : DurableFiles o}

/-- The files hold what the store says. -/
def Mirrored (f : DurableFiles o) : Prop := ∃ first states, f.store.OnDisk f.disk first states

namespace Mirrored

theorem fresh : (fresh : DurableFiles o).Mirrored :=
  ⟨1, [], ⟨⟨rfl, fun _ h => absurd h List.not_mem_nil, rfl, rfl, rfl⟩, fun _ => rfl⟩⟩

theorem flush (h : f.Mirrored) : f.flush.Mirrored := by
  obtain ⟨first, states, h⟩ := h
  exact ⟨_, _, h.flush⟩

theorem with_memory (h : f.Mirrored) (pending : List PendingEntry) (arena : Bytes)
    (activeDay : Option Int) :
    Mirrored (o := o) ⟨{ f.store with pending, arena, activeDay }, f.disk⟩ := by
  obtain ⟨first, states, h⟩ := h
  exact ⟨first, states, h.holds, h.recovered⟩

theorem rollover (h : f.Mirrored) : f.rollover.Mirrored := by
  obtain ⟨first, states, h⟩ := h
  have hflush := h.flush
  unfold DurableFiles.rollover rolloverOps write Disk.run
  rw [runOps_append]
  split
  · rename_i hempty
    have hroll : f.store.rollover = f.store.flush := by
      unfold DurableBatchSessionStore.rollover archiveActive
      exact if_pos hempty
    rw [hroll]
    exact ⟨_, _, hflush⟩
  · rename_i hactive
    exact ⟨_, _, hflush.roll (by simpa [DurableFiles.flush, write] using hactive)⟩

theorem enqueue (h : f.Mirrored) (entry : PendingEntry) (arena : Bytes) :
    (f.write (enqueueOps entry f.store)
      (DurableBatchSessionStore.enqueue (o := o) entry { f.store with arena })).Mirrored := by
  have hqueue := h.with_memory (f.store.pending ++ [entry]) arena f.store.activeDay
  have hflush := hqueue.flush
  unfold enqueueOps DurableBatchSessionStore.enqueue
  dsimp only
  rw [List.length_append, List.length_singleton]
  split
  · exact hflush
  · exact hqueue

theorem rolloverBefore (h : f.Mirrored) (record : LogRecord) :
    (f.write (f.rolloverBeforeOps record) (f.store.rolloverBefore record)).Mirrored := by
  unfold rolloverBeforeOps DurableBatchSessionStore.rolloverBefore
  cases hday : recordDay o record.record.timestampNs with
  | none => exact h
  | some day =>
    dsimp only
    rw [rolloverFor_eq]
    unfold rolled
    split
    · exact h.rollover.with_memory _ _ _
    · exact h.with_memory _ _ _

theorem save (h : f.Mirrored) (entry : PendingEntry) : (f.save entry).Mirrored := by
  unfold DurableFiles.save saveOps saved
  cases entry with
  | message record =>
    dsimp only
    cases hvalid : validateRecordView record.record with
    | error e =>
      have happend : (appendMessageView record f.store).2 = f.store := by
        unfold appendMessageView
        rw [hvalid]
        rfl
      rw [happend]
      exact h
    | ok _ =>
      rw [appendMessageView_of_valid hvalid]
      unfold write Disk.run
      rw [runOps_append]
      exact (h.rolloverBefore record).enqueue (.message (record.queuedIn _)) _
  | recovery state =>
    dsimp only
    unfold queueRecoveryState
    split
    · exact h
    · exact h.enqueue (.recovery state) f.store.arena

theorem saveAll (h : f.Mirrored) (entries : List PendingEntry) : (saveAll entries f).Mirrored := by
  induction entries generalizing f with
  | nil => exact h
  | cons entry entries ih => exact ih (h.save entry)

theorem refresh {ok : Nat → Prop} (h : f.Mirrored) (hsaved : f.store.Saved ok) :
    f.refresh.Mirrored := by
  obtain ⟨first, states, h⟩ := h.with_memory [] [] (detectActiveDay o f.store.active)
  obtain ⟨harchived, hactive, -⟩ := hsaved.recordsOk
  obtain ⟨opened, hopen, hdisk⟩ := h.opens harchived hactive
  have hrefresh : f.refresh = ⟨(DurableBatchSessionStore.refresh f.store).2, opened⟩ := by
    unfold DurableFiles.refresh
    rw [hopen]
  rw [hrefresh]
  exact ⟨_, _, hdisk⟩

end Mirrored

/-! ## The copy of a reset -/

theorem store_saveAll (entries : List PendingEntry) (f : DurableFiles o) :
    (saveAll entries f).store = entries.foldl (fun s entry => saved entry s) f.store := by
  induction entries generalizing f with
  | nil => rfl
  | cons entry entries ih => exact ih (f.save entry)

theorem run_saveAllOps (entries : List PendingEntry) (f : DurableFiles o) :
    f.disk.run (saveAllOps entries f) = (saveAll entries f).disk := by
  induction entries generalizing f with
  | nil => rfl
  | cons entry entries ih =>
    unfold Disk.run at ih ⊢
    rw [saveAllOps, runOps_append]
    exact ih (f.save entry)

theorem saved_messages {records : List LogRecord} (h : RecordsOk records)
    (s : DurableBatchSessionStore o) :
    (records.map PendingEntry.message).foldl (fun s entry => saved entry s) s =
      s.appendAll records := by
  induction records generalizing s with
  | nil => rfl
  | cons record records ih =>
    have hrecord : saved (.message record) s = s.append record := by
      change (appendMessageView record s).2 = _
      rw [appendMessageView_of_valid (h record List.mem_cons_self)]
    rw [List.map_cons, List.foldl_cons, hrecord]
    exact ih (fun r hr => h r (List.mem_cons_of_mem _ hr)) _

theorem saved_states {states : List SessionRecoveryState} (h : ∀ state ∈ states, state.sessionId ≠ 0)
    (s : DurableBatchSessionStore o) :
    ((states.map PendingEntry.recovery).foldl (fun s entry => saved entry s) s).archived =
        s.archived ∧
      ((states.map PendingEntry.recovery).foldl (fun s entry => saved entry s) s).current =
        s.current ∧
      ∀ sessionId,
        ((states.map PendingEntry.recovery).foldl (fun s entry => saved entry s) s).recovered
          sessionId = (Disk.lastState sessionId states).or (s.recovered sessionId) := by
  induction states generalizing s with
  | nil => exact ⟨rfl, rfl, fun _ => rfl⟩
  | cons state states ih =>
    have hstate : saved (.recovery state) s = s.enqueue (.recovery state) := by
      change (queueRecoveryState state s).2 = _
      unfold queueRecoveryState
      rw [if_neg (h state List.mem_cons_self)]
    rw [List.map_cons, List.foldl_cons, hstate]
    obtain ⟨harchived, hcurrent, hrecovered⟩ :=
      ih (fun st hst => h st (List.mem_cons_of_mem _ hst)) (s.enqueue (.recovery state))
    refine ⟨harchived.trans (enqueue_archived ..), hcurrent.trans ?_, fun sessionId => ?_⟩
    · unfold DurableBatchSessionStore.enqueue
      dsimp only
      split
      · rw [flush_current]
        simp [current, PendingEntry.message?]
      · simp [current, PendingEntry.message?]
    · have hone : (s.enqueue (.recovery state)).recovered sessionId =
          (Disk.lastState sessionId [state]).or (s.recovered sessionId) := by
        rw [(enqueue_sameLog (.recovery state) s).2 sessionId]
        unfold recovered Disk.lastState
        by_cases hid : state.sessionId = sessionId <;> simp [recoverEntry, hid]
      rw [hrecovered, hone, ← Option.or_assoc, ← lastState_append]
      rfl

theorem recovered_rolloverBefore (record : LogRecord) (s : DurableBatchSessionStore o)
    (sessionId : Nat) : (s.rolloverBefore record).recovered sessionId = s.recovered sessionId := by
  have hroll : s.rollover.recovered sessionId = s.recovered sessionId := by
    have hpending : s.rollover.pending = [] := by
      unfold DurableBatchSessionStore.rollover archiveActive
      split
      · rfl
      · unfold prune
        split <;> rfl
    have hstates : s.rollover.recoveryStates = s.flush.recoveryStates := by
      unfold DurableBatchSessionStore.rollover archiveActive
      split
      · rfl
      · exact prune_recoveryStates _
    unfold recovered
    rw [hpending, hstates]
    exact flush_recoveryStates s sessionId
  unfold DurableBatchSessionStore.rolloverBefore
  split
  · rw [rolloverFor_eq]
    change (s.rolled _).recovered sessionId = _
    unfold rolled
    split
    · exact hroll
    · rfl
  · rfl

theorem recovered_appendAll (records : List LogRecord) (s : DurableBatchSessionStore o)
    (sessionId : Nat) : (s.appendAll records).recovered sessionId = s.recovered sessionId := by
  induction records generalizing s with
  | nil => rfl
  | cons record records ih =>
    refine (ih _).trans ?_
    rw [← recovered_rolloverBefore record s sessionId]
    exact (enqueue_message_log ..).2 sessionId

theorem records_of_onDisk {s : DurableBatchSessionStore o} {d : Disk} {first : Nat}
    {states : List SessionRecoveryState} (h : s.OnDisk d first states) : d.records = s.written := by
  rw [h.holds.records]
  unfold segmentsFrom written
  rw [List.flatMap_map, ← Directory.map_snd_numbered first s.archived, ← List.flatMap_id,
    List.flatMap_map, Directory.map_snd_numbered]
  rfl

variable {ok : Nat → Prop}

/-- The copy holds the records of the other sessions in the segments of the copy of the store, and
their recovery states. -/
theorem copyWithout_store (h : f.Mirrored) (hsaved : f.store.Saved ok) (sessionId : Nat) :
    (f.copyWithout sessionId).store.archived = (f.store.copyWithout sessionId).archived ∧
      (f.copyWithout sessionId).store.active = (f.store.copyWithout sessionId).active ∧
      (f.copyWithout sessionId).store.recoveryStates =
        Function.update f.store.flush.recoveryStates sessionId none := by
  obtain ⟨first, states, h⟩ := h
  have hflush := h.flush
  have hrecords : f.flush.disk.records = f.store.logged :=
    (records_of_onDisk hflush).trans (flush_log f.store)
  have hstates : itemsOf f.flush.disk.recovery = states ++ statesOf f.store.pending :=
    hflush.holds.itemsOf_recovery
  set others := f.store.logged.filter (·.isOther sessionId)
  set latest := (latestStates (states ++ statesOf f.store.pending)).filter
    (·.sessionId ≠ sessionId) with hlatest
  have hvalid : RecordsOk others := fun r hr => (hsaved.records r (List.mem_of_mem_filter hr)).1
  have hlast : ∀ other, Disk.lastState other (latestStates (states ++ statesOf f.store.pending)) =
      f.store.flush.recoveryStates other := fun other =>
    (lastState_latestStates other _).trans (hflush.recovered other)
  have hids : ∀ state ∈ latest, state.sessionId ≠ 0 := by
    intro state hstate hzero
    have hnone := (hlast 0).trans ((flush_recoveryStates f.store 0).trans hsaved.recovered_zero)
    unfold Disk.lastState at hnone
    rw [List.getLast?_eq_none_iff, List.filter_eq_nil_iff] at hnone
    exact hnone state (List.mem_of_mem_filter hstate) (decide_eq_true hzero)
  have hentries : othersOf sessionId f.flush.disk =
      others.map .message ++ latest.map .recovery := by
    unfold othersOf
    rw [hrecords, hstates]
    rfl
  obtain ⟨harchived, hcurrent, hrecovered⟩ :=
    saved_states hids (({} : DurableBatchSessionStore o).appendAll others)
  have hstore : (saveAll (othersOf sessionId f.flush.disk) (fresh : DurableFiles o)).store =
      (latest.map PendingEntry.recovery).foldl (fun s entry => saved entry s)
        (({} : DurableBatchSessionStore o).appendAll others) := by
    rw [store_saveAll, hentries, List.foldl_append, saved_messages hvalid]
    rfl
  unfold DurableFiles.copyWithout DurableFiles.flush write
  dsimp only
  change (saveAll (othersOf sessionId f.flush.disk) fresh).store.flush.archived = _ ∧
    (saveAll (othersOf sessionId f.flush.disk) fresh).store.flush.active = _ ∧
    (saveAll (othersOf sessionId f.flush.disk) fresh).store.flush.recoveryStates = _
  rw [hstore]
  refine ⟨?_, ?_, ?_⟩
  · rw [flush_archived, harchived]
    exact (flush_archived _).symm
  · rw [flush_active]
    exact hcurrent.trans (flush_active _).symm
  · funext other
    rw [flush_recoveryStates, hrecovered, recovered_appendAll, hlatest, lastState_filter_ne,
      show recovered other ({} : DurableBatchSessionStore o) = none from rfl, Option.or_none,
      hlast other, Function.update_apply]

theorem Mirrored.copyWithout (sessionId : Nat) : (f.copyWithout sessionId).Mirrored :=
  (Mirrored.fresh.saveAll _).flush

/-- The copy opens to the store after the reset. -/
theorem opens_copyWithout (h : f.Mirrored) (hsaved : f.store.Saved ok) {sessionId : Nat}
    (hid : sessionId ≠ 0) :
    ∃ opened, openDisk o (f.copyWithout sessionId).disk = .ok opened ∧
      ∃ first states, (resetSession sessionId f.store).2.OnDisk opened first states := by
  obtain ⟨harchived, hactive, hstates⟩ := copyWithout_store h hsaved sessionId
  obtain ⟨first, states, hcopy⟩ := (Mirrored.copyWithout (f := f) sessionId).with_memory [] []
    (detectActiveDay o (f.copyWithout sessionId).store.active)
  dsimp only at hcopy
  rw [harchived, hactive, hstates] at hcopy
  obtain ⟨hsegments, hrecords, -⟩ := (hsaved.copyWithout sessionId).recordsOk
  obtain ⟨opened, hopen, hdisk⟩ := hcopy.opens hsegments hrecords
  rw [hsaved.resetSession_eq hid]
  exact ⟨opened, hopen, _, _, hdisk⟩

theorem Mirrored.reset (h : f.Mirrored) (hsaved : f.store.Saved ok) (sessionId : Nat) :
    (f.reset sessionId).Mirrored := by
  unfold DurableFiles.reset
  split
  · exact h
  · rename_i hid
    obtain ⟨opened, hopen, hdisk⟩ := opens_copyWithout h hsaved hid
    rw [hopen]
    exact hdisk

/-! ## Runs -/

open Relation (ReflTransGen)

theorem act_steps (call : Call) (f : DurableFiles o) :
    ReflTransGen (Step fun _ => True) f.store (call.act f).store := by
  cases call with
  | save entry =>
    cases entry with
    | message record => exact appendMessageView_steps record trivial f.store
    | recovery state => exact queueRecoveryState_steps state f.store
  | flush => exact .single (.flush f.store)
  | rollover => exact .single (.rollover f.store)
  | reset sessionId =>
    change ReflTransGen _ f.store (f.reset sessionId).store
    unfold DurableFiles.reset
    split
    · exact .refl
    · split
      · exact .refl
      · exact .single (.reset sessionId f.store)
  | refresh =>
    change ReflTransGen _ f.store f.refresh.store
    unfold DurableFiles.refresh
    split
    · exact .refl
    · exact .single (.refresh f.store)

/-- What holds of a store and its files in every run. -/
structure Sound (f : DurableFiles o) : Prop where
  saved : f.store.Saved fun _ => True
  limit : f.store.WithinLimit
  mirrored : f.Mirrored

theorem Sound.fresh : (fresh : DurableFiles o).Sound :=
  ⟨Saved.start, .inr (Nat.zero_le _), Mirrored.fresh⟩

theorem Sound.act (h : f.Sound) (call : Call) : (call.act f).Sound := by
  have hsteps := act_steps call f
  refine ⟨?_, ?_, ?_⟩
  · generalize (call.act f).store = s' at hsteps
    induction hsteps with
    | refl => exact h.saved
    | tail _ hstep ih => exact hstep.saved ih
  · generalize (call.act f).store = s' at hsteps
    induction hsteps with
    | refl => exact h.limit
    | tail _ hstep ih => exact hstep.withinLimit ih
  · cases call with
    | save entry => exact h.mirrored.save entry
    | flush => exact h.mirrored.flush
    | rollover => exact h.mirrored.rollover
    | reset sessionId => exact h.mirrored.reset h.saved sessionId
    | refresh => exact h.mirrored.refresh h.saved

/-- In every run the files hold what the store says they hold. -/
theorem reaches_sound {ok : Call → DurableFiles o → Prop}
    (h : Reaches Call.act ok DurableFiles.fresh f) : f.Sound :=
  h.invariant Sound.fresh fun call _ hf _ => hf.act call

end DurableFiles

end NimbleFix
