import NimbleFix.Proof.DurableDisk

/-!
# Stops within a flush and within a rollover

Each file operation of `Flush` and `Rollover` with a flag, and what `Open` finds when the process
stops before it. A flush leaves what was committed until it writes the first header, and each
header commits one file more. A rollover passes through files that do not open, and through a
recovery log that is empty.
-/

namespace NimbleFix

namespace DurableBatchSessionStore

variable {o : DurableBatchStoreOptions}

/-! ## Flushing -/

/-- The states among queued entries. -/
def statesOf (entries : List PendingEntry) : List SessionRecoveryState :=
  entries.filterMap fun
    | .message _ => none
    | .recovery state => some state

/-- The records among queued entries. -/
def messagesOf (entries : List PendingEntry) : List LogRecord := entries.filterMap (·.message?)

section

variable {d : Disk} {segments : List Segment} {active : Segment}
  {states : List SessionRecoveryState} {behind : Behind}
  (h : HoldsBehind d segments active states behind)

include h

theorem HoldsBehind.appendLog (record : LogRecord) :
    HoldsBehind ((DiskOp.log (.append record)).apply d) segments active states
      { behind with log := behind.log ++ [record] } := by
  refine ⟨h.archivedLogs, h.archivedIndexes, ?_, h.index, h.recovery⟩
  change (FileOp.append record).apply d.log = _
  rw [h.log, ← List.append_assoc]
  rfl

theorem HoldsBehind.appendIndex (e : OutboundIndexEntry) :
    HoldsBehind ((DiskOp.index (.append e)).apply d) segments active states
      { behind with index := behind.index ++ [e] } := by
  refine ⟨h.archivedLogs, h.archivedIndexes, h.log, ?_, h.recovery⟩
  change (FileOp.append e).apply d.index = _
  rw [h.index, ← List.append_assoc]
  rfl

theorem HoldsBehind.appendRecovery (state : SessionRecoveryState) :
    HoldsBehind ((DiskOp.recovery (.append state)).apply d) segments active states
      { behind with states := behind.states ++ [state] } := by
  refine ⟨h.archivedLogs, h.archivedIndexes, h.log, h.index, ?_⟩
  change (FileOp.append state).apply d.recovery = _
  rw [h.recovery, ← List.append_assoc]
  rfl

theorem HoldsBehind.writePart :
    HoldsBehind ((DiskOp.log .writePart).apply d) segments active states behind := by
  refine ⟨h.archivedLogs, h.archivedIndexes, ?_, h.index, h.recovery⟩
  change FileOp.writePart.apply d.log = _
  rw [h.log]
  rfl

theorem HoldsBehind.commitLog :
    HoldsBehind ((DiskOp.log .commit).apply d) segments
      { active with log := active.log ++ behind.log } states { behind with log := [] } := by
  refine ⟨h.archivedLogs, h.archivedIndexes, ?_, h.index, h.recovery⟩
  change FileOp.commit.apply d.log = _
  rw [h.log, List.append_nil]
  rfl

theorem HoldsBehind.commitIndex :
    HoldsBehind ((DiskOp.index .commit).apply d) segments
      { active with index := active.index ++ behind.index } states { behind with index := [] } := by
  refine ⟨h.archivedLogs, h.archivedIndexes, h.log, ?_, h.recovery⟩
  change FileOp.commit.apply d.index = _
  rw [h.index, List.append_nil]
  rfl

theorem HoldsBehind.commitRecovery :
    HoldsBehind ((DiskOp.recovery .commit).apply d) segments active (states ++ behind.states)
      { behind with states := [] } := by
  refine ⟨h.archivedLogs, h.archivedIndexes, h.log, h.index, ?_⟩
  change FileOp.commit.apply d.recovery = _
  rw [h.recovery, List.append_nil]
  rfl

end

/-- An operation that writes behind the committed size. -/
inductive DiskOp.IsData : DiskOp → Prop
  | writePart : IsData (.log .writePart)
  | log (record : LogRecord) : IsData (.log (.append record))
  | index (e : OutboundIndexEntry) : IsData (.index (.append e))
  | recovery (state : SessionRecoveryState) : IsData (.recovery (.append state))

variable {op : DiskOp} {entries : List PendingEntry} {d : Disk} {segments : List Segment}
  {active segment : Segment} {states : List SessionRecoveryState} {Q : Prop → Disk → Prop}

theorem isData_of_mem_recordOps {record : LogRecord} {position : Nat}
    (h : op ∈ recordOps record position) : op.IsData := by
  unfold recordOps at h
  rw [List.mem_append, List.mem_cons] at h
  rcases h with h | rfl | h
  · split at h
    · cases h
    · obtain rfl := List.mem_singleton.1 h
      exact .writePart
  · exact .log record
  · cases record with
    | outbound record =>
      obtain rfl := List.mem_singleton.1 h
      exact .index _
    | inbound record => cases h

theorem isData_of_mem_dataOps {position : Nat} (h : op ∈ dataOps position entries) : op.IsData := by
  induction entries generalizing position with
  | nil => cases h
  | cons entry entries ih =>
    cases entry with
    | message record =>
      rcases List.mem_append.1 h with h | h
      · exact isData_of_mem_recordOps h
      · exact ih h
    | recovery state =>
      rcases List.mem_cons.1 h with rfl | h
      · exact .recovery state
      · exact ih h

/-- Something is behind the committed sizes. -/
def HoldsSomeBehind (d : Disk) (segments : List Segment) (active : Segment)
    (states : List SessionRecoveryState) : Prop :=
  ∃ behind, HoldsBehind d segments active states behind

theorem HoldsSomeBehind.data (h : HoldsSomeBehind d segments active states) (hop : op.IsData) :
    HoldsSomeBehind (op.apply d) segments active states := by
  obtain ⟨behind, h⟩ := h
  cases hop with
  | writePart => exact ⟨_, h.writePart⟩
  | log record => exact ⟨_, h.appendLog record⟩
  | index e => exact ⟨_, h.appendIndex e⟩
  | recovery state => exact ⟨_, h.appendRecovery state⟩

theorem HoldsBehind.run_recordOps {behind : Behind}
    (h : HoldsBehind d segments active states behind) (record : LogRecord) (position : Nat) :
    HoldsBehind (d.run (recordOps record position)) segments active states
      { behind with
        log := behind.log ++ [record]
        index := behind.index ++ indexFrom position [record] } := by
  have hpart : HoldsBehind
      (d.run (if record.record.payload = [] then [] else [.log .writePart])) segments active states
      behind := by
    split
    · exact h
    · exact h.writePart
  unfold recordOps Disk.run
  rw [runOps_append]
  cases record with
  | outbound record => exact (hpart.appendLog _).appendIndex _
  | inbound record =>
    rw [show indexFrom position [.inbound record] = [] from rfl, List.append_nil]
    exact hpart.appendLog _

/-- Writing the queue puts its records, their index entries and its states behind the files. -/
theorem HoldsBehind.run_dataOps (entries : List PendingEntry) :
    ∀ (position : Nat) {d : Disk} {behind : Behind},
      HoldsBehind d segments active states behind →
      HoldsBehind (d.run (dataOps position entries)) segments active states
        { log := behind.log ++ messagesOf entries
          index := behind.index ++ indexFrom position (messagesOf entries)
          states := behind.states ++ statesOf entries } := by
  induction entries with
  | nil =>
    intro position d behind h
    simp only [messagesOf, statesOf, indexFrom, List.filterMap_nil, List.append_nil]
    exact h
  | cons entry entries ih =>
    intro position d behind h
    cases entry with
    | message record =>
      have hrest := ih (position + 1) (h.run_recordOps record position)
      unfold Disk.run at hrest ⊢
      rw [dataOps, runOps_append]
      have hmessages : messagesOf (.message record :: entries) = [record] ++ messagesOf entries :=
        rfl
      have hstates : statesOf (.message record :: entries) = statesOf entries := rfl
      rw [hmessages, hstates, indexFrom_append, ← List.append_assoc, ← List.append_assoc]
      exact hrest
    | recovery state =>
      have hrest := ih position (h.appendRecovery state)
      have hmessages : messagesOf (.recovery state :: entries) = messagesOf entries := rfl
      have hstates : statesOf (.recovery state :: entries) = [state] ++ statesOf entries := rfl
      rw [hmessages, hstates, ← List.append_assoc]
      exact hrest

/-! ### The headers -/

theorem messagesOf_eq_nil (h : ¬entries.any (·.isMessage)) : messagesOf entries = [] := by
  refine List.filterMap_eq_nil_iff.2 fun entry hentry => ?_
  cases entry with
  | message record => exact absurd (List.any_eq_true.2 ⟨_, hentry, rfl⟩) h
  | recovery state => rfl

theorem statesOf_eq_nil (h : ¬entries.any (·.isRecovery)) : statesOf entries = [] := by
  refine List.filterMap_eq_nil_iff.2 fun entry hentry => ?_
  cases entry with
  | message record => rfl
  | recovery state => exact absurd (List.any_eq_true.2 ⟨_, hentry, rfl⟩) h

theorem indexFrom_messagesOf_eq_nil (h : ¬entries.any (·.isOutbound)) (position : Nat) :
    indexFrom position (messagesOf entries) = [] := by
  induction entries generalizing position with
  | nil => rfl
  | cons entry entries ih =>
    rw [List.any_cons, Bool.or_eq_true, not_or] at h
    cases entry with
    | message record =>
      cases record with
      | outbound record => exact absurd rfl h.1
      | inbound record => exact ih h.2 (position + 1)
    | recovery state => exact ih h.2 position

/-- The flags of a flush: `before` until the first header is written, `logged` between the headers
of the log and of the index, and `indexed` once only the header of the recovery log is missing. -/
def flushStops (before logged indexed : Prop) (position : Nat) (entries : List PendingEntry) :
    List (DiskOp × Prop) :=
  withFlag before (dataOps position entries) ++
    (if entries.any (·.isMessage) then [(.log .commit, before)] else []) ++
    (if entries.any (·.isOutbound) then [(.index .commit, logged)] else []) ++
    (if entries.any (·.isRecovery) then [(.recovery .commit, indexed)] else [])

theorem map_fst_ite {p : Prop} [Decidable p] (op : DiskOp) (flag : Prop) :
    (if p then [(op, flag)] else []).map Prod.fst = if p then [op] else [] := by
  split <;> rfl

theorem map_fst_flushStops (before logged indexed : Prop) (s : DurableBatchSessionStore o) :
    (flushStops before logged indexed s.active.length s.pending).map Prod.fst = flushOps s := by
  unfold flushStops flushOps commitOps
  simp only [List.map_append, map_fst_withFlag, map_fst_ite, List.append_assoc]

section

variable {segmentId : Nat} {log : List LogRecord}

/-- The active segment with everything indexed. -/
def wholeSegment (segmentId : Nat) (log : List LogRecord) : Segment :=
  ⟨segmentId, log, indexOf log⟩

theorem indexOf_append (log log' : List LogRecord) :
    indexOf (log ++ log') = indexOf log ++ indexFrom log.length log' := by
  unfold indexOf
  rw [indexFrom_append, Nat.zero_add]

theorem commitLog_stage
    (h : HoldsBehind d segments (wholeSegment segmentId log) states
      ⟨messagesOf entries, indexFrom log.length (messagesOf entries), statesOf entries⟩) :
    HoldsBehind (d.run (if entries.any (·.isMessage) then [.log .commit] else [])) segments
      ⟨segmentId, log ++ messagesOf entries, indexOf log⟩ states
      ⟨[], indexFrom log.length (messagesOf entries), statesOf entries⟩ := by
  split
  · exact h.commitLog
  · rename_i hmessages
    rw [messagesOf_eq_nil hmessages] at h ⊢
    rw [List.append_nil]
    exact h

theorem commitIndex_stage
    (h : HoldsBehind d segments ⟨segmentId, log ++ messagesOf entries, indexOf log⟩ states
      ⟨[], indexFrom log.length (messagesOf entries), statesOf entries⟩) :
    HoldsBehind (d.run (if entries.any (·.isOutbound) then [.index .commit] else [])) segments
      (wholeSegment segmentId (log ++ messagesOf entries)) states ⟨[], [], statesOf entries⟩ := by
  unfold wholeSegment
  rw [indexOf_append]
  split
  · exact h.commitIndex
  · rename_i houtbound
    rw [indexFrom_messagesOf_eq_nil houtbound] at h ⊢
    rw [List.append_nil]
    exact h

theorem commitRecovery_stage
    (h : HoldsBehind d segments active states ⟨[], [], statesOf entries⟩) :
    Holds (d.run (if entries.any (·.isRecovery) then [.recovery .commit] else [])) segments active
      (states ++ statesOf entries) := by
  refine HoldsBehind.holds ?_
  split
  · exact h.commitRecovery
  · rename_i hrecovery
    rw [statesOf_eq_nil hrecovery] at h ⊢
    rw [List.append_nil]
    exact h

theorem Holds.run_flushOps {s : DurableBatchSessionStore o}
    (h : Holds d segments (wholeSegment segmentId s.active) states) :
    Holds (d.run (flushOps s)) segments
      (wholeSegment segmentId (s.active ++ messagesOf s.pending))
      (states ++ statesOf s.pending) := by
  have hdata := h.behind.run_dataOps s.pending s.active.length
  unfold flushOps commitOps
  unfold Disk.run at hdata ⊢
  rw [runOps_append, runOps_append, runOps_append]
  exact commitRecovery_stage (commitIndex_stage (commitLog_stage hdata))

/-- Every stop of a flush, by what the files hold at it. -/
theorem Holds.flush_atStops {before logged indexed : Prop}
    (h : Holds d segments (wholeSegment segmentId log) states)
    (hbefore : ∀ d', HoldsSomeBehind d' segments (wholeSegment segmentId log) states → Q before d')
    (hlogged : entries.any (·.isOutbound) →
      ∀ d', HoldsSomeBehind d' segments ⟨segmentId, log ++ messagesOf entries, indexOf log⟩ states →
        Q logged d')
    (hindexed : entries.any (·.isRecovery) →
      ∀ d', HoldsSomeBehind d' segments (wholeSegment segmentId (log ++ messagesOf entries))
        states → Q indexed d') :
    AtStops DiskOp.apply Q (flushStops before logged indexed log.length entries) d := by
  have hdata := h.behind.run_dataOps entries log.length
  have hlog := commitLog_stage hdata
  have hindex := commitIndex_stage hlog
  unfold flushStops
  refine (((AtStops.withFlag (fun op hop d' hd => hd.data (isData_of_mem_dataOps hop)) hbefore
    ⟨_, h.behind⟩).append ?_).append ?_).append ?_
  · rw [map_fst_withFlag]
    split
    · exact ⟨hbefore _ ⟨_, hdata⟩, trivial⟩
    · trivial
  · rw [List.map_append, map_fst_withFlag, map_fst_ite, runOps_append]
    split
    · rename_i houtbound
      exact ⟨hlogged houtbound _ ⟨_, hlog⟩, trivial⟩
    · trivial
  · rw [List.map_append, List.map_append, map_fst_withFlag, map_fst_ite, map_fst_ite,
      runOps_append, runOps_append]
    split
    · rename_i hrecovery
      exact ⟨hindexed hrecovery _ ⟨_, hindex⟩, trivial⟩
    · trivial

end

/-! ## Archiving the active segment -/

/-- The archived files and the recovery log of a disk, apart from the active segment. -/
structure HoldsArchived (d : Disk) (segments : List Segment)
    (states : List SessionRecoveryState) : Prop where
  archivedLogs : d.archivedLogs = segments.map Segment.logFile
  archivedIndexes : ∀ segment ∈ segments,
    d.archivedIndexes.lookup segment.segmentId = some (.whole segment.segmentId segment.index)
  recovery : d.recovery = some (.whole 0 states)

theorem HoldsArchived.setActive (h : HoldsArchived d segments states)
    (log : Option (StoreFile LogRecord)) (index : Option (StoreFile OutboundIndexEntry)) :
    HoldsArchived { d with log, index } segments states :=
  ⟨h.archivedLogs, h.archivedIndexes, h.recovery⟩

/-- `Open` makes the active segment when it has no files, or only a log without records and an
index of size zero. -/
theorem HoldsArchived.opens (h : HoldsArchived d (segments ++ [segment]) states)
    (hok : SegmentsOk (segments ++ [segment]) (wholeSegment (segment.segmentId + 1) []))
    (hfiles : (d.log = none ∧ d.index = none) ∨
      (d.log = some (.whole (segment.segmentId + 1) []) ∧ d.index = some .empty)) :
    Opens o d (kept o (segments ++ [segment])) (wholeSegment (segment.segmentId + 1) [])
      states := by
  refine opens_of_parts h.archivedLogs (fun segment hsegment => ⟨?_, hok.index segment hsegment⟩)
    hok.distinct ?_ ?_ ?_
  · rw [h.archivedIndexes segment hsegment]
    exact openStoreFile_whole _ _ (.inr rfl) _
  · rcases hfiles with ⟨hlog, hindex⟩ | ⟨hlog, hindex⟩ <;> rw [hlog, hindex] <;> rfl
  · intro nextId hnext
    have hid : nextId = segment.segmentId + 1 := by
      rw [hnext, h.archivedLogs, List.map_append, List.map_singleton, List.getLast?_concat]
      rfl
    subst hid
    rcases hfiles with ⟨hlog, hindex⟩ | ⟨hlog, hindex⟩
    · rw [hlog, hindex]
      exact openSegment_new _
    · unfold openSegment
      rw [hlog, hindex, Option.isSome_some, if_pos rfl, openStoreFile_whole _ _ (.inl rfl)]
      change (openStoreFile _ _ _ >>= fun _ => _) = _
      rw [openStoreFile_new _ (.inr rfl)]
      rfl
  · rw [h.recovery]
    exact openStoreFile_whole _ _ (.inr rfl) _

/-- Renaming the files of the active segment, whose number is the next one. -/
theorem Holds.archived (h : Holds d segments active states)
    (hbelow : ∀ segment ∈ segments, segment.segmentId < active.segmentId) :
    HoldsArchived (d.run [.archiveLog active.segmentId, .archiveIndex active.segmentId])
      (segments ++ [active]) states := by
  have hrun : d.run [.archiveLog active.segmentId, .archiveIndex active.segmentId] =
      { d with
        log := none
        index := none
        archivedLogs := d.archivedLogs.put active.segmentId (.whole active.segmentId active.log)
        archivedIndexes :=
          d.archivedIndexes.put active.segmentId (.whole active.segmentId active.index) } := by
    simp only [Disk.run, runOps, List.foldl_cons, List.foldl_nil, DiskOp.apply, h.log, h.index]
  rw [hrun]
  refine ⟨?_, fun segment hsegment => ?_, h.recovery⟩
  · change Directory.put active.segmentId _ d.archivedLogs = _
    have hall : (segments.map Segment.logFile).filter (·.1 < active.segmentId) =
        segments.map Segment.logFile := by
      refine List.filter_eq_self.2 fun p hp => ?_
      obtain ⟨segment, hsegment, rfl⟩ := List.mem_map.1 hp
      exact decide_eq_true (hbelow segment hsegment)
    have hnone : (segments.map Segment.logFile).filter (active.segmentId < ·.1) = [] := by
      refine List.filter_eq_nil_iff.2 fun p hp => ?_
      obtain ⟨segment, hsegment, rfl⟩ := List.mem_map.1 hp
      rw [decide_eq_true_eq]
      exact Nat.not_lt_of_gt (hbelow segment hsegment)
    rw [h.archivedLogs, Directory.put, hall, hnone, List.map_append]
    rfl
  · rcases List.mem_append.1 hsegment with hsegment | hlast
    · exact (Directory.lookup_put_of_ne (Nat.ne_of_lt (hbelow segment hsegment)) _ _).trans
        (h.archivedIndexes segment hsegment)
    · obtain rfl := List.mem_singleton.1 hlast
      exact Directory.lookup_put_self ..

/-- The flags while the files of a new segment are made. The files do not open while there is a log
without an index, nor while the index has no header. -/
def createStops (segmentId : Nat) : List (DiskOp × Prop) :=
  [(.log .create, True), (.log .resize, False), (.log (.writeHeader segmentId), False),
    (.index .create, False), (.index .resize, True), (.index (.writeHeader segmentId), False)]

theorem HoldsArchived.create_atStops (h : HoldsArchived d (segments ++ [segment]) states)
    (hlog : d.log = none) (hindex : d.index = none)
    (hok : SegmentsOk (segments ++ [segment]) (wholeSegment (segment.segmentId + 1) []))
    (hclosed : ∀ d', Closed o d' → Q False d')
    (hopens : ∀ d', Opens o d' (kept o (segments ++ [segment]))
      (wholeSegment (segment.segmentId + 1) []) states → Q True d') :
    AtStops DiskOp.apply Q (createStops (segment.segmentId + 1)) d := by
  obtain ⟨log, index, recovery, archivedLogs, archivedIndexes⟩ := d
  dsimp only at hlog hindex
  subst hlog hindex
  exact ⟨hopens _ (h.opens hok (.inl ⟨rfl, rfl⟩)),
    hclosed _ (closed_of_companion (Ne.symm Bool.false_ne_true)),
    hclosed _ (closed_of_companion (Ne.symm Bool.false_ne_true)),
    hclosed _ (closed_of_companion (Ne.symm Bool.false_ne_true)),
    hopens _ ((h.setActive _ _).opens hok (.inr ⟨rfl, rfl⟩)), hclosed _ (closed_of_blank rfl),
    trivial⟩

/-- The flags of the renames and of the files of the next segment. -/
def archiveStops (segmentId : Nat) : List (DiskOp × Prop) :=
  [(.archiveLog segmentId, True), (.archiveIndex segmentId, False)] ++ createStops (segmentId + 1)

theorem Holds.run_archiveOps (h : Holds d segments active states)
    (hbelow : ∀ segment ∈ segments, segment.segmentId < active.segmentId) :
    Holds (d.run (archiveOps active.segmentId)) (segments ++ [active])
      (wholeSegment (active.segmentId + 1) []) states := by
  have harchived := h.archived hbelow
  have hrun : d.run (archiveOps active.segmentId) =
      { d.run [.archiveLog active.segmentId, .archiveIndex active.segmentId] with
        log := some (.whole (active.segmentId + 1) [])
        index := some (.whole (active.segmentId + 1) []) } := by
    simp only [archiveOps, createOps, Disk.run, runOps, List.map_cons, List.map_nil,
      List.cons_append, List.nil_append, List.foldl_cons, List.foldl_nil, DiskOp.apply, h.log,
      h.index, FileOp.apply]
    rfl
  rw [hrun]
  exact ⟨harchived.archivedLogs, harchived.archivedIndexes, rfl, rfl, harchived.recovery⟩

theorem Holds.archive_atStops (h : Holds d segments active states)
    (hbelow : ∀ segment ∈ segments, segment.segmentId < active.segmentId)
    (hok : SegmentsOk (segments ++ [active]) (wholeSegment (active.segmentId + 1) []))
    (hstart : Q True d) (hclosed : ∀ d', Closed o d' → Q False d')
    (hopens : ∀ d', Opens o d' (kept o (segments ++ [active]))
      (wholeSegment (active.segmentId + 1) []) states → Q True d') :
    AtStops DiskOp.apply Q (archiveStops active.segmentId) d := by
  have hlog₁ : ((DiskOp.archiveLog active.segmentId).apply d).log = none := by
    simp only [DiskOp.apply, h.log]
  have hindex₁ : ((DiskOp.archiveLog active.segmentId).apply d).index = d.index := by
    simp only [DiskOp.apply, h.log]
  have hlog₂ : (d.run [.archiveLog active.segmentId, .archiveIndex active.segmentId]).log = none := by
    simp only [Disk.run, runOps, List.foldl_cons, List.foldl_nil, DiskOp.apply, h.log, h.index]
  have hindex₂ :
      (d.run [.archiveLog active.segmentId, .archiveIndex active.segmentId]).index = none := by
    simp only [Disk.run, runOps, List.foldl_cons, List.foldl_nil, DiskOp.apply, h.log, h.index]
  refine AtStops.append ⟨hstart, hclosed _ (closed_of_companion ?_), trivial⟩
    ((h.archived hbelow).create_atStops hlog₂ hindex₂ hok hclosed hopens)
  rw [hlog₁, hindex₁, h.index]
  exact Bool.false_ne_true

/-! ## Pruning -/

theorem kept_of_cons {α : Type} {x : α} {xs : List α} (hmax : o.maxArchivedSegments ≠ 0)
    (h : o.maxArchivedSegments ≤ xs.length) : kept o (x :: xs) = kept o xs := by
  unfold kept
  rw [if_neg hmax, if_neg hmax, List.length_cons, Nat.succ_sub h, List.drop_succ_cons]

theorem SegmentsOk.of_cons (h : SegmentsOk (segment :: segments) active) :
    SegmentsOk segments active :=
  ⟨fun other hother => h.index other (List.mem_cons_of_mem _ hother), h.active,
    (List.nodup_cons.1 h.distinct).2⟩

theorem Holds.remove_atStops (hmax : o.maxArchivedSegments ≠ 0) (n : Nat) :
    ∀ {d : Disk} {segments : List Segment}, Holds d segments active states →
      SegmentsOk segments active → n + o.maxArchivedSegments ≤ segments.length →
      (∀ d', Opens o d' (kept o segments) active states → Q True d') →
      AtStops DiskOp.apply Q (withFlag True (removeOps n (segments.map Segment.segmentId))) d := by
  induction n with
  | zero => exact fun _ _ _ _ => trivial
  | succ n ih =>
    intro d segments h hok hn hQ
    cases segments with
    | nil => trivial
    | cons segment segments =>
      rw [List.length_cons] at hn
      have hkept : kept o (segment :: segments) = kept o segments :=
        kept_of_cons hmax (by omega)
      have hlog := h.removeLog hok.distinct
      rw [hkept] at hQ
      refine ⟨hQ _ ?_, hQ _ (hlog.opens hok.of_cons), ih
        (hlog.removeIndex (List.nodup_cons.1 hok.distinct).1) hok.of_cons (by omega) hQ⟩
      rw [← hkept]
      exact h.opens hok

theorem kept_kept {α : Type} (xs : List α) : kept o (kept o xs) = kept o xs := by
  unfold kept
  split
  · rfl
  · rw [List.drop_drop, List.length_drop]
    congr 1
    omega

theorem SegmentsOk.kept (h : SegmentsOk segments active) : SegmentsOk (kept o segments) active := by
  have hsub : (DurableBatchSessionStore.kept o segments).Sublist segments := by
    unfold DurableBatchSessionStore.kept
    split
    · exact List.Sublist.refl _
    · exact List.drop_sublist ..
  exact ⟨fun segment hsegment => h.index segment (hsub.subset hsegment), h.active,
    h.distinct.sublist (hsub.map _)⟩

/-- A stop while archived segments are deleted: those within the limit are there. -/
theorem Holds.prune_atStops (h : Holds d segments active states) (hok : SegmentsOk segments active)
    (hQ : ∀ d', Opens o d' (kept o segments) active states → Q True d') :
    AtStops DiskOp.apply Q (withFlag True (pruneOps o (segments.map Segment.segmentId))) d := by
  unfold pruneOps
  split
  · trivial
  · rename_i hmax
    rw [List.length_map]
    by_cases hmany : o.maxArchivedSegments ≤ segments.length
    · exact h.remove_atStops hmax _ hok (by omega) hQ
    · rw [Nat.sub_eq_zero_of_le (by omega)]
      trivial

/-! ## Writing the recovery log again -/

/-- The flags while the recovery log is written again: it is empty until the last header. -/
def compactStops (lost : Prop) (states : List SessionRecoveryState) : List (DiskOp × Prop) :=
  if states = [] then []
  else
    [(.recovery .truncate, True), (.recovery (.writeHeader 0), lost)] ++
      withFlag lost (states.map fun state => .recovery (.append state)) ++
      [(.recovery .commit, lost)]

theorem map_fst_compactStops (lost : Prop) (states : List SessionRecoveryState) :
    (compactStops lost states).map Prod.fst = compactOps states := by
  unfold compactStops compactOps
  split
  · rfl
  · simp

theorem Holds.opens_truncated (h : Holds d segments active states)
    (hok : SegmentsOk segments active) :
    Opens o ((DiskOp.recovery .truncate).apply d) (kept o segments) active [] := by
  have hrecovery : ((DiskOp.recovery .truncate).apply d).recovery = some .empty := by
    change FileOp.truncate.apply d.recovery = _
    rw [h.recovery]
    rfl
  have hempty : Holds { d with recovery := some (.whole 0 []) } segments active [] :=
    ⟨h.archivedLogs, h.archivedIndexes, h.log, h.index, rfl⟩
  -- `Open` makes an empty recovery log as it reads one that has only a header
  obtain ⟨opened, hopen, hholds⟩ := hempty.opens (o := o) hok
  refine ⟨opened, ?_, hholds⟩
  unfold openDisk at hopen ⊢
  rw [hrecovery, openStoreFile_new 0 (.inr rfl)]
  dsimp only at hopen
  rw [openStoreFile_whole 0 0 (.inr rfl)] at hopen
  exact hopen

theorem Holds.truncated_headed (h : Holds d segments active states) :
    HoldsBehind (d.run [.recovery .truncate, .recovery (.writeHeader 0)]) segments active []
      {} := by
  have hrun : d.run [.recovery .truncate, .recovery (.writeHeader 0)] =
      { d with recovery := some (.headed 0 0 []) } := by
    simp only [Disk.run, runOps, List.foldl_cons, List.foldl_nil, DiskOp.apply, h.recovery,
      FileOp.apply]
  rw [hrun]
  exact ⟨h.archivedLogs, h.archivedIndexes, h.behind.log, h.behind.index, rfl⟩

theorem HoldsBehind.run_appendStates (latest : List SessionRecoveryState) :
    ∀ {d : Disk} {behind : Behind}, HoldsBehind d segments active states behind →
      HoldsBehind (d.run (latest.map fun state => .recovery (.append state))) segments active
        states { behind with states := behind.states ++ latest } := by
  induction latest with
  | nil =>
    intro d behind h
    rw [List.append_nil]
    exact h
  | cons state latest ih =>
    intro d behind h
    have hrest := ih (h.appendRecovery state)
    rw [List.append_assoc] at hrest
    exact hrest

theorem Holds.run_compactOps (h : Holds d segments active states)
    {latest : List SessionRecoveryState} (hnone : latest = [] → states = []) :
    Holds (d.run (compactOps latest)) segments active latest := by
  unfold compactOps
  split
  · rename_i hempty
    rw [hempty, ← hnone hempty]
    exact h
  · unfold Disk.run
    rw [runOps_append, runOps_append]
    exact (h.truncated_headed.run_appendStates latest).commitRecovery.holds

theorem Holds.compact_atStops {lost : Prop}
    (h : Holds d segments active states) (hok : SegmentsOk segments active)
    (latest : List SessionRecoveryState) (hstart : Q True d)
    (hlost : ∀ d', Opens o d' (kept o segments) active [] → Q lost d') :
    AtStops DiskOp.apply Q (compactStops lost latest) d := by
  unfold compactStops
  split
  · trivial
  · have hheaded := h.truncated_headed
    have hfirst : AtStops DiskOp.apply Q
        [(.recovery .truncate, True), (.recovery (.writeHeader 0), lost)] d :=
      ⟨hstart, hlost _ (h.opens_truncated hok), trivial⟩
    refine (hfirst.append (AtStops.withFlag (I := fun d' => HoldsSomeBehind d' segments active [])
      ?_ ?_ ?_)).append ⟨hlost _ ?_, trivial⟩
    · intro op hop d' hd
      obtain ⟨state, -, rfl⟩ := List.mem_map.1 hop
      exact hd.data (.recovery state)
    · rintro d' ⟨behind, hd⟩
      exact hlost _ (hd.opens hok)
    · exact ⟨_, hheaded⟩
    · rw [List.map_append, map_fst_withFlag, runOps_append]
      exact (hheaded.run_appendStates latest).opens hok

/-! ## Rolling over -/

/-- The flags of `Rollover` after the flush. -/
def rollStops (o : DurableBatchStoreOptions) (lost : Prop) (d : Disk) : List (DiskOp × Prop) :=
  archiveStops d.segmentId ++
    withFlag True (pruneOps o (d.archivedLogs.map Prod.fst ++ [d.segmentId])) ++
    compactStops lost (latestStates (itemsOf d.recovery))

theorem map_fst_rollStops (lost : Prop) (d : Disk) :
    (rollStops o lost d).map Prod.fst = rollOps o d := by
  unfold rollStops rollOps
  rw [List.map_append, List.map_append, map_fst_withFlag, map_fst_compactStops]
  rfl

theorem Holds.segmentId (h : Holds d segments active states) : d.segmentId = active.segmentId := by
  unfold Disk.segmentId
  rw [h.log]
  rfl

theorem Holds.segmentIds (h : Holds d segments active states) :
    d.archivedLogs.map Prod.fst ++ [d.segmentId] =
      (segments ++ [active]).map Segment.segmentId := by
  rw [h.segmentId, h.archivedLogs, List.map_map, List.map_append]
  rfl

theorem Holds.itemsOf_recovery (h : Holds d segments active states) :
    itemsOf d.recovery = states := by
  rw [h.recovery]
  rfl

theorem latestStates_eq_nil (h : latestStates states = []) :
    states = [] := by
  induction states using List.reverseRecOn with
  | nil => rfl
  | append_singleton states state _ =>
    unfold latestStates at h
    rw [List.foldl_append] at h
    simp at h

theorem Holds.run_rollOps (h : Holds d segments active states)
    (hbelow : ∀ segment ∈ segments, segment.segmentId < active.segmentId)
    (hdistinct : Distinct (segments ++ [active])) :
    Holds (d.run (rollOps o d)) (kept o (segments ++ [active]))
      (wholeSegment (active.segmentId + 1) []) (latestStates states) := by
  unfold rollOps Disk.run
  rw [runOps_append, runOps_append, h.segmentIds, h.itemsOf_recovery, h.segmentId]
  exact ((h.run_archiveOps hbelow).run_pruneOps hdistinct).run_compactOps latestStates_eq_nil

/-- Every stop of a rollover after the flush: the files do not open, or they hold the archived
segments within the limit, with the recovery log as it was or empty. -/
theorem Holds.roll_atStops {lost : Prop}
    (h : Holds d segments active states)
    (hbelow : ∀ segment ∈ segments, segment.segmentId < active.segmentId)
    (hok : SegmentsOk (segments ++ [active]) (wholeSegment (active.segmentId + 1) []))
    (hstart : Q True d) (hclosed : ∀ d', Closed o d' → Q False d')
    (hopens : ∀ d', Opens o d' (kept o (segments ++ [active]))
      (wholeSegment (active.segmentId + 1) []) states → Q True d')
    (hlost : ∀ d', Opens o d' (kept o (segments ++ [active]))
      (wholeSegment (active.segmentId + 1) []) [] → Q lost d') :
    AtStops DiskOp.apply Q (rollStops o lost d) d := by
  have harchive := h.run_archiveOps hbelow
  have hprune := harchive.run_pruneOps (o := o) hok.distinct
  have hkept : ∀ states' : List SessionRecoveryState, ∀ d',
      Opens o d' (kept o (kept o (segments ++ [active])))
        (wholeSegment (active.segmentId + 1) []) states' →
      Opens o d' (kept o (segments ++ [active])) (wholeSegment (active.segmentId + 1) [])
        states' := by
    intro states' d' hd
    rwa [kept_kept] at hd
  unfold rollStops
  rw [h.segmentIds, h.itemsOf_recovery, h.segmentId]
  refine ((h.archive_atStops hbelow hok hstart hclosed hopens).append ?_).append ?_
  · exact harchive.prune_atStops hok hopens
  · rw [List.map_append, map_fst_withFlag, runOps_append]
    exact hprune.compact_atStops hok.kept _ (hopens _ (hkept _ _ (hprune.opens hok.kept)))
      fun d' hd => hlost d' (hkept _ d' hd)

end DurableBatchSessionStore

end NimbleFix
