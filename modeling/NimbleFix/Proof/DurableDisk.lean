import NimbleFix.Proof.DurableRefresh
import NimbleFix.Store.DurableFiles

/-!
# What the files of a durable store hold

`Holds d first archived log index states` says what is in every file of a disk. Opening such a disk
gives it back, with the archived segments beyond the limit removed, and what stands behind the
committed size of a file makes no difference to it.
-/

namespace NimbleFix

open Directory (numbered)

namespace DurableBatchSessionStore

variable {o : DurableBatchStoreOptions}

/-! ## The index of a log -/

/-- The entries of the outbound records of a log, the first of which is at `position`. -/
def indexFrom : Nat → List LogRecord → List OutboundIndexEntry
  | _, [] => []
  | position, .outbound record :: log => indexEntry record position :: indexFrom (position + 1) log
  | position, .inbound _ :: log => indexFrom (position + 1) log

def indexOf (log : List LogRecord) : List OutboundIndexEntry := indexFrom 0 log

theorem indexFrom_append (position : Nat) (log log' : List LogRecord) :
    indexFrom position (log ++ log') =
      indexFrom position log ++ indexFrom (position + log.length) log' := by
  induction log generalizing position with
  | nil => rfl
  | cons r log ih =>
    have hshift : position + 1 + log.length = position + (log.length + 1) := by omega
    cases r with
    | outbound record =>
      rw [List.cons_append, indexFrom, ih, indexFrom, List.length_cons, hshift, List.cons_append]
    | inbound record => rw [List.cons_append, indexFrom, ih, indexFrom, List.length_cons, hshift]

def LogRecord.isOutbound : LogRecord → Bool
  | .outbound _ => true
  | .inbound _ => false

/-- The entries of a log lead to its outbound records, also when more is written behind it. -/
theorem resolve_indexFrom (front log more : List LogRecord) :
    Disk.resolve (indexFrom front.length log) (front ++ log ++ more) =
      log.filter (·.isOutbound) := by
  induction log generalizing front with
  | nil => rfl
  | cons r log ih =>
    have hrest := ih (front ++ [r])
    rw [List.length_append, List.length_singleton, List.append_assoc front [r] log,
      List.singleton_append] at hrest
    have hget : (front ++ r :: log ++ more)[front.length]? = some r := by simp
    cases r with
    | outbound record =>
      unfold Disk.resolve at hrest ⊢
      rw [indexFrom, List.filterMap_cons_some
        (b := .outbound record) (by rw [indexEntry, hget]; rfl), hrest]
      rfl
    | inbound record =>
      rw [indexFrom, hrest]
      rfl

theorem resolve_indexOf (log more : List LogRecord) :
    Disk.resolve (indexOf log) (log ++ more) = log.filter (·.isOutbound) :=
  resolve_indexFrom [] log more

theorem outboundIndex_isOutbound (sessionId : Nat) (records : List LogRecord) :
    outboundIndex sessionId (records.filter (·.isOutbound)) = outboundIndex sessionId records := by
  unfold outboundIndex
  generalize ([] : List MessageRecord) = index
  induction records generalizing index with
  | nil => rfl
  | cons r records ih =>
    cases r with
    | outbound record =>
      rw [List.filter_cons_of_pos rfl, List.foldl_cons, List.foldl_cons, ih]
    | inbound record =>
      rw [List.filter_cons_of_neg (by simp [LogRecord.isOutbound]), List.foldl_cons, ih]
      rfl

/-! ## Checking an index -/

/-- The index passes the check of `Open` with the log. -/
def IndexOk (log : List LogRecord) (index : List OutboundIndexEntry) : Prop :=
  ∀ e ∈ index, e.position < log.length ∧ e.bodyStartOffset ≤ e.payloadSize

variable {log : List LogRecord} {segments : List Segment} {active : Segment}
  {states : List SessionRecoveryState} {d : Disk}

theorem checkIndex_ok {index : List OutboundIndexEntry} (h : IndexOk log index) :
    checkIndex log index = .ok () := by
  induction index with
  | nil => rfl
  | cons e index ih =>
    obtain ⟨hposition, hsize⟩ := h e List.mem_cons_self
    unfold checkIndex
    rw [if_neg (Nat.not_le_of_lt hposition), if_neg (Nat.not_lt_of_le hsize)]
    exact ih fun e' he => h e' (List.mem_cons_of_mem _ he)

theorem bodyStartOffset_le {record : MessageRecord} (h : validateRecordView record = .ok ()) :
    record.bodyStartOffset ≤ record.payload.length := by
  unfold validateRecordView at h
  split_ifs at h
  omega

/-- Records that can be saved. -/
def RecordsOk (records : List LogRecord) : Prop :=
  ∀ r ∈ records, validateRecordView r.record = .ok ()

theorem indexFrom_ok {position : Nat} (h : RecordsOk log) {e : OutboundIndexEntry}
    (he : e ∈ indexFrom position log) :
    e.position < position + log.length ∧ e.bodyStartOffset ≤ e.payloadSize := by
  induction log generalizing position with
  | nil => cases he
  | cons r log ih =>
    have hlog : RecordsOk log := fun r' hr => h r' (List.mem_cons_of_mem _ hr)
    rw [List.length_cons]
    cases r with
    | outbound record =>
      rw [indexFrom, List.mem_cons] at he
      rcases he with rfl | he
      · exact ⟨by simp [indexEntry], bodyStartOffset_le (h _ List.mem_cons_self)⟩
      · obtain ⟨hposition, hsize⟩ := ih hlog he
        exact ⟨by omega, hsize⟩
    | inbound record =>
      obtain ⟨hposition, hsize⟩ := ih hlog he
      exact ⟨by omega, hsize⟩

theorem indexOf_ok (h : RecordsOk log) (more : List LogRecord) :
    IndexOk (log ++ more) (indexOf log) := by
  intro e he
  obtain ⟨hposition, hsize⟩ := indexFrom_ok h he
  rw [List.length_append]
  exact ⟨by omega, hsize⟩

/-! ## What stands behind the committed size -/

section

variable {α : Type}

/-- The file without what stands behind its committed size. -/
def StoreFile.cut : StoreFile α → StoreFile α
  | headed segmentId fileSize items => headed segmentId fileSize (items.take fileSize)
  | file => file

theorem openStoreFile_cut (defaultId : Nat) (expected : Option Nat) (file : Option (StoreFile α)) :
    openStoreFile defaultId expected (file.map StoreFile.cut) =
      openStoreFile defaultId expected file := by
  match file with
  | none | some .empty | some .blank => rfl
  | some (.headed segmentId fileSize items) =>
    simp only [Option.map_some, StoreFile.cut, openStoreFile, List.length_take, List.take_take,
      Nat.min_self]
    congr 2
    funext
    have hlt : (min fileSize items.length < fileSize) = (items.length < fileSize) := by
      rw [eq_iff_iff]
      omega
    simp only [hlt]

theorem openStoreFile_whole (defaultId segmentId : Nat) {expected : Option Nat}
    (h : expected = none ∨ expected = some segmentId) (items : List α) :
    openStoreFile defaultId expected (some (.whole segmentId items)) = .ok (segmentId, items) := by
  have hcheck : checkSegmentId expected segmentId = .ok () := by
    unfold checkSegmentId
    rcases h with rfl | rfl <;> simp
  unfold StoreFile.whole openStoreFile
  dsimp only
  rw [hcheck]
  change (if items.length < items.length then _ else _) = _
  rw [if_neg (Nat.lt_irrefl _), List.take_length]

theorem openStoreFile_new (segmentId : Nat) {file : Option (StoreFile α)}
    (h : file = none ∨ file = some .empty) :
    openStoreFile segmentId (some segmentId) file = .ok (segmentId, []) := by
  have hcheck : checkSegmentId (some segmentId) segmentId = .ok () := by
    simp [checkSegmentId]
  rcases h with rfl | rfl <;> unfold openStoreFile <;> dsimp only <;> rw [hcheck] <;> rfl

end

/-- The files as `Open` sees them. -/
def Disk.cut (d : Disk) : Disk :=
  { d with
    log := d.log.map StoreFile.cut
    index := d.index.map StoreFile.cut
    recovery := d.recovery.map StoreFile.cut }

theorem openSegment_cut (defaultId : Nat) (expected : Option Nat)
    (log : Option (StoreFile LogRecord)) (index : Option (StoreFile OutboundIndexEntry)) :
    openSegment defaultId expected (log.map StoreFile.cut) (index.map StoreFile.cut) =
      openSegment defaultId expected log index := by
  unfold openSegment
  simp only [openStoreFile_cut]

theorem openDisk_cut (d : Disk) : openDisk o d.cut = openDisk o d := by
  unfold openDisk Disk.cut
  simp only [openSegment_cut, openStoreFile_cut, Option.isSome_map]

/-! ## The files -/

/-- The archived log of a segment. -/
def Segment.logFile (segment : Segment) : Nat × StoreFile LogRecord :=
  (segment.segmentId, .whole segment.segmentId segment.log)

/-- What the files hold: every archived segment, the active one and the recovery log. -/
structure Holds (d : Disk) (segments : List Segment) (active : Segment)
    (states : List SessionRecoveryState) : Prop where
  archivedLogs : d.archivedLogs = segments.map Segment.logFile
  archivedIndexes : ∀ segment ∈ segments,
    d.archivedIndexes.lookup segment.segmentId = some (.whole segment.segmentId segment.index)
  log : d.log = some (.whole active.segmentId active.log)
  index : d.index = some (.whole active.segmentId active.index)
  recovery : d.recovery = some (.whole 0 states)

/-- The outbound records the index of the segment leads to. -/
def Segment.indexed (segment : Segment) : List LogRecord :=
  Disk.resolve segment.index segment.log

namespace Holds

theorem records (h : Holds d segments active states) :
    d.records = segments.flatMap Segment.log ++ active.log := by
  unfold Disk.records
  rw [h.archivedLogs, h.log, List.flatMap_map]
  rfl

theorem indexed (h : Holds d segments active states) :
    d.indexed = segments.flatMap Segment.indexed ++ active.indexed := by
  unfold Disk.indexed
  rw [h.archivedLogs, h.log, h.index, List.flatMap_map]
  congr 1
  refine List.flatMap_congr fun segment hsegment => ?_
  change Disk.resolve (itemsOf (d.archivedIndexes.lookup segment.segmentId)) segment.log = _
  rw [h.archivedIndexes segment hsegment]
  rfl

theorem recoveryState (h : Holds d segments active states) (sessionId : Nat) :
    d.recoveryState sessionId = Disk.lastState sessionId states := by
  unfold Disk.recoveryState
  rw [h.recovery]
  rfl

end Holds

/-! ## Pruning -/

variable (o) in
/-- The last segments, as many as the limit allows. -/
def kept {α : Type} (segments : List α) : List α :=
  if o.maxArchivedSegments = 0 then segments
  else segments.drop (segments.length - o.maxArchivedSegments)

/-- Different segments have different names. -/
def Distinct (segments : List Segment) : Prop := (segments.map Segment.segmentId).Nodup

theorem remove_logFile {segment : Segment} (h : Distinct (segment :: segments)) :
    Directory.remove segment.segmentId ((segment :: segments).map Segment.logFile) =
      segments.map Segment.logFile := by
  have hnot := (List.nodup_cons.1 h).1
  unfold Directory.remove
  rw [List.map_cons, List.filter_cons_of_neg (by simp [Segment.logFile]), List.filter_eq_self]
  intro p hp
  obtain ⟨other, hother, rfl⟩ := List.mem_map.1 hp
  have hne : other.segmentId ≠ segment.segmentId := fun heq =>
    hnot (heq ▸ List.mem_map_of_mem hother)
  exact decide_eq_true hne

namespace Holds

variable {segment : Segment}

theorem removeLog (h : Holds d (segment :: segments) active states)
    (hdistinct : Distinct (segment :: segments)) :
    Holds ((DiskOp.removeLog segment.segmentId).apply d) segments active states where
  archivedLogs := by
    change Directory.remove segment.segmentId d.archivedLogs = _
    rw [h.archivedLogs, remove_logFile hdistinct]
  archivedIndexes other hother := h.archivedIndexes other (List.mem_cons_of_mem _ hother)
  log := h.log
  index := h.index
  recovery := h.recovery

theorem removeIndex (h : Holds d segments active states) {segmentId : Nat}
    (hnot : segmentId ∉ segments.map Segment.segmentId) :
    Holds ((DiskOp.removeIndex segmentId).apply d) segments active states where
  archivedLogs := h.archivedLogs
  archivedIndexes other hother := by
    have hne : other.segmentId ≠ segmentId := fun heq => hnot (heq ▸ List.mem_map_of_mem hother)
    exact (Directory.lookup_remove_of_ne hne d.archivedIndexes).trans
      (h.archivedIndexes other hother)
  log := h.log
  index := h.index
  recovery := h.recovery

end Holds

/-- The operations that remove the first `n` segments. -/
def removeOps (n : Nat) (segmentIds : List Nat) : List DiskOp :=
  (segmentIds.take n).flatMap fun segmentId => [.removeLog segmentId, .removeIndex segmentId]

theorem Holds.run_removeOps (n : Nat) :
    ∀ {d : Disk} {segments : List Segment}, Holds d segments active states → Distinct segments →
      Holds (d.run (removeOps n (segments.map Segment.segmentId))) (segments.drop n) active
        states := by
  induction n with
  | zero => exact fun h _ => h
  | succ n ih =>
    intro d segments h hdistinct
    cases segments with
    | nil => exact h
    | cons segment segments =>
      obtain ⟨hnot, hrest⟩ := List.nodup_cons.1 hdistinct
      exact ih ((h.removeLog hdistinct).removeIndex hnot) hrest

theorem Holds.run_pruneOps (h : Holds d segments active states) (hdistinct : Distinct segments) :
    Holds (d.run (pruneOps o (segments.map Segment.segmentId))) (kept o segments) active
      states := by
  unfold pruneOps kept
  split
  · exact h
  · rw [List.length_map]
    exact h.run_removeOps _ hdistinct

/-! ## Opening -/

theorem openArchived_ok {indexes : Directory (StoreFile OutboundIndexEntry)}
    (h : ∀ segment ∈ segments, openStoreFile segment.segmentId (some segment.segmentId)
      (indexes.lookup segment.segmentId) = .ok (segment.segmentId, segment.index) ∧
        IndexOk segment.log segment.index) :
    openArchived indexes (segments.map Segment.logFile) = .ok segments := by
  induction segments with
  | nil => rfl
  | cons segment segments ih =>
    obtain ⟨hindex, hok⟩ := h segment List.mem_cons_self
    have hsegment : openSegment segment.segmentId (some segment.segmentId)
        (some (.whole segment.segmentId segment.log)) (indexes.lookup segment.segmentId) =
        .ok segment := by
      unfold openSegment
      rw [openStoreFile_whole _ _ (.inr rfl)]
      change (openStoreFile _ _ _ >>= fun _ => _) = _
      rw [hindex]
      change (checkIndex segment.log segment.index >>= fun _ => _) = _
      rw [checkIndex_ok hok]
      rfl
    rw [List.map_cons, Segment.logFile, openArchived, hsegment,
      ih fun other hother => h other (List.mem_cons_of_mem _ hother)]
    rfl

theorem lookup_putIndexes (hdistinct : Distinct segments)
    (indexes : Directory (StoreFile OutboundIndexEntry)) {segment : Segment}
    (h : segment ∈ segments) :
    (segments.foldl (fun dir segment =>
        dir.put segment.segmentId (.whole segment.segmentId segment.index)) indexes).lookup
      segment.segmentId = some (.whole segment.segmentId segment.index) := by
  induction segments using List.reverseRecOn with
  | nil => cases h
  | append_singleton segments last ih =>
    unfold Distinct at hdistinct
    rw [List.map_append, List.nodup_append] at hdistinct
    rw [List.foldl_append, List.foldl_cons, List.foldl_nil]
    rcases List.mem_append.1 h with hsegment | hlast
    · have hne : segment.segmentId ≠ last.segmentId :=
        hdistinct.2.2 _ (List.mem_map_of_mem hsegment) _ (by simp)
      rw [Directory.lookup_put_of_ne hne]
      exact ih hdistinct.1 hsegment
    · obtain rfl := List.mem_singleton.1 hlast
      exact Directory.lookup_put_self ..

variable (o) in
/-- `Open` succeeds, and the files then hold the segments and the states. -/
def Opens (d : Disk) (segments : List Segment) (active : Segment)
    (states : List SessionRecoveryState) : Prop :=
  ∃ opened, openDisk o d = .ok opened ∧ Holds opened segments active states

theorem opens_of_parts (hlogs : d.archivedLogs = segments.map Segment.logFile)
    (hindexes : ∀ segment ∈ segments, openStoreFile segment.segmentId (some segment.segmentId)
      (d.archivedIndexes.lookup segment.segmentId) = .ok (segment.segmentId, segment.index) ∧
        IndexOk segment.log segment.index) (hdistinct : Distinct segments)
    (hpair : d.log.isSome = d.index.isSome)
    (hactive : ∀ nextId, nextId = ((d.archivedLogs.getLast?).map (·.1 + 1)).getD 1 →
      openSegment nextId (if d.log.isSome then none else some nextId) d.log d.index = .ok active)
    (hrecovery : openStoreFile 0 (some 0) d.recovery = .ok (0, states)) :
    Opens o d (kept o segments) active states := by
  have harchived := openArchived_ok hindexes
  rw [← hlogs] at harchived
  refine ⟨Disk.run (pruneOps o (segments.map Segment.segmentId))
    (filesOf segments active states d.archivedIndexes), ?_, ?_⟩
  · unfold openDisk
    rw [harchived]
    change (if d.log.isSome ≠ d.index.isSome then _ else _ >>= fun _ => _) = _
    rw [if_neg (not_not_intro hpair)]
    change (openSegment _ _ _ _ >>= fun _ => _) = _
    rw [hactive _ rfl]
    change (openStoreFile _ _ _ >>= fun _ => _) = _
    rw [hrecovery]
    rfl
  · exact Holds.run_pruneOps ⟨rfl, fun segment hsegment =>
      lookup_putIndexes hdistinct d.archivedIndexes hsegment, rfl, rfl, rfl⟩ hdistinct

/-! ## Files with something behind the committed size -/

/-- Items that are written and not committed. -/
structure Behind where
  log : List LogRecord := []
  index : List OutboundIndexEntry := []
  states : List SessionRecoveryState := []

/-- `Holds`, with items behind the committed sizes of the files that are written. -/
structure HoldsBehind (d : Disk) (segments : List Segment) (active : Segment)
    (states : List SessionRecoveryState) (behind : Behind) : Prop where
  archivedLogs : d.archivedLogs = segments.map Segment.logFile
  archivedIndexes : ∀ segment ∈ segments,
    d.archivedIndexes.lookup segment.segmentId = some (.whole segment.segmentId segment.index)
  log : d.log = some (.headed active.segmentId active.log.length (active.log ++ behind.log))
  index : d.index = some (.headed active.segmentId active.index.length (active.index ++ behind.index))
  recovery : d.recovery = some (.headed 0 states.length (states ++ behind.states))

section

theorem Holds.behind (h : Holds d segments active states) :
    HoldsBehind d segments active states {} := by
  refine ⟨h.archivedLogs, h.archivedIndexes, ?_, ?_, ?_⟩
  · rw [h.log, List.append_nil]
    rfl
  · rw [h.index, List.append_nil]
    rfl
  · rw [h.recovery, List.append_nil]
    rfl

theorem HoldsBehind.holds (h : HoldsBehind d segments active states {}) :
    Holds d segments active states := by
  refine ⟨h.archivedLogs, h.archivedIndexes, ?_, ?_, ?_⟩
  · rw [h.log, List.append_nil]
    rfl
  · rw [h.index, List.append_nil]
    rfl
  · rw [h.recovery, List.append_nil]
    rfl

theorem StoreFile.cut_headed {α : Type} (segmentId : Nat) (items behind : List α) :
    (StoreFile.headed segmentId items.length (items ++ behind)).cut = .whole segmentId items := by
  unfold StoreFile.cut StoreFile.whole
  dsimp only
  rw [List.take_left]

/-- What is not committed does not count. -/
theorem HoldsBehind.cut {behind : Behind} (h : HoldsBehind d segments active states behind) :
    Holds d.cut segments active states where
  archivedLogs := h.archivedLogs
  archivedIndexes := h.archivedIndexes
  log := by
    change d.log.map StoreFile.cut = _
    rw [h.log, Option.map_some, StoreFile.cut_headed]
  index := by
    change d.index.map StoreFile.cut = _
    rw [h.index, Option.map_some, StoreFile.cut_headed]
  recovery := by
    change d.recovery.map StoreFile.cut = _
    rw [h.recovery, Option.map_some, StoreFile.cut_headed]

/-- The indexes fit the logs, and the segments have names of their own. -/
structure SegmentsOk (segments : List Segment) (active : Segment) : Prop where
  index : ∀ segment ∈ segments, IndexOk segment.log segment.index
  active : IndexOk active.log active.index
  distinct : Distinct segments

theorem openSegment_whole (hok : IndexOk active.log active.index) (nextId : Nat) :
    openSegment nextId none (some (.whole active.segmentId active.log))
      (some (.whole active.segmentId active.index)) = .ok active := by
  unfold openSegment
  rw [openStoreFile_whole _ _ (.inl rfl)]
  change (openStoreFile _ _ _ >>= fun _ => _) = _
  rw [openStoreFile_whole _ _ (.inr rfl)]
  change (checkIndex active.log active.index >>= fun _ => _) = _
  rw [checkIndex_ok hok]
  rfl

theorem openSegment_new (nextId : Nat) :
    openSegment nextId (some nextId) none none = .ok ⟨nextId, [], []⟩ := by
  unfold openSegment
  rw [openStoreFile_new _ (.inl rfl)]
  change (openStoreFile _ _ _ >>= fun _ => _) = _
  rw [openStoreFile_new _ (.inl rfl)]
  rfl

theorem Holds.opens (h : Holds d segments active states) (hok : SegmentsOk segments active) :
    Opens o d (kept o segments) active states := by
  refine opens_of_parts h.archivedLogs (fun segment hsegment => ⟨?_, hok.index segment hsegment⟩)
    hok.distinct ?_ ?_ ?_
  · rw [h.archivedIndexes segment hsegment]
    exact openStoreFile_whole _ _ (.inr rfl) _
  · rw [h.log, h.index]
    rfl
  · intro nextId _
    rw [h.log, h.index]
    exact openSegment_whole hok.active nextId
  · rw [h.recovery]
    exact openStoreFile_whole _ _ (.inr rfl) _

theorem HoldsBehind.opens {behind : Behind} (h : HoldsBehind d segments active states behind)
    (hok : SegmentsOk segments active) : Opens o d (kept o segments) active states := by
  obtain ⟨opened, hopen, hholds⟩ := h.cut.opens (o := o) hok
  exact ⟨opened, (openDisk_cut d).symm.trans hopen, hholds⟩

end

/-! ## Files that do not open -/

/-- `Open` fails. -/
def Closed (o : DurableBatchStoreOptions) (d : Disk) : Prop := ∃ e, openDisk o d = .error e

theorem Closed.not_opens (h : Closed o d) {opened : Disk} : openDisk o d ≠ .ok opened := by
  obtain ⟨e, he⟩ := h
  rw [he]
  rintro ⟨⟩

theorem exceptBind_closed {α β : Type} (x : Except Status α) {g : α → Except Status β}
    (h : ∀ a, ∃ e, g a = .error e) : ∃ e, (x >>= g) = .error e := by
  cases x with
  | error e => exact ⟨e, rfl⟩
  | ok a => exact h a

theorem closed_of_companion (h : d.log.isSome ≠ d.index.isSome) : Closed o d := by
  refine exceptBind_closed _ fun archived => ?_
  rw [if_pos h]
  exact ⟨_, rfl⟩

theorem closed_of_blank (h : d.index = some .blank) : Closed o d := by
  refine exceptBind_closed _ fun archived => ?_
  split
  · exact ⟨_, rfl⟩
  · dsimp only
    rw [h]
    obtain ⟨e, he⟩ : ∃ e, openSegment (((d.archivedLogs.getLast?).map (·.1 + 1)).getD 1)
        (if d.log.isSome then none else some (((d.archivedLogs.getLast?).map (·.1 + 1)).getD 1))
        d.log (some .blank) = .error e := exceptBind_closed _ fun _ => ⟨_, rfl⟩
    rw [he]
    exact ⟨e, rfl⟩

end DurableBatchSessionStore

end NimbleFix
