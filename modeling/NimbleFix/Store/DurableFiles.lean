import NimbleFix.Lib.Directory
import NimbleFix.Lib.Stops
import NimbleFix.Store.DurableContent

/-!
# The files of the durable batch store

What `Store/DurableBatch` says the files hold is here spread over the files themselves: a log and
an outbound index for each segment, and the recovery log. Every file starts with a header that
commits the size up to which the file counts; `Open` cuts off what stands behind it. The
operations of the store are lists of file operations, each of which is atomic, and the process may
stop between any two.

Sizes and offsets are counted in items (records, index entries, recovery states) behind the header.
The store keeps the sizes of its files in memory, so a header it writes commits the whole file.
-/

namespace NimbleFix

namespace DurableBatchSessionStore

/-! ## One file -/

/-- A store file of items `α`. -/
inductive StoreFile (α : Type)
  /-- Of size zero. -/
  | empty
  /-- As long as a header, all zero. -/
  | blank
  /-- A header that commits the first `fileSize` of the items. -/
  | headed (segmentId fileSize : Nat) (items : List α)
  deriving DecidableEq

/-- An operation on one file. -/
inductive FileOp (α : Type)
  /-- `open` with `O_CREAT`. -/
  | create
  /-- `ftruncate` of an empty file to the size of a header. -/
  | resize
  /-- A new header, which commits nothing. -/
  | writeHeader (segmentId : Nat)
  /-- The first of the two writes of a record with a payload. -/
  | writePart
  | append (item : α)
  /-- `SyncFileHeader` with the size of the file. -/
  | commit
  /-- `open` with `O_TRUNC`. -/
  | truncate
  | remove
  deriving DecidableEq

section

variable {α : Type}

/-- The file after the operation. A part of a record is no item yet. -/
def FileOp.apply : FileOp α → Option (StoreFile α) → Option (StoreFile α)
  | create, none => some .empty
  | resize, some .empty => some .blank
  | writeHeader segmentId, some .empty => some (.headed segmentId 0 [])
  | writeHeader segmentId, some .blank => some (.headed segmentId 0 [])
  | writeHeader segmentId, some (.headed _ _ items) => some (.headed segmentId 0 items)
  | append item, some (.headed segmentId fileSize items) =>
    some (.headed segmentId fileSize (items ++ [item]))
  | commit, some (.headed segmentId _ items) => some (.headed segmentId items.length items)
  | truncate, some _ => some .empty
  | remove, _ => none
  | _, file => file

/-- A file that counts as a whole. -/
def StoreFile.whole (segmentId : Nat) (items : List α) : StoreFile α :=
  .headed segmentId items.length items

def StoreFile.items : StoreFile α → List α
  | headed _ _ items => items
  | _ => []

/-- The items of a file that may be missing. -/
def itemsOf (file : Option (StoreFile α)) : List α := (file.map StoreFile.items).getD []

/-- The segment id has to be the expected one, if there is one. -/
def checkSegmentId (expected : Option Nat) (segmentId : Nat) : Except Status Unit :=
  if expected.any (· ≠ segmentId) then
    .error (.FormatError
      "durable batch store file segment id does not match its companion file")
  else .ok ()

/-- `OpenStoreFile`: a missing or empty file gets a header; of the others what is committed
counts. -/
def openStoreFile (defaultSegmentId : Nat) (expected : Option Nat) :
    Option (StoreFile α) → Except Status (Nat × List α)
  | none => do
    checkSegmentId expected defaultSegmentId
    .ok (defaultSegmentId, [])
  | some .empty => do
    checkSegmentId expected defaultSegmentId
    .ok (defaultSegmentId, [])
  | some .blank => .error (.FormatError "durable batch store file has an invalid header")
  | some (.headed segmentId fileSize items) => do
    checkSegmentId expected segmentId
    if items.length < fileSize then
      .error (.FormatError "durable batch store file is truncated below its committed size")
    else .ok (segmentId, items.take fileSize)

end

/-! ## The files of a store -/

/-- `OutboundIndexEntry`; `position` is the place of the record in the log. -/
structure OutboundIndexEntry where
  sessionId : Nat
  seqNum : Nat
  flags : Nat
  timestampNs : Nat
  position : Nat
  payloadSize : Nat
  bodyStartOffset : Nat
  deriving DecidableEq

/-- The files under the root: `active.log`, `active.out.idx` and `recovery.log`, and the logs and
indexes in `archive` by segment id. -/
structure Disk where
  log : Option (StoreFile LogRecord) := none
  index : Option (StoreFile OutboundIndexEntry) := none
  recovery : Option (StoreFile SessionRecoveryState) := none
  archivedLogs : Directory (StoreFile LogRecord) := []
  archivedIndexes : Directory (StoreFile OutboundIndexEntry) := []

inductive DiskOp
  | log (op : FileOp LogRecord)
  | index (op : FileOp OutboundIndexEntry)
  | recovery (op : FileOp SessionRecoveryState)
  /-- Rename `active.log` to the archived log of the segment. -/
  | archiveLog (segmentId : Nat)
  | archiveIndex (segmentId : Nat)
  | removeLog (segmentId : Nat)
  | removeIndex (segmentId : Nat)

namespace DiskOp

def apply (op : DiskOp) (d : Disk) : Disk :=
  match op with
  | log op => { d with log := op.apply d.log }
  | index op => { d with index := op.apply d.index }
  | recovery op => { d with recovery := op.apply d.recovery }
  | archiveLog segmentId =>
    match d.log with
    | none => d
    | some file => { d with log := none, archivedLogs := d.archivedLogs.put segmentId file }
  | archiveIndex segmentId =>
    match d.index with
    | none => d
    | some file => { d with index := none, archivedIndexes := d.archivedIndexes.put segmentId file }
  | removeLog segmentId => { d with archivedLogs := d.archivedLogs.remove segmentId }
  | removeIndex segmentId => { d with archivedIndexes := d.archivedIndexes.remove segmentId }

end DiskOp

namespace Disk

def run (ops : List DiskOp) (d : Disk) : Disk := runOps DiskOp.apply ops d

/-! ## Reading -/

/-- The records the entries point to, with the fields of the entries. -/
def resolve (index : List OutboundIndexEntry) (log : List LogRecord) : List LogRecord :=
  index.filterMap fun e => log[e.position]?.map fun r =>
    .outbound ⟨e.sessionId, e.seqNum, e.timestampNs, e.flags, r.record.payload, e.bodyStartOffset⟩

/-- The records of all logs, the oldest segment first. -/
def records (d : Disk) : List LogRecord :=
  d.archivedLogs.flatMap (·.2.items) ++ itemsOf d.log

/-- The outbound records that can be found by the indexes. -/
def indexed (d : Disk) : List LogRecord :=
  d.archivedLogs.flatMap (fun p => resolve (itemsOf (d.archivedIndexes.lookup p.1)) p.2.items) ++
    resolve (itemsOf d.index) (itemsOf d.log)

/-- What `LoadOutboundRange` searches. -/
def outbound (d : Disk) (sessionId : Nat) : List MessageRecord := outboundIndex sessionId d.indexed

/-- What `LoadInboundRange` searches. -/
def inbound (d : Disk) (sessionId : Nat) : List MessageRecord := inboundOf sessionId d.records

/-- The last state of a session in a recovery log. -/
def lastState (sessionId : Nat) (states : List SessionRecoveryState) :
    Option SessionRecoveryState := (states.filter (·.sessionId = sessionId)).getLast?

/-- What `LoadRecoveryState` finds. -/
def recoveryState (d : Disk) (sessionId : Nat) : Option SessionRecoveryState :=
  lastState sessionId (itemsOf d.recovery)

end Disk

/-! ## `Open` -/

/-- A segment that is open. -/
structure Segment where
  segmentId : Nat
  log : List LogRecord
  index : List OutboundIndexEntry

/-- `LoadSegmentIndex`. -/
def checkIndex (log : List LogRecord) : List OutboundIndexEntry → Except Status Unit
  | [] => .ok ()
  | e :: index => do
    if log.length ≤ e.position then
      .error (.FormatError "durable batch store index points past the end of the log")
    if e.payloadSize < e.bodyStartOffset then
      .error (.FormatError "durable batch store index entry has an invalid body_start_offset")
    checkIndex log index

/-- `OpenSegmentHandle`, with the replay of the index. -/
def openSegment (defaultSegmentId : Nat) (expected : Option Nat)
    (log : Option (StoreFile LogRecord)) (index : Option (StoreFile OutboundIndexEntry)) :
    Except Status Segment := do
  let (segmentId, records) ← openStoreFile defaultSegmentId expected log
  let (_, entries) ← openStoreFile segmentId (some segmentId) index
  checkIndex records entries
  .ok ⟨segmentId, records, entries⟩

/-- The archived segments: every log, with its index if there is one. -/
def openArchived (indexes : Directory (StoreFile OutboundIndexEntry)) :
    Directory (StoreFile LogRecord) → Except Status (List Segment)
  | [] => .ok []
  | (segmentId, log) :: logs => do
    let segment ← openSegment segmentId (some segmentId) (some log) (indexes.lookup segmentId)
    let segments ← openArchived indexes logs
    .ok (segment :: segments)

/-- The files of open segments and of the recovery log; indexes without a log stay as they are. -/
def filesOf (archived : List Segment) (active : Segment) (states : List SessionRecoveryState)
    (indexes : Directory (StoreFile OutboundIndexEntry)) : Disk where
  log := some (.whole active.segmentId active.log)
  index := some (.whole active.segmentId active.index)
  recovery := some (.whole 0 states)
  archivedLogs := archived.map fun segment =>
    (segment.segmentId, .whole segment.segmentId segment.log)
  archivedIndexes := archived.foldl
    (fun dir segment => dir.put segment.segmentId (.whole segment.segmentId segment.index)) indexes

variable (o : DurableBatchStoreOptions)

/-- Delete the oldest archived segments beyond the limit, the log of each first. -/
def pruneOps (segmentIds : List Nat) : List DiskOp :=
  if o.maxArchivedSegments = 0 then []
  else (segmentIds.take (segmentIds.length - o.maxArchivedSegments)).flatMap fun segmentId =>
    [.removeLog segmentId, .removeIndex segmentId]

/-- `Open`: the files as they are afterwards. -/
def openDisk (d : Disk) : Except Status Disk := do
  let archived ← openArchived d.archivedIndexes d.archivedLogs
  if d.log.isSome ≠ d.index.isSome then
    .error (.FormatError "durable batch store active segment is missing a companion file")
  else
    let nextId := ((d.archivedLogs.getLast?).map (·.1 + 1)).getD 1
    let active ← openSegment nextId (if d.log.isSome then none else some nextId) d.log d.index
    let (_, states) ← openStoreFile 0 (some 0) d.recovery
    .ok (Disk.run (pruneOps o (archived.map Segment.segmentId))
      (filesOf archived active states d.archivedIndexes))

/-- A file that `OpenStoreFile` makes. -/
def createOps {α : Type} (segmentId : Nat) : List (FileOp α) :=
  [.create, .resize, .writeHeader segmentId]

/-- What `Open` writes in an empty directory. -/
def openOps : List DiskOp :=
  (createOps 1).map .log ++ (createOps 1).map .index ++ (createOps 0).map .recovery

/-! ## Writing the queue -/

variable {o}

/-- The index entry of a record. -/
def indexEntry (record : MessageRecord) (position : Nat) : OutboundIndexEntry where
  sessionId := record.sessionId
  seqNum := record.seqNum
  flags := record.flags
  timestampNs := record.timestampNs
  position := position
  payloadSize := record.payload.length
  bodyStartOffset := record.bodyStartOffset

/-- The writes of a record at the end of the log, which holds `position` records. -/
def recordOps (record : LogRecord) (position : Nat) : List DiskOp :=
  (if record.record.payload = [] then [] else [.log .writePart]) ++ .log (.append record) ::
    match record with
    | .outbound record => [.index (.append (indexEntry record position))]
    | .inbound _ => []

/-- The writes of the queue before any header is written. -/
def dataOps : Nat → List PendingEntry → List DiskOp
  | _, [] => []
  | position, .message record :: entries =>
    recordOps record position ++ dataOps (position + 1) entries
  | position, .recovery state :: entries => .recovery (.append state) :: dataOps position entries

def PendingEntry.isMessage : PendingEntry → Bool
  | message _ => true
  | recovery _ => false

def PendingEntry.isOutbound : PendingEntry → Bool
  | message (.outbound _) => true
  | _ => false

def PendingEntry.isInbound : PendingEntry → Bool
  | message (.inbound _) => true
  | _ => false

def PendingEntry.isRecovery : PendingEntry → Bool
  | message _ => false
  | recovery _ => true

/-- The headers of the files that were written: `wrote_log`, `wrote_index` and `wrote_recovery`. -/
def commitOps (entries : List PendingEntry) : List DiskOp :=
  (if entries.any (·.isMessage) then [.log .commit] else []) ++
    (if entries.any (·.isOutbound) then [.index .commit] else []) ++
    (if entries.any (·.isRecovery) then [.recovery .commit] else [])

/-- `Flush`. -/
def flushOps (s : DurableBatchSessionStore o) : List DiskOp :=
  dataOps s.active.length s.pending ++ commitOps s.pending

/-! ## `Rollover` -/

/-- The last state of each session. -/
def latestStates (states : List SessionRecoveryState) : List SessionRecoveryState :=
  states.foldl (fun latest state =>
    latest.filter (·.sessionId ≠ state.sessionId) ++ [state]) []

/-- The active segment becomes an archived one, and the next one is made. -/
def archiveOps (segmentId : Nat) : List DiskOp :=
  [.archiveLog segmentId, .archiveIndex segmentId] ++ (createOps (segmentId + 1)).map .log ++
    (createOps (segmentId + 1)).map .index

/-- The recovery log is written again with the last state of each session. -/
def compactOps (states : List SessionRecoveryState) : List DiskOp :=
  if states = [] then []
  else
    [.recovery .truncate, .recovery (.writeHeader 0)] ++
      (states.map fun state => .recovery (.append state)) ++ [.recovery .commit]

/-- The segment id in the header of the active log. -/
def Disk.segmentId (d : Disk) : Nat :=
  match d.log with
  | some (.headed segmentId _ _) => segmentId
  | _ => 0

/-- What `Rollover` does after the flush, with a segment that has records. -/
def rollOps (o : DurableBatchStoreOptions) (d : Disk) : List DiskOp :=
  archiveOps d.segmentId ++ pruneOps o (d.archivedLogs.map Prod.fst ++ [d.segmentId]) ++
    compactOps (latestStates (itemsOf d.recovery))

end DurableBatchSessionStore

/-- A store with its files. -/
structure DurableFiles (o : DurableBatchStoreOptions) where
  store : DurableBatchSessionStore o
  disk : DurableBatchSessionStore.Disk

namespace DurableFiles

open DurableBatchSessionStore

variable {o : DurableBatchStoreOptions}

/-- A store opened in an empty directory. -/
def fresh : DurableFiles o := ⟨{}, Disk.run openOps {}⟩

/-- The store after the operations on its files. -/
def write (f : DurableFiles o) (ops : List DiskOp) (store : DurableBatchSessionStore o) :
    DurableFiles o := ⟨store, f.disk.run ops⟩

def flush (f : DurableFiles o) : DurableFiles o := f.write (flushOps f.store) f.store.flush

/-- `Rollover`. -/
def rolloverOps (f : DurableFiles o) : List DiskOp :=
  flushOps f.store ++ if f.flush.store.active.isEmpty then [] else rollOps o f.flush.disk

def rollover (f : DurableFiles o) : DurableFiles o := f.write f.rolloverOps f.store.rollover

/-! ## Saves -/

/-- The rollover before a record of another day. -/
def rolloverBeforeOps (record : LogRecord) (f : DurableFiles o) : List DiskOp :=
  match recordDay o record.record.timestampNs with
  | some day => if f.store.RollsFor day then f.rolloverOps else []
  | none => []

/-- The flush once the batch is full. -/
def enqueueOps (entry : PendingEntry) (s : DurableBatchSessionStore o) : List DiskOp :=
  if max 1 o.flushThreshold ≤ s.pending.length + 1 then
    flushOps (o := o) { s with pending := s.pending ++ [entry] }
  else []

/-- `AppendMessageView` or `QueueRecoveryState`, by what is saved. -/
def saveOps : PendingEntry → DurableFiles o → List DiskOp
  | .message record, f =>
    match validateRecordView record.record with
    | .error _ => []
    | .ok _ =>
      let s := f.store.rolloverBefore record
      f.rolloverBeforeOps record ++ enqueueOps (.message (record.queuedIn s.arena)) s
  | .recovery state, f =>
    if state.sessionId = 0 then [] else enqueueOps (.recovery state) f.store

/-- The store after a save, whether it succeeds or not. -/
def saved : PendingEntry → DurableBatchSessionStore o → DurableBatchSessionStore o
  | .message record, s => (appendMessageView record s).2
  | .recovery state, s => (queueRecoveryState state s).2

def save (entry : PendingEntry) (f : DurableFiles o) : DurableFiles o :=
  f.write (f.saveOps entry) (saved entry f.store)

/-- Saves one after the other. -/
def saveAllOps : List PendingEntry → DurableFiles o → List DiskOp
  | [], _ => []
  | entry :: entries, f => f.saveOps entry ++ saveAllOps entries (f.save entry)

def saveAll (entries : List PendingEntry) (f : DurableFiles o) : DurableFiles o :=
  entries.foldl (fun f entry => f.save entry) f

/-! ## `ResetSession` -/

/-- What is saved again: the records and the recovery states of the other sessions. -/
def othersOf (sessionId : Nat) (d : Disk) : List PendingEntry :=
  ((d.records.filter fun r => r.record.sessionId ≠ sessionId).map .message) ++
    (((latestStates (itemsOf d.recovery)).filter (·.sessionId ≠ sessionId)).map .recovery)

/-- The copy with the suffix `.reset.tmp`. -/
def copyWithout (sessionId : Nat) (f : DurableFiles o) : DurableFiles o :=
  (saveAll (othersOf sessionId f.flush.disk) fresh).flush

/-- The file operations that make the copy. -/
def copyOps (sessionId : Nat) (f : DurableFiles o) : List DiskOp :=
  openOps ++ saveAllOps (othersOf sessionId f.flush.disk) (fresh : DurableFiles o) ++
    flushOps (saveAll (othersOf sessionId f.flush.disk) (fresh : DurableFiles o)).store

/-- The files of a root, which `remove_all` deletes in an order of its own. -/
def removalOps (d : Disk) : List DiskOp :=
  [.log .remove, .index .remove, .recovery .remove] ++
    d.archivedLogs.map (fun p => .removeLog p.1) ++
    d.archivedIndexes.map (fun p => .removeIndex p.1)

/-- The files of the store and of the copy. -/
structure Roots where
  root : Disk
  copy : Disk

/-- A file operation of `ResetSession`. -/
inductive RootOp
  | root (op : DiskOp)
  | copy (op : DiskOp)
  /-- Rename the copy to the root. -/
  | replace

def RootOp.apply : RootOp → Roots → Roots
  | .root op, r => { r with root := op.apply r.root }
  | .copy op, r => { r with copy := op.apply r.copy }
  | .replace, r => ⟨r.copy, {}⟩

/-- `ResetSession` up to the last `Open`, with no copy left from before; `removals` is the order in
which the files are removed. -/
def resetOps (sessionId : Nat) (removals : List DiskOp) (f : DurableFiles o) : List RootOp :=
  if sessionId = 0 then []
  else
    (flushOps f.store).map .root ++ (f.copyOps sessionId).map .copy ++ removals.map .root ++
      [.replace]

def reset (sessionId : Nat) (f : DurableFiles o) : DurableFiles o :=
  if sessionId = 0 then f
  else
    match openDisk o (f.copyWithout sessionId).disk with
    | .error _ => f
    | .ok disk => ⟨(resetSession sessionId f.store).2, disk⟩

/-! ## Runs -/

/-- `Refresh`: the files are opened again. -/
def refresh (f : DurableFiles o) : DurableFiles o :=
  match openDisk o f.disk with
  | .error _ => f
  | .ok disk => ⟨(DurableBatchSessionStore.refresh f.store).2, disk⟩

/-- The calls of an open store as far as its files go. A combined save is two saves, a load is a
flush, and closing and opening again is a flush and a refresh. -/
inductive Call
  | save (entry : PendingEntry)
  | flush
  | rollover
  | reset (sessionId : Nat)
  | refresh

def Call.act : Call → DurableFiles o → DurableFiles o
  | .save entry, f => f.save entry
  | .flush, f => f.flush
  | .rollover, f => f.rollover
  | .reset sessionId, f => f.reset sessionId
  | .refresh, f => f.refresh

end DurableFiles

end NimbleFix
