import NimbleFix.Lib.File
import NimbleFix.Lib.Packed
import NimbleFix.Store.Memory

/-!
# The memory-mapped store (`store/mmap_store.cpp`)

One file: a header that commits to a size, and records one after the other. An append extends the
file, writes the record and commits to the new size last; `Open` cuts off what is behind the
committed size or cannot be read.

The mapping shows the file as it is, so reads of it are reads of the file, and the offsets in
`outbound_offsets` are kept as the records at them. Nothing else changes the file, and the only call
that fails is an extension to a size that is negative as an `off_t`.
-/

namespace NimbleFix

/-- What a log holds: a frame that was sent, one that was received, or a recovery state. -/
inductive StoreEntry
  | outbound (record : MessageRecord)
  | inbound (record : MessageRecord)
  | recovery (state : SessionRecoveryState)
  deriving DecidableEq, Repr

def StoreEntry.sessionId : StoreEntry → Nat
  | outbound record => record.sessionId
  | inbound record => record.sessionId
  | recovery state => state.sessionId

namespace MmapSessionStore

def kStoreMagic : Bytes := ascii "NFSTORE1"

def kStoreVersion : Nat := 1

def kStoreFileHeaderSize : Nat := 32

def kStoreRecordHeaderSize : Nat := 64

/-! ## Headers -/

structure StoreFileHeader where
  magic : Bytes
  version : Nat
  headerSize : Nat
  fileSize : Nat
  reserved0 : Nat := 0
  deriving DecidableEq, Repr

/-- The fields after the magic. -/
def StoreFileHeader.fields (h : StoreFileHeader) : List (Nat × Nat) :=
  [(4, h.version), (4, h.headerSize), (8, h.fileSize), (8, h.reserved0)]

def StoreFileHeader.bytes (h : StoreFileHeader) : Bytes := h.magic ++ Packed.pack h.fields

/-- `Header`: the start of the mapping, which is filled up with zeros. -/
def fileHeader (mapping : Bytes) : StoreFileHeader :=
  let values := Packed.unpack [4, 4, 8, 8] (mapping.drop 8)
  { magic := mapping.take 8
    version := values.getD 0 0
    headerSize := values.getD 1 0
    fileSize := values.getD 2 0
    reserved0 := values.getD 3 0 }

def buildFileHeader (fileSize : Nat) : StoreFileHeader where
  magic := kStoreMagic
  version := kStoreVersion
  headerSize := kStoreFileHeaderSize
  fileSize := fileSize

/-- The fields of a record header, in their order; three reserved bytes come before the last. -/
structure StoreRecordHeader where
  recordType : Nat
  headerSize : Nat := kStoreRecordHeaderSize
  flags : Nat := 0
  sessionId : Nat
  seqNum : Nat := 0
  payloadSize : Nat := 0
  timestampNs : Nat := 0
  nextInSeq : Nat := 0
  nextOutSeq : Nat := 0
  lastInboundNs : Nat := 0
  lastOutboundNs : Nat := 0
  active : Nat := 0
  bodyStartOffset : Nat := 0
  deriving DecidableEq, Repr

def StoreRecordHeader.fields (h : StoreRecordHeader) : List (Nat × Nat) :=
  [(4, h.recordType), (2, h.headerSize), (2, h.flags), (8, h.sessionId), (4, h.seqNum),
    (4, h.payloadSize), (8, h.timestampNs), (4, h.nextInSeq), (4, h.nextOutSeq),
    (8, h.lastInboundNs), (8, h.lastOutboundNs), (1, h.active), (3, 0), (4, h.bodyStartOffset)]

def StoreRecordHeader.bytes (h : StoreRecordHeader) : Bytes := Packed.pack h.fields

/-- `RecordAt`. -/
def recordHeader (bytes : Bytes) : StoreRecordHeader :=
  let values := Packed.unpack [4, 2, 2, 8, 4, 4, 8, 4, 4, 8, 8, 1, 3, 4] bytes
  { recordType := values.getD 0 0
    headerSize := values.getD 1 0
    flags := values.getD 2 0
    sessionId := values.getD 3 0
    seqNum := values.getD 4 0
    payloadSize := values.getD 5 0
    timestampNs := values.getD 6 0
    nextInSeq := values.getD 7 0
    nextOutSeq := values.getD 8 0
    lastInboundNs := values.getD 9 0
    lastOutboundNs := values.getD 10 0
    active := values.getD 11 0
    bodyStartOffset := values.getD 13 0 }

namespace StoreRecordHeader

def messageRecord (h : StoreRecordHeader) (payload : Bytes) : MessageRecord where
  sessionId := h.sessionId
  seqNum := h.seqNum
  timestampNs := h.timestampNs
  flags := h.flags
  payload := payload
  bodyStartOffset := h.bodyStartOffset

def recoveryState (h : StoreRecordHeader) : SessionRecoveryState where
  sessionId := h.sessionId
  nextInSeq := h.nextInSeq
  nextOutSeq := h.nextOutSeq
  lastInboundNs := h.lastInboundNs
  lastOutboundNs := h.lastOutboundNs
  active := h.active ≠ 0

/-- The entry by the type of the record. -/
def readEntry (h : StoreRecordHeader) (payload : Bytes) : Option StoreEntry :=
  match h.recordType with
  | 1 => some (.outbound (h.messageRecord payload))
  | 2 => some (.inbound (h.messageRecord payload))
  | 3 => some (.recovery h.recoveryState)
  | _ => none

def ofMessage (recordType : Nat) (record : MessageRecord) : StoreRecordHeader where
  recordType := recordType
  flags := record.flags
  sessionId := record.sessionId
  seqNum := record.seqNum
  payloadSize := record.payload.length
  timestampNs := record.timestampNs
  bodyStartOffset := record.bodyStartOffset

def ofState (state : SessionRecoveryState) : StoreRecordHeader where
  recordType := 3
  sessionId := state.sessionId
  nextInSeq := state.nextInSeq
  nextOutSeq := state.nextOutSeq
  lastInboundNs := state.lastInboundNs
  lastOutboundNs := state.lastOutboundNs
  active := if state.active then 1 else 0

end StoreRecordHeader

/-! ## Scanning -/

/-- The entry at the start of the bytes and what follows it. The errors are those of
`LoadInboundRange`; `ScanMapping` makes the same checks. -/
def nextRecord (bytes : Bytes) : Except Status (StoreEntry × Bytes) :=
  if bytes.length < kStoreRecordHeaderSize then
    .error (.FormatError "mmap store contains a truncated record header")
  else
    let h := recordHeader bytes
    if h.headerSize ≠ kStoreRecordHeaderSize then
      .error (.FormatError "mmap store contains a record with an unexpected header size")
    else if h.payloadSize < h.bodyStartOffset then
      .error (.FormatError "mmap store contains an invalid body_start_offset")
    else if bytes.length < kStoreRecordHeaderSize + h.payloadSize then
      .error (.FormatError "mmap store contains a truncated record payload")
    else
      match h.readEntry ((bytes.drop kStoreRecordHeaderSize).take h.payloadSize) with
      | some entry => .ok (entry, bytes.drop (kStoreRecordHeaderSize + h.payloadSize))
      | none => .error (.FormatError "mmap store contains an unknown record type")

/-- The entries up to the first that cannot be read, and what was not read. Every round reads a
record, so the length of the bytes is enough `fuel`. -/
def scanRecords : Nat → Bytes → List StoreEntry × Bytes
  | 0, bytes => ([], bytes)
  | fuel + 1, bytes =>
    if bytes = [] then ([], [])
    else
      match nextRecord bytes with
      | .error _ => ([], bytes)
      | .ok (entry, rest) => (entry :: (scanRecords fuel rest).1, (scanRecords fuel rest).2)

structure ScanState where
  entries : List StoreEntry
  committedSize : Nat
  truncatedTail : Bool

def scanMapping (mapping : Bytes) (scanEnd : Nat) : ScanState :=
  let records := (mapping.take scanEnd).drop kStoreFileHeaderSize
  let (entries, unread) := scanRecords records.length records
  { entries
    committedSize := kStoreFileHeaderSize + (records.length - unread.length)
    truncatedTail := !unread.isEmpty }

/-- `outbound_offsets` and `recovery_states`. -/
structure Index where
  outbound : Nat → List MessageRecord := fun _ => []
  recoveryStates : Nat → Option SessionRecoveryState := fun _ => none

def Index.add (index : Index) : StoreEntry → Index
  | .outbound record =>
    let records := MemorySessionStore.upsertBySequence record (index.outbound record.sessionId)
    { index with outbound := Function.update index.outbound record.sessionId records }
  | .inbound _ => index
  | .recovery state =>
    let states := Function.update index.recoveryStates state.sessionId (some state)
    { index with recoveryStates := states }

def ScanState.index (scan : ScanState) : Index := scan.entries.foldl Index.add {}

end MmapSessionStore

/-- The file, empty if there is none, and what an open store knows of it. -/
structure MmapSessionStore where
  file : Bytes := []
  impl : Option MmapSessionStore.Index := none

namespace MmapSessionStore

/-- The size `Open` cuts the file to. -/
def desiredSize (file : Bytes) : Nat :=
  let header := fileHeader file
  let scan := scanMapping file (min header.fileSize file.length)
  if !scan.truncatedTail && header.fileSize ≤ file.length then header.fileSize
  else max kStoreFileHeaderSize scan.committedSize

/-- The file with a header if it is new. -/
def initialized (file : Bytes) : Bytes :=
  if file = [] then
    File.pwrite 0 (buildFileHeader kStoreFileHeaderSize).bytes
      (File.truncate kStoreFileHeaderSize file)
  else file

/-- `Open`. -/
def openStore : Method MmapSessionStore Unit := fun s =>
  let file := initialized s.file
  let header := fileHeader file
  if header.magic ≠ kStoreMagic ∨ header.version ≠ kStoreVersion ∨
      header.headerSize ≠ kStoreFileHeaderSize ∨ header.fileSize < kStoreFileHeaderSize then
    (.error (.FormatError "mmap store has an invalid header"), { s with file })
  else
    let scan := scanMapping file (min header.fileSize file.length)
    let desired := desiredSize file
    if scan.truncatedTail ∨ header.fileSize ≠ desired ∨ file.length ≠ desired then
      let repaired := File.pwrite 0 (buildFileHeader desired).bytes (File.truncate desired file)
      (.ok (), { file := repaired, impl := some (scanMapping repaired desired).index })
    else (.ok (), { file, impl := some scan.index })

/-! ## Appending -/

def validateRecordView (record : MessageRecord) : Except Status Unit :=
  if record.sessionId = 0 then .error (.InvalidArgument "message record is missing session_id")
  else if record.seqNum = 0 then .error (.InvalidArgument "message record is missing seq_num")
  else if uint32Max < record.payload.length then
    .error (.InvalidArgument "message payload exceeds mmap store limits")
  else if record.payload.length < record.bodyStartOffset then
    .error (.InvalidArgument "message record body_start_offset exceeds payload size")
  else .ok ()

def validateEntry : StoreEntry → Except Status Unit
  | .outbound record => validateRecordView record
  | .inbound record => validateRecordView record
  | .recovery state =>
    if state.sessionId = 0 then .error (.InvalidArgument "recovery state is missing session_id")
    else .ok ()

def entryHeader : StoreEntry → StoreRecordHeader
  | .outbound record => .ofMessage 1 record
  | .inbound record => .ofMessage 2 record
  | .recovery state => .ofState state

def entryPayload : StoreEntry → Bytes
  | .outbound record => record.payload
  | .inbound record => record.payload
  | .recovery _ => []

/-- The size of the file after the entry. -/
def sizeAfter (entry : StoreEntry) (file : Bytes) : Nat :=
  (fileHeader file).fileSize + (kStoreRecordHeaderSize + (entryPayload entry).length)

/-- The writes of an append: room for the record, its payload, its header, the new size. -/
def appendWrites (entry : StoreEntry) (file : Bytes) : List File.Write :=
  let oldSize := (fileHeader file).fileSize
  let payload := entryPayload entry
  .truncate (sizeAfter entry file) ::
    ((if payload.isEmpty then [] else [.pwrite (oldSize + kStoreRecordHeaderSize) payload]) ++
      [.pwrite oldSize (entryHeader entry).bytes,
        .pwrite 0 { fileHeader file with fileSize := sizeAfter entry file }.bytes])

def writeEntry (entry : StoreEntry) : Method MmapSessionStore Unit := fun s =>
  if 2 ^ 63 ≤ sizeAfter entry s.file then (.error (.IoError "unable to extend mmap store"), s)
  else
    (.ok (), { file := File.writeAll (appendWrites entry s.file) s.file
               impl := s.impl.map (·.add entry) })

/-- `AppendOutboundLikeView` and `AppendRecoveryState`. -/
def append (entry : StoreEntry) : Method MmapSessionStore Unit := do
  Fallible.ofExcept (validateEntry entry)
  openStore
  writeEntry entry

/-! ## The interface -/

def ensureMapping : Method MmapSessionStore Unit := fun s =>
  if s.impl.isSome then (.ok (), s) else openStore s

/-- What an open store knows of its file. -/
def index (s : MmapSessionStore) : Index := s.impl.getD {}

def loadOutboundRange (sessionId beginSeq endSeq : Nat) :
    Method MmapSessionStore (List MessageRecord) :=
  if beginSeq = 0 ∨ endSeq = 0 ∨ endSeq < beginSeq then
    Fallible.fail (.InvalidArgument "invalid outbound load range")
  else do
    ensureMapping
    let s ← Fallible.get
    pure (MemorySessionStore.scanRange beginSeq endSeq (s.index.outbound sessionId))

/-- The loop of `LoadInboundRange` over the records. -/
def inboundRecords (sessionId beginSeq endSeq : Nat) :
    Nat → Bytes → Except Status (List MessageRecord)
  | 0, _ => .ok []
  | fuel + 1, bytes =>
    if bytes = [] then .ok []
    else do
      let (entry, rest) ← nextRecord bytes
      let records ← inboundRecords sessionId beginSeq endSeq fuel rest
      match entry with
      | .inbound record =>
        if record.sessionId = sessionId ∧ beginSeq ≤ record.seqNum ∧ record.seqNum ≤ endSeq then
          .ok (record :: records)
        else .ok records
      | .outbound _ => .ok records
      | .recovery _ => .ok records

def loadInboundRange (sessionId beginSeq endSeq : Nat) :
    Method MmapSessionStore (List MessageRecord) :=
  if beginSeq = 0 ∨ endSeq = 0 ∨ endSeq < beginSeq then
    Fallible.fail (.InvalidArgument "invalid inbound load range")
  else do
    ensureMapping
    let s ← Fallible.get
    let scanEnd := min (fileHeader s.file).fileSize s.file.length
    let records := (s.file.take scanEnd).drop kStoreFileHeaderSize
    let found ← Fallible.ofExcept
      (inboundRecords sessionId beginSeq endSeq records.length records)
    pure (MemorySessionStore.sortBySequence found)

def loadRecoveryState (sessionId : Nat) : Method MmapSessionStore SessionRecoveryState := do
  openStore
  let s ← Fallible.get
  match s.index.recoveryStates sessionId with
  | none => Fallible.fail (.NotFound "recovery state not found")
  | some state => pure state

/-- `Refresh`: close the file and open it again. -/
def refresh : Method MmapSessionStore Unit := do
  Fallible.modify fun s => { s with impl := none }
  openStore

def flush : Method MmapSessionStore Unit := fun s =>
  if s.impl.isSome then (.ok (), s) else (.error (.IoError "mmap store is not open"), s)

/-- Append the entries of the other sessions. -/
def rebuild (sessionId : Nat) : List StoreEntry → Method MmapSessionStore Unit
  | [] => pure ()
  | entry :: entries => do
    if entry.sessionId = sessionId then pure () else append entry
    rebuild sessionId entries

/-- The new file takes the place of the old one. -/
def replaceFile (sessionId : Nat) : Method MmapSessionStore Unit := fun s =>
  let scan := scanMapping s.file (fileHeader s.file).fileSize
  match (do openStore; rebuild sessionId scan.entries : Method MmapSessionStore Unit) {} with
  | (.error e, _) => (.error e, s)
  | (.ok (), rebuilt) => openStore { file := rebuilt.file }

/-- `ResetSession`: the entries of the other sessions go into a new file. -/
def resetSession (sessionId : Nat) : Method MmapSessionStore Unit :=
  if sessionId = 0 then
    Fallible.fail (.InvalidArgument "session reset requires a valid session id")
  else do
    openStore
    replaceFile sessionId

instance : SessionStore MmapSessionStore where
  refresh := refresh
  resetSession := resetSession
  saveOutboundView record := append (.outbound record)
  saveInboundView record := append (.inbound record)
  saveRecoveryState state := append (.recovery state)
  loadOutboundRange := loadOutboundRange
  loadRecoveryState := loadRecoveryState

end MmapSessionStore

end NimbleFix
