import NimbleFix.Store.Memory

/-!
# The durable batch store (`store/durable_batch_store.cpp`)

Saves are queued and written to disk together, once `flushThreshold` entries are queued or when
something is read. The log on disk is a list of archived segments and an active one; a record of
another day than the active segment's archives it, and archived segments beyond
`maxArchivedSegments` are deleted.

The files are modelled by what they hold, and reading or writing them does not fail. The outbound
index is what its segments' index files replay to, so it is read off the segments, and the recovery
log is kept as the map it replays to. The offset of local time is the one `Open` settles on.
-/

namespace NimbleFix

inductive DurableStoreRolloverMode
  | disabled
  | utcDay
  | external
  | localTime
  deriving DecidableEq, Repr

structure DurableBatchStoreOptions where
  flushThreshold : Nat := 8
  rolloverMode : DurableStoreRolloverMode := .utcDay
  maxArchivedSegments : Nat := 0
  /-- `effective_utc_offset_seconds`, used in local time only. -/
  utcOffsetSeconds : Int := 0

def kNanosPerDay : Nat := 86400 * 1000000000

namespace DurableBatchSessionStore

/-- A record of a segment log. -/
inductive LogRecord
  | outbound (record : MessageRecord)
  | inbound (record : MessageRecord)

def LogRecord.record : LogRecord → MessageRecord
  | outbound record => record
  | inbound record => record

def LogRecord.withPayload (payload : Bytes) : LogRecord → LogRecord
  | outbound record => .outbound { record with payload }
  | inbound record => .inbound { record with payload }

inductive PendingEntry
  | message (record : LogRecord)
  | recovery (state : SessionRecoveryState)

/-- The record as `Flush` writes it when it is queued behind the payloads in `arena`: the payload
is read at `payload_offset`, a 32-bit word. Later saves only make the arena longer. -/
def LogRecord.queuedIn (arena : Bytes) (r : LogRecord) : LogRecord :=
  r.withPayload (((arena ++ r.record.payload).drop (wrap32 arena.length)).take
    r.record.payload.length)

def PendingEntry.message? : PendingEntry → Option LogRecord
  | message record => some record
  | recovery _ => none

end DurableBatchSessionStore

open DurableBatchSessionStore in
/-- The state of a store with the options `o`. -/
structure DurableBatchSessionStore (o : DurableBatchStoreOptions) where
  archived : List (List LogRecord) := []
  active : List LogRecord := []
  recoveryStates : Nat → Option SessionRecoveryState := fun _ => none
  pending : List PendingEntry := []
  /-- `pending_payload_arena`: the payloads of the queued records. -/
  arena : Bytes := []
  /-- `active_utc_day`. -/
  activeDay : Option Int := none

namespace DurableBatchSessionStore

variable {o : DurableBatchStoreOptions}

def validateRecordView (record : MessageRecord) : Except Status Unit :=
  if record.sessionId = 0 then .error (.InvalidArgument "message record is missing session_id")
  else if record.seqNum = 0 then .error (.InvalidArgument "message record is missing seq_num")
  else if uint32Max < record.payload.length then
    .error (.InvalidArgument "message payload exceeds durable store limits")
  else if record.payload.length < record.bodyStartOffset then
    .error (.InvalidArgument "message record body_start_offset exceeds payload size")
  else .ok ()

/-! ## Writing to disk -/

variable (s : DurableBatchSessionStore o)

/-- Write one queued entry. -/
def writeEntry : PendingEntry → DurableBatchSessionStore o
  | .message record => { s with active := s.active ++ [record] }
  | .recovery state =>
    { s with recoveryStates := Function.update s.recoveryStates state.sessionId (some state) }

def flush : DurableBatchSessionStore o :=
  { s.pending.foldl writeEntry s with pending := [], arena := [] }

/-- Delete the oldest archived segments beyond the limit. -/
def prune : DurableBatchSessionStore o :=
  if o.maxArchivedSegments = 0 then s
  else { s with archived := s.archived.drop (s.archived.length - o.maxArchivedSegments) }

def archiveActive : DurableBatchSessionStore o :=
  if s.active.isEmpty then s
  else prune { s with archived := s.archived ++ [s.active], active := [], activeDay := none }

def rollover : DurableBatchSessionStore o := archiveActive s.flush

/-! ## Days -/

/-- The cast of a `std::uint64_t` to `std::int64_t`. -/
def asInt64 (n : Nat) : Int := (n : Int).bmod (2 ^ 64)

variable (o) in
/-- The day of a record, in the modes that roll over by the day. -/
def recordDay (timestampNs : Nat) : Option Int :=
  match o.rolloverMode with
  | .utcDay => some (timestampNs / kNanosPerDay : Nat)
  | .localTime =>
    some ((asInt64 timestampNs + o.utcOffsetSeconds * 1000000000).tdiv kNanosPerDay)
  | .disabled => none
  | .external => none

variable (o) in
/-- `DetectActiveUtcDay`: the day of the last record that has a time. -/
def detectActiveDay (active : List LogRecord) : Option Int :=
  let offset : Int := if o.rolloverMode = .localTime then o.utcOffsetSeconds * 1000000000 else 0
  active.foldl (fun day r =>
    if r.record.timestampNs ≠ 0 then
      some ((asInt64 r.record.timestampNs + offset).tdiv kNanosPerDay)
    else day) none

def hasMessages : Bool :=
  !s.active.isEmpty || s.pending.any (·.message?.isSome)

/-- The rollover before a record of the day `day`. -/
def rolloverFor (day : Int) (s : DurableBatchSessionStore o) : DurableBatchSessionStore o :=
  let s := if s.hasMessages ∧ s.activeDay.isSome ∧ s.activeDay ≠ some day then s.rollover else s
  if s.activeDay.isNone then { s with activeDay := some day } else s

/-! ## The interface -/

def enqueue (entry : PendingEntry) (s : DurableBatchSessionStore o) : DurableBatchSessionStore o :=
  let s := { s with pending := s.pending ++ [entry] }
  if max 1 o.flushThreshold ≤ s.pending.length then s.flush else s

/-- The rollover before a record, in the modes that have one. -/
def rolloverBefore (record : LogRecord) (s : DurableBatchSessionStore o) :
    DurableBatchSessionStore o :=
  match recordDay o record.record.timestampNs with
  | some day => s.rolloverFor day
  | none => s

/-- Queue a record behind the rollover it may ask for. -/
def append (record : LogRecord) (s : DurableBatchSessionStore o) : DurableBatchSessionStore o :=
  let s := s.rolloverBefore record
  enqueue (.message (record.queuedIn s.arena)) { s with arena := s.arena ++ record.record.payload }

def appendMessageView (record : LogRecord) : Method (DurableBatchSessionStore o) Unit := do
  Fallible.ofExcept (validateRecordView record.record)
  Fallible.modify (append record)

def queueRecoveryState (state : SessionRecoveryState) :
    Method (DurableBatchSessionStore o) Unit := fun s =>
  if state.sessionId = 0 then
    (.error (.InvalidArgument "recovery state is missing session_id"), s)
  else (.ok (), s.enqueue (.recovery state))

/-- The outbound index after one more record of the log. -/
def indexRecord (sessionId : Nat) (index : List MessageRecord) : LogRecord → List MessageRecord
  | .outbound record =>
    if record.sessionId = sessionId then MemorySessionStore.upsertBySequence record index else index
  | .inbound _ => index

/-- The outbound records of a session on disk: for each number the one written last. -/
def outboundIndex (sessionId : Nat) (records : List LogRecord) : List MessageRecord :=
  records.foldl (indexRecord sessionId) []

def loadOutboundRange (sessionId beginSeq endSeq : Nat) :
    Method (DurableBatchSessionStore o) (List MessageRecord) := fun s =>
  if beginSeq = 0 ∨ endSeq = 0 ∨ endSeq < beginSeq then
    (.error (.InvalidArgument "invalid outbound load range"), s)
  else
    (.ok (MemorySessionStore.scanRange beginSeq endSeq
      (outboundIndex sessionId (s.flush.archived.flatten ++ s.flush.active))), s.flush)

/-- The inbound records of a session, in the order of the log. -/
def inboundOf (sessionId : Nat) (records : List LogRecord) : List MessageRecord :=
  records.filterMap fun
    | .outbound _ => none
    | .inbound record => if record.sessionId = sessionId then some record else none

def loadInboundRange (sessionId beginSeq endSeq : Nat) :
    Method (DurableBatchSessionStore o) (List MessageRecord) := fun s =>
  if beginSeq = 0 ∨ endSeq = 0 ∨ endSeq < beginSeq then
    (.error (.InvalidArgument "invalid inbound load range"), s)
  else
    (.ok (MemorySessionStore.inboundRange beginSeq endSeq
      (inboundOf sessionId (s.flush.archived.flatten ++ s.flush.active))), s.flush)

def loadRecoveryState (sessionId : Nat) :
    Method (DurableBatchSessionStore o) SessionRecoveryState := fun s =>
  match s.flush.recoveryStates sessionId with
  | none => (.error (.NotFound "recovery state not found"), s.flush)
  | some state => (.ok state, s.flush)

/-- Everything but the files is dropped and read again: queued entries are lost. -/
def refresh : Method (DurableBatchSessionStore o) Unit :=
  Fallible.modify fun s =>
    prune { s with pending := [], arena := [], activeDay := detectActiveDay o s.active }

/-- The destructor writes the queue; a new store then opens the same files. -/
def reopen : Method (DurableBatchSessionStore o) Unit := do
  Fallible.modify flush
  refresh

/-- Copy a record to a new store unless it is the session's. -/
def copyRecord (sessionId : Nat) (record : LogRecord) : Method (DurableBatchSessionStore o) Unit :=
  if record.record.sessionId = sessionId then pure () else appendMessageView record

/-- Copy the records of the other sessions to a new store. -/
def rebuild (sessionId : Nat) : List LogRecord → Method (DurableBatchSessionStore o) Unit
  | [] => pure ()
  | record :: records => do
    copyRecord sessionId record
    rebuild sessionId records

def resetSession (sessionId : Nat) : Method (DurableBatchSessionStore o) Unit := fun s =>
  if sessionId = 0 then
    (.error (.InvalidArgument "session reset requires a valid session id"), s)
  else
    match rebuild sessionId (s.flush.archived.flatten ++ s.flush.active)
        ({} : DurableBatchSessionStore o) with
    | (.error e, _) => (.error e, s.flush)
    | (.ok (), rebuilt) =>
      (.ok (), prune { rebuilt.flush with
        recoveryStates := Function.update s.flush.recoveryStates sessionId none
        activeDay := detectActiveDay o rebuilt.flush.active })

instance : SessionStore (DurableBatchSessionStore o) where
  refresh := refresh
  resetSession := resetSession
  saveOutboundView record := appendMessageView (.outbound record)
  saveInboundView record := appendMessageView (.inbound record)
  saveRecoveryState := queueRecoveryState
  loadOutboundRange := loadOutboundRange
  loadRecoveryState := loadRecoveryState

end DurableBatchSessionStore

end NimbleFix
