import NimbleFix.Store.SessionStore
import Mathlib.Data.List.Sort

/-!
# The in-memory store (`store/memory_store.cpp`)

Per session: the outbound records ascending by number, the inbound records in arrival order and
the last recovery state. Payloads are kept in the records instead of in a shared arena, and the
map of sessions is a function that is empty where the code has no entry.
-/

namespace NimbleFix

namespace MemorySessionStore

structure SessionData where
  outbound : List MessageRecord := []
  inbound : List MessageRecord := []
  recovery : Option SessionRecoveryState := none

end MemorySessionStore

structure MemorySessionStore where
  sessions : Nat → MemorySessionStore.SessionData := fun _ => {}

namespace MemorySessionStore

def modifySession (sessionId : Nat) (f : SessionData → SessionData) (s : MemorySessionStore) :
    MemorySessionStore :=
  { sessions := Function.update s.sessions sessionId (f (s.sessions sessionId)) }

def validateRecordView (record : MessageRecord) : Except Status Unit :=
  if record.sessionId = 0 then .error (.InvalidArgument "message record is missing session_id")
  else if record.seqNum = 0 then .error (.InvalidArgument "message record is missing seq_num")
  else .ok ()

/-- Replace the record with the number of `record`, or insert it before the first larger one. -/
def upsertBySequence (record : MessageRecord) : List MessageRecord → List MessageRecord
  | [] => [record]
  | r :: rs =>
    if r.seqNum < record.seqNum then r :: upsertBySequence record rs
    else if r.seqNum = record.seqNum then record :: rs
    else record :: r :: rs

def saveOutboundView (record : MessageRecord) : Method MemorySessionStore Unit := do
  Fallible.ofExcept (validateRecordView record)
  Fallible.modify (modifySession record.sessionId fun d =>
    { d with outbound := upsertBySequence record d.outbound })

def saveInboundView (record : MessageRecord) : Method MemorySessionStore Unit := do
  Fallible.ofExcept (validateRecordView record)
  Fallible.modify (modifySession record.sessionId fun d =>
    { d with inbound := d.inbound ++ [record] })

/-- The scan of the ascending records: skip those below the range, stop at the first above it. -/
def scanRange (beginSeq endSeq : Nat) : List MessageRecord → List MessageRecord
  | [] => []
  | r :: rs =>
    if r.seqNum < beginSeq then scanRange beginSeq endSeq rs
    else if endSeq < r.seqNum then []
    else r :: scanRange beginSeq endSeq rs

def loadOutboundRange (sessionId beginSeq endSeq : Nat) :
    Method MemorySessionStore (List MessageRecord) := fun s =>
  if beginSeq = 0 ∨ endSeq = 0 ∨ endSeq < beginSeq then
    (.error (.InvalidArgument "invalid outbound load range"), s)
  else (.ok (scanRange beginSeq endSeq (s.sessions sessionId).outbound), s)

/-- `std::stable_sort` by number. -/
def sortBySequence (records : List MessageRecord) : List MessageRecord :=
  records.insertionSort fun r r' => r.seqNum ≤ r'.seqNum

/-- The received records in the range, by number and for one number in the order they were saved. -/
def inboundRange (beginSeq endSeq : Nat) (records : List MessageRecord) : List MessageRecord :=
  sortBySequence (records.filter fun r => beginSeq ≤ r.seqNum && r.seqNum ≤ endSeq)

def loadInboundRange (sessionId beginSeq endSeq : Nat) :
    Method MemorySessionStore (List MessageRecord) := fun s =>
  if beginSeq = 0 ∨ endSeq = 0 ∨ endSeq < beginSeq then
    (.error (.InvalidArgument "invalid inbound load range"), s)
  else (.ok (inboundRange beginSeq endSeq (s.sessions sessionId).inbound), s)

def saveRecoveryState (state : SessionRecoveryState) : Method MemorySessionStore Unit := fun s =>
  if state.sessionId = 0 then
    (.error (.InvalidArgument "recovery state is missing session_id"), s)
  else (.ok (), modifySession state.sessionId (fun d => { d with recovery := some state }) s)

def saveInboundViewAndRecoveryState (record : MessageRecord) (state : SessionRecoveryState) :
    Method MemorySessionStore Unit := do
  Fallible.ofExcept (validateRecordView record)
  Fallible.modify (modifySession record.sessionId fun d =>
    { d with inbound := d.inbound ++ [record], recovery := some state })

def loadRecoveryState (sessionId : Nat) : Method MemorySessionStore SessionRecoveryState :=
  fun s =>
    match (s.sessions sessionId).recovery with
    | none => (.error (.NotFound "recovery state not found"), s)
    | some state => (.ok state, s)

def resetSession (sessionId : Nat) : Method MemorySessionStore Unit :=
  Fallible.modify (modifySession sessionId fun _ => {})

instance : SessionStore MemorySessionStore where
  resetSession := resetSession
  saveOutboundView := saveOutboundView
  saveInboundView := saveInboundView
  saveRecoveryState := saveRecoveryState
  saveInboundViewAndRecoveryState := saveInboundViewAndRecoveryState
  loadOutboundRange := loadOutboundRange
  loadRecoveryState := loadRecoveryState

end MemorySessionStore

end NimbleFix
