import Mathlib.Data.List.Induction
import NimbleFix.Store.Mmap

/-!
# A store as a log

What the stores are for, apart from how they keep it: every save adds an entry to a log and a reset
takes out the entries of a session. For each session the log says which frames were sent, for each
number the last one, which were received, in their order, and what the last recovery state is.
-/

namespace NimbleFix

/-- An operation on a store; `reopen` closes it and opens it again. -/
inductive StoreOp
  | saveOutbound (record : MessageRecord)
  | saveInbound (record : MessageRecord)
  | saveRecovery (state : SessionRecoveryState)
  | saveOutboundAndRecovery (record : MessageRecord) (state : SessionRecoveryState)
  | saveInboundAndRecovery (record : MessageRecord) (state : SessionRecoveryState)
  | flush
  | rollover
  | reset (sessionId : Nat)
  | reopen
  | loadOutbound (sessionId beginSeq endSeq : Nat)
  | loadInbound (sessionId beginSeq endSeq : Nat)
  | loadRecovery (sessionId : Nat)

/-- The entries an operation saves. -/
def StoreOp.entries : StoreOp → List StoreEntry
  | saveOutbound record => [.outbound record]
  | saveInbound record => [.inbound record]
  | saveRecovery state => [.recovery state]
  | saveOutboundAndRecovery record state => [.outbound record, .recovery state]
  | saveInboundAndRecovery record state => [.inbound record, .recovery state]
  | _ => []

namespace StoreLog

open MemorySessionStore (SessionData upsertBySequence)

/-- The entry in what is held for its session. -/
def addTo (entry : StoreEntry) (d : SessionData) : SessionData :=
  match entry with
  | .outbound record => { d with outbound := upsertBySequence record d.outbound }
  | .inbound record => { d with inbound := d.inbound ++ [record] }
  | .recovery state => { d with recovery := some state }

/-- What is held for each session after one more entry. -/
def addEntry (content : Nat → SessionData) (entry : StoreEntry) : Nat → SessionData :=
  Function.update content entry.sessionId (addTo entry (content entry.sessionId))

/-- What the log says for each session. -/
def contentOf (entries : List StoreEntry) : Nat → SessionData :=
  entries.foldl addEntry fun _ => {}

/-- The log without the entries of a session. -/
def without (sessionId : Nat) (entries : List StoreEntry) : List StoreEntry :=
  entries.filter fun e => e.sessionId ≠ sessionId

/-- The log after an operation. -/
def act (op : StoreOp) (entries : List StoreEntry) : List StoreEntry :=
  match op with
  | .reset sessionId => without sessionId entries
  | _ => entries ++ op.entries

theorem contentOf_append (entries : List StoreEntry) (entry : StoreEntry) :
    contentOf (entries ++ [entry]) = addEntry (contentOf entries) entry := by
  rw [contentOf, List.foldl_append]
  rfl

theorem contentOf_without (sessionId : Nat) (entries : List StoreEntry) :
    contentOf (without sessionId entries) = Function.update (contentOf entries) sessionId {} := by
  induction entries using List.reverseRecOn with
  | nil => exact (Function.update_eq_self sessionId _).symm
  | append_singleton entries entry ih =>
    unfold without at ih ⊢
    rw [List.filter_append, contentOf_append]
    by_cases hid : entry.sessionId = sessionId
    · have hdrop : [entry].filter (fun e => e.sessionId ≠ sessionId) = [] := by simp [hid]
      rw [hdrop, List.append_nil, ih, addEntry, hid, Function.update_idem]
    · have hkeep : [entry].filter (fun e => e.sessionId ≠ sessionId) = [entry] := by simp [hid]
      rw [hkeep, contentOf_append, ih, addEntry, addEntry, Function.update_of_ne hid,
        Function.update_comm hid]

end StoreLog

end NimbleFix
