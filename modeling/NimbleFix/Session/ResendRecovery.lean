import NimbleFix.Store.Lawful

/-!
# Resend plans (`session/resend_recovery.cpp`)

`buildReplayPlan` cuts a range of sent numbers into chunks to replay and chunks to fill. The loop
counts in a 32-bit word; `fuel` bounds its rounds, and a plan that is not ready when they are used
up is `none`.
-/

namespace NimbleFix

def MessageRecord.isGapFill (r : MessageRecord) : Bool := r.flags &&& gapFillFlag ≠ 0

namespace ResendRecovery

inductive ReplayActionKind
  | replay
  | gapFill
  deriving DecidableEq, Repr

structure ReplayChunk where
  kind : ReplayActionKind := .gapFill
  beginSeq : Nat := 0
  endSeq : Nat := 0
  messages : List MessageRecord := []
  deriving DecidableEq, Repr

structure ReplayPlan where
  sessionId : Nat
  requestBeginSeq : Nat
  requestEndSeq : Nat := 0
  chunks : List ReplayChunk := []
  deriving DecidableEq, Repr

/-- The finished chunks and the open one, whose `beginSeq` is `0` before the first round. -/
structure Planning where
  chunks : List ReplayChunk := []
  current : ReplayChunk := {}

namespace Planning

def flushChunk (p : Planning) : Planning :=
  if p.current.beginSeq = 0 ∨ p.current.endSeq = 0 then p else ⟨p.chunks ++ [p.current], {}⟩

/-- The open chunk becomes one of the kind that ends in `seqNum`. -/
def reach (kind : ReplayActionKind) (seqNum : Nat) (p : Planning) : Planning :=
  if p.current.beginSeq = 0 then
    { p with current := { p.current with kind, beginSeq := seqNum, endSeq := seqNum } }
  else if p.current.kind ≠ kind then
    { p.flushChunk with
      current := { p.flushChunk.current with kind, beginSeq := seqNum, endSeq := seqNum } }
  else { p with current := { p.current with endSeq := seqNum } }

/-- One round of the loop, with the record of the number if there is one. -/
def visit (seqNum : Nat) (record : Option MessageRecord) (p : Planning) : Planning :=
  let replayed := record.filter fun r => !(r.isAdmin || r.isGapFill)
  let p := p.reach (if replayed.isSome then .replay else .gapFill) seqNum
  { p with current := { p.current with messages := p.current.messages ++ replayed.toList } }

end Planning

def planLoop (endSeq : Nat) : Nat → Nat → List MessageRecord → Planning → Option Planning
  | 0, _, _, _ => none
  | fuel + 1, seqNum, records, p =>
    if endSeq < seqNum then some p
    else
      let record := records.head?.filter (·.seqNum == seqNum)
      planLoop endSeq fuel (wrap32 (seqNum + 1))
        (if record.isSome then records.tail else records) (p.visit seqNum record)

section

variable {σ : Type} [SessionStore σ]

/-- `effective_end_seq`, or `none` if nothing was sent. -/
def effectiveEndSeq (sessionId endSeq : Nat) : Method σ (Option Nat) :=
  if endSeq ≠ 0 then pure (some endSeq)
  else do
    let recovery ← SessionStore.loadRecoveryState sessionId
    pure (if recovery.nextOutSeq ≤ 1 then none else some (recovery.nextOutSeq - 1))

def planRange (fuel sessionId beginSeq endSeq : Nat) : Method σ (Option ReplayPlan) :=
  if endSeq < beginSeq then Fallible.fail (.InvalidArgument "invalid replay range")
  else do
    let records ← SessionStore.loadOutboundRange sessionId beginSeq endSeq
    pure ((planLoop endSeq fuel beginSeq records {}).map fun p =>
      ⟨sessionId, beginSeq, endSeq, p.flushChunk.chunks⟩)

def buildReplayPlan (fuel sessionId beginSeq endSeq : Nat) : Method σ (Option ReplayPlan) :=
  if sessionId = 0 then
    Fallible.fail (.InvalidArgument "replay plan requires a valid session id")
  else if beginSeq = 0 then Fallible.fail (.InvalidArgument "invalid replay range")
  else do
    let effective ← effectiveEndSeq sessionId endSeq
    effective.elim (pure (some { sessionId, requestBeginSeq := beginSeq }))
      (planRange fuel sessionId beginSeq)

end

end ResendRecovery

end NimbleFix
