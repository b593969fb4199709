import NimbleFix.Session.Outbound

/-!
# Replaying sent frames (`AdminProtocol::ReplayOutbound`)

The loop walks the requested numbers with a cursor into the loaded records. A number with a stored
application record is replayed; a run of other numbers becomes one gap fill, whose end the inner
loop finds.
-/

namespace NimbleFix

/-- The number the loop is at and the records it has not passed. -/
structure ReplayCursor where
  seq : Nat
  records : List MessageRecord
  deriving DecidableEq, Repr

namespace ReplayCursor

/-- `++seq` on a 32-bit word. -/
def nextSeq (c : ReplayCursor) : Nat := wrap32 (c.seq + 1)

/-- The record to replay at the cursor: the next one, if it has the cursor's number and is no
administrative record. -/
def replayable (c : ReplayCursor) : Option MessageRecord :=
  match c.records with
  | r :: _ => if r.seqNum = c.seq ∧ !r.isAdmin then some r else none
  | [] => none

/-- The cursor after a number without a record to replay: past its administrative record, if the
next record is that. -/
def passed (c : ReplayCursor) : ReplayCursor :=
  match c.records with
  | r :: rs => if r.seqNum = c.seq then ⟨c.nextSeq, rs⟩ else ⟨c.nextSeq, r :: rs⟩
  | [] => ⟨c.nextSeq, []⟩

/-- The inner loop: up to `boundedEnd` or to a record to replay. -/
def skipGap (boundedEnd : Nat) : Nat → ReplayCursor → ReplayCursor
  | 0, c => c
  | fuel + 1, c =>
    if boundedEnd < c.seq ∨ c.replayable.isSome then c else skipGap boundedEnd fuel c.passed

end ReplayCursor

/-- `bounded_end`: the requested end, cut to what has been sent. -/
def replayEnd (nextOutSeq endSeq : Nat) : Nat :=
  if endSeq = 0 ∨ nextOutSeq ≤ endSeq then nextOutSeq - 1 else endSeq

/-- The frame for a stored record: its header is scanned again, up to the stored body offset if
there is one, and written with the record's number and the original `SendingTime`. -/
def replayFrame (o : ReplayOptions) (record : MessageRecord) : Except Status EncodedFrame := do
  let parsed ← decodeRawPassThrough soh false
    (if record.bodyStartOffset = 0 then none else some record.bodyStartOffset) record.payload
  .ok {
    bytes := encodeReplayInto parsed
      { o with msgSeqNum := record.seqNum, origSendingTime := parsed.sendingTime }
    msgType := parsed.msgType
    admin := false
    seqNum := record.seqNum
    fresh := false
    epoch := 0 }

section

variable (env : ProtocolEnv) {σ : Type} [SessionStore σ]

def replayOptions (sendingTime : Bytes) : ReplayOptions where
  senderCompId := env.config.senderCompId
  targetCompId := env.config.targetCompId
  beginString := env.config.beginString
  defaultApplVerId := env.config.defaultApplVerId
  sendingTime

/-- The outer loop. Every round moves the cursor, so the length of the range is enough `fuel`; the
returned cursor is where the loop stopped. -/
def replayLoop (o : ReplayOptions) (boundedEnd timestampNs : Nat) :
    Nat → ReplayCursor → Method (AdminProtocol σ) (List EncodedFrame × ReplayCursor)
  | 0, c => pure ([], c)
  | fuel + 1, c =>
    if boundedEnd < c.seq then pure ([], c)
    else
      match c.replayable with
      | none => do
        let gapEnd := c.skipGap boundedEnd (boundedEnd + 1)
        let gapFill ← buildGapFillFrame env c.seq gapEnd.seq timestampNs
        let (frames, last) ← replayLoop o boundedEnd timestampNs fuel gapEnd
        pure (gapFill :: frames, last)
      | some record => do
        let frame ← Fallible.ofExcept (replayFrame o record)
        let (frames, last) ← replayLoop o boundedEnd timestampNs fuel ⟨c.nextSeq, c.records.tail⟩
        pure (frame :: frames, last)

/-- The part of `ReplayOutbound` for a range that is not empty. -/
def replayRange (beginSeq boundedEnd timestampNs : Nat) :
    Method (AdminProtocol σ) (List EncodedFrame) := do
  let records ← onStore [] fun s =>
    SessionStore.loadOutboundRange s.config.sessionId beginSeq boundedEnd
  let sendingTime ← readClock env
  let (frames, _) ← replayLoop env (replayOptions env sendingTime) boundedEnd timestampNs
    (boundedEnd + 1) ⟨beginSeq, records⟩
  pure frames

def replayOutbound (beginSeq endSeq timestampNs : Nat) :
    Method (AdminProtocol σ) (List EncodedFrame) := fun p =>
  match p.store with
  | none => (.ok [], p)
  | some _ =>
    let boundedEnd := replayEnd p.session.nextOutSeq endSeq
    if boundedEnd < beginSeq ∨ boundedEnd = 0 then (.ok [], p)
    else replayRange env beginSeq boundedEnd timestampNs p

/-- `ReplayCounterpartyExpectedRange`: the frames a Logon with `NextExpectedMsgSeqNum` asks for. -/
def replayCounterpartyExpectedRange (expected preLogonNextOut timestampNs : Nat) :
    Method (AdminProtocol σ) (List EncodedFrame) :=
  if preLogonNextOut ≤ expected then pure []
  else replayOutbound env expected (preLogonNextOut - 1) timestampNs

end

end NimbleFix
