import NimbleFix.Codec.FieldText
import NimbleFix.Lib.Path
import NimbleFix.Session.Replay
import NimbleFix.Store.Lawful

/-!
# What a resend reply has to be

A reply to a resend request for `beginSeq..boundedEnd` is a list of items: a message that is
replayed under its own number, or a gap fill that stands for a run of numbers. `ReplayPlan` says
which lists are right for the stored records, and `ReplayItem.EncodedAs` which frame an item is.
-/

namespace NimbleFix

inductive ReplayItem
  | message (record : MessageRecord)
  | gapFill (first next : Nat)
  deriving DecidableEq

namespace ReplayItem

/-- The first number of the item. -/
def first : ReplayItem → Nat
  | message record => record.seqNum
  | gapFill first _ => first

/-- The number after the item. -/
def next : ReplayItem → Nat
  | message record => record.seqNum + 1
  | gapFill _ next => next

end ReplayItem

/-- The application record stored under a number. -/
def IsReplayable (content : List MessageRecord) (n : Nat) (r : MessageRecord) : Prop :=
  r ∈ content ∧ r.seqNum = n ∧ r.isAdmin = false

/-- The items cover `beginSeq..boundedEnd` once and in order: every application record by a
message, every maximal run of other numbers by one gap fill. -/
structure ReplayPlan (content : List MessageRecord) (beginSeq boundedEnd : Nat)
    (items : List ReplayItem) : Prop where
  path : EdgePath ReplayItem.first ReplayItem.next beginSeq items (boundedEnd + 1)
  message : ∀ r, .message r ∈ items → IsReplayable content r.seqNum r
  replayed : ∀ n r, beginSeq ≤ n → n ≤ boundedEnd → IsReplayable content n r → .message r ∈ items
  gapFill : ∀ first next, .gapFill first next ∈ items → first < next ∧
    ∀ n r, first ≤ n → n < next → ¬IsReplayable content n r
  /-- A gap fill goes as far as it can on both sides. -/
  maximal : ∀ first next, .gapFill first next ∈ items →
    (first = beginSeq ∨ ∃ r, IsReplayable content (first - 1) r) ∧
    (next = boundedEnd + 1 ∨ ∃ r, IsReplayable content next r)

/-- The frame an item is sent as: the stored message under a new header with `PossDupFlag` and its
own number, or a `SequenceReset` with `GapFillFlag` and `NewSeqNo` under the first number of the
run. -/
def ReplayItem.EncodedAs (env : ProtocolEnv) (sendingTime : Bytes) :
    ReplayItem → EncodedFrame → Prop
  | .message r, frame => HasHeader frame.bytes frame.msgType r.seqNum true ∧
      ∃ parsed, decodeRawPassThrough soh false
          (if r.bodyStartOffset = 0 then none else some r.bodyStartOffset) r.payload = .ok parsed ∧
        frame.msgType = parsed.msgType ∧
        frame.bytes = encodeReplayInto parsed { replayOptions env sendingTime with
          msgSeqNum := r.seqNum, origSendingTime := parsed.sendingTime }
  | .gapFill first next, frame =>
      HasFields frame.bytes
        [⟨Tag.msgType, MsgType.sequenceReset⟩, ⟨Tag.msgSeqNum, decimal first⟩,
          ⟨Tag.possDupFlag, ascii "Y"⟩]
        [⟨Tag.gapFillFlag, ascii "Y"⟩, ⟨Tag.newSeqNo, decimal next⟩] ∧
      ∃ time, encodeMessage env (AdminMessage.gapFill next)
        (frameOptions env (gapFillParams first) first time) = .ok frame.bytes

/-- The two fields of a gap fill are single fields: the dictionary has no group counted by them. -/
def GapFillFields (d : Dictionary) : Prop :=
  d.findGroup Tag.gapFillFlag = none ∧ d.findGroup Tag.newSeqNo = none

end NimbleFix
