import NimbleFix.Base.Bytes
import NimbleFix.Base.Status
import NimbleFix.Lib.Segments

/-!
# Writing the frames of an event (`SendFramesBatch`, `transport/tcp_transport.cpp`)

`sendFramesBatch` of the live runtimes cuts the frames of an event into segments and hands them to
one gathering write, which `writeAll` repeats until every byte is out. The kernel is a parameter:
`Socket.write` answers each call, `Socket.ring` stands for `io_uring`. A loop that is still waiting
when its `fuel` is used up gives `none`.
-/

namespace NimbleFix

/-! ## Frames -/

/-- The storage of an outbound frame. When `externalBody` is not empty, `buffer` is
`[header | trailer]` and the body goes between them at `bodySpliceOffset`. -/
structure EncodedFrameBytes where
  buffer : Bytes
  externalBody : Bytes := []
  bodySpliceOffset : Nat := 0
  splice_le : bodySpliceOffset ≤ buffer.length := by decide
  spliced : externalBody ≠ [] → buffer ≠ [] := by decide

namespace EncodedFrameBytes

/-- The bytes the frame stands for. -/
def wire (f : EncodedFrameBytes) : Bytes :=
  if f.externalBody = [] then f.buffer
  else f.buffer.take f.bodySpliceOffset ++ f.externalBody ++ f.buffer.drop f.bodySpliceOffset

/-- The segments of one frame. -/
def segments (f : EncodedFrameBytes) : List Bytes :=
  if f.buffer = [] then []
  else if f.externalBody ≠ [] then
    [f.buffer.take f.bodySpliceOffset, f.externalBody] ++
      (if f.bodySpliceOffset < f.buffer.length then [f.buffer.drop f.bodySpliceOffset] else [])
  else [f.buffer]

theorem flatten_segments (f : EncodedFrameBytes) : f.segments.flatten = f.wire := by
  unfold segments wire
  by_cases hb : f.buffer = []
  · have he : f.externalBody = [] := by
      by_contra he
      exact f.spliced he hb
    simp [hb, he]
  · by_cases he : f.externalBody = []
    · simp [hb, he]
    · by_cases hs : f.bodySpliceOffset < f.buffer.length
      · simp [hb, he, hs]
      · simp [hb, he, hs, List.drop_eq_nil_of_le (Nat.le_of_not_lt hs)]

end EncodedFrameBytes

/-- The bytes of a list of frames, in order. -/
def framesWire (frames : List EncodedFrameBytes) : Bytes :=
  frames.flatMap EncodedFrameBytes.wire

/-- The segments of a list of frames. -/
def framesSegments (frames : List EncodedFrameBytes) : List Bytes :=
  frames.flatMap EncodedFrameBytes.segments

theorem flatten_framesSegments (frames : List EncodedFrameBytes) :
    (framesSegments frames).flatten = framesWire frames := by
  induction frames with
  | nil => rfl
  | cons f frames ih =>
    simp only [framesSegments, framesWire, List.flatMap_cons, List.flatten_append] at ih ⊢
    rw [ih, f.flatten_segments]

/-! ## The kernel -/

/-- What waiting for the socket and the write after it come to. -/
inductive WriteOutcome
  | timedOut
  | pollFailed
  | again
  | failed (reason : String)
  | wrote (n : Nat)
  deriving DecidableEq, Repr

/-- How the submissions of a ring complete: the bytes sent of each segment. -/
inductive RingOutcome
  | completed (counts : List Nat)
  | failed (counts : List Nat) (reason : String)
  deriving DecidableEq, Repr

structure Socket where
  /-- The answer to the given call with the given segments. -/
  write : Nat → List Bytes → WriteOutcome
  /-- `none` where `io_uring` is not built in or cannot be set up. -/
  ring : List Bytes → Option RingOutcome := fun _ => none

/-- The connection as far as writing goes: the calls made and the bytes put on the wire. -/
structure Wire where
  calls : Nat := 0
  bytes : Bytes := []
  deriving DecidableEq, Repr

def iovMax : Nat := 1024

/-- The socket accepts a non-empty part of every write with at most `iovMax` segments and refuses
one with more. A ring, where there is one, completes all its submissions. -/
structure Socket.Accepts (sock : Socket) : Prop where
  accepted : ∀ call iov, iov.length ≤ iovMax → iov.flatten ≠ [] →
    ∃ n, sock.write call iov = .wrote (n + 1) ∧ n + 1 ≤ iov.flatten.length
  refused : ∀ call iov, iovMax < iov.length → sock.write call iov = .failed "Invalid argument"
  completes : ∀ segs outcome, sock.ring segs = some outcome →
    ∃ counts, outcome = .completed counts ∧ counts.length = segs.length

section

variable (sock : Socket)

/-! ## Sending -/

/-- The loop of `Send` and `SendGather` until `left` further bytes are out; `what` names the call
in the error text. -/
def writeAll (what : String) : Nat → List Bytes → Nat → Wire → Option (Except Status Unit × Wire)
  | _, _, 0, w => some (.ok (), w)
  | 0, _, _ + 1, _ => none
  | fuel + 1, iov, left + 1, w =>
    let w' := { w with calls := w.calls + 1 }
    match sock.write w.calls iov with
    | .timedOut => some (.error (.IoError "socket operation timed out"), w')
    | .pollFailed => some (.error (.IoError "socket closed or errored while polling"), w')
    | .again => writeAll what fuel iov (left + 1) w'
    | .failed reason => some (.error (.IoError (what ++ " failed: " ++ reason)), w')
    | .wrote 0 => some (.error (.IoError "peer closed the socket during send"), w')
    | .wrote (n + 1) =>
      writeAll what fuel (Segments.advance iov (n + 1)) (left - n)
        { w' with bytes := w.bytes ++ iov.flatten.take (n + 1) }

def send (fuel : Nat) (bytes : Bytes) (w : Wire) : Option (Except Status Unit × Wire) :=
  writeAll sock "send" fuel [bytes] bytes.length w

def sendGather (fuel : Nat) (segs : List Bytes) (w : Wire) : Option (Except Status Unit × Wire) :=
  match segs with
  | [] => some (.ok (), w)
  | [seg] => send sock fuel seg w
  | segs => writeAll sock "writev" fuel segs segs.flatten.length w

/-- `TcpConnection::SendZeroCopyGather`: one submission for each segment, unless the payload is
small or there is no ring. A completion counts whatever it sent. The submissions are not linked; that
the kernel puts their bytes on the wire in the order of submission is assumed. -/
def sendZeroCopyGather (fuel : Nat) (segs : List Bytes) (w : Wire) :
    Option (Except Status Unit × Wire) :=
  if segs = [] then some (.ok (), w)
  else if segs.flatten.length < 4096 ∨ segs.length < 2 then sendGather sock fuel segs w
  else
    match sock.ring segs with
    | none => sendGather sock fuel segs w
    | some (.completed counts) =>
      some (.ok (), { w with bytes := w.bytes ++ Segments.takeEach segs counts })
    | some (.failed counts reason) =>
      some (.error (.IoError reason), { w with bytes := w.bytes ++ Segments.takeEach segs counts })

def sendFrames (fuel : Nat) : List EncodedFrameBytes → Wire → Option (Except Status Unit × Wire)
  | [], w => some (.ok (), w)
  | f :: frames, w =>
    match send sock fuel f.buffer w with
    | some (.ok (), w) => sendFrames fuel frames w
    | r => r

def hasExternal (frames : List EncodedFrameBytes) : Bool :=
  frames.any fun f => f.externalBody ≠ []

def sendFramesBatch (fuel : Nat) (frames : List EncodedFrameBytes) (w : Wire) :
    Option (Except Status Unit × Wire) :=
  if frames.length ≤ 1 ∧ !hasExternal frames then sendFrames sock fuel frames w
  else if hasExternal frames then sendZeroCopyGather sock fuel (framesSegments frames) w
  else sendGather sock fuel (framesSegments frames) w

end

end NimbleFix
