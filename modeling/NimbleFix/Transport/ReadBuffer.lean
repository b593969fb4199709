import NimbleFix.Codec.Scan
import NimbleFix.Lib.Framing

/-!
# Frames out of the read buffer (`transport/tcp_transport.cpp`, `transport_connection.cpp`)

A connection appends what it receives to a buffer and hands out the frames at its read cursor. The
two transports find frames in the same way; they differ in when they drop the consumed front of the
buffer. Both do so depending on the capacity of the vector, which is the library's choice: `grow`
says what capacity it takes when it has to make room.

A chunk is what one `recv` or `SSL_read` returned; an empty one is the end of the stream.
-/

namespace NimbleFix

open Framing (Answer Reader)

def kMinimumFrameProbeBytes : Nat := 12
def kBodyLengthFieldPrefixSize : Nat := 3
def kChecksumFieldWireSize : Nat := 7
def kMaxReadBufferSize : Nat := 1048576
def kDefaultReadBufferCapacity : Nat := 4096

/-- `codec::FindByte`: the position of the first such byte, or the length. -/
def findByte (b : Byte) (bytes : Bytes) : Nat := bytes.findIdx (· == b)

/-- `TryExtractFrame`, the same in both transports: the length of the frame at the front of the
buffer, `0` if it is not complete. -/
def tryExtractFrame (buffer : Bytes) : Except Status Nat :=
  if buffer.length < kMinimumFrameProbeBytes then .ok 0
  else if buffer.take 2 ≠ ascii "8=" then
    .error (.FormatError "FIX frame must begin with tag 8")
  else
    let firstDelimiter := findByte soh buffer
    if buffer.length ≤ firstDelimiter then .ok 0
    else if buffer.length ≤ firstDelimiter + kBodyLengthFieldPrefixSize then .ok 0
    else if (buffer.drop (firstDelimiter + 1)).take 2 ≠ ascii "9=" then
      .error (.FormatError "FIX frame must place BodyLength immediately after BeginString")
    else
      let scan := buffer.drop (firstDelimiter + kBodyLengthFieldPrefixSize)
      let secondDelimiter := firstDelimiter + kBodyLengthFieldPrefixSize + findByte soh scan
      if buffer.length ≤ secondDelimiter then .ok 0
      else
        match parseUnsigned (scan.take (findByte soh scan)) "BodyLength" with
        | .error _ => .error (.FormatError "invalid BodyLength field in frame header")
        | .ok bodyLength =>
          let totalSize := secondDelimiter + 1 + bodyLength + kChecksumFieldWireSize
          if buffer.length < totalSize then .ok 0 else .ok totalSize

structure ReadBuffer where
  bytes : Bytes := []
  /-- `read_cursor_`: the bytes before it were handed out. -/
  cursor : Nat := 0
  /-- `capacity()` of the vector. -/
  capacity : Nat := kDefaultReadBufferCapacity
  deriving DecidableEq, Repr

namespace ReadBuffer

/-- The bytes that were not handed out yet. -/
def unread (b : ReadBuffer) : Bytes := b.bytes.drop b.cursor

/-- Give the consumed front back once it is more than half of the capacity. -/
def eraseFront (b : ReadBuffer) : ReadBuffer :=
  if b.capacity / 2 < b.cursor then { b with bytes := b.bytes.drop b.cursor, cursor := 0 } else b

/-- Make room behind the bytes. -/
def reserve (grow : Nat → Nat → Nat) (room : Nat) (b : ReadBuffer) : ReadBuffer :=
  { b with capacity := grow b.capacity (b.bytes.length + room) }

def append (chunk : Bytes) (b : ReadBuffer) : ReadBuffer := { b with bytes := b.bytes ++ chunk }

end ReadBuffer

/-! ## TCP -/

namespace Tcp

def compactConsumedReadBuffer (b : ReadBuffer) : ReadBuffer :=
  if b.cursor = 0 then b
  else if b.bytes.length ≤ b.cursor then { b with bytes := [], cursor := 0 }
  else b.eraseFront

def tryExtractBufferedFrameView : Method ReadBuffer (Option Bytes) := fun b =>
  let b := compactConsumedReadBuffer b
  match tryExtractFrame b.unread with
  | .error e => (.error e, b)
  | .ok consumed =>
    if consumed = 0 then (.ok none, b)
    else (.ok (some (b.unread.take consumed)), { b with cursor := b.cursor + consumed })

def writableSize (b : ReadBuffer) : Nat :=
  min kDefaultReadBufferCapacity (kMaxReadBufferSize - b.bytes.length)

def readAvailableBytes (grow : Nat → Nat → Nat) (answer : Answer Byte) :
    Method ReadBuffer Bool := fun b =>
  let b := compactConsumedReadBuffer b
  if kMaxReadBufferSize ≤ b.bytes.length then
    (.error (.IoError "TCP read buffer exceeded maximum size limit"), b)
  else
    let b := b.reserve grow (writableSize b)
    match answer with
    | .wouldBlock => (.ok false, b)
    | .chunk [] => (.error (.IoError "peer closed the socket"), b)
    | .chunk (byte :: rest) => (.ok true, b.append (byte :: rest))

/-- One call of `TryReceiveFrameView` is `next` of this reader. -/
def reader (grow : Nat → Nat → Nat) : Reader Byte Status ReadBuffer where
  extract := tryExtractBufferedFrameView
  receive := readAvailableBytes grow

end Tcp

/-! ## TLS -/

namespace Tls

def compactReadBuffer (consumed : Nat) (b : ReadBuffer) : ReadBuffer :=
  let b := { b with cursor := b.cursor + consumed }
  if b.cursor = b.bytes.length then { b with bytes := [], cursor := 0 } else b.eraseFront

/-- The first half of `TryReceiveFrameInternal`. -/
def tryExtractBuffered : Method ReadBuffer (Option Bytes) := fun b =>
  match tryExtractFrame b.unread with
  | .error e => (.error e, b)
  | .ok consumed =>
    if consumed = 0 then (.ok none, b)
    else (.ok (some (b.unread.take consumed)), compactReadBuffer consumed b)

def readDecryptedBytes (grow : Nat → Nat → Nat) (answer : Answer Byte) :
    Method ReadBuffer Bool := fun b =>
  match answer with
  | .wouldBlock => (.ok false, b)
  | .chunk [] => (.error (.IoError "peer closed the TLS connection"), b)
  | .chunk (byte :: rest) =>
    let b := (b.reserve grow (rest.length + 1)).append (byte :: rest)
    if kMaxReadBufferSize < b.bytes.length then
      (.error (.IoError "TLS read buffer exceeded maximum size limit"), b)
    else (.ok true, b)

/-- One call of `TryReceiveFrameInternal` is `next` of this reader. -/
def reader (grow : Nat → Nat → Nat) : Reader Byte Status ReadBuffer where
  extract := tryExtractBuffered
  receive := readDecryptedBytes grow

end Tls

end NimbleFix
