import NimbleFix.Codec.Scan

/-!
# Scanning sixteen bytes at a time (`codec/simd_scan.h`)

A register of sixteen bytes is a byte list, lowest byte first, and a pointer into the data is the
number of bytes before it. The functions are given as the two builds have them: `sse2` says whether
the vector instructions are there.
-/

namespace NimbleFix

namespace Simd

/-! ## The instructions -/

/-- `_mm_cmpeq_epi8`. -/
def cmpeqEpi8 (a b : Bytes) : Bytes := List.zipWith (fun x y => if x = y then 255 else 0) a b

/-- `_mm_or_si128`. -/
def orSi128 (a b : Bytes) : Bytes := List.zipWith (· ||| ·) a b

/-- `_mm_movemask_epi8`: the top bits of the bytes. -/
def movemaskEpi8 (v : Bytes) : BitVec 32 :=
  (BitVec.ofBoolListLE (v.map fun b => decide (128 ≤ b))).setWidth 32

/-- `_mm_set1_epi8`. -/
def set1Epi8 (b : Byte) : Bytes := List.replicate 16 b

/-- The sum of the distances of eight bytes, in a word. -/
def sadLane (a b : Bytes) : UInt16 :=
  UInt16.ofNat (List.zipWith (fun x y => max x.toNat y.toNat - min x.toNat y.toNat) a b).sum

/-- `_mm_sad_epu8`: eight words, with the sum of each half in its first. -/
def sadEpu8 (a b : Bytes) : List UInt16 :=
  [sadLane (a.take 8) (b.take 8), 0, 0, 0, sadLane (a.drop 8) (b.drop 8), 0, 0, 0]

/-- `_mm_extract_epi16`. -/
def extractEpi16 (v : List UInt16) (i : Nat) : UInt32 := (v.getD i 0).toUInt32

/-! ## Searching -/

def findByteShortScalar (needle : Byte) : Bytes → Nat
  | [] => 0
  | b :: bs => if b = needle then 0 else findByteShortScalar needle bs + 1

/-- The loop that both vector searches start with: the first block whose mask is not zero decides,
and `tail` searches what is left. -/
def scanBlocks (mask : Bytes → BitVec 32) (tail : Bytes → Nat) (data : Bytes) : Nat :=
  if h : 16 ≤ data.length then
    let m := mask (data.take 16)
    if m ≠ 0 then m.ctz.toNat else 16 + scanBlocks mask tail (data.drop 16)
  else tail data
termination_by data.length
decreasing_by simp; omega

def findByteSse2 (needle : Byte) (data : Bytes) : Nat :=
  scanBlocks (fun chunk => movemaskEpi8 (cmpeqEpi8 chunk (set1Epi8 needle)))
    (findByteShortScalar needle) data

/-- `FindByteScalar`: `std::memchr`, or the end if it finds nothing. -/
def findByteScalar (needle : Byte) (data : Bytes) : Nat :=
  (data.findIdx? (· == needle)).getD data.length

def findByte (sse2 : Bool) (needle : Byte) (data : Bytes) : Nat :=
  if sse2 then
    if data.length < 16 then findByteShortScalar needle data else findByteSse2 needle data
  else findByteScalar needle data

/-- The scalar loop of `FindEitherByte`. -/
def findEitherTail (x y : Byte) : Bytes → Nat
  | [] => 0
  | b :: bs => if b = x ∨ b = y then 0 else findEitherTail x y bs + 1

def findEitherByte (sse2 : Bool) (x y : Byte) (data : Bytes) : Nat :=
  if sse2 then
    scanBlocks (fun chunk => movemaskEpi8
      (orSi128 (cmpeqEpi8 chunk (set1Epi8 x)) (cmpeqEpi8 chunk (set1Epi8 y))))
      (findEitherTail x y) data
  else findEitherTail x y data

/-! ## Summing -/

/-- The scalar loop of `ComputeChecksumSIMD`, in 32-bit arithmetic. -/
def sumTail (sum : UInt32) (data : Bytes) : UInt32 :=
  data.foldl (fun sum b => sum + b.toUInt32) sum

def sumBlocks (sum : UInt32) (data : Bytes) : UInt32 :=
  if _h : 16 ≤ data.length then
    let sad := sadEpu8 (data.take 16) (set1Epi8 0)
    sumBlocks (sum + (extractEpi16 sad 0 + extractEpi16 sad 4)) (data.drop 16)
  else sumTail sum data
termination_by data.length
decreasing_by simp; omega

def computeChecksumSIMD (sse2 : Bool) (data : Bytes) : UInt32 :=
  if sse2 then sumBlocks 0 data else sumTail 0 data

end Simd

end NimbleFix
