import NimbleFix.Codec.Scan

/-!
# Writing integers (`codec/fast_int_format.h`)

A function that fills a character buffer gives the characters it writes, first to last, and the
number it returns. Divisions of a `std::uint32_t` do not leave its range, so they are those of
the natural numbers.
-/

namespace NimbleFix

/-- `BuildDigitPairTable`. -/
def buildDigitPairTable : List Bytes :=
  (List.range 100).map fun i => [digitByte (i / 10), digitByte (i % 10)]

/-- Both characters of an entry of `kDigitPairs`. -/
def digitPair (i : Nat) : Bytes := buildDigitPairTable.getD i []

/-- The loop that fills `tmp`, last digit first. -/
def decimalTmp (v : Nat) : Bytes :=
  if v = 0 then [] else digitByte (v % 10) :: decimalTmp (v / 10)

/-- The sequential decomposition: `tmp` is copied in reverse. -/
def formatSequential (v : Nat) : Bytes × Nat :=
  let tmp := decimalTmp v
  let len := tmp.length
  ((List.range len).map fun i => tmp.getD (len - 1 - i) 0, len)

def formatUint32 (value : UInt32) : Bytes × Nat :=
  let v := value.toNat
  if v < 10 then ([digitByte v], 1)
  else if v < 100 then (digitPair v, 2)
  else if v < 1000 then (digitByte (v / 100) :: digitPair (v % 100), 3)
  else if v < 10000 then (digitPair (v / 100) ++ digitPair (v % 100), 4)
  else if v < 100000 then
    let q := v / 100
    (digitByte (q / 100) :: (digitPair (q % 100) ++ digitPair (v % 100)), 5)
  else if v < 1000000 then
    let q := v / 100
    (digitPair (q / 100) ++ digitPair (q % 100) ++ digitPair (v % 100), 6)
  else if v < 10000000 then
    let q := v / 10000
    let r := v % 10000
    (digitByte (q / 100) :: (digitPair (q % 100) ++ digitPair (r / 100) ++ digitPair (r % 100)), 7)
  else formatSequential v

/-- The result of a call that writes behind a minus sign. -/
def afterMinus (r : Bytes × Nat) : Bytes × Nat := (45 :: r.1, 1 + r.2)

def formatInt64 (value : Int64) : Bytes × Nat :=
  if value < 0 then
    let uval := (-(value + 1)).toUInt64 + 1
    if uval.toNat ≤ uint32Max then afterMinus (formatUint32 uval.toUInt32)
    else afterMinus (formatSequential uval.toNat)
  else if value.toInt ≤ uint32Max then formatUint32 value.toUInt64.toUInt32
  else formatSequential value.toUInt64.toNat

end NimbleFix
