import NimbleFix.Base.Status
import NimbleFix.Codec.Tags

/-!
# Numbers, fields and checksums on the wire (`codec/fix_codec.cpp`)

`scanNextField` reads one `tag=value` field off the front of the remaining bytes. The code works
on offsets into one buffer; here the position is the suffix still to be read, so an offset is a
difference of lengths.
-/

namespace NimbleFix

/-- `kFixSoh`. -/
def soh : Byte := 1

/-- The byte `'='`. -/
def equalsByte : Byte := 61

def isDigit (b : Byte) : Bool := 48 ≤ b && b ≤ 57

def digitValue (b : Byte) : Nat := b.toNat - 48

/-- The value of a digit string; `none` for the empty string or a byte that is no digit. -/
def parseNat (text : Bytes) : Option Nat :=
  if text ≠ [] ∧ text.all isDigit then some (text.foldl (fun n b => 10 * n + digitValue b) 0)
  else none

/-- `std::from_chars` into a `std::uint32_t` that must use the whole text. -/
def parseUnsigned (text : Bytes) (label : String) : Except Status Nat :=
  match parseNat text with
  | some n => if n < 2 ^ 32 then .ok n else .error (.InvalidArgument ("invalid " ++ label))
  | none => .error (.InvalidArgument ("invalid " ++ label))

/-- `std::from_chars` into a `std::int64_t` that must use the whole text. -/
def parseSigned (text : Bytes) : Option Int :=
  match text with
  | 45 :: digits => (parseNat digits).bind fun n => if n ≤ 2 ^ 63 then some (-(n : Int)) else none
  | _ => (parseNat text).bind fun n => if n < 2 ^ 63 then some (n : Int) else none

def parseBoolean (text : Bytes) (label : String) : Except Status Bool :=
  if text = ascii "Y" then .ok true
  else if text = ascii "N" then .ok false
  else .error (.InvalidArgument ("invalid " ++ label))

/-- `FormatInt64`. -/
def formatInt (n : Int) : Bytes :=
  if n < 0 then 45 :: decimal n.natAbs else decimal n.natAbs

theorem formatInt_natCast (n : Nat) : formatInt n = decimal n := by
  unfold formatInt
  rw [if_neg (by omega)]
  rfl

/-! ## Fields -/

structure InlineField where
  tag : Nat
  value : Bytes
  deriving DecidableEq, Repr

/-- The bytes before the first `delim` and those after it. -/
def splitAtByte (delim : Byte) : Bytes → Option (Bytes × Bytes)
  | [] => none
  | b :: bs =>
    if b = delim then some ([], bs)
    else (splitAtByte delim bs).map fun p => (b :: p.1, p.2)

/-- `ParseTagInline`: up to five digits; `0` on error. -/
def parseTagInline (text : Bytes) : Nat :=
  if text.length ≤ 5 then (parseNat text).getD 0 else 0

/-- The loop that looks for `'='` among the first six bytes of a field: `budget` is how many bytes
it may still look at, `first` says that none has been consumed yet. Returns the tag text and what
follows the `'='`. -/
def scanTag (delim : Byte) : Nat → Bool → Bytes → Except Status (Bytes × Bytes)
  | _, _, [] => .error (.FormatError "FIX frame is missing its final delimiter")
  | 0, _, _ :: _ => .error (.FormatError "invalid field tag")
  | budget + 1, first, b :: bs =>
    if b = equalsByte then
      if first then .error (.FormatError "invalid FIX field syntax") else .ok ([], bs)
    else if b = delim then
      if first then .error (.FormatError "empty FIX field is not allowed")
      else .error (.FormatError "invalid FIX field syntax")
    else do
      let (text, rest) ← scanTag delim budget false bs
      .ok (b :: text, rest)

/-- `ScanNextField`. The length of the value is a 32-bit word, so a longer value is cut. -/
def scanNextField (delim : Byte) (bytes : Bytes) : Except Status (InlineField × Bytes) := do
  let (tagText, afterEq) ← scanTag delim 6 true bytes
  match splitAtByte delim afterEq with
  | none => .error (.FormatError "FIX frame is missing its final delimiter")
  | some (value, rest) =>
    if parseTagInline tagText = 0 then .error (.FormatError "invalid field tag")
    else .ok ({ tag := parseTagInline tagText, value := value.take (wrap32 value.length) }, rest)

/-! ## Digits -/

theorem isDigit_digitByte {d : Nat} (h : d < 10) : isDigit (digitByte d) = true := by
  revert d
  decide

theorem digitValue_digitByte {d : Nat} (h : d < 10) : digitValue (digitByte d) = d := by
  revert d
  decide

theorem decimalAux_reads : ∀ {fuel n : Nat}, n ≤ fuel → decimalAux fuel n ≠ [] ∧
    (decimalAux fuel n).all isDigit ∧
    (decimalAux fuel n).foldl (fun n b => 10 * n + digitValue b) 0 = n
  | 0, n, h => by
    obtain rfl := Nat.le_zero.1 h
    decide
  | fuel + 1, n, h => by
    unfold decimalAux
    by_cases hn : n < 10
    · rw [if_pos hn]
      simp [isDigit_digitByte hn, digitValue_digitByte hn]
    · rw [if_neg hn]
      have hlast : n % 10 < 10 := Nat.mod_lt _ (by decide)
      have hrest : n / 10 ≤ fuel := by omega
      obtain ⟨-, hdigits, hvalue⟩ := decimalAux_reads hrest
      refine ⟨by simp, by simp [hdigits, isDigit_digitByte hlast], ?_⟩
      rw [List.foldl_append, hvalue, List.foldl_cons, List.foldl_nil, digitValue_digitByte hlast]
      omega

theorem parseNat_decimal (n : Nat) : parseNat (decimal n) = some n := by
  obtain ⟨hne, hdigits, hvalue⟩ := decimalAux_reads (Nat.le_refl n)
  unfold parseNat decimal
  rw [if_pos ⟨hne, hdigits⟩, hvalue]

theorem notMem_decimal {b : Byte} (h : isDigit b = false) (n : Nat) : b ∉ decimal n := by
  intro hmem
  have hdigit := List.all_eq_true.1 (decimalAux_reads (Nat.le_refl n)).2.1 b hmem
  simp [h] at hdigit

/-! ## Checksums -/

def byteSum (bytes : Bytes) : Nat := (bytes.map UInt8.toNat).sum

/-- The three digits of `CheckSum(10)` for the bytes before it. -/
def checksumDigits (bytes : Bytes) : Bytes :=
  let sum := byteSum bytes % 256
  [digitByte (sum / 100 % 10), digitByte (sum / 10 % 10), digitByte (sum % 10)]

end NimbleFix
