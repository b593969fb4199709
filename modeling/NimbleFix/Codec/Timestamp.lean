import NimbleFix.Codec.Scan

/-!
# UTC timestamps (`CurrentUtcTimestamp`, `ParseFixUtcTimestampNs`)

The writer copies the broken-down time of a clock reading digit by digit; the reader turns a
`SendingTime` text back into nanoseconds since the epoch.
-/

namespace NimbleFix

/-! ## Writing -/

inductive TimestampResolution
  | seconds
  | milliseconds
  | microseconds
  | nanoseconds
  deriving DecidableEq, Repr

/-- A clock reading as `gmtime_r` breaks it down, with the nanoseconds of its second. -/
structure UtcTime where
  year : Nat
  month : Nat
  day : Nat
  hour : Nat
  minute : Nat
  second : Nat
  nanos : Nat
  deriving DecidableEq, Repr

/-- The `width` low decimal digits of `value` (`WriteTwoDigits` and its siblings). -/
def writeDigits : Nat → Nat → Bytes
  | 0, _ => []
  | width + 1, value => writeDigits width (value / 10) ++ [digitByte (value % 10)]

def fractionDigits (resolution : TimestampResolution) (nanos : Nat) : Bytes :=
  match resolution with
  | .seconds => []
  | .milliseconds => ascii "." ++ writeDigits 3 (nanos / 1000000)
  | .microseconds => ascii "." ++ writeDigits 6 (nanos / 1000)
  | .nanoseconds => ascii "." ++ writeDigits 9 nanos

/-- The text `CurrentUtcTimestamp` returns when the clock reads `t`. -/
def utcTimestamp (resolution : TimestampResolution) (t : UtcTime) : Bytes :=
  writeDigits 4 t.year ++ writeDigits 2 t.month ++ writeDigits 2 t.day ++ ascii "-" ++
    writeDigits 2 t.hour ++ ascii ":" ++ writeDigits 2 t.minute ++ ascii ":" ++
    writeDigits 2 t.second ++ fractionDigits resolution t.nanos

/-! ## Reading -/

/-- `ParseDecimal`: `width` digits at `offset`. -/
def parseDecimal (text : Bytes) (offset width : Nat) : Option Nat :=
  if text.length < offset + width then none else parseNat ((text.drop offset).take width)

def isLeapYear (year : Nat) : Bool := year % 4 == 0 && (year % 100 != 0 || year % 400 == 0)

def lastDayOfMonth (year month : Nat) : Nat :=
  if month = 2 then (if isLeapYear year then 29 else 28)
  else if [4, 6, 9, 11].contains month then 30
  else 31

/-- The days from the epoch to the given date (`std::chrono::sys_days`). -/
def daysFromCivil (year month day : Nat) : Int :=
  let y : Int := if month ≤ 2 then year - 1 else year
  let era := y.fdiv 400
  let yearOfEra := y - era * 400
  let shifted : Int := if month ≤ 2 then month + 9 else month - 3
  let dayOfYear := (153 * shifted + 2) / 5 + day - 1
  let dayOfEra := yearOfEra * 365 + yearOfEra / 4 - yearOfEra / 100 + dayOfYear
  era * 146097 + dayOfEra - 719468

/-- The nanoseconds of the fraction after the seconds: one to nine digits after a dot. -/
def parseFraction (text : Bytes) : Option Nat :=
  match text with
  | [] => some 0
  | dot :: digits =>
    if dot ≠ 46 ∨ digits = [] ∨ 9 < digits.length then none
    else (parseNat digits).map fun n => n * 10 ^ (9 - digits.length)

/-- The nanoseconds since the epoch that the text stands for. -/
def parseFixUtcInstant (text : Bytes) : Option Int := do
  if text.length < 17 ∨ text[8]? ≠ some 45 ∨ text[11]? ≠ some 58 ∨ text[14]? ≠ some 58 then none
  else
    let year ← parseDecimal text 0 4
    let month ← parseDecimal text 4 2
    let day ← parseDecimal text 6 2
    let hour ← parseDecimal text 9 2
    let minute ← parseDecimal text 12 2
    let second ← parseDecimal text 15 2
    if 23 < hour ∨ 59 < minute ∨ 60 < second then none
    else
      let fraction ← parseFraction (text.drop 17)
      if month = 0 ∨ 12 < month ∨ day = 0 ∨ lastDayOfMonth year month < day then none
      else
        let seconds := daysFromCivil year month day * 86400 + hour * 3600 + minute * 60 + second
        some (seconds * 1000000000 + fraction)

/-- The count of nanoseconds is taken in a signed 64-bit word. -/
def parseFixUtcTimestampNs (text : Bytes) : Option Nat := do
  let epochNs := (← parseFixUtcInstant text).bmod (2 ^ 64)
  if epochNs < 0 then none else some epochNs.toNat

def kNanosPerSecond : Nat := 1000000000

def sendingTimeOutsideThreshold (sendingTime : Bytes) (timestampNs thresholdSeconds : Nat) :
    Bool :=
  if thresholdSeconds = 0 ∨ sendingTime = [] then false
  else
    match parseFixUtcTimestampNs sendingTime with
    | none => false
    | some parsed =>
      thresholdSeconds * kNanosPerSecond < max parsed timestampNs - min parsed timestampNs

/-! ## Lengths -/

theorem writeDigits_length : ∀ (width value : Nat), (writeDigits width value).length = width
  | 0, _ => rfl
  | width + 1, value => by simp [writeDigits, writeDigits_length width]

end NimbleFix
