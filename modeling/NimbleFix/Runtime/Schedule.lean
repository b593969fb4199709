import NimbleFix.Base.Status

/-!
# Session schedules (`runtime/config.cpp`, `runtime/session_schedule.cpp`)

Windows in UTC: `use_local_time` is off. An instant is a 64-bit number of nanoseconds since 1970;
the conversions between it and civil time are those of the proleptic calendar, so a civil time is
the number of its day and the second in it. The session and the logon window of a schedule or of a
chained segment have the same four fields, `WindowFields`.
-/

namespace NimbleFix

structure SessionTimeOfDay where
  hour : Nat
  minute : Nat
  second : Nat
  deriving DecidableEq, Repr

structure WindowFields where
  startTime : Option SessionTimeOfDay := none
  endTime : Option SessionTimeOfDay := none
  startDay : Option (Fin 7) := none
  endDay : Option (Fin 7) := none
  deriving DecidableEq, Repr

structure SessionScheduleSegment where
  session : WindowFields := {}
  logon : WindowFields := {}
  deriving DecidableEq, Repr

structure SessionScheduleConfig extends SessionScheduleSegment where
  nonStopSession : Bool := false
  segments : List SessionScheduleSegment := []
  deriving DecidableEq, Repr

structure SessionWindowSpec where
  startSecond : Nat
  endSecond : Nat
  startDay : Option (Fin 7)
  endDay : Option (Fin 7)
  deriving DecidableEq, Repr

def kSecondsPerDay : Nat := 86400
def kNanosecondsPerSecond : Nat := 1000000000

/-! ## Validation -/

def isValidTimeOfDay (t : SessionTimeOfDay) : Bool := t.hour < 24 && t.minute < 60 && t.second < 60

/-- `HasSessionWindowFields` and `HasLogonWindowFields`. -/
def WindowFields.present (f : WindowFields) : Bool :=
  f.startTime.isSome || f.endTime.isSome || f.startDay.isSome || f.endDay.isSome

def validateTimePair (label : String) (f : WindowFields) : Except Status Unit :=
  if f.startTime.isSome != f.endTime.isSome then
    .error (.InvalidArgument (label ++ " requires both start and end times"))
  else if f.startDay.isSome != f.endDay.isSome then
    .error (.InvalidArgument (label ++ " requires both start and end days"))
  else if (f.startDay.isSome || f.endDay.isSome) && !f.startTime.isSome then
    .error (.InvalidArgument (label ++ " days require matching times"))
  else if f.startTime.any (!isValidTimeOfDay ·) then
    .error (.InvalidArgument (label ++ " start time is out of range"))
  else if f.endTime.any (!isValidTimeOfDay ·) then
    .error (.InvalidArgument (label ++ " end time is out of range"))
  else .ok ()

def validateSegment (s : SessionScheduleSegment) : Except Status Unit := do
  validateTimePair "chained segment session window" s.session
  validateTimePair "chained segment logon window" s.logon

def validateSessionSchedule (c : SessionScheduleConfig) : Except Status Unit :=
  let legacy := c.session.present || c.logon.present
  if c.segments ≠ [] then
    if c.nonStopSession then
      .error (.InvalidArgument "non_stop_session cannot be combined with chained segments")
    else if legacy then
      .error (.InvalidArgument "cannot mix legacy single-window fields with chained segments")
    else c.segments.forM validateSegment
  else if c.nonStopSession && legacy then
    .error (.InvalidArgument
      "non_stop_session cannot be combined with session or logon window settings")
  else do
    validateTimePair "session window" c.session
    validateTimePair "logon window" c.logon

/-! ## Windows -/

def secondsOfDay (t : SessionTimeOfDay) : Nat := t.hour * 3600 + t.minute * 60 + t.second

/-- The code reads both times without a check; a valid schedule has them. -/
def WindowFields.spec (f : WindowFields) : Option SessionWindowSpec :=
  match f.startTime, f.endTime with
  | some s, some e => some ⟨secondsOfDay s, secondsOfDay e, f.startDay, f.endDay⟩
  | _, _ => none

def buildWindowSpec (s : SessionScheduleSegment) (logonWindow : Bool) : Option SessionWindowSpec :=
  if logonWindow && s.logon.present then s.logon.spec
  else if !s.session.present then none
  else s.session.spec

def buildWindowSpecs (c : SessionScheduleConfig) (logonWindow : Bool) : List SessionWindowSpec :=
  if c.nonStopSession then []
  else if c.segments ≠ [] then c.segments.filterMap (buildWindowSpec · logonWindow)
  else (buildWindowSpec c.toSessionScheduleSegment logonWindow).toList

/-! ## Instants -/

structure CalendarPoint where
  /-- The days since 1970-01-01, a Thursday. -/
  day : Nat
  weekday : Nat
  secondOfDay : Nat
  deriving DecidableEq, Repr

def buildCalendarPoint (t : Nat) : CalendarPoint :=
  let seconds := t / kNanosecondsPerSecond
  let day := seconds / kSecondsPerDay
  ⟨day, (day + 4) % 7, seconds % kSecondsPerDay⟩

/-- `timegm` of a second of a day; the product is a 64-bit word. -/
def makeUnixTimeNs (day second : Nat) : Nat :=
  wrap64 ((day * kSecondsPerDay + second) * kNanosecondsPerSecond)

namespace SessionWindowSpec

variable (w : SessionWindowSpec)

def current (point : CalendarPoint) : Nat :=
  if w.startDay.isSome then point.weekday * kSecondsPerDay + point.secondOfDay
  else point.secondOfDay

def start : Nat := (w.startDay.elim 0 fun d => d.val * kSecondsPerDay) + w.startSecond

def close : Nat := (w.endDay.elim 0 fun d => d.val * kSecondsPerDay) + w.endSecond

def isWithinWindow (t : Nat) : Bool :=
  let current := w.current (buildCalendarPoint t)
  if w.start = w.close then true
  else if w.start < w.close then w.start ≤ current && current < w.close
  else w.start ≤ current || current < w.close

def nextWindowStart (t : Nat) : Option Nat :=
  if w.isWithinWindow t then some t
  else
    let point := buildCalendarPoint t
    match w.startDay with
    | some startDay =>
      let deltaDays := if startDay.val < point.weekday then startDay.val + 7 - point.weekday
        else startDay.val - point.weekday
      let candidate := makeUnixTimeNs (point.day + deltaDays) w.startSecond
      if candidate ≤ t then some (makeUnixTimeNs (point.day + deltaDays + 7) w.startSecond)
      else some candidate
    | none =>
      let candidate := makeUnixTimeNs point.day w.startSecond
      if candidate ≤ t then some (makeUnixTimeNs (point.day + 1) w.startSecond)
      else some candidate

end SessionWindowSpec

/-- The better of the earliest instant so far and a candidate. -/
def earlier (earliest candidate : Option Nat) : Option Nat :=
  match candidate with
  | some c => if earliest.all (c < ·) then some c else earliest
  | none => earliest

/-- `EarliestWindowStart`, which `NextLogonWindowStart` repeats. -/
def earliestWindowStart (windows : List SessionWindowSpec) (t : Nat) : Option Nat :=
  if windows = [] then some t
  else
    windows.foldl (fun earliest w => earlier earliest (w.nextWindowStart t)) none

def isWithinWindows (windows : List SessionWindowSpec) (t : Nat) : Bool :=
  windows.isEmpty || windows.any (·.isWithinWindow t)

def isWithinSessionWindow (c : SessionScheduleConfig) : Nat → Bool :=
  isWithinWindows (buildWindowSpecs c false)

def isWithinLogonWindow (c : SessionScheduleConfig) : Nat → Bool :=
  isWithinWindows (buildWindowSpecs c true)

def nextSessionWindowStart (c : SessionScheduleConfig) : Nat → Option Nat :=
  earliestWindowStart (buildWindowSpecs c false)

def nextLogonWindowStart (c : SessionScheduleConfig) : Nat → Option Nat :=
  earliestWindowStart (buildWindowSpecs c true)

end NimbleFix
