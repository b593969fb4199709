import Mathlib.Data.List.Induction
import Mathlib.Data.List.OfFn
import Mathlib.Tactic.IntervalCases
import Mathlib.Tactic.Linarith
import NimbleFix.Codec.Timestamp

/-!
# What a `SendingTime` stands for

`Denotes text instant`: the text is a UTC time of the calendar, and `instant` is the count of its
nanoseconds since 1970, as an integer. The parser reads exactly these texts and instants
(`parseFixUtcInstant_eq_some_iff`), but then keeps the count in a signed 64-bit word: the answer
about the threshold is right for every clock if and only if the instant has not left that word
towards the future and an instant before 1970 has not come back into the time after it.
-/

namespace NimbleFix

/-! ## Digits -/

theorem all_isDigit_writeDigits : ∀ width value : Nat, (writeDigits width value).all isDigit
  | 0, _ => rfl
  | width + 1, value => by
    simp [writeDigits, all_isDigit_writeDigits width, isDigit_digitByte (Nat.mod_lt value _)]

theorem foldl_writeDigits : ∀ {width value : Nat}, value < 10 ^ width →
    (writeDigits width value).foldl (fun n b => 10 * n + digitValue b) 0 = value
  | 0, value, h => by simp [writeDigits] at h ⊢; omega
  | width + 1, value, h => by
    have hdiv : value / 10 < 10 ^ width := by
      rw [Nat.div_lt_iff_lt_mul (by decide)]
      omega
    simp only [writeDigits, List.foldl_append, foldl_writeDigits hdiv, List.foldl_cons,
      List.foldl_nil, digitValue_digitByte (Nat.mod_lt value (by decide : 0 < 10))]
    omega

/-- Digits are the text of their value. -/
theorem writeDigits_foldl {digits : Bytes} (h : digits.all isDigit) :
    digits.foldl (fun n b => 10 * n + digitValue b) 0 < 10 ^ digits.length ∧
      writeDigits digits.length (digits.foldl (fun n b => 10 * n + digitValue b) 0) = digits := by
  induction digits using List.reverseRecOn with
  | nil => exact ⟨by simp, rfl⟩
  | append_singleton digits b ih =>
    simp only [List.all_append, List.all_cons, List.all_nil, Bool.and_true, Bool.and_eq_true] at h
    obtain ⟨hlt, htext⟩ := ih h.1
    have hb : 48 ≤ b.toNat ∧ b.toNat ≤ 57 := by
      simpa [isDigit, UInt8.le_iff_toNat_le] using h.2
    have hvalue : digitValue b < 10 := by
      unfold digitValue
      omega
    have hbyte : digitByte (digitValue b) = b := by
      apply UInt8.toNat_inj.1
      simp only [digitByte, digitValue, UInt8.toNat_ofNat']
      omega
    simp only [List.foldl_append, List.foldl_cons, List.foldl_nil, List.length_append,
      List.length_cons, List.length_nil, Nat.zero_add, pow_succ, writeDigits]
    generalize digits.foldl (fun n b => 10 * n + digitValue b) 0 = n at hlt htext ⊢
    have hquot : (10 * n + digitValue b) / 10 = n := by omega
    have hrem : (10 * n + digitValue b) % 10 = digitValue b := by omega
    exact ⟨by omega, by rw [hquot, hrem, htext, hbyte]⟩

variable {text : Bytes} {month : Nat}

theorem parseNat_eq_some_iff {value : Nat} :
    parseNat text = some value ↔
      text ≠ [] ∧ value < 10 ^ text.length ∧ writeDigits text.length value = text := by
  unfold parseNat
  constructor
  · intro h
    split at h
    · rename_i hdigits
      cases h
      exact ⟨hdigits.1, writeDigits_foldl hdigits.2⟩
    · cases h
  · rintro ⟨hne, hlt, htext⟩
    have hall := all_isDigit_writeDigits text.length value
    have hvalue := foldl_writeDigits hlt
    rw [htext] at hall hvalue
    rw [if_pos ⟨hne, hall⟩, hvalue]

/-! ## The calendar -/

def yearLength (year : Nat) : Nat := if isLeapYear year then 366 else 365

def daysBeforeYear : Nat → Nat
  | 0 => 0
  | year + 1 => daysBeforeYear year + yearLength year

def daysBeforeMonth (year : Nat) : Nat → Nat
  | 0 | 1 => 0
  | month + 2 => daysBeforeMonth year (month + 1) + lastDayOfMonth year (month + 1)

/-- The days from the first day of the year 0 to the given date. -/
def dayNumber (year month day : Nat) : Nat :=
  daysBeforeYear year + daysBeforeMonth year month + (day - 1)

theorem daysBeforeYear_eq (year : Nat) : (daysBeforeYear year : Int) = 365 * year +
    ((year : Int) - 1) / 4 - ((year : Int) - 1) / 100 + ((year : Int) - 1) / 400 + 1 := by
  induction year with
  | zero => rfl
  | succ year ih =>
    have hleap : isLeapYear year ↔ year % 4 = 0 ∧ (year % 100 ≠ 0 ∨ year % 400 = 0) := by
      simp [isLeapYear]
    have hprev : ((year + 1 : Nat) : Int) - 1 = year := by omega
    rw [hprev, daysBeforeYear, yearLength]
    push_cast
    rw [ih]
    by_cases h : isLeapYear year = true
    · have hmod := hleap.1 h
      rw [if_pos h]
      omega
    · have hmod := mt hleap.2 h
      rw [if_neg h]
      omega

/-- The years of the formula of `std::chrono`, which start in March. -/
theorem eraDays_eq (y : Int) :
    y / 400 * 146097 + ((y - y / 400 * 400) * 365 + (y - y / 400 * 400) / 4 -
      (y - y / 400 * 400) / 100) = 365 * y + y / 4 - y / 100 + y / 400 := by
  omega

theorem monthDays_early (h : 1 ≤ month ∧ month ≤ 2) (year : Nat) :
    (153 * ((month : Int) + 9) + 2) / 5 = daysBeforeMonth year month + 306 := by
  obtain ⟨hlow, hhigh⟩ := h
  interval_cases month <;> simp [daysBeforeMonth, lastDayOfMonth]

theorem monthDays_late (h : 2 < month ∧ month ≤ 12) (year : Nat) :
    (153 * ((month : Int) - 3) + 2) / 5 = daysBeforeMonth year month - yearLength year + 306 := by
  obtain ⟨hlow, hhigh⟩ := h
  unfold yearLength
  by_cases hleap : isLeapYear year = true
  · interval_cases month <;> simp [daysBeforeMonth, lastDayOfMonth, hleap]
  · interval_cases month <;> simp [daysBeforeMonth, lastDayOfMonth, hleap]

/-- The formula of `std::chrono` counts the days of the calendar. -/
theorem daysFromCivil_eq {year : Nat} (hmonth : 1 ≤ month ∧ month ≤ 12) {day : Nat}
    (hday : 1 ≤ day) :
    daysFromCivil year month day = (dayNumber year month day : Int) - dayNumber 1970 1 1 := by
  have hepoch : dayNumber 1970 1 1 = 719528 := by decide +kernel
  have hyear := daysBeforeYear_eq year
  have hprev : ((day - 1 : Nat) : Int) = day - 1 := by omega
  rw [hepoch]
  unfold daysFromCivil dayNumber
  push_cast
  rw [hprev]
  by_cases hearly : month ≤ 2
  · have hera := eraDays_eq ((year : Int) - 1)
    have hdays := monthDays_early ⟨hmonth.1, hearly⟩ year
    simp only [if_pos hearly, Int.fdiv_eq_ediv_of_nonneg _ (by decide : (0 : Int) ≤ 400), hdays]
    linarith
  · have hera := eraDays_eq (year : Int)
    have hdays := monthDays_late ⟨not_le.1 hearly, hmonth.2⟩ year
    have hnext := daysBeforeYear_eq (year + 1)
    rw [show ((year + 1 : Nat) : Int) - 1 = year by omega, daysBeforeYear] at hnext
    push_cast at hnext
    simp only [if_neg hearly, Int.fdiv_eq_ediv_of_nonneg _ (by decide : (0 : Int) ≤ 400), hdays]
    linarith

/-! ## Texts -/

/-- `YYYYMMDD-HH:MM:SS` and a fraction of `width` digits if there are any. -/
def timeText (t : UtcTime) (width : Nat) : Bytes :=
  writeDigits 4 t.year ++ (writeDigits 2 t.month ++ (writeDigits 2 t.day ++ 45 ::
    (writeDigits 2 t.hour ++ 58 :: (writeDigits 2 t.minute ++ 58 :: (writeDigits 2 t.second ++
      if width = 0 then [] else 46 :: writeDigits width (t.nanos / 10 ^ (9 - width)))))))

/-- A time of the calendar whose fraction has so many digits. -/
structure UtcTime.Valid (t : UtcTime) (digits : Nat) : Prop where
  year : t.year < 10000
  month : 1 ≤ t.month ∧ t.month ≤ 12
  day : 1 ≤ t.day ∧ t.day ≤ lastDayOfMonth t.year t.month
  hour : t.hour < 24
  minute : t.minute < 60
  second : t.second ≤ 60
  nanos : ∃ fraction < 10 ^ digits, t.nanos = fraction * 10 ^ (9 - digits)
  digits : digits ≤ 9

/-- The nanoseconds from 1970 to the time. -/
def UtcTime.instant (t : UtcTime) : Int :=
  (((dayNumber t.year t.month t.day : Int) - dayNumber 1970 1 1) * 86400 + t.hour * 3600 +
    t.minute * 60 + t.second) * 1000000000 + t.nanos

/-- The text stands for the instant. -/
def Denotes (text : Bytes) (instant : Int) : Prop :=
  ∃ t width, UtcTime.Valid t width ∧ text = timeText t width ∧ instant = t.instant

theorem parseFraction_eq_some_iff {nanos : Nat} :
    parseFraction text = some nanos ↔ ∃ width ≤ 9, ∃ fraction < 10 ^ width,
      nanos = fraction * 10 ^ (9 - width) ∧
        text = if width = 0 then [] else 46 :: writeDigits width fraction := by
  unfold parseFraction
  constructor
  · intro h
    split at h
    · cases h
      exact ⟨0, by decide, 0, by decide, rfl, rfl⟩
    · rename_i dot digits
      split at h
      · cases h
      · rename_i hok
        simp only [not_or, not_not, not_lt] at hok
        obtain ⟨hdot, hne, hlen⟩ := hok
        obtain ⟨fraction, hparse, rfl⟩ := Option.map_eq_some_iff.1 h
        obtain ⟨-, hlt, htext⟩ := parseNat_eq_some_iff.1 hparse
        refine ⟨digits.length, hlen, fraction, hlt, rfl, ?_⟩
        rw [if_neg (by simpa using hne), htext, hdot]
  · rintro ⟨width, hwidth, fraction, hlt, rfl, rfl⟩
    by_cases hzero : width = 0
    · subst hzero
      obtain rfl : fraction = 0 := by simpa using hlt
      rfl
    · have hne : writeDigits width fraction ≠ [] := by
        intro h
        have hlen := writeDigits_length width fraction
        rw [h] at hlen
        exact hzero hlen.symm
      have hparse : parseNat (writeDigits width fraction) = some fraction :=
        parseNat_eq_some_iff.2 ⟨hne, by rwa [writeDigits_length], by rw [writeDigits_length]⟩
      simp [hzero, hne, hparse, writeDigits_length, hwidth]

section Slices

variable {text rest : Bytes} {offset : Nat}

variable {width : Nat}

theorem drop_eq_digits_iff {value : Nat} :
    text.drop offset = writeDigits width value ++ rest ↔
      (text.drop offset).take width = writeDigits width value ∧
        text.drop (offset + width) = rest := by
  have hlen := writeDigits_length width value
  rw [← List.drop_drop]
  constructor
  · intro h
    rw [h]
    exact ⟨List.take_left' hlen, List.drop_left' hlen⟩
  · rintro ⟨h, rfl⟩
    rw [← h, List.take_append_drop]

theorem drop_eq_cons_iff {b : Byte} :
    text.drop offset = b :: rest ↔ text[offset]? = some b ∧ text.drop (offset + 1) = rest := by
  rw [← List.drop_drop, ← List.head?_drop]
  cases text.drop offset <;> simp

theorem parseDecimal_eq_some_iff {value : Nat} (h : offset + width ≤ text.length)
    (hwidth : width ≠ 0) : parseDecimal text offset width = some value ↔
      value < 10 ^ width ∧ (text.drop offset).take width = writeDigits width value := by
  have hlen : ((text.drop offset).take width).length = width := by simp; omega
  have hne : (text.drop offset).take width ≠ [] := by
    intro hnil
    rw [hnil] at hlen
    exact hwidth hlen.symm
  rw [parseDecimal, if_neg (by omega), parseNat_eq_some_iff, hlen]
  simp [hne, eq_comm]

theorem eq_timeText_iff {t : UtcTime} : text = timeText t width ↔
    text.take 4 = writeDigits 4 t.year ∧ (text.drop 4).take 2 = writeDigits 2 t.month ∧
    (text.drop 6).take 2 = writeDigits 2 t.day ∧ text[8]? = some 45 ∧
    (text.drop 9).take 2 = writeDigits 2 t.hour ∧ text[11]? = some 58 ∧
    (text.drop 12).take 2 = writeDigits 2 t.minute ∧ text[14]? = some 58 ∧
    (text.drop 15).take 2 = writeDigits 2 t.second ∧
    text.drop 17 =
      if width = 0 then [] else 46 :: writeDigits width (t.nanos / 10 ^ (9 - width)) := by
  change text.drop 0 = timeText t width ↔ _
  unfold timeText
  rw [drop_eq_digits_iff]
  simp only [drop_eq_digits_iff, drop_eq_cons_iff, Nat.reduceAdd, List.drop_zero]

end Slices

/-- The parser reads the texts that stand for an instant. -/
theorem parseFixUtcInstant_eq_some_iff {instant : Int} :
    parseFixUtcInstant text = some instant ↔ Denotes text instant := by
  constructor
  · intro h
    unfold parseFixUtcInstant at h
    split at h
    · cases h
    rename_i hshape
    simp only [not_or, not_not, not_lt] at hshape
    obtain ⟨hlen, h8, h11, h14⟩ := hshape
    obtain ⟨year, hyear, h⟩ := Option.bind_eq_some_iff.1 h
    obtain ⟨month, hmonth, h⟩ := Option.bind_eq_some_iff.1 h
    obtain ⟨day, hday, h⟩ := Option.bind_eq_some_iff.1 h
    obtain ⟨hour, hhour, h⟩ := Option.bind_eq_some_iff.1 h
    obtain ⟨minute, hminute, h⟩ := Option.bind_eq_some_iff.1 h
    obtain ⟨second, hsecond, h⟩ := Option.bind_eq_some_iff.1 h
    split at h
    · cases h
    rename_i hclock
    obtain ⟨nanos, hnanos, h⟩ := Option.bind_eq_some_iff.1 h
    split at h
    · cases h
    rename_i hdate
    obtain ⟨width, hwidth, fraction, hfraction, hvalue, hrest⟩ := parseFraction_eq_some_iff.1 hnanos
    rw [parseDecimal_eq_some_iff (by omega) (by decide)] at hyear hmonth hday hhour hminute hsecond
    have hdigits : nanos / 10 ^ (9 - width) = fraction := by
      rw [hvalue, Nat.mul_div_cancel _ (by positivity)]
    have hrange : 1 ≤ month ∧ month ≤ 12 := by omega
    have hfirst : 1 ≤ day := by omega
    rw [daysFromCivil_eq hrange hfirst] at h
    refine ⟨⟨year, month, day, hour, minute, second, nanos⟩, width, ?_, ?_, ?_⟩
    · exact ⟨by simpa using hyear.1, hrange, ⟨hfirst, by dsimp only; omega⟩,
        by dsimp only; omega, by dsimp only; omega, by dsimp only; omega,
        ⟨fraction, hfraction, hvalue⟩, hwidth⟩
    · rw [eq_timeText_iff]
      dsimp only
      rw [hdigits]
      exact ⟨hyear.2, hmonth.2, hday.2, h8, hhour.2, h11, hminute.2, h14, hsecond.2, hrest⟩
    · obtain rfl := Option.some.inj h
      simp only [UtcTime.instant]
  · rintro ⟨t, width, ht, htext, hinstant⟩
    have hlen : 17 ≤ text.length := by
      rw [htext]
      simp [timeText, writeDigits_length]
      omega
    obtain ⟨hyear, hmonth, hday, h8, hhour, h11, hminute, h14, hsecond, hrest⟩ :=
      eq_timeText_iff.1 htext
    obtain ⟨fraction, hfraction, hvalue⟩ := ht.nanos
    rw [hvalue, Nat.mul_div_cancel _ (by positivity)] at hrest
    have hlast : lastDayOfMonth t.year t.month ≤ 31 := by
      unfold lastDayOfMonth
      split <;> split <;> decide
    obtain ⟨hyear', ⟨hm, hm'⟩, ⟨hd, hd'⟩, hh, hmin, hs, -, hw⟩ := ht
    have hparsed : ∀ {offset width value : Nat}, offset + width ≤ 17 → width ≠ 0 →
        value < 10 ^ width → (text.drop offset).take width = writeDigits width value →
        parseDecimal text offset width = some value := fun ho hw hv h =>
      (parseDecimal_eq_some_iff (by omega) hw).2 ⟨hv, h⟩
    unfold parseFixUtcInstant
    rw [if_neg (by simp [h8, h11, h14]; omega), hparsed (by decide) (by decide) (by omega) hyear,
      hparsed (by decide) (by decide) (by omega) hmonth,
      hparsed (by decide) (by decide) (by omega) hday,
      hparsed (by decide) (by decide) (by omega) hhour,
      hparsed (by decide) (by decide) (by omega) hminute,
      hparsed (by decide) (by decide) (by omega) hsecond,
      parseFraction_eq_some_iff.2 ⟨width, hw, fraction, hfraction, hvalue, hrest⟩]
    simp only [Option.bind_eq_bind, Option.bind_some]
    rw [if_neg (by omega), if_neg (by omega), daysFromCivil_eq ⟨hm, hm'⟩ hd, hinstant,
      UtcTime.instant]

/-! ## The threshold -/

theorem parseFixUtcTimestampNs_eq_some_iff {ns : Nat} :
    parseFixUtcTimestampNs text = some ns ↔
      ∃ instant, Denotes text instant ∧ instant.bmod (2 ^ 64) = ns := by
  unfold parseFixUtcTimestampNs
  simp only [Option.bind_eq_bind, Option.bind_eq_some_iff, parseFixUtcInstant_eq_some_iff]
  refine exists_congr fun instant => and_congr_right fun _ => ?_
  generalize instant.bmod (2 ^ 64) = epochNs
  by_cases hneg : epochNs < 0
  · rw [if_pos hneg]
    constructor
    · rintro ⟨⟩
    · omega
  · rw [if_neg hneg, Option.some.injEq]
    omega

/-- The instant is not before 1970 and further from the clock than the threshold. -/
def Beyond (instant : Int) (clockNs thresholdSeconds : Nat) : Prop :=
  0 ≤ instant ∧ thresholdSeconds * 1000000000 < (instant - clockNs).natAbs

theorem sendingTimeOutsideThreshold_iff {clockNs threshold : Nat} (h : 0 < threshold) :
    sendingTimeOutsideThreshold text clockNs threshold = true ↔
      ∃ instant, Denotes text instant ∧ Beyond (instant.bmod (2 ^ 64)) clockNs threshold := by
  have hcases : sendingTimeOutsideThreshold text clockNs threshold = true ↔
      ∃ ns, parseFixUtcTimestampNs text = some ns ∧
        threshold * kNanosPerSecond < max ns clockNs - min ns clockNs := by
    unfold sendingTimeOutsideThreshold
    by_cases hempty : text = []
    · subst hempty
      simp [parseFixUtcTimestampNs, parseFixUtcInstant]
    · rw [if_neg (by simp [hempty]; omega)]
      cases parseFixUtcTimestampNs text <;> simp
  rw [hcases]
  simp only [parseFixUtcTimestampNs_eq_some_iff]
  constructor
  · rintro ⟨ns, ⟨instant, hdenotes, hns⟩, hfar⟩
    refine ⟨instant, hdenotes, ?_⟩
    unfold Beyond
    rw [hns]
    unfold kNanosPerSecond at hfar
    omega
  · rintro ⟨instant, hdenotes, hnonneg, hfar⟩
    refine ⟨(instant.bmod (2 ^ 64)).toNat, ⟨instant, hdenotes, by omega⟩, ?_⟩
    unfold kNanosPerSecond
    generalize instant.bmod (2 ^ 64) = epochNs at hnonneg hfar ⊢
    omega

theorem Denotes.unique {i j : Int} (hi : Denotes text i) (hj : Denotes text j) : i = j := by
  rw [← parseFixUtcInstant_eq_some_iff] at hi hj
  exact Option.some.inj (hi.symm.trans hj)

/-- The answer about the threshold is the right one for every clock if and only if the instant of
the text, if it has one, is before the end of the signed 64-bit range and an instant before 1970
is still before 1970 when it is cut to that range. -/
theorem sendingTime_judged_iff (text : Bytes) :
    (∀ clockNs thresholdSeconds : Nat, clockNs < 2 ^ 64 → 0 < thresholdSeconds →
      thresholdSeconds < 2 ^ 32 →
      (sendingTimeOutsideThreshold text clockNs thresholdSeconds = true ↔
        ∃ instant, Denotes text instant ∧ Beyond instant clockNs thresholdSeconds)) ↔
    ∀ instant, Denotes text instant →
      instant < 2 ^ 63 ∧ (instant < 0 → instant.bmod (2 ^ 64) < 0) := by
  have hone : ∀ {P : Int → Prop} {instant : Int}, Denotes text instant →
      ((∃ i, Denotes text i ∧ P i) ↔ P instant) := by
    intro P instant h
    constructor
    · rintro ⟨i, hi, hP⟩
      rwa [h.unique hi]
    · exact fun hP => ⟨instant, h, hP⟩
  constructor
  · intro h instant hinstant
    have hanswer : ∀ clock threshold : Nat, clock < 2 ^ 64 → 0 < threshold → threshold < 2 ^ 32 →
        (Beyond (instant.bmod (2 ^ 64)) clock threshold ↔ Beyond instant clock threshold) := by
      intro clock threshold hc hp ht
      have hclock := h clock threshold hc hp ht
      rwa [sendingTimeOutsideThreshold_iff hp, hone hinstant, hone hinstant] at hclock
    have hlow := Int.le_bmod (x := instant) (m := 2 ^ 64) (by decide)
    have hhigh := Int.bmod_lt (x := instant) (m := 2 ^ 64) (by decide)
    have hmod := Int.bmod_add_bdiv instant (2 ^ 64)
    generalize instant.bmod (2 ^ 64) = cut at *
    generalize instant.bdiv (2 ^ 64) = turns at hmod
    unfold Beyond at hanswer
    -- a clock at the cut instant sees the far future near, one far from it the past in the future
    refine ⟨?_, fun hpast => ?_⟩
    · by_contra hfuture
      have hnear := hanswer cut.toNat 1 (by omega) (by decide) (by decide)
      omega
    · by_contra hcut
      have hfar := hanswer (if cut < 2 ^ 62 then 2 ^ 63 else 0) 1 (by split <;> decide) (by decide)
        (by decide)
      split at hfar <;> omega
  · intro h clock threshold hc hp ht
    rw [sendingTimeOutsideThreshold_iff hp]
    refine exists_congr fun instant => and_congr_right fun hinstant => ?_
    obtain ⟨hlt, hneg⟩ := h instant hinstant
    by_cases hpast : instant < 0
    · have hcut := hneg hpast
      unfold Beyond
      omega
    · have hcut : instant.bmod (2 ^ 64) = instant := by
        rw [Int.bmod_eq_of_le] <;> omega
      rw [hcut]

/-- A time of the year 2608. -/
def farText : Bytes := ascii "26080604-21:47:53.709551616"

/-- It is taken for the clock's own time, which is one of the year 2023. -/
theorem far_future_taken_for_now :
    Denotes farText 20146744073709551616 ∧ Beyond 20146744073709551616 1700000000000000000 30 ∧
      sendingTimeOutsideThreshold farText 1700000000000000000 30 = false := by
  refine ⟨parseFixUtcInstant_eq_some_iff.1 (by decide +kernel), ?_, by decide +kernel⟩
  unfold Beyond
  decide +kernel

/-! ## Reading what is written -/

def TimestampResolution.digits : TimestampResolution → Nat
  | .seconds => 0
  | .milliseconds => 3
  | .microseconds => 6
  | .nanoseconds => 9

/-- The text of a clock reading from 1970 to 2262 is read back, cut to the resolution. -/
theorem parse_utcTimestamp (r : TimestampResolution) {t : UtcTime}
    (ht : t.Valid 9) (hpast : 0 ≤ t.instant) (hfits : t.instant < 2 ^ 63) :
    parseFixUtcTimestampNs (utcTimestamp r t) =
      some (t.instant.toNat - t.nanos % 10 ^ (9 - r.digits)) := by
  obtain ⟨_, hlt, hnanos⟩ := ht.nanos
  have hrest := Nat.mod_le t.nanos (10 ^ (9 - r.digits))
  have hnonneg : (t.nanos % 10 ^ (9 - r.digits) : Nat) ≤ t.instant := by
    unfold UtcTime.instant at hpast ⊢
    omega
  refine parseFixUtcTimestampNs_eq_some_iff.2 ⟨t.instant - (t.nanos % 10 ^ (9 - r.digits) : Nat),
    ⟨{ t with nanos := t.nanos / 10 ^ (9 - r.digits) * 10 ^ (9 - r.digits) }, r.digits,
      { ht with nanos := ⟨_, ?_, rfl⟩, digits := ?_ }, ?_, ?_⟩, ?_⟩
  · cases r <;> simp only [TimestampResolution.digits] <;> omega
  · cases r <;> decide
  · cases r <;> simp [utcTimestamp, timeText, fractionDigits, TimestampResolution.digits, ascii]
  · simp only [UtcTime.instant]
    cases r <;> simp only [TimestampResolution.digits] <;> omega
  · rw [Int.bmod_eq_of_le] <;> omega

theorem parse_utcTimestamp_millis :
    parseFixUtcTimestampNs (utcTimestamp .milliseconds ⟨2026, 1, 2, 3, 4, 5, 678901234⟩) =
      some 1767323045678000000 :=
  (parse_utcTimestamp .milliseconds ⟨by decide, by decide, by decide, by decide, by decide, by decide,
    ⟨678901234, by decide, rfl⟩, by decide⟩ (by decide +kernel) (by decide +kernel)).trans
      (by decide +kernel)

end NimbleFix
