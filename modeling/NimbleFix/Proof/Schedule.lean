import NimbleFix.Runtime.Schedule

/-!
# The next opening of a schedule

A window is open at the seconds of its cycle, a day or a week, from its start up to its close, so
its next opening is the start at the least distance in the cycle. `nextWindowStart` finds it as long
as it is an instant: past the last 64-bit instant the product overflows.
-/

namespace NimbleFix

namespace SessionWindowSpec

/-- The times are times of a day, and the window is daily or weekly at both ends. -/
structure Valid (w : SessionWindowSpec) : Prop where
  startSecond : w.startSecond < 86400
  endSecond : w.endSecond < 86400
  days : w.startDay.isSome = w.endDay.isSome

def cycle (w : SessionWindowSpec) : Nat := if w.startDay.isSome then 604800 else 86400

/-- The second of its week or day at which 1970 begins. -/
def offset (w : SessionWindowSpec) : Nat := if w.startDay.isSome then 345600 else 0

/-- The position of an instant in the cycle. -/
def phase (w : SessionWindowSpec) (t : Nat) : Nat := (t / 1000000000 + w.offset) % w.cycle

variable {w : SessionWindowSpec}

theorem current_eq_phase (t : Nat) : w.current (buildCalendarPoint t) = w.phase t := by
  cases h : w.startDay with
  | none => simp [current, buildCalendarPoint, phase, offset, cycle, h, kNanosecondsPerSecond,
      kSecondsPerDay]
  | some d =>
    simp only [current, buildCalendarPoint, phase, offset, cycle, h, kNanosecondsPerSecond,
      kSecondsPerDay, Option.isSome_some, if_true]
    omega

theorem isWithinWindow_iff (t : Nat) : w.isWithinWindow t = true ↔
    w.start = w.close ∨ (w.start < w.close ∧ w.start ≤ w.phase t ∧ w.phase t < w.close) ∨
      (w.close < w.start ∧ (w.start ≤ w.phase t ∨ w.phase t < w.close)) := by
  simp only [isWithinWindow, current_eq_phase]
  split
  · simp [*]
  · split
    · simp only [Bool.and_eq_true, decide_eq_true_eq]
      omega
    · simp only [Bool.or_eq_true, decide_eq_true_eq]
      omega

theorem Valid.bounds (hw : w.Valid) : w.start < w.cycle ∧ w.close < w.cycle := by
  have h₁ := hw.startSecond
  have h₂ := hw.endSecond
  have h₃ := hw.days
  unfold start close cycle kSecondsPerDay
  cases hs : w.startDay with
  | none =>
    cases he : w.endDay with
    | none => simp; omega
    | some e => simp [hs, he] at h₃
  | some d =>
    cases he : w.endDay with
    | none => simp [hs, he] at h₃
    | some e =>
      simp only [Option.elim_some, Option.isSome_some, if_true]
      omega

theorem cycle_cases (w : SessionWindowSpec) : w.cycle = 86400 ∨ w.cycle = 604800 := by
  unfold cycle
  split
  · exact .inr rfl
  · exact .inl rfl

/-- The seconds until the window next starts, of a time at which it is closed. -/
def distance (w : SessionWindowSpec) (t : Nat) : Nat :=
  if w.phase t < w.start then w.start - w.phase t else w.start + w.cycle - w.phase t

/-- The next start, as a number that need not be an instant. -/
def opening (w : SessionWindowSpec) (t : Nat) : Nat :=
  (t / 1000000000 + w.distance t) * 1000000000

theorem phase_lt (w : SessionWindowSpec) (t : Nat) : w.phase t < w.cycle :=
  Nat.mod_lt _ (by rcases w.cycle_cases with h | h <;> omega)

theorem phase_add {t u : Nat} (h : t / 1000000000 ≤ u / 1000000000) :
    w.phase u = (w.phase t + (u / 1000000000 - t / 1000000000)) % w.cycle := by
  unfold phase
  rw [Nat.mod_add_mod]
  congr 1
  omega

/-- Less than a cycle later, the position has passed the end of the cycle at most once. -/
theorem phase_cases {t u : Nat} (h : t / 1000000000 ≤ u / 1000000000)
    (hu : u / 1000000000 - t / 1000000000 ≤ w.cycle) :
    w.phase u + t / 1000000000 = w.phase t + u / 1000000000 ∨
      w.phase u + t / 1000000000 + w.cycle = w.phase t + u / 1000000000 := by
  have hp := w.phase_lt t
  rw [phase_add h]
  generalize w.phase t = p at hp ⊢
  rcases w.cycle_cases with h | h <;> rw [h] at hp hu ⊢ <;> omega

theorem opening_least (hw : w.Valid) {t : Nat} (ht : ¬w.isWithinWindow t = true) :
    t < w.opening t ∧ w.isWithinWindow (w.opening t) = true ∧
      ∀ u, t ≤ u → u < w.opening t → ¬w.isWithinWindow u = true := by
  obtain ⟨hs, hc⟩ := hw.bounds
  have hp := w.phase_lt t
  have hd : w.phase t + w.distance t = w.start ∧ w.phase t < w.start ∨
      w.phase t + w.distance t = w.start + w.cycle ∧ w.start ≤ w.phase t := by
    unfold distance
    split <;> omega
  have hsec : w.opening t / 1000000000 = t / 1000000000 + w.distance t := by
    unfold opening
    omega
  simp only [isWithinWindow_iff] at ht ⊢
  refine ⟨by omega, ?_, fun u htu hu => ?_⟩
  · have := phase_cases (w := w) (t := t) (u := w.opening t) (by omega) (by omega)
    have := w.phase_lt (w.opening t)
    omega
  · have hle : t / 1000000000 ≤ u / 1000000000 := Nat.div_le_div_right htu
    have hlt : u / 1000000000 < t / 1000000000 + w.distance t := by
      unfold opening at hu
      omega
    have := phase_cases (w := w) hle (by omega)
    have := w.phase_lt u
    omega

/-! ## The search for it -/

/-- `makeUnixTimeNs` on the start: exact, unless it is past the last instant, when the overflow
gives a time of the first days of 1970. -/
theorem makeUnixTimeNs_cases (day : Nat) {second t : Nat} (ht : t < 2 ^ 64) (hs : second < 86400)
    (hd : day ≤ t / 86400000000000 + 14) :
    (day * 86400 + second) * 1000000000 < 2 ^ 64 ∧
        makeUnixTimeNs day second = (day * 86400 + second) * 1000000000 ∨
      2 ^ 64 ≤ (day * 86400 + second) * 1000000000 ∧ makeUnixTimeNs day second < t := by
  unfold makeUnixTimeNs wrap64 kSecondsPerDay kNanosecondsPerSecond
  generalize hv : (day * 86400 + second) * 1000000000 = v
  have hle : v ≤ t + 1296000000000000 := by omega
  by_cases h : v < 2 ^ 64
  · exact .inl ⟨h, Nat.mod_eq_of_lt h⟩
  · rw [Nat.mod_eq_sub_mod (by omega), Nat.mod_eq_of_lt (by omega)]
    omega

/-- The search from a day on: its start, or the one `step` days later if that has passed. -/
theorem search_spec (day : Nat) {second step t next : Nat} (ht : t < 2 ^ 64) (hs : second < 86400)
    (hd : day + step ≤ t / 86400000000000 + 14)
    (hnext : t / 1000000000 < day * 86400 + second ∧ next = day * 86400 + second ∨
      day * 86400 + second ≤ t / 1000000000 ∧ next = (day + step) * 86400 + second) :
    ∃ r, (if makeUnixTimeNs day second ≤ t then some (makeUnixTimeNs (day + step) second)
        else some (makeUnixTimeNs day second)) = some r ∧
      (next * 1000000000 < 2 ^ 64 → r = next * 1000000000) ∧
      (2 ^ 64 ≤ next * 1000000000 → r < t) := by
  have h₁ := makeUnixTimeNs_cases day ht hs (by omega)
  have h₂ := makeUnixTimeNs_cases (day + step) ht hs hd
  split
  · refine ⟨_, rfl, ?_⟩
    omega
  · refine ⟨_, rfl, ?_⟩
    omega

theorem nextWindowStart_of_closed (hw : w.Valid) {t : Nat} (ht : t < 2 ^ 64)
    (hout : ¬w.isWithinWindow t = true) :
    ∃ r, w.nextWindowStart t = some r ∧ (w.opening t < 2 ^ 64 → r = w.opening t) ∧
      (2 ^ 64 ≤ w.opening t → r < t) := by
  have hs := hw.startSecond
  have hday : t / 1000000000 / 86400 = t / 86400000000000 := Nat.div_div_eq_div_mul ..
  unfold nextWindowStart
  rw [if_neg hout]
  cases hd : w.startDay with
  | none =>
    refine search_spec (t / 1000000000 / 86400) ht hs (by omega) ?_
    simp only [distance, phase, start, offset, cycle, hd, Option.elim_none, Option.isSome_none,
      Bool.false_eq_true, if_false]
    split <;> omega
  | some d =>
    refine search_spec (t / 1000000000 / 86400 +
      (if d.val < (t / 1000000000 / 86400 + 4) % 7
        then d.val + 7 - (t / 1000000000 / 86400 + 4) % 7
        else d.val - (t / 1000000000 / 86400 + 4) % 7)) ht hs (by split <;> omega) ?_
    simp only [distance, phase, start, offset, cycle, hd, Option.elim_some, Option.isSome_some,
      if_true, kSecondsPerDay]
    repeat' split
    all_goals omega

/-- The search is exact, or gives a time before `t` if the window does not open again. -/
theorem nextWindowStart_spec (hw : w.Valid) {t : Nat} (ht : t < 2 ^ 64) :
    ∃ r, w.nextWindowStart t = some r ∧
      (t ≤ r ∧ r < 2 ^ 64 ∧ w.isWithinWindow r = true ∧
          (∀ u, t ≤ u → u < r → ¬w.isWithinWindow u = true) ∨
        r < t ∧ ∀ u, t ≤ u → u < 2 ^ 64 → ¬w.isWithinWindow u = true) := by
  by_cases hin : w.isWithinWindow t = true
  · refine ⟨t, if_pos hin, .inl ⟨Nat.le_refl t, ht, hin, fun u _ _ => ?_⟩⟩
    omega
  · obtain ⟨hlt, hopen, hclosed⟩ := opening_least hw hin
    obtain ⟨r, hr, hexact, hover⟩ := nextWindowStart_of_closed hw ht hin
    refine ⟨r, hr, ?_⟩
    by_cases h : w.opening t < 2 ^ 64
    · cases hexact h
      exact .inl ⟨Nat.le_of_lt hlt, h, hopen, hclosed⟩
    · exact .inr ⟨hover (by omega), fun u htu hu => hclosed u htu (by omega)⟩

end SessionWindowSpec

/-! ## Several windows -/

theorem secondsOfDay_lt {t : SessionTimeOfDay} (h : isValidTimeOfDay t = true) :
    secondsOfDay t < 86400 := by
  simp only [isValidTimeOfDay, Bool.and_eq_true, decide_eq_true_eq] at h
  unfold secondsOfDay
  omega

theorem valid_of_validateTimePair {label : String} {f : WindowFields} {w : SessionWindowSpec}
    (h : validateTimePair label f = .ok ()) (hw : f.spec = some w) : w.Valid := by
  unfold WindowFields.spec at hw
  split at hw
  · rename_i s e hs he
    cases hw
    simp only [validateTimePair, hs, he] at h
    repeat' split at h
    all_goals try cases h
    rename_i hdays _ hstart hclose
    exact ⟨secondsOfDay_lt (by simpa using hstart), secondsOfDay_lt (by simpa using hclose),
      by simpa using hdays⟩
  · cases hw

theorem valid_of_buildWindowSpec {s : SessionScheduleSegment} {logonWindow : Bool}
    {w : SessionWindowSpec} {l₁ l₂ : String} (h₁ : validateTimePair l₁ s.session = .ok ())
    (h₂ : validateTimePair l₂ s.logon = .ok ()) (hw : buildWindowSpec s logonWindow = some w) :
    w.Valid := by
  unfold buildWindowSpec at hw
  split at hw
  · exact valid_of_validateTimePair h₂ hw
  · split at hw
    · cases hw
    · exact valid_of_validateTimePair h₁ hw

theorem valid_of_segments {logonWindow : Bool} : ∀ {segments : List SessionScheduleSegment},
    segments.forM validateSegment = .ok () →
      ∀ w ∈ segments.filterMap (buildWindowSpec · logonWindow), w.Valid
  | [], _, _, hw => by cases hw
  | s :: segments, h, w, hw => by
    obtain ⟨_, hs, hrest⟩ := exceptBind_ok h
    obtain ⟨_, h₁, h₂⟩ := exceptBind_ok hs
    rw [List.filterMap_cons] at hw
    split at hw
    · exact valid_of_segments hrest w hw
    · rename_i v hv
      rcases List.mem_cons.mp hw with rfl | hw
      · exact valid_of_buildWindowSpec h₁ h₂ hv
      · exact valid_of_segments hrest w hw

theorem valid_of_buildWindowSpecs {c : SessionScheduleConfig}
    (hc : validateSessionSchedule c = .ok ()) (logonWindow : Bool) :
    ∀ w ∈ buildWindowSpecs c logonWindow, w.Valid := by
  intro w hw
  unfold buildWindowSpecs at hw
  unfold validateSessionSchedule at hc
  split at hw
  · cases hw
  · split at hw
    · rename_i hseg
      rw [if_pos hseg] at hc
      repeat' split at hc
      all_goals first | cases hc | exact valid_of_segments hc w hw
    · rename_i hseg
      rw [if_neg hseg] at hc
      split at hc
      · cases hc
      · obtain ⟨_, h₁, h₂⟩ := exceptBind_ok hc
        exact valid_of_buildWindowSpec h₁ h₂ (Option.mem_toList.mp hw)

theorem foldl_earlier {t : Nat} {r : SessionWindowSpec → Nat} : ∀ {l : List SessionWindowSpec}
    {x : Nat}, (∀ w ∈ l, w.nextWindowStart t = some (r w)) →
    l.foldl (fun e w => earlier e (w.nextWindowStart t)) (some x) = some ((l.map r).foldl min x)
  | [], _, _ => rfl
  | w :: l, x, h => by
    have hstep : earlier (some x) (w.nextWindowStart t) = some (min x (r w)) := by
      rw [h w List.mem_cons_self]
      simp only [earlier, Option.all_some, decide_eq_true_eq]
      split <;> simp <;> omega
    rw [List.foldl_cons, hstep, foldl_earlier fun v hv => h v (List.mem_cons_of_mem w hv)]
    rfl

theorem earliestWindowStart_eq_min {t : Nat} {r : SessionWindowSpec → Nat}
    {windows : List SessionWindowSpec} (hne : windows ≠ [])
    (h : ∀ w ∈ windows, w.nextWindowStart t = some (r w)) :
    earliestWindowStart windows t = (windows.map r).min? := by
  obtain ⟨w, l, rfl⟩ := List.exists_cons_of_ne_nil hne
  have hfirst : earlier none (w.nextWindowStart t) = some (r w) := by
    rw [h w List.mem_cons_self]
    rfl
  rw [earliestWindowStart, if_neg hne, List.foldl_cons, hfirst,
    foldl_earlier fun v hv => h v (List.mem_cons_of_mem w hv)]
  rfl

/-- The result `r` of a search is the least instant from `t` on at which `within` holds. -/
def IsNextOpening (within : Nat → Bool) (t : Nat) (r : Option Nat) : Prop :=
  ∃ t', r = some t' ∧ t ≤ t' ∧ t' < 2 ^ 64 ∧ within t' = true ∧
    ∀ u, t ≤ u → u < t' → within u = false

theorem earliestWindowStart_iff {windows : List SessionWindowSpec} (hw : ∀ w ∈ windows, w.Valid)
    {t : Nat} (ht : t < 2 ^ 64) :
    IsNextOpening (isWithinWindows windows) t (earliestWindowStart windows t) ↔
      ∀ w ∈ windows, ∃ u, t ≤ u ∧ u < 2 ^ 64 ∧ w.isWithinWindow u = true := by
  by_cases hne : windows = []
  · subst hne
    refine iff_of_true ⟨t, rfl, Nat.le_refl t, ht, rfl, fun u _ _ => ?_⟩ (by simp)
    omega
  choose! r hr hspec using fun w hmem => SessionWindowSpec.nextWindowStart_spec (hw w hmem) ht
  have hmin := earliestWindowStart_eq_min hne hr
  constructor
  · rintro ⟨m, hm, htm, -, -, -⟩ w hmem
    have hle := (List.min?_eq_some_iff.mp (hmin ▸ hm)).2 _ (List.mem_map_of_mem hmem)
    rcases hspec w hmem with ⟨htr, hlt, hopen, -⟩ | ⟨hlt, -⟩
    · exact ⟨r w, htr, hlt, hopen⟩
    · omega
  · intro hopens
    have hnext : ∀ w ∈ windows, t ≤ r w ∧ r w < 2 ^ 64 ∧ w.isWithinWindow (r w) = true ∧
        ∀ u, t ≤ u → u < r w → ¬w.isWithinWindow u = true := by
      intro w hmem
      refine (hspec w hmem).resolve_right fun h => ?_
      obtain ⟨u, htu, hu, hopen⟩ := hopens w hmem
      exact h.2 u htu hu hopen
    obtain ⟨m, hm⟩ := Option.isSome_iff_exists.mp
      (show (windows.map r).min?.isSome by simpa using hne)
    obtain ⟨hmem, hle⟩ := List.min?_eq_some_iff.mp hm
    obtain ⟨w, hwmem, rfl⟩ := List.mem_map.mp hmem
    obtain ⟨htr, hlt, hopen, -⟩ := hnext w hwmem
    refine ⟨r w, hmin.trans hm, htr, hlt, ?_, fun u htu hu => ?_⟩
    · simp only [isWithinWindows, Bool.or_eq_true, List.any_eq_true]
      exact .inr ⟨w, hwmem, hopen⟩
    · simp only [isWithinWindows, Bool.or_eq_false_iff, List.isEmpty_eq_false_iff,
        List.any_eq_false]
      exact ⟨hne, fun v hv =>
        (hnext v hv).2.2.2 u htu (Nat.lt_of_lt_of_le hu (hle _ (List.mem_map_of_mem hv)))⟩

/-- The next window start is the least instant at which the schedule is open if and only if every
window of the schedule opens again before the end of the 64-bit clock. -/
theorem next_window_start_least_iff {c : SessionScheduleConfig}
    (hc : validateSessionSchedule c = .ok ()) {t : Nat} (ht : t < 2 ^ 64) :
    (IsNextOpening (isWithinLogonWindow c) t (nextLogonWindowStart c t) ↔
      ∀ w ∈ buildWindowSpecs c true, ∃ u, t ≤ u ∧ u < 2 ^ 64 ∧ w.isWithinWindow u = true) ∧
    (IsNextOpening (isWithinSessionWindow c) t (nextSessionWindowStart c t) ↔
      ∀ w ∈ buildWindowSpecs c false, ∃ u, t ≤ u ∧ u < 2 ^ 64 ∧ w.isWithinWindow u = true) :=
  ⟨earliestWindowStart_iff (valid_of_buildWindowSpecs hc true) ht,
    earliestWindowStart_iff (valid_of_buildWindowSpecs hc false) ht⟩

/-- Every day from ten to eleven. -/
def morningSchedule : SessionScheduleConfig :=
  { session := { startTime := some ⟨10, 0, 0⟩, endTime := some ⟨11, 0, 0⟩ } }

theorem next_window_start_least_morning :
    IsNextOpening (isWithinLogonWindow morningSchedule) 0 (nextLogonWindowStart morningSchedule 0) ∧
      nextLogonWindowStart morningSchedule 0 = some 36000000000000 := by
  refine ⟨(next_window_start_least_iff (c := morningSchedule) rfl (by decide)).1.mpr ?_,
    by decide +kernel⟩
  intro w hw
  exact ⟨36000000000000, by decide, by decide, by cases hw <;> trivial⟩

/-- In the last night of the 64-bit clock the next start is a morning of January 1970. -/
theorem next_window_start_before_now : validateSessionSchedule morningSchedule = .ok () ∧
    nextSessionWindowStart morningSchedule (2 ^ 64 - 1) = some 37526290448384 ∧
    ¬IsNextOpening (isWithinSessionWindow morningSchedule) (2 ^ 64 - 1)
      (nextSessionWindowStart morningSchedule (2 ^ 64 - 1)) := by
  have h : nextSessionWindowStart morningSchedule (2 ^ 64 - 1) = some 37526290448384 := by
    decide +kernel
  refine ⟨rfl, h, ?_⟩
  rintro ⟨t', ht', hle, -⟩
  rw [h] at ht'
  cases ht'
  omega

end NimbleFix
