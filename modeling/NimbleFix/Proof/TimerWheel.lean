import NimbleFix.Runtime.TimerWheel

/-!
# The timer wheel is a map of deadlines

`Tracks n w m`: after at most `n` calls the active entries of the heap are the deadlines of `m`. An
entry that is not active can leave the heap at any time, and taking the generation of a timer away
makes its entries so. Generations are not taken twice while there are fewer than `2 ^ 64` calls.
-/

namespace NimbleFix

open TimerWheel

structure Tracks (n : Nat) (w : TimerWheel) (m : Nat → Option Nat) : Prop where
  isHeap : IsHeap HeapEntry.deadlineNs w.heap
  fresh : ∀ e ∈ w.heap, e.generation < w.nextGeneration
  calls : w.nextGeneration ≤ n
  deadlines : ∀ id deadline, m id = some deadline ↔
    ∃ e ∈ w.heap, w.isActive e ∧ e.timerId = id ∧ e.deadlineNs = deadline

/-- The cached deadline is before every entry, stale ones included. -/
def EntryFor (w : TimerWheel) : Prop :=
  ∀ e ∈ w.heap, ∃ d, w.earliestDeadline = some d ∧ d ≤ e.deadlineNs

variable (std : HeapAlgorithms HeapEntry HeapEntry.deadlineNs) {n : Nat} {w : TimerWheel}
  {m : Nat → Option Nat}

theorem isActive_iff {e : HeapEntry} :
    w.isActive e ↔ w.activeGeneration e.timerId = some e.generation := by
  simp [isActive]

/-! ## The operations -/

theorem Tracks.cancel (h : Tracks n w m) (id : Nat) :
    Tracks n (w.cancel id) (Function.update m id none) := by
  refine ⟨h.isHeap, h.fresh, h.calls, fun id' deadline => ?_⟩
  have hactive : ∀ e : HeapEntry, (w.cancel id).isActive e ↔ e.timerId ≠ id ∧ w.isActive e := by
    intro e
    simp only [isActive_iff, TimerWheel.cancel]
    by_cases he : e.timerId = id
    · simp [he]
    · simp [he, Function.update_of_ne]
  by_cases hid : id' = id
  · subst hid
    simp only [Function.update_self, hactive]
    constructor
    · rintro ⟨⟩
    · rintro ⟨e, -, ⟨hne, -⟩, heq, -⟩
      exact absurd heq hne
  · rw [Function.update_of_ne hid, h.deadlines]
    simp only [hactive]
    constructor
    · rintro ⟨e, he, hact, rfl, hd⟩
      exact ⟨e, he, ⟨hid, hact⟩, rfl, hd⟩
    · rintro ⟨e, he, ⟨-, hact⟩, hid', hd⟩
      exact ⟨e, he, hact, hid', hd⟩

theorem Tracks.popTop (h : Tracks n w m) {top : HeapEntry} {rest : List HeapEntry}
    (hw : w.heap = top :: rest) (hstale : ¬w.isActive top) :
    Tracks n (w.popTop std) m ∧ (w.popTop std).heap.length = rest.length := by
  obtain ⟨heap, hpop, hheap, hperm⟩ := std.popHeap_spec top rest (hw ▸ h.isHeap)
  have hnew : (w.popTop std).heap = heap := by
    simp [TimerWheel.popTop, hw, hpop]
  have hmem : ∀ e, e ∈ w.heap ↔ e = top ∨ e ∈ heap := by simp [hw, hperm.mem_iff]
  refine ⟨⟨hnew ▸ hheap, fun e he => h.fresh e ((hmem e).2 (.inr (hnew ▸ he))), h.calls,
    fun id d => ?_⟩, by rw [hnew, hperm.length_eq]⟩
  rw [h.deadlines, hnew]
  constructor
  · rintro ⟨e, he, hact, hid⟩
    rcases (hmem e).1 he with rfl | he
    · exact absurd hact hstale
    · exact ⟨e, he, hact, hid⟩
  · rintro ⟨e, he, hact, hid⟩
    exact ⟨e, (hmem e).2 (.inr he), hact, hid⟩

theorem Tracks.schedule (h : Tracks n w m) (hn : n + 1 < 2 ^ 64) (id deadline : Nat) :
    Tracks (n + 1) (w.schedule std id deadline) (Function.update m id (some deadline)) := by
  have hcalls := h.calls
  have hnext : (w.schedule std id deadline).nextGeneration = w.nextGeneration + 1 :=
    Nat.mod_eq_of_lt (by omega)
  obtain ⟨hheap, hperm⟩ :=
    std.pushHeap_spec w.heap ⟨deadline, id, w.nextGeneration⟩ h.isHeap
  have hmem : ∀ e, e ∈ (w.schedule std id deadline).heap ↔
      e ∈ w.heap ∨ e = ⟨deadline, id, w.nextGeneration⟩ := by
    intro e
    rw [TimerWheel.schedule, hperm.mem_iff]
    simp
  have hactive : ∀ e ∈ w.heap, (w.schedule std id deadline).isActive e ↔
      e.timerId ≠ id ∧ w.isActive e := by
    intro e he
    have := h.fresh e he
    simp only [isActive_iff, TimerWheel.schedule]
    by_cases hid : e.timerId = id
    · simp [hid]
      omega
    · simp [hid, Function.update_of_ne]
  refine ⟨hheap, fun e he => ?_, by omega, fun id' deadline' => ?_⟩
  · rw [hnext]
    rcases (hmem e).1 he with he | rfl
    · exact Nat.lt_succ_of_lt (h.fresh e he)
    · exact Nat.lt_succ_self _
  · have hnew : (w.schedule std id deadline).isActive ⟨deadline, id, w.nextGeneration⟩ := by
      simp [isActive_iff, TimerWheel.schedule]
    by_cases hid : id' = id
    · subst hid
      rw [Function.update_self]
      constructor
      · rintro ⟨⟩
        exact ⟨_, (hmem _).2 (.inr rfl), hnew, rfl, rfl⟩
      · rintro ⟨e, he, hact, hid', rfl⟩
        rcases (hmem e).1 he with he | rfl
        · exact absurd hid' ((hactive e he).1 hact).1
        · rfl
    · rw [Function.update_of_ne hid, h.deadlines]
      constructor
      · rintro ⟨e, he, hact, rfl, hd⟩
        exact ⟨e, (hmem e).2 (.inl he), (hactive e he).2 ⟨hid, hact⟩, rfl, hd⟩
      · rintro ⟨e, he, hact, rfl, hd⟩
        rcases (hmem e).1 he with he | rfl
        · exact ⟨e, he, ((hactive e he).1 hact).2, rfl, hd⟩
        · exact absurd rfl hid

theorem Tracks.none_due (h : Tracks n w m) {now : Nat} (hlate : ∀ e ∈ w.heap, now < e.deadlineNs) :
    ([] : List Nat).Nodup ∧ (∀ id, id ∈ [] ↔ ∃ d, m id = some d ∧ d ≤ now) ∧
      Tracks n w fun id => (m id).filter (now < ·) := by
  have hm : ∀ id d, m id = some d → now < d := by
    intro id d hd
    obtain ⟨e, he, -, -, rfl⟩ := (h.deadlines id d).1 hd
    exact hlate e he
  have hfilter : (fun id => (m id).filter (now < ·)) = m := by
    funext id
    cases hid : m id with
    | none => rfl
    | some d => simp [hm id d hid]
  refine ⟨.nil, fun id => ⟨by simp, ?_⟩, by rw [hfilter]; exact h⟩
  rintro ⟨d, hd, hle⟩
  have := hm id d hd
  omega

theorem popLoop_tracks (now : Nat) : ∀ {fuel : Nat} {w : TimerWheel} {m : Nat → Option Nat},
    Tracks n w m → w.heap.length ≤ fuel →
    (popLoop std now fuel w).1.Nodup ∧
      (∀ id, id ∈ (popLoop std now fuel w).1 ↔ ∃ d, m id = some d ∧ d ≤ now) ∧
      Tracks n (popLoop std now fuel w).2 fun id => (m id).filter (now < ·)
  | 0, w, m, h, hfuel => by
    have hnil := List.eq_nil_of_length_eq_zero (Nat.le_zero.1 hfuel)
    exact h.none_due (by simp [hnil])
  | fuel + 1, w, m, h, hfuel => by
    unfold popLoop
    cases hw : w.heap with
    | nil => exact h.none_due (by simp [hw])
    | cons top rest =>
      have hlen : rest.length ≤ fuel := by simpa [hw] using hfuel
      dsimp only
      split
      · refine h.none_due fun e he => ?_
        have := IsHeap.first_le (hw ▸ h.isHeap) e (hw ▸ he)
        omega
      split
      · -- the timer fires
        rename_i hdue hact
        have hid := (h.deadlines top.timerId top.deadlineNs).2 ⟨top, by simp [hw], hact, rfl, rfl⟩
        obtain ⟨hpop, hsize⟩ := (h.cancel top.timerId).popTop std hw
          (by simp [isActive_iff, TimerWheel.cancel])
        obtain ⟨hnodup, hmem, htracks⟩ := popLoop_tracks now hpop (hsize ▸ hlen)
        have hdeadlines : ∀ id, (Function.update m top.timerId none id).filter (now < ·) =
            (m id).filter (now < ·) := by
          intro id
          by_cases he : id = top.timerId
          · simp [he, hid, Option.filter, hdue]
          · rw [Function.update_of_ne he]
        refine ⟨List.nodup_cons.2 ⟨fun hin => by simpa using (hmem _).1 hin, hnodup⟩,
          fun id => List.mem_cons.trans ((or_congr_right (hmem id)).trans ?_),
          funext hdeadlines ▸ htracks⟩
        by_cases he : id = top.timerId
        · simp [he, hid, Nat.le_of_not_lt hdue]
        · simp [he, Function.update_of_ne]
      · rename_i hstale
        obtain ⟨hpop, hsize⟩ := h.popTop std hw hstale
        exact popLoop_tracks now hpop (hsize ▸ hlen)

theorem purgeStaleTop_tracks : ∀ (fuel : Nat) {w : TimerWheel}, Tracks n w m →
    Tracks n (purgeStaleTop std fuel w) m
  | 0, _, h => h
  | fuel + 1, w, h => by
    unfold purgeStaleTop
    cases hw : w.heap with
    | nil => exact h
    | cons top rest =>
      dsimp only
      split
      · exact h
      · rename_i hstale
        exact purgeStaleTop_tracks fuel (h.popTop std hw hstale).1

theorem popExpired_tracks (h : Tracks n w m) (now : Nat) :
    (w.popExpired std now).1.Nodup ∧
      (∀ id, id ∈ (w.popExpired std now).1 ↔ ∃ d, m id = some d ∧ d ≤ now) ∧
      Tracks n (w.popExpired std now).2 (fun id => (m id).filter (now < ·)) ∧
      EntryFor (w.popExpired std now).2 := by
  obtain ⟨hnodup, hmem, htracks⟩ := popLoop_tracks std now h (Nat.le_refl _)
  have hpurged :=
    purgeStaleTop_tracks std (popLoop std now w.heap.length w).2.heap.length htracks
  refine ⟨hnodup, hmem, ⟨hpurged.isHeap, hpurged.fresh, hpurged.calls, hpurged.deadlines⟩, ?_⟩
  have hheap := hpurged.isHeap
  unfold EntryFor popExpired
  dsimp only
  revert hheap
  cases (purgeStaleTop std _ _).heap with
  | nil => simp
  | cons top rest => exact fun hheap e he => ⟨_, rfl, hheap.first_le e he⟩

/-! ## Runs -/

theorem schedule_covers (h : EntryFor w) (id deadline : Nat) (hheap : Tracks n w m) :
    EntryFor (w.schedule std id deadline) := by
  have hperm :=
    (std.pushHeap_spec w.heap ⟨deadline, id, w.nextGeneration⟩ hheap.isHeap).2
  intro e he
  change e ∈ std.pushHeap _ at he
  rw [hperm.mem_iff, List.mem_append, List.mem_singleton] at he
  unfold TimerWheel.schedule
  cases hd : w.earliestDeadline with
  | none =>
    rcases he with he | rfl
    · obtain ⟨d, hsome, -⟩ := h e he
      simp [hd] at hsome
    · exact ⟨deadline, by simp, Nat.le_refl _⟩
  | some d =>
    have hle : e ∈ w.heap → d ≤ e.deadlineNs := by
      intro he
      obtain ⟨d', hsome, hle⟩ := h e he
      obtain rfl : d = d' := by simpa [hd] using hsome
      exact hle
    by_cases hlt : deadline < d
    · refine ⟨deadline, by simp [hlt], ?_⟩
      rcases he with he | rfl
      · have := hle he
        omega
      · exact Nat.le_refl _
    · refine ⟨d, by simp [hlt], ?_⟩
      rcases he with he | rfl
      · exact hle he
      · exact Nat.le_of_not_lt hlt

theorem Tracks.succ (h : Tracks n w m) : Tracks (n + 1) w m :=
  ⟨h.isHeap, h.fresh, Nat.le_succ_of_le h.calls, h.deadlines⟩

theorem run_tracks (call : WheelCall) (h : Tracks n w m) (hc : EntryFor w) (hn : n + 1 < 2 ^ 64) :
    Tracks (n + 1) (call.run std w) (call.abstract m) ∧ EntryFor (call.run std w) := by
  cases call with
  | schedule id deadline =>
    exact ⟨h.schedule std hn id deadline, schedule_covers std hc id deadline h⟩
  | cancel id => exact ⟨(h.cancel id).succ, hc⟩
  | popExpired now =>
    obtain ⟨-, -, htracks, hentry⟩ := popExpired_tracks std h now
    exact ⟨htracks.succ, hentry⟩

theorem runAll_tracks : ∀ (calls : List WheelCall) {n : Nat} {w : TimerWheel} {m : Nat → Option Nat},
    Tracks n w m → EntryFor w → n + calls.length < 2 ^ 64 →
    Tracks (n + calls.length) (calls.foldl (WheelCall.run std) w)
        (calls.foldl WheelCall.abstract m) ∧
      EntryFor (calls.foldl (WheelCall.run std) w)
  | [], _, _, _, h, hc, _ => ⟨h, hc⟩
  | call :: calls, n, w, m, h, hc, hn => by
    rw [List.length_cons] at hn
    obtain ⟨h', hc'⟩ := run_tracks std call h hc (by omega)
    rw [List.length_cons, show n + (calls.length + 1) = n + 1 + calls.length by omega]
    exact runAll_tracks calls h' hc' (by omega)

/-- After any calls the wheel is the map of the deadlines: `PopExpired` gives every timer that is
due once and nothing else, and the next deadline is not past any that is there. -/
theorem timerWheel_refines_map (std : HeapAlgorithms HeapEntry HeapEntry.deadlineNs)
    (calls : List WheelCall) (hcalls : calls.length < 2 ^ 64) (now : Nat) :
    let wheel := calls.foldl (WheelCall.run std) {}
    let deadlines := calls.foldl WheelCall.abstract fun _ => none
    (wheel.popExpired std now).1.Nodup ∧
      (∀ id, id ∈ (wheel.popExpired std now).1 ↔ ∃ d, deadlines id = some d ∧ d ≤ now) ∧
      (∀ id d, deadlines id = some d → ∃ next, wheel.nextDeadline = some next ∧ next ≤ d) := by
  have hstart : Tracks 0 {} fun _ => none :=
    ⟨by simp [IsHeap], by simp, Nat.le_refl 0, by simp⟩
  obtain ⟨h, hc⟩ := runAll_tracks std calls hstart (by simp [EntryFor]) (by omega)
  obtain ⟨hnodup, hmem, -⟩ := popExpired_tracks std h now
  refine ⟨hnodup, hmem, fun id d hd => ?_⟩
  obtain ⟨e, he, -, -, rfl⟩ := (h.deadlines id d).1 hd
  exact hc e he

/-- A timer that is scheduled again is due at its new deadline only. -/
theorem timerWheel_refines_map_sorting :
    1 ∉ (([.schedule 1 50, .schedule 1 70].foldl
      (WheelCall.run (HeapAlgorithms.sorting HeapEntry.deadlineNs)) {}).popExpired
        (HeapAlgorithms.sorting HeapEntry.deadlineNs) 60).1 := by
  rw [(timerWheel_refines_map (HeapAlgorithms.sorting HeapEntry.deadlineNs)
    [.schedule 1 50, .schedule 1 70] (by decide) 60).2.1]
  simp [WheelCall.abstract]

end NimbleFix
