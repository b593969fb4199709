import Mathlib.Order.Interval.Finset.Nat
import NimbleFix.Base.SpscQueue

/-!
# The queue between two threads is a bounded FIFO

The indices are the numbers of finished pushes and pops modulo the number of slots. `Ring` says
this of a state and where its two threads can stand: the producer owns the slot after the filled
ones, the consumer the first filled one, and with one spare slot these are never the same.
-/

namespace NimbleFix

/-! ## Indices -/

theorem mod_ne_of_lt {i j n : Nat} (hij : i < j) (hj : j < i + n) : i % n ≠ j % n := fun h =>
  Nat.ne_of_lt hij (Nat.mod_injOn_Ico i n (by simp; omega) (by simp; omega) h)

variable {α : Type}

theorem SpscQueue.next_mod {q : SpscQueue α} (hpos : 0 < q.capacity) (hsize : q.capacity < 2 ^ 64)
    (i : Nat) : q.next (i % q.capacity) = (i + 1) % q.capacity := by
  have hlt := Nat.mod_lt i hpos
  have hwrap : wrap64 (i % q.capacity + 1) = i % q.capacity + 1 :=
    Nat.mod_eq_of_lt (by omega)
  unfold next
  rw [hwrap, ← Nat.mod_add_mod]
  split
  · rename_i heq
    rw [heq, Nat.mod_self]
  · exact (Nat.mod_eq_of_lt (by omega)).symm

/-! ## The invariant -/

/-- Where the producer can stand while `p` pushes and `c` pops are finished. -/
def PushPoint.Fits (q : SpscQueue α) (p c : Nat) : PushPoint α → Prop
  | idle => True
  | loaded _ head => head = q.head
  | writing _ head => head = q.head ∧ p + 1 < c + q.capacity
  | storing value head => head = q.head ∧ p + 1 < c + q.capacity ∧ q.slots[head]? = some value

/-- Where the consumer can stand; a value it has read is the one to be popped next. -/
def PopPoint.Fits (q : SpscQueue α) (pushed : List α) (c : Nat) : PopPoint α → Prop
  | idle => True
  | loaded tail => tail = q.tail
  | reading tail => tail = q.tail ∧ c < pushed.length
  | storing tail value => tail = q.tail ∧ pushed[c]? = some value

/-- The consumer has emptied the slot it stands at. -/
def PopPoint.HasRead : PopPoint α → Prop
  | storing _ _ => True
  | _ => False

theorem PushPoint.Fits.of_slot {q : SpscQueue α} {p c i : Nat} {point : PushPoint α}
    (h : point.Fits q p c) (hi : i ∈ point.slot) : i = q.head ∧ p + 1 < c + q.capacity := by
  cases point <;> cases hi
  · exact h
  · exact ⟨h.1, h.2.1⟩

theorem PopPoint.Fits.of_slot {q : SpscQueue α} {pushed : List α} {c i : Nat} {point : PopPoint α}
    (h : point.Fits q pushed c) (hi : i ∈ point.slot) : i = q.tail ∧ c < pushed.length := by
  cases point <;> cases hi
  · exact h
  · exact ⟨h.1, (List.getElem?_eq_some_iff.1 h.2).1⟩

structure Ring (q : SpscQueue α) (pushed popped : List α) (producer : PushPoint α)
    (consumer : PopPoint α) : Prop where
  fits : q.capacity < 2 ^ 64
  slots_length : q.slots.length = q.capacity
  head : q.head = pushed.length % q.capacity
  tail : q.tail = popped.length % q.capacity
  order : popped <+: pushed
  spare : pushed.length < popped.length + q.capacity
  filled : ∀ i, popped.length ≤ i → i < pushed.length →
    (consumer.HasRead → i ≠ popped.length) → q.slots[i % q.capacity]? = pushed[i]?
  producerFits : producer.Fits q pushed.length popped.length
  consumerFits : consumer.Fits q pushed popped.length

namespace Ring

variable {q : SpscQueue α} {pushed popped : List α} {producer : PushPoint α}
  {consumer : PopPoint α} {value : α} {head tail : Nat}

theorem pos (h : Ring q pushed popped producer consumer) : 0 < q.capacity := by
  have := h.order.length_le
  have := h.spare
  omega

theorem full_iff (h : Ring q pushed popped producer consumer) :
    q.next q.head = q.tail ↔ pushed.length + 1 = popped.length + q.capacity := by
  have hle := h.order.length_le
  have hspare := h.spare
  rw [h.head, SpscQueue.next_mod h.pos h.fits, h.tail]
  constructor
  · intro heq
    by_contra hne
    exact mod_ne_of_lt (by omega) (by omega) heq.symm
  · intro heq
    rw [heq, Nat.add_mod_right]

theorem empty_iff (h : Ring q pushed popped producer consumer) :
    q.tail = q.head ↔ popped.length = pushed.length := by
  have hle := h.order.length_le
  have hspare := h.spare
  rw [h.head, h.tail]
  constructor
  · intro heq
    by_contra hne
    exact mod_ne_of_lt (by omega) (by omega) heq
  · intro heq
    rw [heq]

theorem slot_ne (h : Ring q pushed popped producer consumer)
    (hroom : pushed.length + 1 < popped.length + q.capacity)
    (hsome : popped.length < pushed.length) : q.head ≠ q.tail := by
  rw [h.head, h.tail]
  exact (mod_ne_of_lt hsome (by omega)).symm

/-! ## The producer's steps -/

theorem loadHead (h : Ring q pushed popped producer consumer) :
    Ring q pushed popped (.loaded value q.head) consumer :=
  { h with producerFits := rfl }

theorem foundRoom (h : Ring q pushed popped (.loaded value head) consumer)
    (hroom : q.next head ≠ q.tail) : Ring q pushed popped (.writing value head) consumer := by
  have hhead : head = q.head := h.producerFits
  have hspare := h.spare
  have := mt h.full_iff.2 (hhead ▸ hroom)
  exact { h with producerFits := ⟨hhead, by omega⟩ }

theorem refused (h : Ring q pushed popped producer consumer) :
    Ring q pushed popped .idle consumer :=
  { h with producerFits := trivial }

theorem write (h : Ring q pushed popped (.writing value head) consumer) :
    Ring { q with slots := q.slots.set head value } pushed popped (.storing value head)
      consumer := by
  obtain ⟨hhead, hroom⟩ := h.producerFits
  have hlt : head < q.slots.length := by
    rw [hhead, h.head, h.slots_length]
    exact Nat.mod_lt _ h.pos
  refine { h with
    slots_length := (List.length_set).trans h.slots_length
    filled := fun i hi hlt' hread => ?_
    producerFits := ⟨hhead, hroom, List.getElem?_set_self hlt⟩
    consumerFits := by cases consumer <;> exact h.consumerFits }
  -- the slot after the filled ones is none of them
  have hne : head ≠ i % q.capacity := by
    rw [hhead, h.head]
    exact (mod_ne_of_lt hlt' (by omega)).symm
  rw [← h.filled i hi hlt' hread]
  exact List.getElem?_set_ne hne

theorem storeHead (h : Ring q pushed popped (.storing value head) consumer) :
    Ring { q with head := q.next head } (pushed ++ [value]) popped .idle consumer := by
  obtain ⟨hhead, hroom, hslot⟩ := h.producerFits
  have hlen : (pushed ++ [value]).length = pushed.length + 1 := by simp
  refine { h with
    head := ?_
    order := h.order.trans (List.prefix_append _ _)
    spare := hlen ▸ hroom
    filled := fun i hi hlt hread => ?_
    producerFits := trivial
    consumerFits := ?_ }
  · rw [hlen, hhead, h.head]
    exact SpscQueue.next_mod h.pos h.fits _
  · rcases Nat.lt_or_eq_of_le (Nat.lt_succ_iff.1 (hlen ▸ hlt)) with hlt | rfl
    · rw [List.getElem?_append_left hlt]
      exact h.filled i hi hlt hread
    · rw [List.getElem?_concat_length, ← hslot, hhead, h.head]
  · cases consumer with
    | idle => trivial
    | loaded tail => exact h.consumerFits
    | reading tail => exact ⟨h.consumerFits.1, hlen ▸ Nat.lt_succ_of_lt h.consumerFits.2⟩
    | storing tail read =>
      have hread := h.consumerFits.2
      exact ⟨h.consumerFits.1, by
        rw [List.getElem?_append_left (List.getElem?_eq_some_iff.1 hread).1]
        exact hread⟩

/-! ## The consumer's steps -/

theorem loadTail (h : Ring q pushed popped producer .idle) :
    Ring q pushed popped producer (.loaded q.tail) :=
  { h with consumerFits := rfl }

theorem foundValue (h : Ring q pushed popped producer (.loaded tail)) (hsome : tail ≠ q.head) :
    Ring q pushed popped producer (.reading tail) := by
  have htail : tail = q.tail := h.consumerFits
  have := mt h.empty_iff.2 (htail ▸ hsome)
  exact { h with consumerFits := ⟨htail, by have := h.order.length_le; omega⟩ }

theorem foundNothing (h : Ring q pushed popped producer (.loaded tail)) :
    Ring q pushed popped producer .idle :=
  { h with consumerFits := trivial }

theorem read [Inhabited α] (moved : α → α)
    (h : Ring q pushed popped producer (.reading tail)) :
    Ring { q with slots := q.slots.set tail (moved (q.slots.getD tail default)) } pushed popped
      producer (.storing tail (q.slots.getD tail default)) := by
  obtain ⟨htail, hsome⟩ := h.consumerFits
  have hspare := h.spare
  have hslot : q.slots[tail]? = pushed[popped.length]? := by
    rw [htail, h.tail]
    exact h.filled _ (Nat.le_refl _) hsome (by simp [PopPoint.HasRead])
  refine { h with
    slots_length := (List.length_set).trans h.slots_length
    filled := fun i hi hlt hread => ?_
    producerFits := ?_
    consumerFits := ⟨htail, ?_⟩ }
  · have hne : tail ≠ i % q.capacity := by
      rw [htail, h.tail]
      exact mod_ne_of_lt (Nat.lt_of_le_of_ne hi (Ne.symm (hread trivial))) (by omega)
    rw [← h.filled i hi hlt (by simp [PopPoint.HasRead])]
    exact List.getElem?_set_ne hne
  · cases producer with
    | storing value head =>
      obtain ⟨hhead, hroom, hwritten⟩ := h.producerFits
      refine ⟨hhead, hroom, ?_⟩
      rw [← hwritten]
      exact List.getElem?_set_ne (by rw [hhead, htail]; exact (h.slot_ne hroom hsome).symm)
    | _ => exact h.producerFits
  · rw [List.getD_eq_getElem?_getD, hslot, List.getElem?_eq_getElem hsome, Option.getD_some]

theorem storeTail (h : Ring q pushed popped producer (.storing tail value)) :
    Ring { q with tail := q.next tail } pushed (popped ++ [value]) producer .idle := by
  obtain ⟨htail, hvalue⟩ := h.consumerFits
  have hlen : (popped ++ [value]).length = popped.length + 1 := by simp
  have hspare := h.spare
  refine { h with
    tail := ?_
    order := ?_
    spare := by rw [hlen]; exact Nat.lt_of_lt_of_le hspare (by simp)
    filled := fun i hi hlt _ => ?_
    producerFits := ?_
    consumerFits := trivial }
  · rw [hlen, htail, h.tail]
    exact SpscQueue.next_mod h.pos h.fits _
  · obtain ⟨rest, hrest⟩ := h.order
    subst hrest
    rw [List.getElem?_append_right (Nat.le_refl _), Nat.sub_self] at hvalue
    cases rest with
    | nil => cases hvalue
    | cons first rest =>
      obtain rfl : first = value := by simpa using hvalue
      exact ⟨rest, by simp⟩
  · exact h.filled i (by omega) hlt fun _ => by omega
  · cases producer with
    | idle => trivial
    | loaded value head => exact h.producerFits
    | writing value head =>
      exact ⟨h.producerFits.1, by have := h.producerFits.2; rw [hlen]; simp only; omega⟩
    | storing value head =>
      obtain ⟨hhead, hroom, hwritten⟩ := h.producerFits
      exact ⟨hhead, by rw [hlen]; simp only; omega, hwritten⟩

end Ring

/-! ## Runs -/

namespace SpscThreads

variable {s : SpscThreads α}

/-- `Ring` of a whole state. -/
def IsRing (s : SpscThreads α) : Prop := Ring s.queue s.pushed s.popped s.producer s.consumer

theorem IsRing.afterPush (h : s.IsRing) (value : α) : (s.pushStep value).IsRing := by
  obtain ⟨queue, producer, consumer, answers⟩ := s
  cases producer with
  | idle => exact Ring.loadHead h
  | loaded value head =>
    unfold pushStep
    dsimp only
    split
    · simpa [IsRing, pushed, popped] using Ring.refused h
    · rename_i hroom
      exact Ring.foundRoom h hroom
  | writing value head => exact Ring.write h
  | storing value head => simpa [IsRing, pushed, popped, pushStep] using Ring.storeHead h

variable [Inhabited α] {moved : α → α} {capacity : Nat}

theorem IsRing.afterPop (h : s.IsRing) : (s.popStep moved).IsRing := by
  obtain ⟨queue, producer, consumer, answers⟩ := s
  cases consumer with
  | idle => exact Ring.loadTail h
  | loaded tail =>
    unfold popStep
    dsimp only
    split
    · simpa [IsRing, pushed, popped] using Ring.foundNothing h
    · rename_i hsome
      exact Ring.foundValue h hsome
  | reading tail => exact Ring.read moved h
  | storing tail value => simpa [IsRing, pushed, popped, popStep] using Ring.storeTail h

theorem turn_capacity (t : Turn α) : (s.turn moved t).queue.capacity = s.queue.capacity := by
  cases t with
  | producer value =>
    simp only [turn, pushStep]
    repeat' split
    all_goals rfl
  | consumer =>
    simp only [turn, popStep]
    repeat' split
    all_goals rfl

theorem pushRefused_cases {t : Turn α} {value : α}
    (h : (s.turn moved t).answers = s.answers ++ [.pushRefused value]) :
    ∃ head, s.producer = .loaded value head ∧ s.queue.next head = s.queue.tail := by
  cases t with
  | producer =>
    simp only [turn, pushStep] at h
    split at h <;> try simp at h
    rename_i value' head hloaded
    split at h
    · obtain rfl : value' = value := by simpa using h
      exact ⟨head, hloaded, ‹_›⟩
    · simp at h
  | consumer =>
    simp only [turn, popStep] at h
    split at h <;> try simp at h
    split at h <;> simp at h

theorem popRefused_cases {t : Turn α}
    (h : (s.turn moved t).answers = s.answers ++ [.popRefused]) :
    ∃ tail, s.consumer = .loaded tail ∧ tail = s.queue.head := by
  cases t with
  | producer =>
    simp only [turn, pushStep] at h
    split at h <;> try simp at h
    split at h <;> simp at h
  | consumer =>
    simp only [turn, popStep] at h
    split at h <;> try simp at h
    rename_i tail hloaded
    split at h
    · exact ⟨tail, hloaded, ‹_›⟩
    · simp at h

theorem run_isRing (hfits : capacity + 1 < 2 ^ 64) (turns : List (Turn α)) :
    (run moved capacity turns).IsRing ∧
      (run moved capacity turns).queue.capacity = max capacity 1 + 1 := by
  have hsize : wrap64 ((if capacity = 0 then 1 else capacity) + 1) = max capacity 1 + 1 := by
    have : (if capacity = 0 then 1 else capacity) = max capacity 1 := by split <;> omega
    rw [this]
    exact Nat.mod_eq_of_lt (by omega)
  induction turns using List.reverseRecOn with
  | nil =>
    refine ⟨?_, hsize⟩
    constructor <;> simp [run, SpscQueue.create, pushed, popped, hsize, PushPoint.Fits,
      PopPoint.Fits]
    omega
  | append_singleton turns t ih =>
    have hstep : run moved capacity (turns ++ [t]) = (run moved capacity turns).turn moved t := by
      simp [run]
    rw [hstep, turn_capacity]
    refine ⟨?_, ih.2⟩
    cases t with
    | producer value => exact ih.1.afterPush value
    | consumer => exact ih.1.afterPop

theorem IsRing.isBoundedFifo (h : s.IsRing) (hcap : s.queue.capacity = max capacity 1 + 1) :
    s.IsBoundedFifo moved capacity := by
  have hpush := h.producerFits
  have hpop := h.consumerFits
  refine ⟨h.order, fun t value hrefused => ?_, fun t hrefused => ?_, fun i hi j hj => ?_,
    fun i hi => ?_⟩
  · obtain ⟨head, hloaded, hfull⟩ := pushRefused_cases hrefused
    rw [hloaded] at hpush ⊢
    obtain rfl : head = s.queue.head := hpush
    have := (Ring.full_iff h).1 hfull
    exact ⟨nofun, by unfold unconsumed; omega⟩
  · obtain ⟨tail, hloaded, hempty⟩ := popRefused_cases hrefused
    rw [hloaded] at hpop ⊢
    obtain rfl : tail = s.queue.tail := hpop
    have := (Ring.empty_iff h).1 hempty
    exact ⟨nofun, by unfold unconsumed; omega⟩
  · obtain ⟨rfl, hroom⟩ := PushPoint.Fits.of_slot hpush hi
    obtain ⟨rfl, hsome⟩ := PopPoint.Fits.of_slot hpop hj
    exact Ring.slot_ne h hroom hsome
  · have hlt : ∀ n, n % s.queue.capacity < s.queue.slots.length := by
      intro n
      rw [h.slots_length]
      exact Nat.mod_lt n h.pos
    rcases hi with hi | hi
    · rw [(PushPoint.Fits.of_slot hpush hi).1, h.head]
      exact hlt _
    · rw [(PopPoint.Fits.of_slot hpop hi).1, h.tail]
      exact hlt _

/-- The queue is a bounded FIFO under every interleaving, unless its capacity is the largest
`size_t`: then it has no slot at all and the first push writes outside. -/
theorem spsc_boundedFifo_iff (moved : α → α) {capacity : Nat} (hcap : capacity < 2 ^ 64) :
    (∀ turns, (run moved capacity turns).IsBoundedFifo moved capacity) ↔
      capacity + 1 < 2 ^ 64 := by
  constructor
  · intro h
    by_contra hmax
    obtain rfl : capacity = 2 ^ 64 - 1 := by omega
    have := (h [.producer default, .producer default]).inside 0 (.inl rfl)
    cases this
  · intro hfits turns
    obtain ⟨hring, hsize⟩ := run_isRing hfits turns
    exact hring.isBoundedFifo hsize

theorem spsc_boundedFifo_four :
    (run id 4 [.producer 7, .consumer, .producer 7]).IsBoundedFifo id 4 :=
  (spsc_boundedFifo_iff id (by decide)).2 (by decide) _

/-- The producer has found room for its value, but there is no slot. -/
theorem spsc_without_slots : ¬∀ turns : List (Turn Nat),
    (run id (2 ^ 64 - 1) turns).IsBoundedFifo id (2 ^ 64 - 1) := by
  intro h
  have := (h [.producer 7, .producer 7]).inside 0 (.inl rfl)
  cases this

end SpscThreads

end NimbleFix
