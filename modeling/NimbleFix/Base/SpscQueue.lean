import NimbleFix.Base.Status

/-!
# The single-producer single-consumer queue (`base/spsc_queue.h`)

A ring of slots with one index for each side. The bodies of `TryPush` and `TryPop` are cut at their
atomic steps: the load of the own index, the load of the other one, the access to the slot and the
store. `Turn` says whose step is next, so that a list of turns is an interleaving of the two
threads.
-/

namespace NimbleFix

structure SpscQueue (α : Type) where
  slots : List α
  capacity : Nat
  head : Nat := 0
  tail : Nat := 0

namespace SpscQueue

variable {α : Type}

/-- The constructor. The number of slots is a `size_t`. -/
def create [Inhabited α] (capacity : Nat) : SpscQueue α :=
  let size := wrap64 ((if capacity = 0 then 1 else capacity) + 1)
  { slots := List.replicate size default, capacity := size }

def next (q : SpscQueue α) (index : Nat) : Nat :=
  if wrap64 (index + 1) = q.capacity then 0 else wrap64 (index + 1)

end SpscQueue

/-- Where the producer stands in `TryPushImpl`. -/
inductive PushPoint (α : Type)
  | idle
  | loaded (value : α) (head : Nat)
  | writing (value : α) (head : Nat)
  | storing (value : α) (head : Nat)

/-- Where the consumer stands in `TryPop`. -/
inductive PopPoint (α : Type)
  | idle
  | loaded (tail : Nat)
  | reading (tail : Nat)
  | storing (tail : Nat) (value : α)

/-- The slot that the producer has found free and not handed over yet. -/
def PushPoint.slot {α : Type} : PushPoint α → Option Nat
  | writing _ head | storing _ head => some head
  | _ => none

/-- The slot that the consumer has found filled and not given back yet. -/
def PopPoint.slot {α : Type} : PopPoint α → Option Nat
  | reading tail | storing tail _ => some tail
  | _ => none

/-- What a call has returned. -/
inductive QueueAnswer (α : Type)
  | pushed (value : α)
  | pushRefused (value : α)
  | popped (value : α)
  | popRefused

/-- One step of a thread. A producer between two calls starts the next one with `value`. -/
inductive Turn (α : Type)
  | producer (value : α)
  | consumer

/-- The queue, its two threads and the answers of the calls so far. -/
structure SpscThreads (α : Type) where
  queue : SpscQueue α
  producer : PushPoint α := .idle
  consumer : PopPoint α := .idle
  answers : List (QueueAnswer α) := []

namespace SpscThreads

variable {α : Type}

def pushStep (value : α) (s : SpscThreads α) : SpscThreads α :=
  match s.producer with
  | .idle => { s with producer := .loaded value s.queue.head }
  | .loaded value head =>
    if s.queue.next head = s.queue.tail then
      { s with producer := .idle, answers := s.answers ++ [.pushRefused value] }
    else { s with producer := .writing value head }
  | .writing value head =>
    { s with
      queue := { s.queue with slots := s.queue.slots.set head value }
      producer := .storing value head }
  | .storing value head =>
    { s with
      queue := { s.queue with head := s.queue.next head }
      producer := .idle
      answers := s.answers ++ [.pushed value] }

/-- `moved` is what `std::move` leaves in a slot. -/
def popStep [Inhabited α] (moved : α → α) (s : SpscThreads α) : SpscThreads α :=
  match s.consumer with
  | .idle => { s with consumer := .loaded s.queue.tail }
  | .loaded tail =>
    if tail = s.queue.head then
      { s with consumer := .idle, answers := s.answers ++ [.popRefused] }
    else { s with consumer := .reading tail }
  | .reading tail =>
    let value := s.queue.slots.getD tail default
    { s with
      queue := { s.queue with slots := s.queue.slots.set tail (moved value) }
      consumer := .storing tail value }
  | .storing tail value =>
    { s with
      queue := { s.queue with tail := s.queue.next tail }
      consumer := .idle
      answers := s.answers ++ [.popped value] }

def turn [Inhabited α] (moved : α → α) (s : SpscThreads α) : Turn α → SpscThreads α
  | .producer value => s.pushStep value
  | .consumer => s.popStep moved

/-- The state after an interleaving, from a new queue. -/
def run [Inhabited α] (moved : α → α) (capacity : Nat) (turns : List (Turn α)) : SpscThreads α :=
  turns.foldl (turn moved) { queue := .create capacity }

/-- The values of the pushes that returned `true`, in order. -/
def pushed (s : SpscThreads α) : List α :=
  s.answers.filterMap fun | .pushed value => some value | _ => none

/-- The values that pops returned, in order. -/
def popped (s : SpscThreads α) : List α :=
  s.answers.filterMap fun | .popped value => some value | _ => none

def unconsumed (s : SpscThreads α) : Nat := s.pushed.length - s.popped.length

/-- What a bounded queue of two threads promises of a state and of the next step. A step that
refuses a call is taken inside that call. -/
structure IsBoundedFifo [Inhabited α] (moved : α → α) (capacity : Nat) (s : SpscThreads α) :
    Prop where
  order : s.popped <+: s.pushed
  full : ∀ t value, (s.turn moved t).answers = s.answers ++ [.pushRefused value] →
    s.producer ≠ .idle ∧ s.unconsumed = max capacity 1
  empty : ∀ t, (s.turn moved t).answers = s.answers ++ [.popRefused] →
    s.consumer ≠ .idle ∧ s.unconsumed = 0
  apart : ∀ i ∈ s.producer.slot, ∀ j ∈ s.consumer.slot, i ≠ j
  inside : ∀ i, i ∈ s.producer.slot ∨ i ∈ s.consumer.slot → i < s.queue.slots.length

end SpscThreads

end NimbleFix
