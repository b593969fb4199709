import NimbleFix.Base.Status
import NimbleFix.Lib.Heap

/-!
# The timer wheel (`runtime/timer_wheel.h`)

A heap of deadlines with lazy deletion: every `Schedule` takes a new generation for the timer, and
an entry of the heap counts only while its generation is the current one of its timer. The
generation is a 64-bit counter of the `Schedule` calls. The fields that only `EnsureInitialized`
writes and nobody reads are left out.
-/

namespace NimbleFix

structure HeapEntry where
  deadlineNs : Nat
  timerId : Nat
  generation : Nat
  deriving DecidableEq, Repr

structure TimerWheel where
  heap : List HeapEntry := []
  activeGeneration : Nat → Option Nat := fun _ => none
  nextGeneration : Nat := 0
  earliestDeadline : Option Nat := none

namespace TimerWheel

variable (std : HeapAlgorithms HeapEntry HeapEntry.deadlineNs)

def schedule (timerId deadlineNs : Nat) (w : TimerWheel) : TimerWheel where
  heap := std.pushHeap (w.heap ++ [⟨deadlineNs, timerId, w.nextGeneration⟩])
  activeGeneration := Function.update w.activeGeneration timerId (some w.nextGeneration)
  nextGeneration := wrap64 (w.nextGeneration + 1)
  earliestDeadline :=
    if w.earliestDeadline.all (deadlineNs < ·) then some deadlineNs else w.earliestDeadline

def cancel (timerId : Nat) (w : TimerWheel) : TimerWheel :=
  { w with activeGeneration := Function.update w.activeGeneration timerId none }

/-- The entry is the one of its timer's last `Schedule`. -/
def isActive (w : TimerWheel) (e : HeapEntry) : Bool :=
  w.activeGeneration e.timerId == some e.generation

/-- `pop_heap` and `pop_back`. -/
def popTop (w : TimerWheel) : TimerWheel := { w with heap := (std.popHeap w.heap).dropLast }

/-- The loop of `PopExpired`, with the timers it fires. Every round takes an entry, so the size of
the heap is enough `fuel`. -/
def popLoop (nowNs : Nat) : Nat → TimerWheel → List Nat × TimerWheel
  | 0, w => ([], w)
  | fuel + 1, w =>
    match w.heap with
    | [] => ([], w)
    | top :: _ =>
      if nowNs < top.deadlineNs then ([], w)
      else if w.isActive top then
        let r := popLoop nowNs fuel ((w.popTop std).cancel top.timerId)
        (top.timerId :: r.1, r.2)
      else popLoop nowNs fuel (w.popTop std)

def purgeStaleTop : Nat → TimerWheel → TimerWheel
  | 0, w => w
  | fuel + 1, w =>
    match w.heap with
    | [] => w
    | top :: _ => if w.isActive top then w else purgeStaleTop fuel (w.popTop std)

def popExpired (nowNs : Nat) (w : TimerWheel) : List Nat × TimerWheel :=
  let r := popLoop std nowNs w.heap.length w
  let purged := purgeStaleTop std r.2.heap.length r.2
  (r.1, { purged with earliestDeadline := purged.heap.head?.map HeapEntry.deadlineNs })

def nextDeadline (w : TimerWheel) : Option Nat := w.earliestDeadline

end TimerWheel

/-! ## Calls -/

inductive WheelCall
  | schedule (timerId deadlineNs : Nat)
  | cancel (timerId : Nat)
  | popExpired (nowNs : Nat)

def WheelCall.run (std : HeapAlgorithms HeapEntry HeapEntry.deadlineNs) (w : TimerWheel) :
    WheelCall → TimerWheel
  | .schedule timerId deadlineNs => w.schedule std timerId deadlineNs
  | .cancel timerId => w.cancel timerId
  | .popExpired nowNs => (w.popExpired std nowNs).2

/-- What the wheel is for: a map from the timers to their deadlines. -/
def WheelCall.abstract (deadlines : Nat → Option Nat) : WheelCall → Nat → Option Nat
  | .schedule timerId deadlineNs => Function.update deadlines timerId (some deadlineNs)
  | .cancel timerId => Function.update deadlines timerId none
  | .popExpired nowNs => fun timerId => (deadlines timerId).filter (nowNs < ·)

end NimbleFix
