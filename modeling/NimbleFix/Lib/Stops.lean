import Mathlib.Data.List.Basic

/-!
# Stopping between two operations

A program that changes a state by one operation after the other and may stop between any two. The
operations come with a flag each; `AtStops` says that a property holds of the state before every
operation whose flag is set.
-/

variable {ω δ : Type}

/-- The state after the operations. -/
def runOps (apply : ω → δ → δ) (ops : List ω) (d : δ) : δ := ops.foldl (fun d op => apply op d) d

theorem runOps_append (apply : ω → δ → δ) (ops ops' : List ω) (d : δ) :
    runOps apply (ops ++ ops') d = runOps apply ops' (runOps apply ops d) := List.foldl_append ..

/-- Before each operation, its flag and the state are related by `Q`. -/
def AtStops (apply : ω → δ → δ) (Q : Prop → δ → Prop) : List (ω × Prop) → δ → Prop
  | [], _ => True
  | (op, flag) :: stops, d => Q flag d ∧ AtStops apply Q stops (apply op d)

/-- The flag of the stop after `k` operations, which is `last` after all of them. -/
def flagAt (stops : List (ω × Prop)) (last : Prop) (k : Nat) : Prop :=
  (stops[k]?.map Prod.snd).getD last

/-- Operations that share a flag. -/
def withFlag (flag : Prop) (ops : List ω) : List (ω × Prop) := ops.map (·, flag)

@[simp]
theorem map_fst_withFlag (flag : Prop) (ops : List ω) :
    (withFlag flag ops).map Prod.fst = ops := by
  unfold withFlag
  rw [List.map_map]
  exact List.map_id _

namespace AtStops

variable {apply : ω → δ → δ} {Q : Prop → δ → Prop}

theorem append {stops stops' : List (ω × Prop)} {d : δ} (h : AtStops apply Q stops d)
    (h' : AtStops apply Q stops' (runOps apply (stops.map Prod.fst) d)) :
    AtStops apply Q (stops ++ stops') d := by
  induction stops generalizing d with
  | nil => exact h'
  | cons stop stops ih => exact ⟨h.1, ih h.2 h'⟩

/-- Operations that keep an invariant, all with one flag. -/
theorem withFlag {I : δ → Prop} {flag : Prop} {ops : List ω}
    (hstep : ∀ op ∈ ops, ∀ d, I d → I (apply op d)) (hQ : ∀ d, I d → Q flag d) {d : δ} (h : I d) :
    AtStops apply Q (withFlag flag ops) d := by
  induction ops generalizing d with
  | nil => trivial
  | cons op ops ih =>
    exact ⟨hQ d h, ih (fun op' hop => hstep op' (List.mem_cons_of_mem _ hop))
      (hstep op List.mem_cons_self d h)⟩

theorem stopped {stops : List (ω × Prop)} {d : δ} (h : AtStops apply Q stops d) (last : Prop)
    (hlast : Q last (runOps apply (stops.map Prod.fst) d)) (k : Nat) :
    Q (flagAt stops last k) (runOps apply ((stops.map Prod.fst).take k) d) := by
  induction stops generalizing d k with
  | nil => simpa [flagAt] using hlast
  | cons stop stops ih =>
    cases k with
    | zero => exact h.1
    | succ k => exact ih h.2 hlast k

end AtStops
