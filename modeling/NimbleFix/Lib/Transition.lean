import Mathlib.Tactic.Common

/-!
# Runs of guarded steps

`Reaches act ok s₀ s`: the state `s` is reached from `s₀` by steps of `act`, each taken in a state
where its guard `ok` holds. `Reaches.invariant` is the induction over such a run, and
`Reaches.of_stepsOk` makes a run of a list of steps.
-/

/-- The states reached from `s₀` by steps whose guard holds. -/
inductive Reaches {σ L : Type} (act : L → σ → σ) (ok : L → σ → Prop) (s₀ : σ) : σ → Prop
  | start : Reaches act ok s₀ s₀
  | step {s : σ} (l : L) : Reaches act ok s₀ s → ok l s → Reaches act ok s₀ (act l s)

namespace Reaches

variable {σ L : Type} {act : L → σ → σ} {ok ok' : L → σ → Prop} {s₀ s : σ}

/-- What holds at the start and is kept by every step holds in every state reached. -/
theorem invariant {I : σ → Prop} (h : Reaches act ok s₀ s) (h₀ : I s₀)
    (hstep : ∀ l s, I s → ok l s → I (act l s)) : I s := by
  induction h with
  | start => exact h₀
  | step l _ hok ih => exact hstep l _ ih hok

theorem mono (h : Reaches act ok s₀ s) (himp : ∀ l s, ok l s → ok' l s) :
    Reaches act ok' s₀ s := by
  induction h with
  | start => exact .start
  | step l _ hok ih => exact .step l ih (himp l _ hok)

end Reaches

/-- Every step of the list is taken in a state where its guard holds. -/
def StepsOk {σ L : Type} (act : L → σ → σ) (ok : L → σ → Prop) : List L → σ → Prop
  | [], _ => True
  | l :: ls, s => ok l s ∧ StepsOk act ok ls (act l s)

instance StepsOk.decidable {σ L : Type} (act : L → σ → σ) (ok : L → σ → Prop)
    [∀ l s, Decidable (ok l s)] : ∀ ls s, Decidable (StepsOk act ok ls s)
  | [], _ => .isTrue trivial
  | l :: ls, s => @instDecidableAnd _ _ _ (StepsOk.decidable act ok ls (act l s))

theorem StepsOk.mono {σ L : Type} {act : L → σ → σ} {ok ok' : L → σ → Prop}
    (himp : ∀ l s, ok l s → ok' l s) : ∀ {ls : List L} {s : σ}, StepsOk act ok ls s →
      StepsOk act ok' ls s
  | [], _, _ => trivial
  | _ :: _, _, h => ⟨himp _ _ h.1, mono himp h.2⟩

theorem Reaches.of_stepsOk {σ L : Type} {act : L → σ → σ} {ok : L → σ → Prop} {s₀ : σ} :
    ∀ (ls : List L) {s : σ}, Reaches act ok s₀ s → StepsOk act ok ls s →
      Reaches act ok s₀ (ls.foldl (fun s l => act l s) s)
  | [], _, h, _ => h
  | l :: ls, _, h, hok => of_stepsOk ls (.step l h hok.1) hok.2
