import NimbleFix.Lib.Fallible

/-!
# Two runs side by side

`Simulates R m m'`: from states related by `R` the computations `m` and `m'` end with the same value
or the same error, in states that are related again. It holds for a sequence when it holds for its
parts, so it holds for a program over an interface when it holds for the operations.

`Runs m s x out`: from `s` the computation `m` ends as the pure computation `x`, with the same rules.
-/

namespace Fallible

variable {ε σ τ α β : Type}

/-- A total operation that returns a value. -/
def step (f : σ → σ × α) : Fallible ε σ α := fun s => (.ok (f s).2, (f s).1)

/-- From related states both computations have the same outcome, and end in related states. -/
def Simulates (R : σ → τ → Prop) (m : Fallible ε σ α) (m' : Fallible ε τ α) : Prop :=
  ∀ s t, R s t → (m s).1 = (m' t).1 ∧ R (m s).2 (m' t).2

namespace Simulates

variable {R : σ → τ → Prop}

theorem pure (a : α) : Simulates R (Pure.pure a : Fallible ε σ α) (Pure.pure a) :=
  fun _ _ h => ⟨rfl, h⟩

theorem fail (e : ε) : Simulates R (Fallible.fail e : Fallible ε σ α) (Fallible.fail e) :=
  fun _ _ h => ⟨rfl, h⟩

theorem ofExcept (x : Except ε α) :
    Simulates R (Fallible.ofExcept x : Fallible ε σ α) (Fallible.ofExcept x) :=
  fun _ _ h => ⟨rfl, h⟩

theorem modify {f : σ → σ} {f' : τ → τ} (h : ∀ s t, R s t → R (f s) (f' t)) :
    Simulates R (Fallible.modify f : Fallible ε σ Unit) (Fallible.modify f') :=
  fun s t hst => ⟨rfl, h s t hst⟩

theorem step {f : σ → σ × α} {f' : τ → τ × α}
    (h : ∀ s t, R s t → (f s).2 = (f' t).2 ∧ R (f s).1 (f' t).1) :
    Simulates R (Fallible.step f : Fallible ε σ α) (Fallible.step f') :=
  fun s t hst => ⟨congrArg Except.ok (h s t hst).1, (h s t hst).2⟩

theorem bind {m : Fallible ε σ α} {m' : Fallible ε τ α} {k : α → Fallible ε σ β}
    {k' : α → Fallible ε τ β} (hm : Simulates R m m') (hk : ∀ a, Simulates R (k a) (k' a)) :
    Simulates R (m >>= k) (m' >>= k') := by
  intro s t hst
  obtain ⟨hvalue, hstate⟩ := hm s t hst
  rw [bind_apply, bind_apply]
  revert hvalue hstate
  generalize m s = p
  generalize m' t = p'
  obtain ⟨r, s'⟩ := p
  obtain ⟨r', t'⟩ := p'
  intro hvalue hstate
  cases hvalue
  cases r with
  | error e => exact ⟨rfl, hstate⟩
  | ok a => exact hk a s' t' hstate

theorem ite {c : Prop} [Decidable c] {m₁ m₂ : Fallible ε σ α} {m₁' m₂' : Fallible ε τ α}
    (h₁ : Simulates R m₁ m₁') (h₂ : Simulates R m₂ m₂') :
    Simulates R (if c then m₁ else m₂) (if c then m₁' else m₂') := by
  split
  · exact h₁
  · exact h₂

end Simulates

/-- From `s` the computation `m` ends as the pure computation `x`: with the same error, or with a
value and a state that `out` puts together to the value of `x`. -/
def Runs (m : Fallible ε σ α) (s : σ) (x : Except ε β) (out : α → σ → β) : Prop :=
  x = (m s).1.map fun a => out a (m s).2

namespace Runs

variable {γ δ : Type} {m : Fallible ε σ α} {s : σ} {k : α → Fallible ε σ γ} {x : Except ε β}
  {out : α → σ → β} {out' : γ → σ → δ}

theorem bind {kx : β → Except ε δ} (hm : Runs m s x out)
    (hk : ∀ a s', Runs (k a) s' (kx (out a s')) out') : Runs (m >>= k) s (x >>= kx) out' := by
  unfold Runs at hm
  rw [hm]
  unfold Runs
  rw [bind_apply]
  generalize m s = p
  obtain ⟨_ | a, s'⟩ := p
  · rfl
  · exact hk a s'

theorem ofExcept_bind {x : Except ε α} {kx : α → Except ε δ}
    (hk : ∀ a, Runs (k a) s (kx a) out') : Runs (ofExcept x >>= k) s (x >>= kx) out' := by
  cases x with
  | error e => rfl
  | ok a => exact hk a

theorem modify_bind {f : σ → σ} {k : Unit → Fallible ε σ α} (h : Runs (k ()) (f s) x out) :
    Runs (Fallible.modify f >>= k) s x out := h

theorem ite {c : Prop} [Decidable c] {m₁ m₂ : Fallible ε σ α} {x₁ x₂ : Except ε β}
    (h₁ : c → Runs m₁ s x₁ out) (h₂ : ¬c → Runs m₂ s x₂ out) :
    Runs (if c then m₁ else m₂) s (if c then x₁ else x₂) out := by
  by_cases hc : c
  · rw [if_pos hc, if_pos hc]
    exact h₁ hc
  · rw [if_neg hc, if_neg hc]
    exact h₂ hc

end Runs

end Fallible
