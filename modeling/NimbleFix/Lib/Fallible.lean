import Mathlib.Tactic.Common

/-!
# Stateful computations that may fail

`Fallible ε σ α`: a computation on a state `σ` that ends with a value or with an error, and in
both cases with the state it reached. Failing does not roll back: this is the meaning of code that
mutates fields and then returns an error code.

* `Sat m s Q`: the outcome of `m` from `s` is in `Q`; `Sat.bind` and `Sat.mono` chain
  specifications of the parts into one of the whole.
* `Yields m s Q`: `m` succeeds from `s` with an outcome in `Q`; `Ensures m s Q`: if `m` succeeds
  from `s`, the outcome is in `Q`; both with the same rules.
* `bind_ok`, `bind_error`: inversion of a run of a sequence.
* `Preserves f m`: `m` never changes the part `f` of the state; `Moves R m`: `m` only moves along
  the preorder `R`; `Maintains I m`: `m` keeps the invariant `I`. Each holds for a sequence when
  it holds for its parts.
-/

/-- A computation on `σ` with result `α` or error `ε`; the state survives an error. -/
def Fallible (ε σ α : Type) : Type := σ → Except ε α × σ

namespace Fallible

variable {ε σ τ α β : Type}

/-- Run the first part; stop with its error, or go on with its value. -/
def andThen (m : Fallible ε σ α) (f : α → Fallible ε σ β) : Fallible ε σ β := fun s =>
  match m s with
  | (.ok a, s') => f a s'
  | (.error e, s') => (.error e, s')

instance : Monad (Fallible ε σ) where
  pure a := fun s => (.ok a, s)
  bind := andThen

def fail (e : ε) : Fallible ε σ α := fun s => (.error e, s)

def get : Fallible ε σ σ := fun s => (.ok s, s)

def modify (f : σ → σ) : Fallible ε σ Unit := fun s => (.ok (), f s)

/-- The value of a pure computation that may fail. -/
def ofExcept (x : Except ε α) : Fallible ε σ α := fun s => (x, s)

/-- Run `m` and hand its status to the caller instead of failing with it. -/
def attempt (m : Fallible ε σ α) : Fallible ε σ (Except ε α) := fun s => (.ok (m s).1, (m s).2)

/-- Run `m` on the part of the state that `view` reads and `update` writes. -/
def zoom (view : τ → σ) (update : σ → τ → τ) (m : Fallible ε σ α) : Fallible ε τ α := fun t =>
  ((m (view t)).1, update (m (view t)).2 t)

@[simp] theorem pure_apply (a : α) (s : σ) : (pure a : Fallible ε σ α) s = (.ok a, s) := rfl
@[simp] theorem fail_apply (e : ε) (s : σ) : (fail e : Fallible ε σ α) s = (.error e, s) := rfl
@[simp] theorem get_apply (s : σ) : (get : Fallible ε σ σ) s = (.ok s, s) := rfl
@[simp] theorem modify_apply (f : σ → σ) (s : σ) :
    (modify f : Fallible ε σ Unit) s = (.ok (), f s) := rfl
@[simp] theorem ofExcept_apply (x : Except ε α) (s : σ) :
    (ofExcept x : Fallible ε σ α) s = (x, s) := rfl
@[simp] theorem attempt_apply (m : Fallible ε σ α) (s : σ) :
    attempt m s = (.ok (m s).1, (m s).2) := rfl
@[simp] theorem zoom_apply (view : τ → σ) (update : σ → τ → τ) (m : Fallible ε σ α) (t : τ) :
    zoom view update m t = ((m (view t)).1, update (m (view t)).2 t) := rfl

theorem bind_apply (m : Fallible ε σ α) (f : α → Fallible ε σ β) (s : σ) :
    (m >>= f) s = match m s with
      | (.ok a, s') => f a s'
      | (.error e, s') => (.error e, s') := rfl

variable {m : Fallible ε σ α} {f : α → Fallible ε σ β} {s s' : σ}

theorem bind_of_ok {a : α} (h : m s = (.ok a, s')) : (m >>= f) s = f a s' := by
  rw [bind_apply, h]

theorem bind_of_error {e : ε} (h : m s = (.error e, s')) : (m >>= f) s = (.error e, s') := by
  rw [bind_apply, h]

/-- A sequence that succeeds has two parts that succeed. -/
theorem bind_ok {b : β} (h : (m >>= f) s = (.ok b, s')) :
    ∃ a s₁, m s = (.ok a, s₁) ∧ f a s₁ = (.ok b, s') := by
  rw [bind_apply] at h
  split at h
  · exact ⟨_, _, ‹_›, h⟩
  · cases h

/-! ## Specifications -/

/-- The outcome of `m` from `s`, value or error, is in `Q`. -/
def Sat (m : Fallible ε σ α) (s : σ) (Q : Except ε α → σ → Prop) : Prop := Q (m s).1 (m s).2

namespace Sat

variable {P : Except ε α → σ → Prop} {Q : Except ε β → σ → Prop}

theorem fail {e : ε} (h : P (.error e) s) : Sat (Fallible.fail e) s P := h

/-- Sequencing: what the first part guarantees carries the second, and every error of the first
part is an outcome of the whole. -/
theorem bind (hm : Sat m s P) (hok : ∀ a s', P (.ok a) s' → Sat (f a) s' Q)
    (herr : ∀ e s', P (.error e) s' → Q (.error e) s') : Sat (m >>= f) s Q := by
  unfold Sat at *
  rw [bind_apply]
  revert hm
  generalize m s = p
  obtain ⟨_ | a, s'⟩ := p
  · exact herr _ s'
  · exact hok a s'

theorem attempt {f : Except ε α → Fallible ε σ β} (hm : Sat m s P)
    (h : ∀ r s', P r s' → Sat (f r) s' Q) : Sat (Fallible.attempt m >>= f) s Q := h _ _ hm

theorem ite {c : Prop} [Decidable c] {m₁ m₂ : Fallible ε σ α} (h₁ : c → Sat m₁ s P)
    (h₂ : ¬c → Sat m₂ s P) : Sat (if c then m₁ else m₂) s P := by
  split
  · exact h₁ ‹_›
  · exact h₂ ‹_›

end Sat

/-- If `m` succeeds from `s`, its value and its state are in `Q`. -/
def Ensures (m : Fallible ε σ α) (s : σ) (Q : α → σ → Prop) : Prop :=
  ∀ a s', m s = (.ok a, s') → Q a s'

namespace Ensures

variable {P P' : α → σ → Prop} {Q : β → σ → Prop}

theorem mono (h : Ensures m s P) (himp : ∀ a s', P a s' → P' a s') : Ensures m s P' :=
  fun a s' hm => himp a s' (h a s' hm)

theorem pure {a : α} (h : P a s) : Ensures (Pure.pure a : Fallible ε σ α) s P := by
  intro b s' hb
  cases hb
  exact h

theorem fail (e : ε) : Ensures (Fallible.fail e : Fallible ε σ α) s P := by
  intro b s' hb
  cases hb

theorem ofExcept {x : Except ε α} (h : ∀ a, x = .ok a → P a s) :
    Ensures (Fallible.ofExcept x) s P := by
  intro b s' hb
  cases x with
  | error e => cases hb
  | ok a =>
    cases hb
    exact h b rfl

/-- Sequencing: what the first part ensures carries the second. -/
theorem bind (hm : Ensures m s P) (hf : ∀ a s', P a s' → Ensures (f a) s' Q) :
    Ensures (m >>= f) s Q := by
  intro b t h
  obtain ⟨a, s', hma, hfb⟩ := bind_ok h
  exact hf a s' (hm a s' hma) b t hfb

theorem after (hf : ∀ a s', Ensures (f a) s' Q) : Ensures (m >>= f) s Q :=
  .bind (P := fun _ _ => True) (fun _ _ _ => trivial) fun a s' _ => hf a s'

theorem get {f : σ → Fallible ε σ β} (h : Ensures (f s) s Q) :
    Ensures (Fallible.get >>= f) s Q := h

theorem modify {g : σ → σ} {f : Unit → Fallible ε σ β} (h : Ensures (f ()) (g s) Q) :
    Ensures (Fallible.modify g >>= f) s Q := h

theorem ite {c : Prop} [Decidable c] {m₁ m₂ : Fallible ε σ α} (h₁ : c → Ensures m₁ s P)
    (h₂ : ¬c → Ensures m₂ s P) : Ensures (if c then m₁ else m₂) s P := by
  split
  · exact h₁ ‹_›
  · exact h₂ ‹_›

end Ensures

/-- Every value that `m` returns, from any state, is in `Q`. -/
def Returns (Q : α → Prop) (m : Fallible ε σ α) : Prop := ∀ s, Ensures m s fun a _ => Q a

namespace Returns

variable {P : α → Prop} {Q : β → Prop}

theorem pure {a : α} (h : P a) : Returns P (Pure.pure a : Fallible ε σ α) := fun _ => .pure h

theorem fail (e : ε) : Returns P (Fallible.fail e : Fallible ε σ α) := fun _ => .fail e

theorem bind (hm : Returns P m) (hf : ∀ a, P a → Returns Q (f a)) : Returns Q (m >>= f) :=
  fun s => .bind (hm s) fun a s' ha => hf a ha s'

theorem after (hf : ∀ a, Returns Q (f a)) : Returns Q (m >>= f) := fun _ => .after hf

theorem ite {c : Prop} [Decidable c] {m₁ m₂ : Fallible ε σ α} (h₁ : Returns P m₁)
    (h₂ : Returns P m₂) : Returns P (if c then m₁ else m₂) :=
  fun s => .ite (fun _ => h₁ s) fun _ => h₂ s

end Returns

/-! ## Frame conditions and invariants -/

variable {γ δ : Type}

/-- `m` leaves the part `f` of the state as it was, whether it succeeds or fails. -/
def Preserves (f : σ → γ) (m : Fallible ε σ α) : Prop := ∀ s, f (m s).2 = f s

namespace Preserves

variable {f : σ → γ}

theorem pure (a : α) : Preserves f (Pure.pure a : Fallible ε σ α) := fun _ => rfl

theorem fail (e : ε) : Preserves f (Fallible.fail e : Fallible ε σ α) := fun _ => rfl

theorem get : Preserves f (Fallible.get : Fallible ε σ σ) := fun _ => rfl

theorem ofExcept (x : Except ε α) : Preserves f (Fallible.ofExcept x : Fallible ε σ α) :=
  fun _ => rfl

theorem modify {g : σ → σ} (h : ∀ s, f (g s) = f s) :
    Preserves f (Fallible.modify g : Fallible ε σ Unit) := h

theorem attempt (h : Preserves f m) : Preserves f (Fallible.attempt m) := h

theorem bind {k : α → Fallible ε σ β} (hm : Preserves f m) (hk : ∀ a, Preserves f (k a)) :
    Preserves f (m >>= k) := by
  intro s
  have hs := hm s
  rw [bind_apply]
  revert hs
  generalize m s = p
  obtain ⟨_ | a, s'⟩ := p
  · exact id
  · exact fun hs => (hk a s').trans hs

theorem ite {c : Prop} [Decidable c] {m₁ m₂ : Fallible ε σ α} (h₁ : Preserves f m₁)
    (h₂ : Preserves f m₂) : Preserves f (if c then m₁ else m₂) := by
  split
  · exact h₁
  · exact h₂

theorem ensures (h : Preserves f m) (s : σ) : Ensures m s fun _ s' => f s' = f s := by
  intro a s' hm
  have hs := h s
  rwa [hm] at hs

end Preserves

/-- `m` only moves along `R`, whether it succeeds or fails. -/
def Moves (R : σ → σ → Prop) (m : Fallible ε σ α) : Prop := ∀ s, R s (m s).2

namespace Moves

variable {R : σ → σ → Prop}

theorem pure [Std.Refl R] (a : α) : Moves R (Pure.pure a : Fallible ε σ α) := fun s => refl_of R s

theorem fail [Std.Refl R] (e : ε) : Moves R (Fallible.fail e : Fallible ε σ α) :=
  fun s => refl_of R s

/-- The first part need only move along `R` from the state at hand. -/
theorem bind_at [IsTrans σ R] {k : α → Fallible ε σ β}
    (hm : R s (m s).2) (hk : ∀ a, Moves R (k a)) : R s ((m >>= k) s).2 := by
  rw [bind_apply]
  revert hm
  generalize m s = p
  obtain ⟨_ | a, s'⟩ := p
  · exact id
  · exact fun hs => trans_of R hs (hk a s')

theorem bind [IsTrans σ R] {k : α → Fallible ε σ β} (hm : Moves R m)
    (hk : ∀ a, Moves R (k a)) : Moves R (m >>= k) := fun s => bind_at (hm s) hk

theorem ite {c : Prop} [Decidable c] {m₁ m₂ : Fallible ε σ α} (h₁ : Moves R m₁)
    (h₂ : Moves R m₂) : Moves R (if c then m₁ else m₂) := by
  split
  · exact h₁
  · exact h₂

end Moves

/-- `m` keeps the invariant `I`, whether it succeeds or fails. -/
def Maintains (I : σ → Prop) (m : Fallible ε σ α) : Prop := ∀ s, I s → I (m s).2

namespace Maintains

variable {I : σ → Prop}

theorem pure (a : α) : Maintains I (Pure.pure a : Fallible ε σ α) := fun _ h => h

theorem fail (e : ε) : Maintains I (Fallible.fail e : Fallible ε σ α) := fun _ h => h

/-- The first part need only establish `I` from the state at hand. -/
theorem bind_at {k : α → Fallible ε σ β} (hm : I (m s).2)
    (hk : ∀ a, Maintains I (k a)) : I ((m >>= k) s).2 := by
  rw [bind_apply]
  revert hm
  generalize m s = p
  obtain ⟨_ | a, s'⟩ := p
  · exact id
  · exact hk a s'

theorem bind {k : α → Fallible ε σ β} (hm : Maintains I m)
    (hk : ∀ a, Maintains I (k a)) : Maintains I (m >>= k) := fun s h => bind_at (hm s h) hk

theorem ite {c : Prop} [Decidable c] {m₁ m₂ : Fallible ε σ α} (h₁ : Maintains I m₁)
    (h₂ : Maintains I m₂) : Maintains I (if c then m₁ else m₂) := by
  split
  · exact h₁
  · exact h₂

end Maintains

/-- An invariant that reads only a preserved part is kept. -/
theorem Preserves.maintains {f : σ → γ} {J : γ → Prop} (h : Preserves f m) :
    Maintains (fun s => J (f s)) m := by
  intro s hs
  show J (f (m s).2)
  rw [h s]
  exact hs

end Fallible
