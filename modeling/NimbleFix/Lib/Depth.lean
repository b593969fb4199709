import Mathlib.Data.Finset.Lattice.Fold
import Mathlib.Order.Preorder.Finite

/-!
# The depth of a recursion along a relation

`DepthAtMost r n a`: a recursion that from `a` visits every `b` with `r a b` has less than `n`
calls open at a time. Over finitely many elements such a bound exists exactly when no element leads
back to itself.
-/

open Relation

def DepthAtMost {α : Type} (r : α → α → Prop) : Nat → α → Prop
  | 0, _ => False
  | n + 1, a => ∀ b, r a b → DepthAtMost r n b

namespace DepthAtMost

variable {α : Type} {r : α → α → Prop}

theorem mono : ∀ {n m : Nat} {a : α}, n ≤ m → DepthAtMost r n a → DepthAtMost r m a
  | 0, _, _, _, h => h.elim
  | n + 1, 0, _, hle, _ => absurd hle (by omega)
  | n + 1, m + 1, _, hle, h => fun b hb => mono (by omega) (h b hb)

theorem step {n : Nat} {a b : α} (h : DepthAtMost r n a) (hb : r a b) : DepthAtMost r n b := by
  cases n with
  | zero => exact h.elim
  | succ n => exact (h b hb).mono (Nat.le_succ n)

theorem reach {n : Nat} {a b : α} (h : DepthAtMost r n a) (hb : ReflTransGen r a b) :
    DepthAtMost r n b := by
  induction hb with
  | refl => exact h
  | tail _ hstep ih => exact ih.step hstep

/-- A bounded recursion does not come back. -/
theorem no_cycle : ∀ {n : Nat} {a : α}, DepthAtMost r n a → ¬TransGen r a a
  | 0, _, h, _ => h.elim
  | n + 1, a, h, hcycle => by
    obtain ⟨b, hab, hba⟩ := TransGen.head'_iff.1 hcycle
    exact no_cycle (h b hab) (TransGen.tail' hba hab)

/-- Without a cycle among finitely many elements, one bound does for all of them. -/
theorem of_acyclic {S : Set α} (hfinite : S.Finite) (hclosed : ∀ a ∈ S, ∀ b, r a b → b ∈ S)
    (hacyclic : ∀ a ∈ S, ¬TransGen r a a) : ∃ n, ∀ a ∈ S, DepthAtMost r n a := by
  have hfin : Finite S := hfinite
  have htrans : IsTrans S fun b a => TransGen r a.1 b.1 := ⟨fun _ _ _ hab hbc => hbc.trans hab⟩
  have hirrefl : Std.Irrefl fun b a : S => TransGen r a.1 b.1 := ⟨fun a h => hacyclic a.1 a.2 h⟩
  have hwf : WellFounded fun b a : S => TransGen r a.1 b.1 :=
    Finite.wellFounded_of_trans_of_irrefl _
  -- The bounds of finitely many elements have a maximum.
  have hcommon : ∀ P : S → Prop, (∀ b, P b → ∃ n, DepthAtMost r n b.1) →
      ∃ n, ∀ b, P b → DepthAtMost r n b.1 := by
    intro P hP
    classical
    have := Fintype.ofFinite S
    choose! bound hbound using hP
    exact ⟨Finset.univ.sup bound, fun b hb => (hbound b hb).mono (Finset.le_sup (Finset.mem_univ b))⟩
  have hall : ∀ a : S, ∃ n, DepthAtMost r n a.1 := by
    intro a
    induction a using hwf.induction with
    | _ a ih =>
      obtain ⟨n, hn⟩ := hcommon (fun b => r a.1 b.1) fun b hb => ih b (.single hb)
      exact ⟨n + 1, fun b hb => hn ⟨b, hclosed a.1 a.2 b hb⟩ hb⟩
  obtain ⟨n, hn⟩ := hcommon (fun _ => True) fun b _ => hall b
  exact ⟨n, fun a ha => hn ⟨a, ha⟩ trivial⟩

end DepthAtMost
