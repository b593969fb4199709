import Mathlib.Algebra.Order.Ring.Nat
import Mathlib.Data.List.Infix

/-!
# Paths

A list of edges is a path when each edge starts where the one before it ended.
`EdgePath src dst x l y` says so for edges `l` with the ends `src` and `dst`, from `x` to `y`. When
no edge goes backwards the edges lie in order (`EdgePath.pairwise`) and leave nothing out
(`EdgePath.covers`).
-/

/-- The edges `l` lead from `x` to `y`. -/
def EdgePath {α β : Type} (src dst : α → β) : β → List α → β → Prop
  | x, [], y => x = y
  | x, a :: l, y => src a = x ∧ EdgePath src dst (dst a) l y

namespace EdgePath

variable {α β : Type} {src dst : α → β} {x y z : β} {l l' : List α}

theorem cons {a : α} (hx : src a = x) (hy : dst a = y) (h : EdgePath src dst y l z) :
    EdgePath src dst x (a :: l) z := by
  subst hy
  exact ⟨hx, h⟩

theorem append_iff : EdgePath src dst x (l ++ l') z ↔
    ∃ y, EdgePath src dst x l y ∧ EdgePath src dst y l' z := by
  induction l generalizing x with
  | nil => simp [EdgePath]
  | cons a l ih => simp [EdgePath, ih, and_assoc]

theorem append (h : EdgePath src dst x l y) (h' : EdgePath src dst y l' z) :
    EdgePath src dst x (l ++ l') z := append_iff.2 ⟨y, h, h'⟩

theorem part (h : EdgePath src dst x l y) (hl : l' <:+: l) :
    ∃ x' y', EdgePath src dst x' l' y' := by
  obtain ⟨s, t, rfl⟩ := hl
  obtain ⟨y', h, -⟩ := append_iff.1 h
  obtain ⟨x', -, h⟩ := append_iff.1 h
  exact ⟨x', y', h⟩

section Order

variable [LinearOrder β]

theorem le (h : EdgePath src dst x l y) (hle : ∀ a ∈ l, src a ≤ dst a) : x ≤ y := by
  induction l generalizing x with
  | nil => exact le_of_eq h
  | cons a l ih =>
    obtain ⟨rfl, h⟩ := h
    exact (hle a (by simp)).trans (ih h fun b hb => hle b (by simp [hb]))

theorem mem_le (h : EdgePath src dst x l y) (hle : ∀ a ∈ l, src a ≤ dst a) {a : α} (ha : a ∈ l) :
    x ≤ src a ∧ dst a ≤ y := by
  obtain ⟨s, t, rfl⟩ := List.append_of_mem ha
  obtain ⟨z, hs, hz⟩ := append_iff.1 h
  obtain ⟨rfl, ht⟩ := hz
  exact ⟨hs.le fun b hb => hle b (by simp [hb]), ht.le fun b hb => hle b (by simp [hb])⟩

theorem pairwise (h : EdgePath src dst x l y) (hle : ∀ a ∈ l, src a ≤ dst a) :
    l.Pairwise fun a b => dst a ≤ src b := by
  induction l generalizing x with
  | nil => exact .nil
  | cons a l ih =>
    obtain ⟨-, h⟩ := h
    refine .cons (fun b hb => ?_) (ih h fun c hc => hle c (by simp [hc]))
    obtain ⟨s, t, rfl⟩ := List.append_of_mem hb
    obtain ⟨z, hs, hz⟩ := append_iff.1 h
    rw [hz.1]
    exact hs.le fun c hc => hle c (by simp [hc])

/-- Everything between the two ends lies on an edge. -/
theorem covers (h : EdgePath src dst x l y) {n : β} (hx : x ≤ n) (hy : n < y) :
    ∃ a ∈ l, src a ≤ n ∧ n < dst a := by
  induction l generalizing x with
  | nil => exact absurd (hx.trans_lt hy) (by rw [show x = y from h]; exact lt_irrefl y)
  | cons a l ih =>
    obtain ⟨rfl, h⟩ := h
    by_cases hn : n < dst a
    · exact ⟨a, by simp, hx, hn⟩
    · obtain ⟨b, hb, hsrc, hdst⟩ := ih h (le_of_not_gt hn)
      exact ⟨b, by simp [hb], hsrc, hdst⟩

end Order

end EdgePath
