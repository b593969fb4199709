import Mathlib.Data.List.Basic

/-!
# The heap algorithms of a standard library

`IsHeap key h`: no element of the array `h` has a smaller key than its parent, so the first one has
the smallest. `HeapAlgorithms` are a `push_heap` and a `pop_heap` as they are documented: the one
makes a heap of a heap and a new last element, the other moves the first element to the end and
leaves a heap before it.
-/

def IsHeap {α : Type} (key : α → Nat) (h : List α) : Prop :=
  ∀ i x y, h[i + 1]? = some x → h[i / 2]? = some y → key y ≤ key x

theorem IsHeap.first_le {α : Type} {key : α → Nat} {a : α} {h : List α}
    (hh : IsHeap key (a :: h)) : ∀ x ∈ a :: h, key a ≤ key x := by
  -- the parent has a smaller index
  have hall : ∀ (i : Nat) (x : α), (a :: h)[i]? = some x → key a ≤ key x := by
    intro i
    induction i using Nat.strongRecOn with
    | _ i ih =>
      intro x hx
      cases i with
      | zero =>
        obtain rfl : a = x := by simpa using hx
        exact Nat.le_refl _
      | succ i =>
        have hi : i / 2 < (a :: h).length := by
          have := (List.getElem?_eq_some_iff.1 hx).1
          omega
        have hy := List.getElem?_eq_getElem hi
        exact Nat.le_trans (ih (i / 2) (by omega) _ hy) (hh i x _ hx hy)
  intro x hx
  obtain ⟨i, hi⟩ := List.mem_iff_getElem?.1 hx
  exact hall i x hi

theorem isHeap_mergeSort {α : Type} {key : α → Nat} (h : List α) :
    IsHeap key (h.mergeSort fun x y => key x ≤ key y) := by
  intro i x y hx hy
  obtain ⟨hi, rfl⟩ := List.getElem?_eq_some_iff.1 hx
  obtain ⟨hj, rfl⟩ := List.getElem?_eq_some_iff.1 hy
  have hsorted := @List.pairwise_mergeSort α (fun x y => decide (key x ≤ key y))
    (by simpa using fun a b c => Nat.le_trans) (by simpa using fun a b => Nat.le_total _ _) h
  simpa using List.pairwise_iff_getElem.1 hsorted _ _ hj hi (by omega)

structure HeapAlgorithms (α : Type) (key : α → Nat) where
  pushHeap : List α → List α
  popHeap : List α → List α
  pushHeap_spec : ∀ h a, IsHeap key h →
    IsHeap key (pushHeap (h ++ [a])) ∧ (pushHeap (h ++ [a])).Perm (h ++ [a])
  popHeap_spec : ∀ a h, IsHeap key (a :: h) →
    ∃ h', popHeap (a :: h) = h' ++ [a] ∧ IsHeap key h' ∧ h'.Perm h

/-- Sorting the array is one way to make it a heap. -/
def HeapAlgorithms.sorting {α : Type} (key : α → Nat) : HeapAlgorithms α key where
  pushHeap h := h.mergeSort fun x y => key x ≤ key y
  popHeap
    | [] => []
    | a :: h => h.mergeSort (fun x y => key x ≤ key y) ++ [a]
  pushHeap_spec _ _ _ := ⟨isHeap_mergeSort _, List.mergeSort_perm _ _⟩
  popHeap_spec _ _ _ := ⟨_, rfl, isHeap_mergeSort _, List.mergeSort_perm _ _⟩
