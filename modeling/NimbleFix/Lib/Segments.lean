import Mathlib.Data.List.Chain

/-!
# Lists of segments

A list of segments stands for its concatenation. `advance` drops the first elements of the
concatenation while keeping the cut into segments, as a partial write does; `takeEach` takes a
number of elements of each segment. `length_le_of_isChain` counts the constant segments a list with
different neighbours can be taken from.
-/

namespace Segments

variable {α : Type}

/-- Drop the first `n` elements: whole segments first, then the front of the one they end in. -/
def advance : List (List α) → Nat → List (List α)
  | [], _ => []
  | seg :: rest, n => if seg.length ≤ n then advance rest (n - seg.length) else seg.drop n :: rest

theorem flatten_advance (segs : List (List α)) (n : Nat) :
    (advance segs n).flatten = segs.flatten.drop n := by
  induction segs generalizing n with
  | nil => simp [advance]
  | cons seg rest ih =>
    unfold advance
    by_cases h : seg.length ≤ n
    · rw [if_pos h, ih, List.flatten_cons, List.drop_append, List.drop_eq_nil_of_le h,
        List.nil_append]
    · rw [if_neg h, List.flatten_cons, List.flatten_cons, List.drop_append_of_le_length (by omega)]

theorem length_advance_le (segs : List (List α)) (n : Nat) :
    (advance segs n).length ≤ segs.length := by
  induction segs generalizing n with
  | nil => simp [advance]
  | cons seg rest ih =>
    unfold advance
    by_cases h : seg.length ≤ n
    · have := ih (n - seg.length)
      simp only [if_pos h, List.length_cons]
      omega
    · simp [if_neg h]

/-- The first elements of each segment, as many as `counts` says. -/
def takeEach : List (List α) → List Nat → List α
  | seg :: rest, n :: counts => seg.take n ++ takeEach rest counts
  | _, _ => []

theorem length_takeEach_le : ∀ (segs : List (List α)) (counts : List Nat),
    (takeEach segs counts).length ≤ segs.flatten.length
  | [], _ => by simp [takeEach]
  | _ :: _, [] => by simp [takeEach]
  | seg :: rest, n :: counts => by
    have := length_takeEach_le rest counts
    simp only [takeEach, List.length_append, List.length_take, List.flatten_cons]
    omega

/-- Everything is taken exactly when no segment is cut short. -/
theorem takeEach_eq_flatten_iff {segs : List (List α)} {counts : List Nat}
    (hlen : counts.length = segs.length) :
    takeEach segs counts = segs.flatten ↔ List.Forall₂ (fun seg n => seg.length ≤ n) segs counts := by
  induction segs generalizing counts with
  | nil =>
    obtain rfl : counts = [] := by simpa using hlen
    simp [takeEach]
  | cons seg rest ih =>
    cases counts with
    | nil => simp at hlen
    | cons n counts =>
      simp only [List.length_cons, Nat.add_right_cancel_iff] at hlen
      rw [takeEach, List.flatten_cons, List.forall₂_cons, ← ih hlen]
      constructor
      · intro h
        have hsum := congrArg List.length h
        have hle := length_takeEach_le rest counts
        simp only [List.length_append, List.length_take] at hsum
        have hn : seg.length ≤ n := by omega
        rw [List.take_of_length_le hn] at h
        exact ⟨hn, List.append_cancel_left h⟩
      · rintro ⟨hn, h⟩
        rw [List.take_of_length_le hn, h]

/-- A list whose neighbours differ takes at most one element from each constant segment. -/
theorem length_le_of_isChain {segments : List (List α)}
    (hconst : ∀ seg ∈ segments, ∀ a ∈ seg, ∀ b ∈ seg, a = b) {l : List α}
    (hchain : l.IsChain (· ≠ ·)) (hsub : l.Sublist segments.flatten) : l.length ≤ segments.length := by
  induction segments generalizing l with
  | nil =>
    rw [List.flatten_nil, List.sublist_nil] at hsub
    rw [hsub]
    rfl
  | cons seg segments ih =>
    rw [List.flatten_cons] at hsub
    obtain ⟨front, rest, rfl, hfront, hrest⟩ := List.sublist_append_iff.1 hsub
    have hone : front.length ≤ 1 := by
      match front, hchain.left_of_append, hfront with
      | [], _, _ => exact Nat.zero_le 1
      | [a], _, _ => exact Nat.le_refl 1
      | a :: b :: front, hchain, hfront =>
        have ha := hfront.subset List.mem_cons_self
        have hb := hfront.subset (List.mem_cons_of_mem _ List.mem_cons_self)
        exact absurd (hconst seg List.mem_cons_self a ha b hb)
          (List.isChain_cons_cons.1 hchain).1
    have htail := ih (fun s hs => hconst s (List.mem_cons_of_mem _ hs)) hchain.right_of_append hrest
    rw [List.length_append, List.length_cons]
    omega

end Segments
