import NimbleFix.Session.SessionCore

/-!
# What the session operations do

One case lemma for each operation of `SessionCore` that moves the inbound counter or the state.
-/

namespace NimbleFix

namespace SessionCore

variable (s : SessionCore)

/-! ## Closing a resend -/

theorem settleResend_cases :
    s.settleResend = s ∨
      s.state = .resendProcessing ∧ (∃ range, s.pendingResend = some range ∧
        range.endSeq < s.nextInSeq) ∧
      s.settleResend =
        { s with pendingResend := none, state := s.resumeState, resendCompleted := true } := by
  unfold settleResend
  split
  · rename_i range hrange
    split
    · rename_i h
      exact .inr ⟨h.1, ⟨range, hrange, h.2⟩, rfl⟩
    · exact .inl rfl
  · exact .inl rfl

@[simp] theorem settleResend_nextInSeq : s.settleResend.nextInSeq = s.nextInSeq := by
  rcases s.settleResend_cases with h | ⟨-, -, h⟩ <;> rw [h]

@[simp] theorem settleResend_nextOutSeq : s.settleResend.nextOutSeq = s.nextOutSeq := by
  rcases s.settleResend_cases with h | ⟨-, -, h⟩ <;> rw [h]

@[simp] theorem settleResend_config : s.settleResend.config = s.config := by
  rcases s.settleResend_cases with h | ⟨-, -, h⟩ <;> rw [h]

/-! ## Inbound numbers -/

/-- Observing a number: refused, stale, past a gap, or the expected one. -/
theorem observeInboundSeq_cases (n : Nat) :
    (¬CountsSequences s.state ∧ (observeInboundSeq n s).1 ≠ .ok () ∧
        (observeInboundSeq n s).2 = s) ∨
      (CountsSequences s.state ∧ n < s.nextInSeq ∧ (observeInboundSeq n s).1 ≠ .ok () ∧
        (observeInboundSeq n s).2 = s) ∨
      (CountsSequences s.state ∧ s.nextInSeq < n ∧ (observeInboundSeq n s).1 ≠ .ok () ∧
        (observeInboundSeq n s).2 = noteGap n s) ∨
      (CountsSequences s.state ∧ n = s.nextInSeq ∧ (observeInboundSeq n s).1 = .ok () ∧
        (observeInboundSeq n s).2 =
          settleResend { s with nextInSeq := wrap32 (s.nextInSeq + 1) }) := by
  unfold observeInboundSeq
  by_cases hc : CountsSequences s.state
  · rcases Nat.lt_trichotomy n s.nextInSeq with h | h | h
    · simp [hc, h]
    · simp [hc, h]
    · simp [hc, h, Nat.lt_asymm h]
  · simp [hc]

theorem advanceInboundExpectedSeq_cases (n : Nat) :
    ((advanceInboundExpectedSeq n s).1 ≠ .ok () ∧ (advanceInboundExpectedSeq n s).2 = s) ∨
      (0 < n ∧ s.nextInSeq ≤ n ∧
        advanceInboundExpectedSeq n s = (.ok (), settleResend { s with nextInSeq := n })) := by
  unfold advanceInboundExpectedSeq
  split
  · exact .inl ⟨by simp, rfl⟩
  · split
    · exact .inl ⟨by simp, rfl⟩
    · exact .inr ⟨by omega, by omega, rfl⟩

theorem restoreSequenceState_state (nextIn nextOut : Nat) :
    (restoreSequenceState nextIn nextOut s).2.state = s.state := by
  unfold restoreSequenceState
  split
  · rfl
  · split <;> rfl

theorem restoreSequenceState_cases (nextIn nextOut : Nat) :
    ((restoreSequenceState nextIn nextOut s).1 ≠ .ok () ∧
        (restoreSequenceState nextIn nextOut s).2 = s) ∨
      (s.state ≠ .resendProcessing ∧ s.state ≠ .awaitingLogout ∧ nextIn ≠ 0 ∧ nextOut ≠ 0 ∧
        restoreSequenceState nextIn nextOut s =
          (.ok (),
            { s with nextInSeq := nextIn, nextOutSeq := nextOut, pendingResend := none })) := by
  unfold restoreSequenceState
  split
  · exact .inl ⟨by simp, rfl⟩
  · rename_i hst
    split
    · exact .inl ⟨by simp, rfl⟩
    · rename_i hpos
      refine .inr ⟨?_, ?_, by omega, by omega, rfl⟩
      · intro h; simp [h] at hst
      · intro h; simp [h] at hst

end SessionCore

end NimbleFix
