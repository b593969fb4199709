import NimbleFix.Proof.InboundCore
import NimbleFix.Proof.SessionSteps

/-!
# Replies, logouts and Logons only settle the core

`CoreSettles p q`: from `p` to `q` no inbound number moved. Sending a Reject or a Logout and
accepting a Logon settle the core, and hand nothing to the application (`Silent`).
-/

namespace NimbleFix

open Fallible AdminProtocol SessionCore

/-! ## The core under session operations -/

section

variable {σ : Type}

theorem inboundCore_settleResend (p : AdminProtocol σ) (s : SessionCore) :
    ({ p with session := s.settleResend } : AdminProtocol σ).inboundCore =
      ({ p with session := s } : AdminProtocol σ).inboundCore.settle := by
  simp only [inboundCore, InboundCore.settle, settleResend]
  cases hp : s.pendingResend with
  | none => simp only [hp]
  | some range =>
    by_cases h : s.state = .resendProcessing ∧ range.endSeq < s.nextInSeq
    · simp only [h, and_self, if_true]
    · simp only [h, if_false, hp]

theorem inboundCore_noteGap (p : AdminProtocol σ) (n : Nat) :
    ({ p with session := p.session.noteGap n } : AdminProtocol σ).inboundCore =
      p.inboundCore.noteGap n := by
  simp only [inboundCore, InboundCore.noteGap, noteGap]
  cases hst : p.session.state <;> cases hp : p.session.pendingResend <;> rfl

theorem onSession_observe_cases (p : AdminProtocol σ) (n : Nat) :
    (((onSession (observeInboundSeq n)) p).1 ≠ .ok () ∧
        ((onSession (observeInboundSeq n)) p).2 = p ∧
        (¬CountsSequences p.session.state ∨ n < p.session.nextInSeq)) ∨
      (CountsSequences p.session.state ∧ p.session.nextInSeq < n ∧
        ((onSession (observeInboundSeq n)) p).1 ≠ .ok () ∧
        ((onSession (observeInboundSeq n)) p).2.inboundCore =
          p.inboundCore.noteGap n) ∨
      (CountsSequences p.session.state ∧ n = p.session.nextInSeq ∧
        ((onSession (observeInboundSeq n)) p).1 = .ok () ∧
        ((onSession (observeInboundSeq n)) p).2.inboundCore =
          p.inboundCore.consume) := by
  simp only [onSession, zoom_apply]
  rcases p.session.observeInboundSeq_cases n with ⟨hc, hr, hs⟩ | ⟨_, hn, hr, hs⟩ |
    ⟨hc, hn, hr, hs⟩ | ⟨hc, hn, hr, hs⟩
  · exact .inl ⟨hr, by rw [hs], .inl hc⟩
  · exact .inl ⟨hr, by rw [hs], .inr hn⟩
  · exact .inr (.inl ⟨hc, hn, hr, by rw [hs, inboundCore_noteGap]⟩)
  · exact .inr (.inr ⟨hc, hn, hr, by rw [hs, inboundCore_settleResend]; rfl⟩)

theorem onSession_advance (p : AdminProtocol σ) {n : Nat} (hpos : 0 < n)
    (hn : p.session.nextInSeq ≤ n) :
    ((onSession (advanceInboundExpectedSeq n)) p).1 = .ok () ∧
      ((onSession (advanceInboundExpectedSeq n)) p).2.inboundCore =
        p.inboundCore.advance n := by
  have h : advanceInboundExpectedSeq n p.session =
      (.ok (), settleResend { p.session with nextInSeq := n }) := by
    unfold advanceInboundExpectedSeq
    rw [if_neg (by omega), if_neg (by omega)]
  simp only [onSession, zoom_apply, h]
  exact ⟨trivial, by rw [inboundCore_settleResend]; rfl⟩

theorem onSession_restore_cases (p : AdminProtocol σ) (nextIn nextOut : Nat) :
    (((onSession (restoreSequenceState nextIn nextOut)) p).1 ≠ .ok () ∧
        ((onSession (restoreSequenceState nextIn nextOut)) p).2 = p) ∨
      (p.session.state ≠ .resendProcessing ∧
        ((onSession (restoreSequenceState nextIn nextOut)) p).1 = .ok () ∧
        ((onSession (restoreSequenceState nextIn nextOut)) p).2.inboundCore =
          p.inboundCore.restore nextIn) := by
  simp only [onSession, zoom_apply]
  rcases p.session.restoreSequenceState_cases nextIn nextOut with ⟨hr, hs⟩ | ⟨hst, _, _, _, h⟩
  · exact .inl ⟨hr, by rw [hs]⟩
  · exact .inr ⟨hst, by rw [h], by rw [h]; rfl⟩

end

theorem error_of_ne_ok {r : Except Status Unit} (h : r ≠ .ok ()) : ∃ e, r = .error e := by
  cases r with
  | error e => exact ⟨e, rfl⟩
  | ok a => exact absurd rfl h

/-! ## Calls that deliver nothing -/

/-- No outcome of `m` hands a message to the application. -/
def Silent {σ : Type} (m : Method (AdminProtocol σ) ProtocolEvent) : Prop :=
  ∀ p, delivered (m p).1 = []

namespace Silent

variable {σ : Type} {α : Type}

theorem pure {event : ProtocolEvent} (h : event.applicationMessages = []) :
    Silent (Pure.pure event : Method (AdminProtocol σ) ProtocolEvent) := fun _ => h

theorem fail (e : Status) : Silent (Fallible.fail e : Method (AdminProtocol σ) ProtocolEvent) :=
  fun _ => rfl

theorem bind {m : Method (AdminProtocol σ) α} {k : α → Method (AdminProtocol σ) ProtocolEvent}
    (hk : ∀ a, Silent (k a)) : Silent (m >>= k) := by
  intro p
  rw [bind_apply]
  split
  · exact hk _ _
  · rfl

theorem ite {c : Prop} [Decidable c] {m₁ m₂ : Method (AdminProtocol σ) ProtocolEvent}
    (h₁ : Silent m₁) (h₂ : Silent m₂) : Silent (if c then m₁ else m₂) := by
  split
  · exact h₁
  · exact h₂

end Silent

/-! ## Calls that answer -/

/-- Every outcome of `m` sends something, drops the connection or is a failure. -/
def Answers {σ : Type} (m : Method (AdminProtocol σ) ProtocolEvent) : Prop :=
  ∀ p, IfOk (m p).1 ProtocolEvent.Answered

namespace Answers

variable {σ : Type} {α : Type}

theorem pure {event : ProtocolEvent} (h : event.outboundFrames ≠ [] ∨ event.disconnect) :
    Answers (Pure.pure event : Method (AdminProtocol σ) ProtocolEvent) := fun _ => h

theorem bind {m : Method (AdminProtocol σ) α} {k : α → Method (AdminProtocol σ) ProtocolEvent}
    (hk : ∀ a, Answers (k a)) : Answers (m >>= k) := by
  intro p
  rw [bind_apply]
  split
  · exact hk _ _
  · trivial

end Answers

/-- The core of `q` is the core of `p` or has settled from it. -/
def CoreSettles {σ : Type} (p q : AdminProtocol σ) : Prop := p.inboundCore.Settles q.inboundCore

instance {σ : Type} : Std.Refl (CoreSettles (σ := σ)) := ⟨fun _ => .refl⟩

instance {σ : Type} : IsTrans (AdminProtocol σ) CoreSettles := ⟨fun _ _ _ h h' => h.trans h'⟩

theorem coreSettles_of_preserves {σ α : Type} {m : Method (AdminProtocol σ) α}
    (h : Preserves inboundCore m) : Moves CoreSettles m := by
  intro p
  unfold CoreSettles
  rw [h p]

section

variable (env : ProtocolEnv) {σ : Type} [SessionStore σ]

/-! ## Replies and logouts -/

omit [SessionStore σ] in
theorem beginSessionLogout_core (p : AdminProtocol σ) :
    (beginSessionLogout p).1 = .ok () ∧
      ({ (beginSessionLogout p).2 with logoutSent := true } : AdminProtocol σ).inboundCore =
        p.inboundCore.startLogout := by
  have hcore : p.inboundCore.state = p.session.state := rfl
  unfold beginSessionLogout InboundCore.startLogout
  by_cases h : p.session.state = .active ∨ p.session.state = .resendProcessing
  · have hb : ¬(p.session.state ≠ .active ∧ p.session.state ≠ .resendProcessing) := by
      rintro ⟨h1, h2⟩
      exact h.elim h1 h2
    rw [if_pos h, hcore, if_pos h]
    simp only [onSession, zoom_apply, SessionCore.beginLogout, if_neg hb]
    exact ⟨trivial, rfl⟩
  · rw [if_neg h, hcore, if_neg h]
    exact ⟨rfl, rfl⟩

theorem sendLogout_core (text : Bytes) (ts : Nat) (p : AdminProtocol σ) :
    (sendLogout env text ts p).2.inboundCore = p.inboundCore.startLogout := by
  obtain ⟨hok, hcore⟩ := beginSessionLogout_core p
  unfold sendLogout
  have hstep : beginSessionLogout p = (.ok (), (beginSessionLogout p).2) := by
    rw [← hok]
  rw [bind_of_ok hstep, bind_of_ok (modify_apply _ _), buildAdminFrame_core env _ ts]
  exact hcore

theorem beginLogout_settles (text : Bytes) (ts : Nat) :
    Moves CoreSettles (beginLogout (σ := σ) env text ts) := by
  refine .bind (coreSettles_of_preserves ensureInitialized_core) fun _ => ?_
  intro p
  rw [bind_of_ok (get_apply p)]
  split
  · exact .refl
  · rename_i h
    unfold CoreSettles
    rw [sendLogout_core]
    exact .single (.logout _ (show p.logoutSent = false by simpa using h))

/-- `m` refuses what it was given: no number moves, nothing is delivered and the peer is told. -/
structure Declines {σ : Type} (m : Method (AdminProtocol σ) ProtocolEvent) : Prop where
  settles : Moves CoreSettles m
  silent : Silent m
  answers : Answers m

omit [SessionStore σ] in
theorem Declines.ite {c : Prop} [Decidable c] {m₁ m₂ : Method (AdminProtocol σ) ProtocolEvent}
    (h₁ : Declines m₁) (h₂ : Declines m₂) : Declines (if c then m₁ else m₂) := by
  split
  · exact h₁
  · exact h₂

theorem logoutAndDisconnect_declines {event : ProtocolEvent} (h : event.applicationMessages = [])
    (text : Bytes) (ts : Nat) : Declines (logoutAndDisconnect (σ := σ) env event text ts) where
  settles := .bind (beginLogout_settles env text ts) fun _ => .pure _
  silent := .bind fun _ => .pure h
  answers := .bind fun _ => .pure (.inr rfl)

theorem rejectionEvent_applicationMessages (r : Rejection) :
    (rejectionEvent r).applicationMessages = [] := by
  unfold rejectionEvent
  split <;> rfl

variable (d : DecodedMessageView)

theorem rejectInbound_declines (r : Rejection) (ts : Nat) :
    Declines (rejectInbound (σ := σ) env d r ts) := by
  have h := rejectionEvent_applicationMessages r
  refine .ite (logoutAndDisconnect_declines env h _ ts) ⟨?_, ?_, ?_⟩
  · exact .bind (coreSettles_of_preserves (buildAdminFrame_core env _ ts)) fun _ => .pure _
  · exact .bind fun _ => .pure h
  · exact .bind fun _ => .pure (.inl (by simp))

/-- A rejection without a disconnect keeps the events of `rejectInbound` silent, so the Logout
that follows it is too. -/
theorem rejectThenLogout_silent (r : Rejection) (ts : Nat) :
    Silent (rejectThenLogout (σ := σ) env d r ts) := by
  intro p
  unfold rejectThenLogout
  rw [bind_apply]
  have hs := (rejectInbound_declines env d { r with disconnect := false } ts).silent p
  revert hs
  generalize rejectInbound env d { r with disconnect := false } ts p = q
  obtain ⟨_ | event, q⟩ := q
  · exact fun _ => rfl
  · exact fun hs => (logoutAndDisconnect_declines env hs _ ts).silent q

theorem rejectThenLogout_declines (r : Rejection) (ts : Nat) :
    Declines (rejectThenLogout (σ := σ) env d r ts) where
  settles := .bind (rejectInbound_declines env d _ ts).settles fun _ =>
    .bind (beginLogout_settles env _ ts) fun _ => .pure _
  silent := rejectThenLogout_silent env d r ts
  answers := .bind fun _ => .bind fun _ => .pure (.inr rfl)

theorem phaseViolationLogout_declines (text : Bytes) (before : SessionSnapshot) (msgType : Bytes)
    (ts : Nat) : Declines (phaseViolationLogout (σ := σ) env text before msgType ts) :=
  .ite ⟨.pure _, .pure rfl, .pure (.inr rfl)⟩ (logoutAndDisconnect_declines env rfl _ ts)

/-- The checks after a commit decline the frame or are passed. -/
theorem checkPhaseAndContent_cases (before : SessionSnapshot) (ts : Nat)
    (accepted : Method (AdminProtocol σ) ProtocolEvent) :
    (Declines (checkPhaseAndContent env d before ts accepted) ∧
        ¬(adminPhaseViolationText before.state d.msgType = none ∧
          validateAdministrativeMessage env d = none)) ∨
      (adminPhaseViolationText before.state d.msgType = none ∧
        validateAdministrativeMessage env d = none ∧
        checkPhaseAndContent env d before ts accepted = accepted) := by
  unfold checkPhaseAndContent
  cases hphase : adminPhaseViolationText before.state d.msgType with
  | some text =>
    exact .inl ⟨phaseViolationLogout_declines env text before _ ts, by simp⟩
  | none =>
    cases hvalid : validateAdministrativeMessage env d with
    | some r => exact .inl ⟨rejectInbound_declines env d r ts, by simp⟩
    | none => exact .inr ⟨rfl, rfl, rfl⟩

/-! ## Logon -/

/-- A reset of the counters: no effect, or `nextIn` is the new expected number. -/
theorem resetSessionState_core (nextIn nextOut : Nat) (reset : Bool) (p : AdminProtocol σ) :
    ((resetSessionState nextIn nextOut reset p).1 ≠ .ok () ∧
        (resetSessionState nextIn nextOut reset p).2.inboundCore = p.inboundCore) ∨
      (p.session.state ≠ .resendProcessing ∧
        (resetSessionState nextIn nextOut reset p).2.inboundCore =
          p.inboundCore.restore nextIn) := by
  have hstore : Preserves inboundCore (resetStore (σ := σ) reset) :=
    .ite (.bind (onStore_core _ _) fun _ => .modify fun _ => rfl) (.pure _)
  have hp := hstore p
  unfold resetSessionState
  rw [bind_apply]
  revert hp
  generalize resetStore reset p = q
  obtain ⟨_ | _, q⟩ := q
  · exact fun hp => .inl ⟨by simp, hp⟩
  · intro hp
    simp only at hp ⊢
    rw [← hp, show p.session.state = q.session.state from
      (congrArg InboundCore.state hp).symm]
    rcases onSession_restore_cases q nextIn nextOut with ⟨hr, hs⟩ | ⟨hst, hr, hs⟩
    · refine .inl ?_
      obtain ⟨e, he⟩ := error_of_ne_ok hr
      rw [bind_of_error (Prod.ext he hs)]
      exact ⟨by simp, rfl⟩
    · refine .inr ⟨hst, ?_⟩
      rw [bind_of_ok (Prod.ext hr rfl), persistRecoveryState_core]
      exact hs

theorem resetAfterLogon_settles (p : AdminProtocol σ)
    (h : p.session.nextInSeq = wrap32 (d.header.msgSeqNum + 1)) :
    CoreSettles p (resetAfterLogon env d p).2 := by
  unfold resetAfterLogon
  split
  · rcases resetSessionState_core (wrap32 (d.header.msgSeqNum + 1))
      (if env.config.session.isInitiator then p.session.nextOutSeq else 1) false p with
      ⟨_, hs⟩ | ⟨hst, hs⟩
    · unfold CoreSettles
      rw [hs]
    · unfold CoreSettles
      rw [hs, ← h]
      exact .single (.clear _ hst)
  · exact .refl

omit [SessionStore σ] in
theorem onLogonAccepted_settles :
    Moves CoreSettles (onSession (σ := σ) onLogonAccepted) := by
  intro p
  simp only [onSession, zoom_apply, onLogonAccepted]
  split
  · exact .refl
  · rename_i h
    refine .single (.accept _ ?_)
    by_cases hc : p.session.state = .connected
    · exact .inl hc
    · exact .inr (by_contra fun hp => h ⟨hc, hp⟩)

theorem acceptLogon_settles (preLogonNextOut ts : Nat) :
    Moves CoreSettles (acceptLogon (σ := σ) env d preLogonNextOut ts) := by
  have hresponse : ∀ reset, Preserves inboundCore
      (logonResponse (σ := σ) env reset ts) := fun reset =>
    .ite (.pure _) (.bind (buildLogonFrame_core env ts _) fun _ => .pure _)
  have hreplay : ∀ expected, Preserves inboundCore
      (logonReplay (σ := σ) env expected preLogonNextOut ts) := by
    rintro (_ | expected)
    · exact .pure _
    · exact replayCounterpartyExpectedRange_core env _ _ ts
  exact .bind (coreSettles_of_preserves (hresponse _)) fun _ =>
    .bind onLogonAccepted_settles fun _ =>
      .bind (coreSettles_of_preserves persistRecoveryState_core) fun _ =>
        .bind (coreSettles_of_preserves (hreplay _)) fun _ => .pure _

theorem processInboundLogon_settles (ts : Nat) (p : AdminProtocol σ)
    (h : p.session.nextInSeq = wrap32 (d.header.msgSeqNum + 1)) :
    CoreSettles p (processInboundLogon env d ts p).2 := by
  refine Moves.bind_at (resetAfterLogon_settles env d p h) fun _ => ?_
  intro q
  rw [bind_of_ok (get_apply q)]
  cases nextExpectedError (d.message.getInt Tag.nextExpectedMsgSeqNum) q.session.nextOutSeq with
  | some text => exact (logoutAndDisconnect_declines env rfl _ ts).settles q
  | none => exact acceptLogon_settles env d _ ts q

theorem processInboundLogon_silent (ts : Nat) : Silent (processInboundLogon (σ := σ) env d ts) := by
  refine .bind fun _ => .bind fun p => ?_
  split
  · exact (logoutAndDisconnect_declines env rfl _ ts).silent
  · exact .bind fun _ => .bind fun _ => .bind fun _ => .bind fun _ => .pure rfl

end

end NimbleFix
