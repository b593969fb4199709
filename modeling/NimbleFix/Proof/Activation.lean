import NimbleFix.Lib.Transition
import NimbleFix.Proof.Drain
import NimbleFix.Session.Sample

/-!
# Application messages and the Logon

The invariant `Activated`: a session in one of the states that process application messages has
accepted a Logon since its transport connected. A gap found before the Logon breaks it, since it
moves the session to resend processing; as long as no frame is numbered above the expected number
while the session waits for the Logon, every run keeps it, and a message is delivered only after
an accepted Logon.
-/

namespace NimbleFix

open Fallible AdminProtocol

namespace InboundCore

structure Activated (c : InboundCore) : Prop where
  accepted : isActiveAdminState c.state → c.logonAccepted
  resend : c.state = .resendProcessing →
    c.pendingResend.isSome ∧ (c.resumeState = .active ∨ c.resumeState = .awaitingLogout)
  deferred : c.deferredGapFrames ≠ [] → isActiveAdminState c.state

namespace Activated

variable {c c' : InboundCore}

theorem of_inactive (hst : ¬isActiveAdminState c.state) (hq : c.deferredGapFrames = []) :
    c.Activated :=
  ⟨fun h => absurd h hst, fun h => absurd (by rw [h]; rfl) hst, fun h => absurd hq h⟩

theorem queue_empty (h : c.Activated) (hst : ¬isActiveAdminState c.state) :
    c.deferredGapFrames = [] := by_contra fun hq => hst (h.deferred hq)

theorem settle (h : c.Activated) : c.settle.Activated := by
  unfold InboundCore.settle
  split
  · split
    · rename_i hst
      have hacc := h.accepted (by rw [hst.1]; rfl)
      rcases (h.resend hst.1).2 with hres | hres
      · exact ⟨fun _ => hacc, fun hs => by simp [hres] at hs, fun _ => by simp only [hres]; rfl⟩
      · exact ⟨fun _ => hacc, fun hs => by simp [hres] at hs, fun _ => by simp only [hres]; rfl⟩
    · exact h
  · exact h

theorem advance (h : c.Activated) (n : Nat) : (c.advance n).Activated :=
  settle ⟨h.accepted, h.resend, h.deferred⟩

theorem consume (h : c.Activated) : c.consume.Activated := h.advance _

theorem restore (h : c.Activated) (n : Nat) (hst : c.state ≠ .resendProcessing) :
    (c.restore n).Activated := ⟨h.accepted, fun hs => absurd hs hst, h.deferred⟩

theorem settling (h : c.Activated) (hs : Settling c c') : c'.Activated := by
  cases hs with
  | logout _ =>
    unfold startLogout
    split
    · rename_i hst
      refine ⟨fun _ => h.accepted ?_, fun hs => (by cases hs), fun _ => rfl⟩
      rcases hst with hst | hst <;> rw [hst] <;> rfl
    · exact ⟨h.accepted, h.resend, h.deferred⟩
  | clear hst => exact ⟨h.accepted, fun hs => absurd hs hst, h.deferred⟩
  | accept hst => exact ⟨fun _ => rfl, fun hs => (by cases hs), fun _ => rfl⟩

theorem settles (h : c.Activated) (hs : c.Settles c') : c'.Activated := by
  induction hs with
  | refl => exact h
  | tail _ hstep ih => exact ih.settling hstep

/-- In an active state a gap is noted with a state to resume that is active too. -/
theorem noteGap (h : c.Activated) (hact : isActiveAdminState c.state) (n : Nat) :
    (c.noteGap n).Activated := by
  have hacc := h.accepted hact
  unfold InboundCore.noteGap
  split
  · rename_i hst hp
    exact ⟨fun _ => hacc, fun _ => ⟨rfl, (h.resend hst).2⟩, fun _ => hact⟩
  · rename_i hne
    refine ⟨fun _ => hacc, fun _ => ⟨rfl, ?_⟩, fun _ => rfl⟩
    cases hst : c.state with
    | active => exact .inl rfl
    | awaitingLogout => exact .inr rfl
    | resendProcessing =>
      obtain ⟨range, hrange⟩ := Option.isSome_iff_exists.1 (h.resend hst).1
      exact absurd hrange (hne range hst)
    | _ => rw [hst] at hact; cases hact

theorem noteGap_isActive (n : Nat) (hact : isActiveAdminState c.state) :
    isActiveAdminState (c.noteGap n).state := by
  unfold InboundCore.noteGap
  split
  · exact hact
  · rfl

end Activated

theorem isActive_or_isPreActivation {st : SessionState} (h : SessionCore.CountsSequences st) :
    isActiveAdminState st ∨ isPreActivationState st := by
  rcases h with rfl | rfl | rfl | rfl | rfl <;> decide

/-- A frame that opens no gap before the Logon keeps the invariant. -/
theorem Activated.effect {env : ProtocolEnv} {d : DecodedMessageView} {expected : Nat}
    {c c' : InboundCore} {r : Except Status ProtocolEvent} (h : c.Activated)
    (hgap : isPreActivationState c.state → d.header.msgSeqNum ≤ expected)
    (he : InboundEffect env d expected c r c') : c'.Activated := by
  cases he with
  | quiet hs _ => exact h.settles hs
  | consumed _ _ hs _ => exact h.consume.settles hs
  | filled n _ _ _ _ _ _ _ => exact h.consume.advance n
  | reset n _ _ _ hs _ _ => exact (h.advance n).settles hs
  | gapped hc hlt hexp hs _ =>
    rcases isActive_or_isPreActivation hc with hact | hpre
    · exact (h.noteGap hact _).settles hs
    · exact absurd (hgap hpre) (by omega)
  | deferred hc hlt hexp _ =>
    rcases isActive_or_isPreActivation hc with hact | hpre
    · have hn := h.noteGap hact d.header.msgSeqNum
      exact ⟨hn.accepted, hn.resend, fun _ => noteGap_isActive _ hact⟩
    · exact absurd (hgap hpre) (by omega)

theorem isActive_of_delivered {env : ProtocolEnv} {d : DecodedMessageView} {expected : Nat}
    {c c' : InboundCore} {r : Except Status ProtocolEvent}
    (he : InboundEffect env d expected c r c') (hd : delivered r ≠ []) :
    isActiveAdminState c.state := by
  cases he with
  | consumed _ _ _ hr =>
    rcases hr with hr | hr
    · exact absurd hr.1 hd
    · exact hr.2
  | quiet _ hr => exact absurd hr hd
  | filled _ _ _ _ _ _ hr _ => exact absurd hr hd
  | reset _ _ _ _ _ hr _ => exact absurd hr hd
  | gapped _ _ _ _ hr => exact absurd hr hd
  | deferred _ _ _ hr => exact absurd hr hd

end InboundCore

/-! ## Every call keeps the invariant -/

def AdminProtocol.Activated {σ : Type} (p : AdminProtocol σ) : Prop := p.inboundCore.Activated

section

variable (env : ProtocolEnv) {σ : Type} {α : Type}

theorem activated_of_preserves {m : Method (AdminProtocol σ) α}
    (h : Preserves inboundCore m) : Maintains AdminProtocol.Activated m :=
  h.maintains

theorem activated_of_settles {m : Method (AdminProtocol σ) α} (h : Moves CoreSettles m) :
    Maintains AdminProtocol.Activated m := fun p hp => InboundCore.Activated.settles hp (h p)

theorem connectSession_activated :
    Maintains AdminProtocol.Activated (onSession (σ := σ) SessionCore.onTransportConnected) := by
  intro p h
  simp only [onSession, zoom_apply, SessionCore.onTransportConnected]
  split
  · exact h
  · rename_i hst
    refine .of_inactive (show ¬isActiveAdminState .connected by decide)
      (h.queue_empty fun hact => hst ⟨fun hd => ?_, fun hd => ?_⟩)
    all_goals
      change isActiveAdminState p.session.state at hact
      rw [hd] at hact
      cases hact

theorem beginLogon_activated :
    Maintains AdminProtocol.Activated (onSession (σ := σ) SessionCore.beginLogon) := by
  intro p h
  simp only [onSession, zoom_apply, SessionCore.beginLogon]
  split
  · exact h
  · rename_i hst
    refine .of_inactive (show ¬isActiveAdminState .pendingLogon by decide)
      (h.queue_empty fun hact => hst fun hd => ?_)
    change isActiveAdminState p.session.state at hact
    rw [hd] at hact
    cases hact

theorem closeSession_activated : Maintains AdminProtocol.Activated (do
    Fallible.modify (clearConnection (σ := σ))
    onSession SessionCore.onTransportClosed) := by
  intro p h
  rw [bind_of_ok (modify_apply _ _)]
  simp only [onSession, zoom_apply, SessionCore.onTransportClosed]
  split
  · exact .of_inactive (show ¬isActiveAdminState .disconnected by decide) rfl
  · rename_i hst
    refine .of_inactive ?_ rfl
    have hst : p.session.state = .closed := by
      simpa [clearConnection] using hst
    change ¬isActiveAdminState p.session.state
    rw [hst]
    decide

variable [SessionStore σ]

theorem resetSessionState_activated (nextIn nextOut : Nat) (reset : Bool) :
    Maintains AdminProtocol.Activated (resetSessionState (σ := σ) nextIn nextOut reset) := by
  intro p h
  unfold AdminProtocol.Activated
  rcases resetSessionState_core nextIn nextOut reset p with ⟨_, hs⟩ | ⟨hst, hs⟩
  · rw [hs]; exact h
  · rw [hs]; exact InboundCore.Activated.restore h nextIn hst

theorem refreshSessionStateFromStore_activated :
    Maintains AdminProtocol.Activated (refreshSessionStateFromStore (σ := σ)) := by
  intro p h
  unfold AdminProtocol.Activated
  rcases refreshSessionStateFromStore_core p with hs | ⟨hst, n, hs⟩
  · rw [hs]; exact h
  · rw [hs]; exact InboundCore.Activated.restore h n hst

theorem onTransportConnected_activated (ts : Nat) :
    Maintains AdminProtocol.Activated (onTransportConnected (σ := σ) env ts) := by
  refine .bind (activated_of_preserves ensureInitialized_core) fun _ => .bind ?_ fun _ =>
    .bind connectSession_activated fun _ =>
      .bind (activated_of_preserves persistRecoveryState_core) fun _ => .ite ?_ (.pure _)
  · exact .ite refreshSessionStateFromStore_activated (.pure _)
  · exact .bind (.ite (resetSessionState_activated _ _ _) (.pure _)) fun _ =>
      .bind beginLogon_activated fun _ =>
        .bind (activated_of_preserves (buildLogonFrame_core env ts _)) fun _ => .pure _

theorem onTransportClosed_activated :
    Maintains AdminProtocol.Activated (onTransportClosed (σ := σ) env) := by
  refine .bind (activated_of_preserves ensureInitialized_core) fun _ => ?_
  intro p h
  rw [bind_of_ok (get_apply p)]
  have hclose := closeSession_activated (σ := σ) p h
  exact Maintains.ite (c := resetsOnClose env p.session.state)
    (resetSessionState_activated 1 1 true) (activated_of_preserves persistRecoveryState_core)
    _ hclose

theorem onTimer_activated (ts : Nat) :
    Maintains AdminProtocol.Activated (onTimer (σ := σ) env ts) := by
  refine .bind (activated_of_preserves ensureInitialized_core) fun _ => ?_
  intro p h
  rw [bind_of_ok (get_apply p)]
  cases timerAction env p ts with
  | nothing => exact h
  | disconnect warnings => exact h
  | testRequest =>
    have hcore : Preserves inboundCore (sendTestRequest (σ := σ) env ts) :=
      .bind (.modify fun _ => rfl) fun _ => .bind (buildAdminFrame_core env _ ts) fun _ => .pure _
    exact activated_of_preserves hcore p h
  | heartbeat =>
    have hcore : Preserves inboundCore (sendHeartbeat (σ := σ) env ts) :=
      .bind (buildAdminFrame_core env _ ts) fun _ => .pure _
    exact activated_of_preserves hcore p h

/-! ## Inbound frames -/

/-- While the session waits for a Logon, the frame is not numbered above what is expected. -/
def NoGapBeforeLogon (d : DecodedMessageView) (p : AdminProtocol σ) : Prop :=
  isPreActivationState p.session.state → d.header.msgSeqNum ≤ expectedFor env d p

variable {p : AdminProtocol σ}

theorem onInboundDecoded_activated (d : DecodedMessageView) (ts : Nat) (h : p.Activated)
    (hgap : NoGapBeforeLogon env d p) : (onInboundDecoded env d ts p).2.Activated := by
  obtain ⟨c, hr, he⟩ := onInboundDecoded_effect env d ts p
  cases hr with
  | same => exact InboundCore.Activated.effect h hgap he
  | restored n _ hst => exact (InboundCore.Activated.restore h n hst).effect hgap he

theorem isActive_of_onInboundDecoded (d : DecodedMessageView) (ts : Nat)
    (hd : delivered (onInboundDecoded env d ts p).1 ≠ []) : isActiveAdminState p.session.state := by
  obtain ⟨c, hr, he⟩ := onInboundDecoded_effect env d ts p
  have hact := InboundCore.isActive_of_delivered he hd
  cases hr with
  | same => exact hact
  | restored n _ _ => exact hact

omit [SessionStore σ] in
theorem not_isPreActivation_of_isActive {st : SessionState} (h : isActiveAdminState st) :
    ¬isPreActivationState st := by
  revert h
  cases st <;> decide

theorem noGapBeforeLogon_of_isActive {d : DecodedMessageView}
    (h : isActiveAdminState p.session.state) : NoGapBeforeLogon env d p :=
  fun hpre => absurd hpre (not_isPreActivation_of_isActive h)

omit [SessionStore σ] in
/-- A deferred frame is taken in an active session only. -/
theorem nextDeferred_activated {q : AdminProtocol σ} {frame : Bytes} (h : p.Activated)
    (hn : nextDeferred p = some (frame, q)) : q.Activated ∧ isActiveAdminState q.session.state := by
  obtain ⟨rest, hq, -, rfl⟩ := nextDeferred_eq_some.1 hn
  have hact : isActiveAdminState p.session.state := h.deferred (by
    change p.deferredGapFrames ≠ []
    rw [hq]
    simp)
  exact ⟨⟨h.accepted, h.resend, fun _ => hact⟩, hact⟩

theorem drainDeferredGapFrames_activated (ts : Nat) (event : ProtocolEvent) (h : p.Activated) :
    (drainDeferredGapFrames env ts event p).2.Activated :=
  drainLoop_invariant env ts (P := fun _ q => q.Activated)
    (fun h hn => (nextDeferred_activated h hn).1)
    (fun h hn _ _ => onInboundDecoded_activated env _ ts (nextDeferred_activated h hn).1
      (noGapBeforeLogon_of_isActive env (nextDeferred_activated h hn).2)) _ event p h

/-- A drain that adds to the event found a deferred frame and no resend pending. -/
theorem drainDeferredGapFrames_eq_or (ts : Nat) (event : ProtocolEvent) (p : AdminProtocol σ) :
    (drainDeferredGapFrames env ts event p).1.1 = event ∨
      p.deferredGapFrames ≠ [] ∧ p.session.pendingResend = none := by
  cases hn : nextDeferred p with
  | none =>
    left
    unfold drainDeferredGapFrames
    cases p.deferredGapFrames.length with
    | zero => rfl
    | succ fuel => unfold drainLoop; rw [hn]
  | some x =>
    obtain ⟨rest, hq, hpend, -⟩ := nextDeferred_eq_some.1 hn
    exact .inr ⟨by rw [hq]; simp, hpend⟩

/-- What a call delivers after its first frame `d`, from that frame or from the drain, it delivers
in a session that had accepted a Logon before the call. -/
theorem accepted_of_drained (d : DecodedMessageView) (ts : Nat) (h : p.Activated)
    (event : ProtocolEvent) (hok : (onInboundDecoded env d ts p).1 = .ok event)
    (hd : (drainDeferredGapFrames env ts event
      (onInboundDecoded env d ts p).2).1.1.applicationMessages ≠ []) : p.session.logonAccepted := by
  refine h.accepted ?_
  rcases drainDeferredGapFrames_eq_or env ts event (onInboundDecoded env d ts p).2 with
    he | ⟨hq, hpend⟩
  · rw [he] at hd
    refine isActive_of_onInboundDecoded env d ts ?_
    rw [hok]
    exact hd
  · rcases onInboundDecoded_deferredGapFrames env d ts p with hdef | ⟨-, hsome⟩
    · rw [hdef] at hq
      exact h.deferred hq
    · rw [hpend] at hsome
      cases hsome

/-- A call keeps the invariant and delivers only in a session that has accepted a Logon. -/
def DeliversAccepted (p : AdminProtocol σ) (out : Except Status ProtocolEvent × AdminProtocol σ) :
    Prop :=
  out.2.Activated ∧ (delivered out.1 ≠ [] → p.session.logonAccepted)

omit [SessionStore σ] in
theorem deliversAccepted_of_silent {m : Method (AdminProtocol σ) ProtocolEvent}
    (hm : Maintains AdminProtocol.Activated m) (hs : Silent m) (h : p.Activated) :
    DeliversAccepted p (m p) := ⟨hm p h, fun hd => absurd (hs p) hd⟩

theorem ByteCall.deliversAccepted {frame : Bytes} {ts : Nat}
    {out : Except Status ProtocolEvent × AdminProtocol σ} (hc : ByteCall env frame ts p out)
    (h : p.Activated) (hgap : ∀ d, decodeInbound env frame = .ok d → NoGapBeforeLogon env d p) :
    DeliversAccepted p out := by
  cases hc with
  | malformed status _ =>
    exact deliversAccepted_of_silent
      (activated_of_preserves (handleInboundDecodeFailure_core status ts))
      (handleInboundDecodeFailure_silent status ts) h
  | failed d status q hdec hd =>
    have hq := onInboundDecoded_activated env d ts h (hgap d hdec)
    rw [hd] at hq
    exact ⟨hq, fun hne => absurd rfl hne⟩
  | drained d event q r hdec hd hr =>
    have hq := onInboundDecoded_activated env d ts h (hgap d hdec)
    have hacc := accepted_of_drained env d ts h event (by rw [hd])
    rw [hd] at hq hacc
    refine ⟨drainDeferredGapFrames_activated env ts event hq, fun hne => hacc ?_⟩
    rcases hr with rfl | ⟨status, -, rfl⟩
    · exact hne
    · exact absurd rfl hne

/-! ## Runs -/

/-- The frame a command brings, if it brings one that decodes. -/
def Command.frame : Command → Option DecodedMessageView
  | .inbound bytes _ | .inboundOwned bytes _ => (decodeInbound env bytes).toOption
  | .inboundDecoded d _ => some d
  | _ => none

instance (d : DecodedMessageView) (p : AdminProtocol σ) : Decidable (NoGapBeforeLogon env d p) :=
  inferInstanceAs (Decidable (_ → _))

/-- The guard of a run: no frame opens a gap while the session waits for its Logon. -/
def OpensNoGapBeforeLogon (c : Command) (p : AdminProtocol σ) : Prop :=
  ∀ d ∈ c.frame env, NoGapBeforeLogon env d p

instance (c : Command) (p : AdminProtocol σ) : Decidable (OpensNoGapBeforeLogon env c p) :=
  inferInstanceAs (Decidable (∀ d ∈ c.frame env, NoGapBeforeLogon env d p))

omit [SessionStore σ] in
theorem sendFrame_accepted {m : Method (AdminProtocol σ) EncodedFrame}
    (hm : Maintains AdminProtocol.Activated m) (h : p.Activated) :
    DeliversAccepted p ((do
      let frame ← m
      pure (.ofFrame frame) : Method (AdminProtocol σ) ProtocolEvent) p) :=
  deliversAccepted_of_silent (.bind hm fun _ => .pure _) (.bind fun _ => .pure rfl) h

omit [SessionStore σ] in
theorem ensureSendable_core : Preserves inboundCore (ensureSendable (σ := σ)) := by
  intro p
  unfold ensureSendable
  split <;> rfl

theorem initiateLogon_silent (ts : Nat) : Silent (initiateLogon (σ := σ) env ts) :=
  .bind fun _ => .bind fun _ => .bind fun _ => .pure rfl

theorem onTransportConnected_silent (ts : Nat) :
    Silent (onTransportConnected (σ := σ) env ts) :=
  .bind fun _ => .bind fun _ => .bind fun _ => .bind fun _ =>
    .ite (initiateLogon_silent env ts) (.pure rfl)

theorem onTimer_silent (ts : Nat) : Silent (onTimer (σ := σ) env ts) := by
  refine .bind fun _ => .bind fun p => ?_
  cases timerAction env p ts with
  | nothing => exact .pure rfl
  | disconnect warnings => exact .pure rfl
  | testRequest => exact .bind fun _ => .bind fun _ => .pure rfl
  | heartbeat => exact .bind fun _ => .pure rfl

theorem perform_accepted (c : Command) (h : p.Activated) (hc : OpensNoGapBeforeLogon env c p) :
    DeliversAccepted p (perform env c p) := by
  cases c with
  | connect ts =>
    exact deliversAccepted_of_silent (onTransportConnected_activated env ts)
      (onTransportConnected_silent env ts) h
  | close =>
    exact deliversAccepted_of_silent (.bind (onTransportClosed_activated env) fun _ => .pure _)
      (.bind fun _ => .pure rfl) h
  | inbound frame ts =>
    refine (onInbound_byteCall env frame ts p).deliversAccepted env h fun d hd => hc d ?_
    simp [Command.frame, hd, Except.toOption]
  | inboundOwned frame ts =>
    refine (onInboundOwned_byteCall env frame ts p).deliversAccepted env h fun d hd => hc d ?_
    simp [Command.frame, hd, Except.toOption]
  | inboundDecoded d ts =>
    exact ⟨onInboundDecoded_activated env d ts h (hc d rfl),
      fun hd => h.accepted (isActive_of_onInboundDecoded env d ts hd)⟩
  | timer ts =>
    exact deliversAccepted_of_silent (onTimer_activated env ts) (onTimer_silent env ts) h
  | send m envelope ts =>
    exact sendFrame_accepted (activated_of_preserves (.bind ensureInitialized_core fun _ =>
      .bind ensureSendable_core fun _ => encodeFrameWith_core env _ _ _ ts)) h
  | sendEncoded m envelope extras ts =>
    exact sendFrame_accepted (activated_of_preserves (.bind ensureInitialized_core fun _ =>
      .bind ensureSendable_core fun _ => encodeFrameWith_core env _ _ _ ts)) h
  | logout text ts =>
    exact sendFrame_accepted (activated_of_settles (beginLogout_settles env text ts)) h

theorem create_activated (store : Option σ) : (AdminProtocol.create env store).Activated := by
  have hcore : (AdminProtocol.create env store).session.state = .disconnected ∧
      (AdminProtocol.create env store).deferredGapFrames = [] := by
    unfold AdminProtocol.create
    cases store with
    | none => exact ⟨rfl, rfl⟩
    | some st =>
      dsimp only
      split
      · split
        all_goals
          rename_i h
          have hst := congrArg (fun out => out.2.state) h
          exact ⟨hst.symm.trans (SessionCore.restoreSequenceState_state _ _ _), rfl⟩
      · exact ⟨rfl, rfl⟩
  refine .of_inactive ?_ hcore.2
  change ¬isActiveAdminState (AdminProtocol.create env store).session.state
  rw [hcore.1]
  decide

/-- In every run whose frames open no gap while the session waits for its Logon, a call delivers
an application message only if a Logon has been accepted since the transport connected. -/
theorem delivers_only_after_logon {store : Option σ} {p : AdminProtocol σ}
    (hp : Reaches (fun c p => (perform env c p).2) (OpensNoGapBeforeLogon env)
      (AdminProtocol.create env store) p)
    (c : Command) (hc : OpensNoGapBeforeLogon env c p)
    (hd : delivered (perform env c p).1 ≠ []) : p.session.logonAccepted := by
  have hact : p.Activated := hp.invariant (create_activated env store)
    fun c p h hok => (perform_accepted env c h hok).1
  exact (perform_accepted env c hact hc).2 hd

end

open Sample

theorem delivers_only_after_logon_sample :
    delivered (perform acceptor (.inbound (orderFrame 2) 3)
        (after acceptor [.connect 1, .inbound (logonFrame 1) 2])).1 ≠ [] ∧
      (after acceptor
        [.connect 1, .inbound (logonFrame 1) 2]).session.logonAccepted := by
  have hd : delivered (perform acceptor (.inbound (orderFrame 2) 3)
      (after acceptor [.connect 1, .inbound (logonFrame 1) 2])).1 ≠ [] := by
    decide +kernel
  have hrun : Reaches (fun c p => (perform acceptor c p).2)
      (OpensNoGapBeforeLogon acceptor) (fresh acceptor)
      (after acceptor [.connect 1, .inbound (logonFrame 1) 2]) :=
    .of_stepsOk _ .start (by decide +kernel)
  exact ⟨hd, delivers_only_after_logon acceptor hrun _ (by decide +kernel) hd⟩

/-- An order numbered above the expected number takes an acceptor that waits for the Logon to
resend processing, and the order with the expected number is then delivered. -/
theorem delivers_before_logon :
    (after acceptor
        [.connect 1, .inbound (orderFrame 3) 2]).session.logonAccepted = false ∧
      (delivered (perform acceptor (.inbound (orderFrame 1) 3)
        (after acceptor [.connect 1, .inbound (orderFrame 3) 2])).1).map
        (·.header.msgSeqNum) = [1] := by
  decide +kernel

end NimbleFix
