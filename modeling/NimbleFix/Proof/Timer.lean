import NimbleFix.Lib.Transition
import NimbleFix.Proof.Drain
import NimbleFix.Session.Sample

/-!
# The timer and its deadline

`NextTimerDeadline` and `OnTimer` are two case analyses over the same times. `timeouts` lists the
times at which an active session has something to do: the timer acts exactly when one of them has
passed, and the deadline is the earliest of them. The two agree in every state where an outstanding
test request has a time, and no run leaves these states.

A frame that is due may fail to be built, because the outbound numbers are used up or because the
encoder or the store refuses: then the timer returns that error in place of the frame.
-/

namespace NimbleFix

open Fallible AdminProtocol

/-! ## Outstanding test requests have a time -/

section

variable {σ : Type}

def AdminProtocol.testRequest (p : AdminProtocol σ) : Bytes × Nat :=
  (p.outstandingTestRequestId, p.testRequestSentNs)

/-- The time a test request was sent is not the one that stands for none. -/
def AdminProtocol.RequestTimed (p : AdminProtocol σ) : Prop :=
  p.testRequest.1 = [] ∨ p.testRequest.2 ≠ 0

theorem requestTimed_of_preserves {α : Type} {m : Method (AdminProtocol σ) α}
    (h : Preserves AdminProtocol.testRequest m) : Maintains RequestTimed m := by
  intro p hp
  unfold RequestTimed
  rw [h p]
  exact hp

theorem onStore_testRequest {α : Type} (absent : α) (m : SessionCore → Method σ α) :
    Preserves AdminProtocol.testRequest (onStore absent m) := by
  intro p
  unfold onStore
  split <;> rfl

theorem onSession_testRequest {α : Type} (m : Method SessionCore α) :
    Preserves AdminProtocol.testRequest (onSession (σ := σ) m) := fun _ => rfl

variable [SessionStore σ]

theorem persistRecoveryState_testRequest :
    Preserves AdminProtocol.testRequest (persistRecoveryState (σ := σ)) := onStore_testRequest _ _

theorem resetSessionState_testRequest (nextIn nextOut : Nat) (reset : Bool) :
    Preserves AdminProtocol.testRequest (resetSessionState (σ := σ) nextIn nextOut reset) :=
  .bind (.ite (.bind (onStore_testRequest _ _) fun _ => .modify fun _ => rfl) (.pure _)) fun _ =>
    .bind (onSession_testRequest _) fun _ => persistRecoveryState_testRequest

theorem refreshSessionStateFromStore_testRequest :
    Preserves AdminProtocol.testRequest (refreshSessionStateFromStore (σ := σ)) := by
  intro p
  unfold refreshSessionStateFromStore
  split
  · rfl
  · refine Preserves.bind (onStore_testRequest _ _) (fun _ =>
      .bind (.attempt (onStore_testRequest _ _)) fun recovery => ?_) p
    cases recovery with
    | ok r => exact onSession_testRequest _
    | error e => exact .ite (onSession_testRequest _) (.fail _)

variable (env : ProtocolEnv)

theorem sending_requestTimed : SendingKeeps env (RequestTimed (σ := σ)) where
  allocate := requestTimed_of_preserves (onSession_testRequest _)
  clock _ hp := hp
  outbound _ _ hp := hp
  save _ _ _ _ := requestTimed_of_preserves
    (.ite (onStore_testRequest _ _) persistRecoveryState_testRequest)
  persist := requestTimed_of_preserves persistRecoveryState_testRequest
  load _ _ := requestTimed_of_preserves (onStore_testRequest _ _)
  logout := by
    intro p hp
    unfold beginSessionLogout
    split <;> exact hp
  logoutSent _ _ hp := hp

theorem receiving_requestTimed (d : DecodedMessageView) :
    ReceivingKeeps env (RequestTimed (σ := σ)) d where
  toSendingKeeps := sending_requestTimed env
  inbound _ _ hp := hp
  commit _ := requestTimed_of_preserves
    (.bind (onSession_testRequest _) fun _ => onStore_testRequest _ _)
  settle := by
    intro p hp
    -- A completed resend clears the request, whatever its time.
    cases hc : p.session.consumeResendCompleted.1 with
    | true => exact .inl (if_pos hc)
    | false => exact hp.imp_left fun hnone => (if_neg (by simp [hc])).trans hnone
  observe := requestTimed_of_preserves (onSession_testRequest _)
  advance _ := requestTimed_of_preserves (onSession_testRequest _)
  accept := requestTimed_of_preserves (onSession_testRequest _)
  heartbeat := by
    intro p hp
    unfold processHeartbeat
    dsimp only
    split
    · exact .inl rfl
    · exact hp
  defer _ hp := hp
  refresh := requestTimed_of_preserves (.ite refreshSessionStateFromStore_testRequest (.pure _))
  reset _ := requestTimed_of_preserves
    (.ite (.bind (resetSessionState_testRequest _ _ _) fun _ => .bind .get fun _ => .pure _) (.pure _))
  resetAfter _ := by
    refine requestTimed_of_preserves fun p => ?_
    unfold resetAfterLogon
    split
    · exact resetSessionState_testRequest _ _ _ p
    · rfl

omit [SessionStore σ] in
/-- The timer sends a test request only after the time zero. -/
theorem timerAction_testRequest {p : AdminProtocol σ} {ts : Nat}
    (h : timerAction env p ts = .testRequest) : 0 < ts := by
  unfold timerAction at h
  dsimp only at h
  repeat' split at h
  all_goals first | omega | cases h

theorem onTimer_requestTimed (ts : Nat) :
    Maintains RequestTimed (onTimer (σ := σ) env ts) :=
  (sending_requestTimed env).onTimer fun _ haction _ =>
    .inr (Nat.pos_iff_ne_zero.1 (timerAction_testRequest env haction))

theorem drain_requestTimed (ts : Nat) (event : ProtocolEvent) {p : AdminProtocol σ}
    (hp : p.RequestTimed) : (drainDeferredGapFrames env ts event p).2.RequestTimed := by
  refine drainLoop_invariant env ts (P := fun _ q => q.RequestTimed) ?_ ?_ _ event p hp
  · intro _ p _ q hp hnext
    obtain ⟨rest, -, -, rfl⟩ := nextDeferred_eq_some.1 hnext
    exact hp
  · intro _ p _ q d hp hnext _ _
    obtain ⟨rest, -, -, rfl⟩ := nextDeferred_eq_some.1 hnext
    exact (receiving_requestTimed env d).onInboundDecoded ts _ hp

theorem byteCall_requestTimed {frame : Bytes} {ts : Nat} {p : AdminProtocol σ}
    {out : Except Status ProtocolEvent × AdminProtocol σ} (h : ByteCall env frame ts p out)
    (hp : p.RequestTimed) : out.2.RequestTimed := by
  cases h with
  | malformed status _ =>
    exact Maintains.ite (.fail _) (.bind ensureInitialized_keeps fun _ => .bind (fun _ hq => hq)
      fun _ => .bind (sending_requestTimed env).persist fun _ => .pure _) p hp
  | failed d status q _ hd =>
    have h := (receiving_requestTimed env d).onInboundDecoded ts p hp
    rwa [hd] at h
  | drained d event q r _ hd _ =>
    have h := (receiving_requestTimed env d).onInboundDecoded ts p hp
    rw [hd] at h
    exact drain_requestTimed env ts event h

theorem perform_requestTimed (c : Command) :
    Maintains RequestTimed (perform (σ := σ) env c) := by
  have hsend := sending_requestTimed (σ := σ) env
  cases c with
  | connect ts =>
    have hkeep := fun m : Method SessionCore Unit =>
      requestTimed_of_preserves (onSession_testRequest (σ := σ) m)
    exact .bind ensureInitialized_keeps fun _ =>
      .bind (requestTimed_of_preserves (.ite refreshSessionStateFromStore_testRequest (.pure _)))
        fun _ => .bind (hkeep _) fun _ => .bind hsend.persist fun _ => .ite
          (.bind (requestTimed_of_preserves (.ite (resetSessionState_testRequest _ _ _) (.pure _)))
            fun _ => .bind (hkeep _) fun _ => .bind (hsend.buildLogonFrame ts _) fun _ => .pure _)
          (.pure _)
  | close =>
    refine .bind (.bind ensureInitialized_keeps fun _ => .bind maintains_get fun p => ?_)
      fun _ => .pure _
    exact .bind (fun _ _ => .inl rfl) fun _ =>
      .bind (requestTimed_of_preserves (onSession_testRequest _)) fun _ => requestTimed_of_preserves
        (.ite (resetSessionState_testRequest _ _ _) persistRecoveryState_testRequest)
  | inbound frame ts =>
    exact fun p hp => byteCall_requestTimed env (onInbound_byteCall env frame ts p) hp
  | inboundOwned frame ts =>
    exact fun p hp => byteCall_requestTimed env (onInboundOwned_byteCall env frame ts p) hp
  | inboundDecoded d ts => exact (receiving_requestTimed env d).onInboundDecoded ts
  | timer ts => exact onTimer_requestTimed env ts
  | send m envelope ts => exact .bind (hsend.send _ _ _ ts) fun _ => .pure _
  | sendEncoded m envelope extras ts => exact .bind (hsend.send _ _ _ ts) fun _ => .pure _
  | logout text ts => exact .bind (hsend.beginLogout text ts) fun _ => .pure _

theorem create_requestTimed (store : Option σ) : (AdminProtocol.create env store).RequestTimed := by
  left
  unfold AdminProtocol.create AdminProtocol.testRequest
  dsimp only
  repeat' split
  all_goals rfl

end

/-! ## The times of an active session -/

section

variable (env : ProtocolEnv) {σ : Type} {p : AdminProtocol σ}

/-- The times after which an active session has something to do. -/
def timeouts (p : AdminProtocol σ) : List Nat :=
  let interval := heartbeatIntervalNs env
  (if p.session.state = .awaitingLogout ∧ p.logoutSentNs ≠ 0 then
      [wrap64 (p.logoutSentNs + interval)] else []) ++
    (if p.outstandingTestRequestId ≠ [] ∧ p.testRequestSentNs ≠ 0 then
        [wrap64 (p.testRequestSentNs + interval)]
      else if p.session.lastInboundNs ≠ 0 then
        [wrap64 (p.session.lastInboundNs + (interval + interval / kTestRequestGraceDivisor))]
      else []) ++
    [wrap64 (p.session.lastOutboundNs + interval)]

theorem le_earlierDeadline_iff (deadline : Option Nat) (c t : Nat) :
    (∀ d, earlierDeadline deadline c = some d → t ≤ d) ↔
      (∀ d, deadline = some d → t ≤ d) ∧ t ≤ c := by
  cases deadline with
  | none => simp [earlierDeadline]
  | some d =>
    unfold earlierDeadline
    dsimp only
    split <;> simp <;> omega

theorem earlierDeadline_le {deadline : Option Nat} {c d : Nat}
    (h : earlierDeadline deadline c = some d) : d ≤ c :=
  ((le_earlierDeadline_iff deadline c d).1 fun _ he => (Option.some.inj (h.symm.trans he)).le).2

theorem le_activeDeadline_iff (hsent : p.session.lastOutboundNs ≠ 0) (now t : Nat) :
    (∀ d, activeDeadline env p now = some d → t ≤ d) ↔ ∀ c ∈ timeouts env p, t ≤ c := by
  unfold activeDeadline timeouts
  dsimp only
  rw [if_neg hsent, le_earlierDeadline_iff]
  split_ifs <;> simp [le_earlierDeadline_iff, and_assoc]

theorem timerAction_nothing_iff (hactive : isActiveAdminState p.session.state)
    (hsent : p.session.lastOutboundNs ≠ 0) (htimed : p.RequestTimed) (t : Nat) :
    timerAction env p t = .nothing ↔ ∀ c ∈ timeouts env p, t ≤ c := by
  have hlogon : p.session.state ≠ .pendingLogon := by
    intro hst
    rw [hst] at hactive
    cases hactive
  have hrequest : ¬(p.outstandingTestRequestId ≠ [] ∧ p.testRequestSentNs ≠ 0) →
      p.outstandingTestRequestId = [] := fun hno => by
    rcases htimed with h | h
    · exact h
    · exact not_not.1 fun hid => hno ⟨hid, h⟩
  unfold timerAction timeouts
  dsimp only
  rw [if_neg (by simp [hactive]), if_neg hlogon]
  split_ifs <;> simp_all

/-- Before a deadline that lies ahead the timer does nothing, and after it the timer acts. -/
theorem timerAction_nothing_iff_deadline (htimed : p.RequestTimed) {now d : Nat}
    (h : nextTimerDeadline env p now = some d) (hahead : now < d) (t : Nat) :
    timerAction env p t = .nothing ↔ t ≤ d := by
  have hkept : ∀ deadline, notBefore now deadline = some d → deadline = some d := by
    intro deadline hd
    cases deadline with
    | none => cases hd
    | some c =>
      unfold notBefore at hd
      dsimp only at hd
      split at hd <;> cases hd
      · exact absurd hahead (Nat.lt_irrefl _)
      · rfl
  unfold nextTimerDeadline at h
  dsimp only at h
  split_ifs at h with hinit hstate hlogon hout
  · have hd := Option.some.inj (hkept _ h)
    simp [timerAction, hlogon, hout, ← hd]
  · cases h
  · have hactive : isActiveAdminState p.session.state := by simpa [hlogon] using hstate
    have hdeadline := hkept _ h
    have hsent : p.session.lastOutboundNs ≠ 0 := by
      intro hzero
      -- A session that has sent nothing is due at once.
      unfold activeDeadline at hdeadline
      dsimp only at hdeadline
      rw [if_pos hzero] at hdeadline
      exact absurd (earlierDeadline_le hdeadline) (Nat.not_le.2 hahead)
    rw [timerAction_nothing_iff env hactive hsent htimed, ← le_activeDeadline_iff env hsent now,
      hdeadline]
    simp

end

/-! ## What the timer does -/

section

variable (env : ProtocolEnv) {σ : Type} [SessionStore σ] {p q : AdminProtocol σ} {t : Nat}

/-- What the timer reads besides the last outbound time. -/
def AdminProtocol.timerView (p : AdminProtocol σ) :
    SessionState × Nat × Nat × Bytes × Nat × Option Status :=
  (p.session.state, p.session.lastInboundNs, p.logoutSentNs, p.outstandingTestRequestId,
    p.testRequestSentNs, p.initializationError)

omit [SessionStore σ] in
theorem onStore_timerView {α : Type} (absent : α) (m : SessionCore → Method σ α) :
    Preserves timerView (onStore absent m) := by
  intro p
  unfold onStore
  split <;> rfl

omit [SessionStore σ] in
theorem onStore_session {α : Type} (absent : α) (m : SessionCore → Method σ α) :
    Preserves AdminProtocol.session (onStore absent m) := by
  intro p
  unfold onStore
  split <;> rfl

theorem building_timerView (v : SessionState × Nat × Nat × Bytes × Nat × Option Status) :
    BuildingKeeps env fun p : AdminProtocol σ => p.timerView = v where
  allocate := by
    intro p hp
    simp only [onSession, zoom_apply, SessionCore.allocateOutboundSeq]
    split
    · exact hp
    · split <;> exact hp
  clock _ hp := hp
  outbound _ _ hp := hp
  save _ _ _ _ p hp :=
    (Preserves.ite (onStore_timerView _ _) (onStore_timerView _ _) p).trans hp
  persist p hp := (onStore_timerView _ _ p).trans hp
  load _ _ p hp := (onStore_timerView _ _ p).trans hp

/-- A frame that is built leaves its time as the last outbound time and nothing else the timer
reads. -/
theorem buildAdminFrame_timer (m : MessageData) :
    Ensures (buildAdminFrame env m t) q fun _ q' =>
      q'.session.lastOutboundNs = t ∧ q'.timerView = q.timerView := by
  intro f q' hf
  refine ⟨?_, ?_⟩
  · obtain ⟨seq, q₁, -, h₁⟩ := bind_ok hf
    obtain ⟨time, q₂, -, h₂⟩ := bind_ok h₁
    obtain ⟨bytes, q₃, -, h₃⟩ := bind_ok h₂
    obtain ⟨_, q₄, hrecord, h₄⟩ := bind_ok h₃
    obtain ⟨_, q₅, hsave, h₅⟩ := bind_ok h₄
    cases hrecord
    cases h₅
    have hkept := (Preserves.ite (onStore_session _ _) (onStore_session _ _)).ensures _ _ _ hsave
    rw [hkept]
    rfl
  · have h := (building_timerView env q.timerView).buildAdminFrame m t q rfl
    rwa [hf] at h

variable (p t) in
/-- The message the timer has to send, and the state it is built in. -/
def dueFrame : Option (MessageData × AdminProtocol σ) :=
  match timerAction env p t with
  | .testRequest => some (AdminMessage.testRequest (decimal t),
      { p with outstandingTestRequestId := decimal t, testRequestSentNs := t })
  | .heartbeat => some (AdminMessage.heartbeat [], p)
  | _ => none

/-- The outcomes of a timer call. -/
inductive TimerCall (t : Nat) (p : AdminProtocol σ) :
    Except Status ProtocolEvent × AdminProtocol σ → Prop
  | refused (status : Status) : p.initializationError = some status →
      TimerCall t p (.error status, p)
  | quiet : p.initializationError = none → timerAction env p t = .nothing → TimerCall t p (.ok {}, p)
  | dropped (warnings : List Bytes) : p.initializationError = none →
      timerAction env p t = .disconnect warnings →
      TimerCall t p (.ok { disconnect := true, warnings }, p)
  | failed (m : MessageData) (q q' : AdminProtocol σ) (status : Status) :
      p.initializationError = none → dueFrame env p t = some (m, q) →
      buildAdminFrame env m t q = (.error status, q') → TimerCall t p (.error status, q')
  | sent (m : MessageData) (q q' : AdminProtocol σ) (frame : EncodedFrame) :
      p.initializationError = none → dueFrame env p t = some (m, q) →
      buildAdminFrame env m t q = (.ok frame, q') →
      TimerCall t p (.ok { outboundFrames := [frame] }, q')

theorem sendDue_timerCall {m : MessageData} (hinit : p.initializationError = none)
    (hdue : dueFrame env p t = some (m, q)) : TimerCall env t p
      ((do let frame ← buildAdminFrame env m t
           pure { outboundFrames := [frame] } : Method (AdminProtocol σ) ProtocolEvent) q) := by
  cases hbuild : buildAdminFrame env m t q with
  | mk outcome q' =>
    cases outcome with
    | error status =>
      rw [bind_of_error hbuild]
      exact .failed m q q' status hinit hdue hbuild
    | ok frame =>
      rw [bind_of_ok hbuild]
      exact .sent m q q' frame hinit hdue hbuild

theorem onTimer_timerCall (t : Nat) (p : AdminProtocol σ) : TimerCall env t p (onTimer env t p) := by
  have hstart : ensureInitialized p =
      (p.initializationError.elim (.ok ()) Except.error, p) := by
    unfold ensureInitialized
    split <;> simp_all
  unfold onTimer
  cases hinit : p.initializationError with
  | some status =>
    rw [hinit] at hstart
    rw [bind_of_error hstart]
    exact .refused status hinit
  | none =>
    rw [hinit] at hstart
    rw [bind_of_ok hstart, bind_of_ok (get_apply p)]
    cases haction : timerAction env p t with
    | nothing => exact .quiet hinit haction
    | disconnect warnings => exact .dropped warnings hinit haction
    | testRequest => exact sendDue_timerCall env hinit (by rw [dueFrame, haction])
    | heartbeat => exact sendDue_timerCall env hinit (by rw [dueFrame, haction])

theorem onTimer_of_nothing (hinit : p.initializationError = none)
    (hact : timerAction env p t = .nothing) : onTimer env t p = (.ok {}, p) := by
  have hcall := onTimer_timerCall env t p
  revert hcall
  generalize onTimer env t p = out
  intro hcall
  cases hcall with
  | refused status h => rw [hinit] at h; cases h
  | quiet _ _ => rfl
  | dropped w _ h => rw [hact] at h; cases h
  | failed m q q' status _ h _ => simp [dueFrame, hact] at h
  | sent m q q' frame _ h _ => simp [dueFrame, hact] at h

theorem decimal_ne_nil (n : Nat) : decimal n ≠ [] := (decimalAux_reads (Nat.le_refl n)).1

omit [SessionStore σ] in
/-- Once the frame that is due has been sent, the timer has nothing to do at the same time. -/
theorem timerAction_after_frame {m : MessageData} {q' : AdminProtocol σ} (ht : 0 < t)
    (hfits : t + heartbeatIntervalNs env < 2 ^ 64) (hdue : dueFrame env p t = some (m, q))
    (hout : q'.session.lastOutboundNs = t) (hview : q'.timerView = q.timerView) :
    timerAction env q' t = .nothing := by
  have hwrap : wrap64 (t + heartbeatIntervalNs env) = t + heartbeatIntervalNs env :=
    Nat.mod_eq_of_lt hfits
  simp only [timerView, Prod.mk.injEq] at hview
  obtain ⟨hstate, hin, hlogout, hid, hsent, -⟩ := hview
  unfold dueFrame at hdue
  unfold timerAction
  simp only [hout, hstate, hin, hlogout, hid, hsent, hwrap]
  cases haction : timerAction env p t with
  | nothing => rw [haction] at hdue; cases hdue
  | disconnect warnings => rw [haction] at hdue; cases hdue
  | testRequest =>
    rw [haction] at hdue
    cases hdue
    unfold timerAction at haction
    dsimp only at haction
    split_ifs at haction ⊢ <;> simp_all [decimal_ne_nil]
  | heartbeat =>
    rw [haction] at hdue
    cases hdue
    unfold timerAction at haction
    dsimp only at haction
    split_ifs at haction ⊢ <;> simp_all

omit [SessionStore σ] in
theorem nextTimerDeadline_initialized {now d : Nat} (h : nextTimerDeadline env p now = some d) :
    p.initializationError = none := by
  unfold nextTimerDeadline at h
  split at h
  · cases h
  · simpa using ‹¬p.initializationError.isSome›

omit [SessionStore σ] in
theorem timerAction_of_no_deadline {now : Nat} (hinit : p.initializationError = none)
    (h : nextTimerDeadline env p now = none) : timerAction env p t = .nothing := by
  have hsome : ∀ deadline c, notBefore now (earlierDeadline deadline c) ≠ none := by
    intro deadline c
    have hnext : ∃ e, earlierDeadline deadline c = some e := by
      cases deadline with
      | none => exact ⟨c, rfl⟩
      | some d =>
        unfold earlierDeadline
        dsimp only
        split
        · exact ⟨c, rfl⟩
        · exact ⟨d, rfl⟩
    obtain ⟨e, he⟩ := hnext
    rw [he]
    unfold notBefore
    dsimp only
    split <;> simp
  have hactive : notBefore now (activeDeadline env p now) ≠ none := by
    unfold activeDeadline
    dsimp only
    split <;> exact hsome _ _
  unfold nextTimerDeadline at h
  simp only [hinit] at h
  unfold timerAction
  split_ifs at h ⊢ <;> simp_all

/-- The timer acts after a deadline, or fails to build the frame that is due. -/
theorem onTimer_after_deadline (hinit : p.initializationError = none)
    (hact : timerAction env p t ≠ .nothing) :
    (∃ e p', onTimer env t p = (.ok e, p') ∧ (e.outboundFrames ≠ [] ∨ e.disconnect)) ∨
      ∃ m q status, dueFrame env p t = some (m, q) ∧
        (buildAdminFrame env m t q).1 = .error status ∧ (onTimer env t p).1 = .error status := by
  have hcall := onTimer_timerCall env t p
  revert hcall
  generalize onTimer env t p = out
  intro hcall
  cases hcall with
  | refused status h => rw [hinit] at h; cases h
  | quiet _ h => exact absurd h hact
  | dropped w _ _ => exact .inl ⟨_, _, rfl, .inr rfl⟩
  | failed m q q' status _ hdue hbuild => exact .inr ⟨m, q, status, hdue, by rw [hbuild], rfl⟩
  | sent m q q' frame _ _ _ => exact .inl ⟨_, _, rfl, .inl (List.cons_ne_nil _ _)⟩

theorem onTimer_after_frame (ht : 0 < t) (hfits : t + heartbeatIntervalNs env < 2 ^ 64)
    {e : ProtocolEvent} {p' : AdminProtocol σ} (hrun : onTimer env t p = (.ok e, p'))
    (hframes : e.outboundFrames ≠ []) : onTimer env t p' = (.ok {}, p') := by
  have hcall := onTimer_timerCall env t p
  rw [hrun] at hcall
  cases hcall with
  | quiet _ _ => exact absurd rfl hframes
  | dropped w _ _ => exact absurd rfl hframes
  | sent m q q' frame hinit hdue hbuild =>
    obtain ⟨hout, hview⟩ := buildAdminFrame_timer env m frame p' hbuild
    have hq : q.initializationError = p.initializationError := by
      unfold dueFrame at hdue
      split at hdue <;> cases hdue <;> rfl
    have hinit' : p'.initializationError = q.initializationError :=
      congrArg (fun v => v.2.2.2.2.2) hview
    exact onTimer_of_nothing env (hinit'.trans (hq.trans hinit))
      (timerAction_after_frame env ht hfits hdue hout hview)

/-- In every state of a run: up to a deadline that lies ahead the timer does nothing, and after it
the timer sends a frame or asks for a disconnect, or fails because the frame that is due cannot be
built; without a deadline it does nothing; and after a call that sent a frame, a second one at the
same time does nothing. -/
theorem onTimer_keeps_deadline {store : Option σ}
    (hp : Reaches (fun c p => (perform env c p).2) (fun _ _ => True) (.create env store) p)
    (now t : Nat) :
    (∀ d, nextTimerDeadline env p now = some d → now < d →
      (t ≤ d → onTimer env t p = (.ok {}, p)) ∧
      (d < t →
        (∃ e p', onTimer env t p = (.ok e, p') ∧ (e.outboundFrames ≠ [] ∨ e.disconnect)) ∨
        ∃ m q status, dueFrame env p t = some (m, q) ∧
          (buildAdminFrame env m t q).1 = .error status ∧ (onTimer env t p).1 = .error status)) ∧
    (nextTimerDeadline env p now = none →
      (onTimer env t p).2 = p ∧ ∀ e, (onTimer env t p).1 = .ok e → e = {}) ∧
    (0 < t → t + heartbeatIntervalNs env < 2 ^ 64 → ∀ e p', onTimer env t p = (.ok e, p') →
      e.outboundFrames ≠ [] → onTimer env t p' = (.ok {}, p')) := by
  have htimed : p.RequestTimed := hp.invariant (create_requestTimed env store)
    fun c q hq _ => perform_requestTimed env c q hq
  refine ⟨fun d hd hahead => ?_, fun hnone => ?_,
    fun ht hfits e p' => onTimer_after_frame env ht hfits⟩
  · have hinit := nextTimerDeadline_initialized env hd
    have hiff := timerAction_nothing_iff_deadline env htimed hd hahead t
    exact ⟨fun hle => onTimer_of_nothing env hinit (hiff.2 hle), fun hlt =>
      onTimer_after_deadline env hinit fun hact => absurd (hiff.1 hact) (Nat.not_le.2 hlt)⟩
  · have hcall := onTimer_timerCall env t p
    revert hcall
    generalize onTimer env t p = out
    intro hcall
    cases hcall with
    | refused status _ => exact ⟨rfl, fun _ he => by cases he⟩
    | quiet _ _ => exact ⟨rfl, fun _ he => (Except.ok.inj he).symm⟩
    | dropped w hinit h => simp [timerAction_of_no_deadline env hinit hnone] at h
    | failed m q q' status hinit h _ =>
      simp [dueFrame, timerAction_of_no_deadline env hinit hnone] at h
    | sent m q q' frame hinit h _ =>
      simp [dueFrame, timerAction_of_no_deadline env hinit hnone] at h

end

/-- A store whose session has one outbound number left. -/
def Sample.lastNumber : MemorySessionStore :=
  (SessionStore.saveRecoveryState ⟨1, 1, uint32Max - 1, 0, 0, false⟩ ({} : MemorySessionStore)).2

open Sample

/-- The acceptor that has used its last number for its Logon. -/
def Sample.exhausted : AdminProtocol MemorySessionStore :=
  [Command.connect 1, .inbound (logonFrame 1) 2].foldl
    (fun p c => (perform acceptor c p).2) (.create acceptor (some lastNumber))

theorem onTimer_keeps_deadline_loggedOn :
    nextTimerDeadline acceptor loggedOn 3 = some 30000000002 ∧
      onTimer acceptor 30000000002 loggedOn = (.ok {}, loggedOn) := by
  have hp : Reaches (fun c p => (perform acceptor c p).2) (fun _ _ => True)
      (fresh acceptor) loggedOn := .of_stepsOk _ .start (by decide)
  have hd : nextTimerDeadline acceptor loggedOn 3 = some 30000000002 := by
    decide +kernel
  exact ⟨hd, ((onTimer_keeps_deadline acceptor hp 3 30000000002).1 _ hd (by decide)).1
    (Nat.le_refl _)⟩

/-- The Heartbeat is due, no number is left for it, and the timer returns an error. -/
theorem onTimer_out_of_numbers :
    Reaches (fun c p => (perform acceptor c p).2) (fun _ _ => True)
        (.create acceptor (some lastNumber)) exhausted ∧
      nextTimerDeadline acceptor exhausted 3 = some 30000000002 ∧
      (onTimer acceptor 30000000003 exhausted).1 = .error
        (.InvalidArgument "outbound sequence number overflow; session reset required") :=
  ⟨.of_stepsOk _ .start (by decide), by decide +kernel, by decide +kernel⟩

end NimbleFix
