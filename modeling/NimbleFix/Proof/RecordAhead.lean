import NimbleFix.Proof.StoreMirror
import NimbleFix.Proof.Traversal

/-!
# The counters do not fall behind the recovery record

`Ahead`: the counters of the session are not lower than those of its recovery record. Every call
that resets nothing keeps this, also one that fails: counters only grow, and a save writes the
counters the session has, or nothing.
-/

namespace NimbleFix

open Fallible AdminProtocol

/-- The recovery record of the session in the store of the object. -/
def AdminProtocol.record {σ : Type} (content : StoreContent σ) (sessionId : Nat)
    (p : AdminProtocol σ) : Option SessionRecoveryState :=
  p.store.bind (content.recovery sessionId)

/-- The counters of the session are not behind its recovery record. -/
def AdminProtocol.Ahead {σ : Type} (content : StoreContent σ) (sessionId : Nat)
    (p : AdminProtocol σ) : Prop :=
  p.session.config.sessionId = sessionId ∧
    ∀ r ∈ p.record content sessionId,
      r.nextInSeq ≤ p.session.nextInSeq ∧ r.nextOutSeq ≤ p.session.nextOutSeq

/-- The counters of `s'` are not lower than those of `s`. -/
def SessionCore.NotBelow (s s' : SessionCore) : Prop :=
  s'.config = s.config ∧ s.nextInSeq ≤ s'.nextInSeq ∧ s.nextOutSeq ≤ s'.nextOutSeq

theorem SessionCore.NotBelow.of_eq {s s' : SessionCore} (hconfig : s'.config = s.config)
    (hin : s'.nextInSeq = s.nextInSeq) (hout : s'.nextOutSeq = s.nextOutSeq) : s.NotBelow s' :=
  ⟨hconfig, Nat.le_of_eq hin.symm, Nat.le_of_eq hout.symm⟩

namespace SessionCore

theorem NotBelow.settleResend {s s' : SessionCore} (h : s.NotBelow s') :
    s.NotBelow s'.settleResend := by
  obtain ⟨hconfig, hin, hout⟩ := h
  refine ⟨?_, ?_, ?_⟩
  · rw [settleResend_config]; exact hconfig
  · rw [settleResend_nextInSeq]; exact hin
  · rw [settleResend_nextOutSeq]; exact hout

theorem observeInboundSeq_notBelow {n : Nat} (hn : n < uint32Max) :
    Moves NotBelow (observeInboundSeq n) := by
  intro s
  rcases s.observeInboundSeq_cases n with ⟨_, _, h⟩ | ⟨_, _, _, h⟩ | ⟨_, _, _, h⟩ | ⟨_, hs, _, h⟩
  · rw [h]; exact .of_eq rfl rfl rfl
  · rw [h]; exact .of_eq rfl rfl rfl
  · rw [h]
    obtain ⟨hconfig, hout, hin⟩ := noteGap_config n s
    exact .of_eq hconfig hin hout
  · rw [h]
    have hwrap : wrap32 (s.nextInSeq + 1) = s.nextInSeq + 1 :=
      Nat.mod_eq_of_lt (by unfold uint32Max at hn; omega)
    exact NotBelow.settleResend ⟨rfl, by rw [hwrap]; exact Nat.le_succ _, Nat.le_refl _⟩

theorem advanceInboundExpectedSeq_notBelow (n : Nat) :
    Moves NotBelow (advanceInboundExpectedSeq n) := by
  intro s
  rcases s.advanceInboundExpectedSeq_cases n with ⟨_, h⟩ | ⟨_, hle, h⟩
  · rw [h]; exact .of_eq rfl rfl rfl
  · rw [h]
    exact NotBelow.settleResend ⟨rfl, hle, Nat.le_refl _⟩

theorem allocateOutboundSeq_notBelow : Moves NotBelow allocateOutboundSeq := by
  intro s
  unfold allocateOutboundSeq
  split
  · exact .of_eq rfl rfl rfl
  · split
    · exact .of_eq rfl rfl rfl
    · exact ⟨rfl, Nat.le_refl _, Nat.le_succ _⟩

end SessionCore

section

variable {σ : Type} {α : Type} {content : StoreContent σ} {sessionId : Nat}

theorem ahead_of_books {m : Method (AdminProtocol σ) α} (h : Preserves AdminProtocol.books m) :
    Maintains (Ahead content sessionId) m :=
  h.maintains (J := fun books : (Nat × Nat × Option σ × Nat) × Nat => books.1.1 = sessionId ∧
    ∀ r ∈ books.1.2.2.1.bind (content.recovery sessionId),
      r.nextInSeq ≤ books.2 ∧ r.nextOutSeq ≤ books.1.2.1)

theorem onSession_ahead {m : Method SessionCore α} (h : Moves SessionCore.NotBelow m) :
    Maintains (Ahead content sessionId) (onSession (σ := σ) m) := by
  intro p ⟨hid, hp⟩
  obtain ⟨hconfig, hin, hout⟩ := h p.session
  refine ⟨(congrArg _ hconfig).trans hid, fun r hr => ?_⟩
  obtain ⟨h₁, h₂⟩ := hp r hr
  exact ⟨Nat.le_trans h₁ hin, Nat.le_trans h₂ hout⟩

/-- A store call that saves the counters of the session or leaves the record alone. -/
theorem onStore_ahead {absent : α} {m : SessionCore → Method σ α}
    (h : ∀ s st, s.config.sessionId = sessionId →
      content.recovery sessionId (m s st).2 ∈ [some s.recoveryState, content.recovery sessionId st]) :
    Maintains (Ahead content sessionId) (onStore absent m) := by
  intro p ⟨hid, hp⟩
  unfold onStore
  cases hst : p.store with
  | none => exact ⟨hid, hp⟩
  | some st =>
    refine ⟨hid, fun r hr => ?_⟩
    have hr : content.recovery sessionId (m p.session st).2 = some r := hr
    have hmem := h p.session st hid
    rw [List.mem_pair, hr] at hmem
    rcases hmem with hsome | hsame
    · cases hsome
      exact ⟨Nat.le_refl _, Nat.le_refl _⟩
    · refine hp r ?_
      unfold AdminProtocol.record
      rw [hst]
      exact hsame.symm

end

section

variable {σ : Type} [SessionStore σ] {content : StoreContent σ} {sessionId : Nat}
  (laws : Persists content sessionId) (saves : SavesOrKeeps content sessionId)
  (env : ProtocolEnv)

/-! ## Sending -/

include laws saves in
theorem sending_ahead : SendingKeeps env (Ahead (σ := σ) content sessionId) where
  allocate := onSession_ahead SessionCore.allocateOutboundSeq_notBelow
  clock := ahead_of_books fun _ => rfl
  outbound _ := ahead_of_books fun _ => rfl
  save _ _ _ _ := .ite (onStore_ahead fun _ st hid => saves.saveOutbound st hid hid)
    (onStore_ahead fun _ st hid => saves.saveRecovery st hid)
  persist := onStore_ahead fun _ st hid => saves.saveRecovery st hid
  load beginSeq endSeq := by
    refine onStore_ahead fun s st hid => ?_
    subst hid
    rw [(laws.loadOutbound_same _ _ st).2]
    simp
  logout := ahead_of_books beginSessionLogout_books
  logoutSent _ _ hp := hp

/-! ## Reloading the record -/

include laws in
theorem loadRecoveryState_sat {absent : SessionRecoveryState} {p : AdminProtocol σ}
    (hid : p.session.config.sessionId = sessionId) (hstore : p.store.isSome) :
    Sat (onStore absent fun s => SessionStore.loadRecoveryState s.config.sessionId) p fun r p' =>
      p'.session = p.session ∧ p'.record content sessionId = p.record content sessionId ∧
        (∀ state, r = .ok state → p.record content sessionId = some state) ∧
        ∀ e, r = .error e → e.code = .notFound → p.record content sessionId = none := by
  subst hid
  obtain ⟨st, hst⟩ := Option.isSome_iff_exists.1 hstore
  unfold Sat onStore AdminProtocol.record
  rw [hst]
  exact ⟨rfl, (laws.loadRecovery_same st).2, fun state hr => laws.loadRecovery_ok hr,
    fun e he hcode => laws.loadRecovery_notFound he hcode⟩

include saves in
theorem refresh_sat (hrefresh : RefreshKeeps content sessionId) {p : AdminProtocol σ} :
    Sat (onStore () fun _ => SessionStore.refresh) p fun _ p' =>
      p'.session = p.session ∧ p'.record content sessionId = p.record content sessionId ∧
        p'.store.isSome = p.store.isSome := by
  unfold Sat onStore AdminProtocol.record
  cases hst : p.store with
  | none => exact ⟨rfl, by rw [hst], by rw [hst]⟩
  | some st =>
    refine ⟨rfl, ?_, rfl⟩
    dsimp only [Option.bind_some]
    cases hr : SessionStore.refresh st with
    | mk outcome st' =>
      cases outcome with
      | ok _ => exact (hrefresh st st' hr).2
      | error e => exact saves.refresh_error hr

/-- What a reload leaves: the record, and the counters or those of the record. A reload that
succeeds takes the counters of the record if there is one. -/
def Reloaded (content : StoreContent σ) (sessionId : Nat) (p : AdminProtocol σ)
    (outcome : Except Status Unit) (p' : AdminProtocol σ) : Prop :=
  p'.session.config = p.session.config ∧
    p'.record content sessionId = p.record content sessionId ∧
    (p'.session = p.session ∨ ∀ r ∈ p.record content sessionId,
      p'.session.nextInSeq = r.nextInSeq ∧ p'.session.nextOutSeq = r.nextOutSeq) ∧
    (outcome = .ok () → ∀ r ∈ p.record content sessionId,
      p'.session.nextInSeq = r.nextInSeq ∧ p'.session.nextOutSeq = r.nextOutSeq)

omit [SessionStore σ] in
theorem restore_reloaded {p q : AdminProtocol σ} {nextIn nextOut : Nat}
    (hs : q.session = p.session)
    (hq : q.record content sessionId = p.record content sessionId)
    (hr : ∀ r ∈ p.record content sessionId, nextIn = r.nextInSeq ∧ nextOut = r.nextOutSeq) :
    Sat (onSession (SessionCore.restoreSequenceState nextIn nextOut)) q
      (Reloaded content sessionId p) := by
  have hconfig : q.session.config = p.session.config := by rw [hs]
  unfold Sat onSession
  rw [zoom_apply]
  rcases q.session.restoreSequenceState_cases nextIn nextOut with ⟨hne, h⟩ | ⟨_, _, _, _, h⟩
  · exact ⟨(congrArg SessionCore.config h).trans hconfig, hq, .inl (h.trans hs),
      fun hok => absurd hok hne⟩
  · rw [h]
    exact ⟨hconfig, hq, .inr hr, fun _ => hr⟩

include laws saves in
theorem refreshSessionStateFromStore_sat (hrefresh : RefreshKeeps content sessionId)
    {p : AdminProtocol σ} (hid : p.session.config.sessionId = sessionId) :
    Sat refreshSessionStateFromStore p (Reloaded content sessionId p) := by
  unfold Sat refreshSessionStateFromStore
  cases hst : p.store with
  | none =>
    refine ⟨rfl, rfl, .inl rfl, fun _ r hr => ?_⟩
    unfold AdminProtocol.record at hr
    rw [hst] at hr
    cases hr
  | some st =>
    change Sat reloadFromStore p (Reloaded content sessionId p)
    refine Sat.bind (refresh_sat saves hrefresh) ?_ ?_
    · rintro _ p₁ ⟨hs₁, hr₁, hsome₁⟩
      refine .attempt (loadRecoveryState_sat laws (by rw [hs₁]; exact hid)
        (by rw [hsome₁, hst]; rfl)) ?_
      rintro outcome p₂ ⟨hs₂, hr₂, hok, hnone⟩
      rw [hr₁] at hok hnone hr₂
      have hs := hs₂.trans hs₁
      cases outcome with
      | ok state =>
        refine restore_reloaded hs hr₂ fun r hr => ?_
        rw [hok state rfl] at hr
        cases hr
        exact ⟨rfl, rfl⟩
      | error e =>
        refine .ite (fun hcode => restore_reloaded hs hr₂ fun r hr => ?_) fun _ => ?_
        · rw [hnone e rfl hcode] at hr
          cases hr
        · exact .fail ⟨congrArg _ hs, hr₂, .inl hs, fun h => by cases h⟩
    · rintro e p₁ ⟨hs₁, hr₁, -⟩
      exact ⟨congrArg _ hs₁, hr₁, .inl hs₁, fun h => by cases h⟩

include laws saves in
theorem refreshSessionStateFromStore_ahead (hrefresh : RefreshKeeps content sessionId) :
    Maintains (Ahead content sessionId)
      (refreshSessionStateFromStore (σ := σ)) := by
  intro p ⟨hid, hp⟩
  obtain ⟨hconfig, hrecord, hcounters, -⟩ :=
    refreshSessionStateFromStore_sat laws saves hrefresh hid
  refine ⟨(congrArg _ hconfig).trans hid, fun r hr => ?_⟩
  rw [hrecord] at hr
  rcases hcounters with hsame | hnew
  · rw [hsame]
    exact hp r hr
  · rw [(hnew r hr).1, (hnew r hr).2]
    exact ⟨Nat.le_refl _, Nat.le_refl _⟩

/-! ## Calls that reset nothing -/

include laws saves in
theorem receiving_ahead {d : DecodedMessageView}
    (hrefresh : env.config.refreshOnLogon = true → RefreshKeeps content sessionId)
    (hconf : env.config.resetSeqNumOnLogon = false) (hreset : d.isLogonReset = false)
    (hn : d.header.msgSeqNum < uint32Max) :
    ReceivingKeeps env (Ahead (σ := σ) content sessionId) d where
  toSendingKeeps := sending_ahead laws saves env
  inbound ts := ahead_of_books (recordInbound_books ts)
  commit ts := .bind (ahead_of_books (recordInbound_books ts)) fun _ =>
    onStore_ahead fun _ st hid => saves.saveInbound st hid hid
  settle := ahead_of_books settleTestRequest_books
  observe := onSession_ahead (SessionCore.observeInboundSeq_notBelow hn)
  advance n := onSession_ahead (SessionCore.advanceInboundExpectedSeq_notBelow n)
  accept := ahead_of_books onLogonAccepted_books
  heartbeat p hp := by
    unfold processHeartbeat
    dsimp only
    split <;> exact hp
  defer _ hp := hp
  refresh := by
    unfold refreshOnLogon
    split
    · rename_i hcond
      exact refreshSessionStateFromStore_ahead laws saves (hrefresh hcond.2)
    · exact .pure _
  reset before := by
    have hno : resetsOnLogon env d = false := by simp [resetsOnLogon, hreset, hconf]
    unfold resetOnLogon
    rw [hno]
    exact .pure _
  resetAfter hlogon p hp := by
    have hflag : d.message.hasBoolean Tag.resetSeqNumFlag = false := by
      simpa [DecodedMessageView.isLogonReset, DecodedMessageView.isLogon, hlogon] using hreset
    unfold resetAfterLogon
    rw [hflag]
    exact hp

include laws saves in
theorem onTransportClosed_ahead
    (hconf : env.config.resetSeqNumOnLogout = false ∧ env.config.resetSeqNumOnDisconnect = false) :
    Maintains (Ahead content sessionId) (onTransportClosed (σ := σ) env) := by
  refine .bind ensureInitialized_keeps fun _ => .bind maintains_get fun p => ?_
  have hno : resetsOnClose env p.session.state = false := by simp [resetsOnClose, hconf]
  rw [hno]
  exact .bind (ahead_of_books fun _ => rfl) fun _ =>
    .bind (ahead_of_books onTransportClosed_books) fun _ => (sending_ahead laws saves env).persist

include laws saves in
theorem initiateLogon_ahead (hconf : env.config.resetSeqNumOnLogon = false) (ts : Nat) :
    Maintains (Ahead content sessionId) (initiateLogon (σ := σ) env ts) := by
  refine .bind ?_ fun _ => .bind (ahead_of_books beginLogon_books) fun _ =>
    .bind ((sending_ahead laws saves env).buildLogonFrame ts _) fun _ => .pure _
  unfold resetOnConnect
  rw [hconf]
  exact .pure _

include laws saves in
theorem onTransportConnected_ahead
    (hrefresh : env.config.refreshOnLogon = true → RefreshKeeps content sessionId)
    (hconf : env.config.resetSeqNumOnLogon = false) (ts : Nat) :
    Maintains (Ahead content sessionId) (onTransportConnected (σ := σ) env ts) := by
  refine .bind ensureInitialized_keeps fun _ => .bind ?_ fun _ =>
    .bind (ahead_of_books onTransportConnected_books) fun _ =>
      .bind (sending_ahead laws saves env).persist fun _ =>
        .ite (initiateLogon_ahead laws saves env hconf ts) (.pure _)
  unfold refreshOnConnect
  split
  · exact refreshSessionStateFromStore_ahead laws saves (hrefresh ‹_›)
  · exact .pure _

end

end NimbleFix
