import NimbleFix.Proof.InboundCore
import NimbleFix.Proof.RecordAhead
import NimbleFix.Proof.StoreRun
import NimbleFix.Runtime.LiveSession

/-!
# The numbers a session starts a connection with

A new object takes its counters from the recovery record and then from the snapshot the engine has
applied, however old that is; only `refreshOnLogon` brings the record back. So it starts below the
record exactly when the snapshot is below it. An object that reconnects has counters that are not
behind its record.
-/

namespace NimbleFix

open Fallible

/-- The expected number and the number of the first frame of the connection, which is the next
number as long as no frame is sent. -/
def startNumbers {σ : Type} (event : ProtocolEvent) (p : AdminProtocol σ) : Nat × Nat :=
  (p.session.nextInSeq,
    (event.outboundFrames.head?.map EncodedFrame.seqNum).getD p.session.nextOutSeq)

/-- The numbers, inbound and outbound, are not lower than those of the record. -/
def SessionRecoveryState.AtMost (r : SessionRecoveryState) (numbers : Nat × Nat) : Prop :=
  r.nextInSeq ≤ numbers.1 ∧ r.nextOutSeq ≤ numbers.2

instance (r : SessionRecoveryState) (numbers : Nat × Nat) : Decidable (r.AtMost numbers) :=
  inferInstanceAs (Decidable (_ ∧ _))

section

variable {σ : Type} [SessionStore σ] {env : ProtocolEnv} {content : StoreContent σ}

/-! ## Connecting -/

/-- The Logon of an initiator has the next number and moves no expected number. -/
theorem initiateLogon_start (hconf : env.config.resetSeqNumOnLogon = false) (ts : Nat)
    (p : AdminProtocol σ) : Ensures (initiateLogon env ts) p fun event p' =>
      startNumbers event p' = (p.session.nextInSeq, p.session.nextOutSeq) := by
  refine .bind (P := fun _ p₁ => p₁ = p) ?_ fun _ p₁ hp₁ => ?_
  · unfold resetOnConnect
    rw [hconf]
    exact .pure rfl
  subst hp₁
  refine .bind (beginLogon_books.ensures p₁) fun _ p₂ hp₂ => ?_
  obtain ⟨-, hout, -, -, hin⟩ := books_eq hp₂
  refine .bind (P := fun f p₃ => f.seqNum = p₂.session.nextOutSeq ∧
    p₃.session.nextInSeq = p₂.session.nextInSeq) ?_ fun f p₃ ⟨hnum, hin₃⟩ => .pure ?_
  · refine .get fun f p₃ hf => ?_
    have hkept := (buildAdminFrame_core env _ ts).ensures p₂ f p₃ hf
    obtain ⟨_, _, _, hseq, -⟩ := encodeFrameWith_saved hf
    exact ⟨(takeSeq_ok rfl hseq).1, congrArg InboundCore.nextInSeq hkept⟩
  · simp only [startNumbers, List.head?_cons, Option.map_some, Option.getD_some]
    rw [hnum, hin₃, hin, hout]

variable {ts : Nat} {p p' : AdminProtocol σ} {event : ProtocolEvent}
  {applied : Option HaStateSnapshot}

theorem onTransportConnected_start (hconf : env.config.resetSeqNumOnLogon = false)
    (h : onTransportConnected env ts p = (.ok event, p')) :
    ∃ q, refreshOnConnect env p = (.ok (), q) ∧
      startNumbers event p' = (q.session.nextInSeq, q.session.nextOutSeq) := by
  obtain ⟨_, p₁, h₁, hrest⟩ := bind_ok h
  obtain ⟨rfl, -⟩ := ensureInitialized_ok _ _ h₁
  obtain ⟨_, q, hq, hconnect⟩ := bind_ok hrest
  refine ⟨q, hq, ?_⟩
  obtain ⟨_, p₃, h₃, hpersist⟩ := bind_ok hconnect
  obtain ⟨_, p₄, h₄, hlogon⟩ := bind_ok hpersist
  obtain ⟨-, hout, -, -, hin⟩ := books_eq (onTransportConnected_books.ensures q _ _ h₃)
  have hs : p₄.session = p₃.session := by
    rcases onStore_ok h₄ with ⟨-, rfl⟩ | ⟨_, _, _, _, rfl⟩ <;> rfl
  rw [← hin, ← hout, ← hs]
  split at hlogon
  · exact initiateLogon_start hconf ts p₄ event p' hlogon
  · cases hlogon
    rfl

variable (laws : Persists content env.config.session.sessionId)
  (saves : SavesOrKeeps content env.config.session.sessionId)
  (hrefresh : env.config.refreshOnLogon = true → RefreshKeeps content env.config.session.sessionId)

include laws saves hrefresh in
theorem AdminProtocol.Ahead.start (hconf : env.config.resetSeqNumOnLogon = false)
    (hp : p.Ahead content env.config.session.sessionId)
    (h : onTransportConnected env ts p = (.ok event, p')) :
    ∀ r ∈ p.record content env.config.session.sessionId, r.AtMost (startNumbers event p') := by
  obtain ⟨q, hq, hstart⟩ := onTransportConnected_start hconf h
  intro r hr
  rw [hstart]
  unfold refreshOnConnect at hq
  split at hq
  · have hq' := refreshSessionStateFromStore_sat laws saves (hrefresh ‹_›) hp.1
    unfold Sat at hq'
    rw [hq] at hq'
    obtain ⟨hin, hout⟩ := hq'.2.2.2 rfl r hr
    exact ⟨Nat.le_of_eq hin.symm, Nat.le_of_eq hout.symm⟩
  · cases hq
    exact hp.2 r hr

include laws saves hrefresh in
/-- A connection that succeeded has saved the counters, whatever they were before. -/
theorem onTransportConnected_establishes_ahead (hconf : env.config.resetSeqNumOnLogon = false)
    (hid : p.session.config = env.config.session)
    (h : onTransportConnected env ts p = (.ok event, p')) :
    p'.Ahead content env.config.session.sessionId := by
  obtain ⟨_, p₁, h₁, hrest⟩ := bind_ok h
  obtain ⟨rfl, -⟩ := ensureInitialized_ok _ _ h₁
  obtain ⟨_, q, hq, hconnect⟩ := bind_ok hrest
  obtain ⟨_, p₃, h₃, hpersist⟩ := bind_ok hconnect
  obtain ⟨_, p₄, h₄, hlogon⟩ := bind_ok hpersist
  have hq_id : q.session.config.sessionId = env.config.session.sessionId := by
    unfold refreshOnConnect at hq
    split at hq
    · have hq' := refreshSessionStateFromStore_sat laws saves (hrefresh ‹_›) (congrArg _ hid)
      unfold Sat at hq'
      rw [hq] at hq'
      rw [hq'.1, hid]
    · cases hq
      rw [hid]
  have h₃_id : p₃.session.config.sessionId = env.config.session.sessionId :=
    (books_eq (onTransportConnected_books.ensures q _ _ h₃)).1.trans hq_id
  have h₄_ahead : p₄.Ahead content env.config.session.sessionId := by
    rcases onStore_ok h₄ with ⟨hnone, rfl⟩ | ⟨st, st', -, hsave, rfl⟩
    · refine ⟨h₃_id, fun r hr => ?_⟩
      unfold AdminProtocol.record at hr
      rw [hnone] at hr
      cases hr
    · refine ⟨h₃_id, fun r hr => ?_⟩
      obtain rfl : p₃.session.recoveryState = r :=
        Option.some.inj ((laws.saveRecovery h₃_id hsave).2.symm.trans hr)
      exact ⟨Nat.le_refl _, Nat.le_refl _⟩
  have hkept := Maintains.ite (c := env.config.session.isInitiator = true)
    (initiateLogon_ahead laws saves env hconf ts) (.pure {}) p₄ h₄_ahead
  rwa [hlogon] at hkept

/-! ## A new object -/

omit [SessionStore σ] in
/-- The numbers the object has when its transport is reported: those of the snapshot, or the
record's. -/
theorem restoreAppliedSequenceState_ok
    (h : restoreAppliedSequenceState env applied p = (.ok (), p')) :
    p'.session.config = p.session.config ∧ p'.store = p.store ∧
      p'.initializationError = p.initializationError ∧
      (p'.session.nextInSeq, p'.session.nextOutSeq) =
        match findAppliedSequenceState applied env.config.session.sessionId with
        | none => (p.session.nextInSeq, p.session.nextOutSeq)
        | some s => (s.nextInboundSeq, s.nextOutboundSeq) := by
  unfold restoreAppliedSequenceState at h
  cases hs : findAppliedSequenceState applied env.config.session.sessionId with
  | none =>
    rw [hs] at h
    cases h
    exact ⟨rfl, rfl, rfl, rfl⟩
  | some s =>
    rw [hs] at h
    obtain ⟨-, rfl⟩ := restoreSequenceState_ok h
    exact ⟨rfl, rfl, rfl, rfl⟩

include laws saves hrefresh in
/-- The numbers of a session opened over a record: the record's after a refresh, else those of the
snapshot if it has the session. -/
theorem openSession_start (hconf : env.config.resetSeqNumOnLogon = false) {st : σ}
    (h : openSession env applied (some st) ts = (.ok event, p)) {r : SessionRecoveryState}
    (hr : content.recovery env.config.session.sessionId st = some r) :
    startNumbers event p =
      if env.config.refreshOnLogon then (r.nextInSeq, r.nextOutSeq)
      else match findAppliedSequenceState applied env.config.session.sessionId with
        | none => (r.nextInSeq, r.nextOutSeq)
        | some s => (s.nextInboundSeq, s.nextOutboundSeq) := by
  obtain ⟨_, p₁, hrestore, hconnect⟩ := bind_ok h
  obtain ⟨hconfig, hstore, hinit, hnumbers⟩ := restoreAppliedSequenceState_ok hrestore
  obtain ⟨st', hst', hsame, hid, -, hcounters⟩ :=
    create_counters laws (hinit.symm.trans (initialized_of_ok hconnect))
  obtain ⟨q, hq, hstart⟩ := onTransportConnected_start hconf hconnect
  rw [hstart]
  unfold refreshOnConnect at hq
  split at hq
  · rename_i hon
    rw [if_pos hon]
    have hrecord : r ∈ p₁.record content env.config.session.sessionId := by
      unfold AdminProtocol.record
      rw [hstore, hst']
      exact hsame.2.trans hr
    have hq' := refreshSessionStateFromStore_sat laws saves (hrefresh hon)
      (congrArg SessionConfig.sessionId (hconfig.trans hid))
    unfold Sat at hq'
    rw [hq] at hq'
    obtain ⟨hin, hout⟩ := hq'.2.2.2 rfl r hrecord
    rw [hin, hout]
  · rename_i hoff
    cases hq
    rw [if_neg hoff, hnumbers]
    obtain ⟨hin, hout⟩ := hcounters r hr
    rw [hin, hout]

include laws saves hrefresh in
theorem openSession_ahead (hconf : env.config.resetSeqNumOnLogon = false) {st : σ}
    (h : openSession env applied (some st) ts = (.ok event, p)) :
    p.Ahead content env.config.session.sessionId := by
  obtain ⟨_, p₁, hrestore, hconnect⟩ := bind_ok h
  obtain ⟨hconfig, -, hinit, -⟩ := restoreAppliedSequenceState_ok hrestore
  obtain ⟨_, -, -, hid, -⟩ :=
    create_counters laws (hinit.symm.trans (initialized_of_ok hconnect))
  exact onTransportConnected_establishes_ahead laws saves hrefresh hconf (hconfig.trans hid) hconnect

/-! ## Calls of a live session -/

/-- The calls the live runtimes make, with no frame that asks for a reset. Frames are decoded before
they reach the session, and the number of none is the last one a 32-bit word holds. -/
def Command.ResetsNothing : Command → Prop
  | .inbound _ _ | .inboundOwned _ _ => False
  | .inboundDecoded d _ => d.isLogonReset = false ∧ d.header.msgSeqNum < uint32Max
  | _ => True

instance : ∀ c : Command, Decidable c.ResetsNothing
  | .inbound _ _ | .inboundOwned _ _ => .isFalse id
  | .inboundDecoded _ _ => inferInstanceAs (Decidable (_ ∧ _))
  | .connect _ | .close | .timer _ | .send _ _ _ | .sendEncoded _ _ _ _ | .logout _ _ =>
    .isTrue trivial

/-- No option resets the counters. -/
def AdminProtocolConfig.ResetsNothing (c : AdminProtocolConfig) : Prop :=
  c.resetSeqNumOnLogon = false ∧ c.resetSeqNumOnLogout = false ∧ c.resetSeqNumOnDisconnect = false

instance (c : AdminProtocolConfig) : Decidable c.ResetsNothing :=
  inferInstanceAs (Decidable (_ ∧ _))

include laws saves hrefresh in
theorem perform_ahead (hconf : env.config.ResetsNothing) {c : Command} (hc : c.ResetsNothing) :
    Maintains (AdminProtocol.Ahead content env.config.session.sessionId)
      (perform (σ := σ) env c) := by
  have hsend := sending_ahead laws saves env
  cases c with
  | connect ts => exact onTransportConnected_ahead laws saves env hrefresh hconf.1 ts
  | close => exact .bind (onTransportClosed_ahead laws saves env hconf.2) fun _ => .pure _
  | inbound frame ts => exact hc.elim
  | inboundOwned frame ts => exact hc.elim
  | inboundDecoded d ts =>
    exact (receiving_ahead laws saves env hrefresh hconf.1 hc.1 hc.2).onInboundDecoded ts
  | timer ts => exact hsend.onTimer fun _ _ hp => hp
  | send m envelope ts => exact .bind (hsend.send _ _ _ ts) fun _ => .pure _
  | sendEncoded m envelope extras ts =>
    exact .bind (hsend.send _ _ _ ts) fun _ => .pure _
  | logout text ts => exact .bind (hsend.beginLogout text ts) fun _ => .pure _

include laws saves hrefresh in
/-- A session without resets that is opened over its store starts at or above its recovery record
exactly when it refreshes from the store or the applied snapshot, if it has the session, is at or
above the record. From then on the object reconnects at or above its record. -/
theorem restart_numbers_iff (hconf : env.config.ResetsNothing)
    {applied : Option HaStateSnapshot} {st : σ} {ts : Nat} {event : ProtocolEvent}
    {p : AdminProtocol σ} (hopen : openSession env applied (some st) ts = (.ok event, p)) :
    (∀ r, content.recovery env.config.session.sessionId st = some r →
      (r.AtMost (startNumbers event p) ↔ env.config.refreshOnLogon = true ∨
        ∀ s ∈ findAppliedSequenceState applied env.config.session.sessionId,
          r.AtMost (s.nextInboundSeq, s.nextOutboundSeq))) ∧
    ∀ q, Reaches (fun c q => (perform env c q).2) (fun c _ => c.ResetsNothing) p q →
      ∀ ts event q', onTransportConnected env ts q = (.ok event, q') →
        ∀ r ∈ q.record content env.config.session.sessionId, r.AtMost (startNumbers event q') := by
  constructor
  · intro r hr
    rw [openSession_start laws saves hrefresh hconf.1 hopen hr]
    have hself : r.AtMost (r.nextInSeq, r.nextOutSeq) := ⟨Nat.le_refl _, Nat.le_refl _⟩
    by_cases hon : env.config.refreshOnLogon = true
    · simp only [hon, if_true, true_or, iff_true]
      exact hself
    · rw [if_neg hon]
      cases findAppliedSequenceState applied env.config.session.sessionId with
      | none => simp [hself]
      | some s => simp [hon]
  · intro q hq ts event q' hconnect
    have hahead : q.Ahead content env.config.session.sessionId :=
      hq.invariant (openSession_ahead laws saves hrefresh hconf.1 hopen)
        fun c q hq hc => perform_ahead laws saves hrefresh hconf hc q hq
    exact hahead.start laws saves hrefresh hconf.1 hconnect

include laws saves hrefresh in
/-- A session opened again over the store that an object left, after failed calls too, starts with
the record, at most at the numbers of the object. -/
theorem restart_skips_no_number (hconf : env.config.ResetsNothing) {st : σ} {ts' : Nat}
    {event' : ProtocolEvent} {q : AdminProtocol σ}
    (hopen : (openSession env applied (some st) ts).1 = .ok event)
    (hrun : Reaches (fun c q => (perform env c q).2) (fun c _ => c.ResetsNothing)
      (openSession env applied (some st) ts).2 q)
    (hreopen : (openSession env none q.store ts').1 = .ok event') :
    ∀ r ∈ q.record content env.config.session.sessionId,
      startNumbers event' (openSession env none q.store ts').2 = (r.nextInSeq, r.nextOutSeq) ∧
        r.AtMost (q.session.nextInSeq, q.session.nextOutSeq) := by
  intro r hr
  have hahead : q.Ahead content env.config.session.sessionId :=
    hrun.invariant (openSession_ahead laws saves hrefresh hconf.1 (Prod.ext hopen rfl))
      fun c q hq hc => perform_ahead laws saves hrefresh hconf hc q hq
  obtain ⟨st', hst, hrecord⟩ := Option.bind_eq_some_iff.1 hr
  rw [hst] at hreopen ⊢
  refine ⟨?_, hahead.2 r hr⟩
  rw [openSession_start laws saves hrefresh hconf.1 (Prod.ext hreopen rfl) hrecord]
  exact ite_self _

end

/-- A store left by a session of the sample acceptor that was logged on and closed. -/
def Sample.usedStore : MemorySessionStore :=
  (after acceptor [.connect 1, .inbound (logonFrame 1) 2, .close]).store.getD {}

def Sample.record : SessionRecoveryState := ⟨1, 2, 2, 2, 2, false⟩

/-- A snapshot that is as new as the record of the store. -/
def Sample.snapshot : HaStateSnapshot := { sessions := [⟨1, 2, 2, 0⟩] }

open Sample

theorem restart_numbers_iff_sample :
    MemorySessionStore.content.recovery 1 usedStore = some record ∧
      record.AtMost (startNumbers {}
        (openSession acceptor (some snapshot) (some usedStore) 3).2) := by
  refine ⟨by decide +kernel, ?_⟩
  have hevent : (openSession acceptor (some snapshot) (some usedStore) 3).1 =
      .ok {} := by decide +kernel
  cases hopen : openSession acceptor (some snapshot) (some usedStore) 3 with
  | mk event p =>
    rw [hopen] at hevent
    subst hevent
    obtain ⟨hiff, -⟩ := restart_numbers_iff
      (MemorySessionStore.persists acceptor.config.session.sessionId)
      (MemorySessionStore.savesOrKeeps _) (fun _ => MemorySessionStore.refreshKeeps _)
      (show acceptor.config.ResetsNothing by decide +kernel) hopen
    exact (hiff record (by decide +kernel)).2 (.inr (by decide +kernel))

/-- A connection with a Logon and an order that is sent. -/
def Sample.secondConnection : List Command :=
  [.close, .connect 4] ++
    (decodeInbound acceptor (logonFrame 2)).toOption.toList.map (.inboundDecoded · 5) ++
    [.send (.mk (ascii "D") [⟨11, .string (ascii "order")⟩] []) {} 6, .close]

theorem restart_skips_no_number_sample :
    let q := secondConnection.foldl (fun q c => (perform acceptor c q).2)
      (openSession acceptor none (some usedStore) 3).2
    startNumbers {} (openSession acceptor none q.store 7).2 = (3, 4) :=
  (restart_skips_no_number (MemorySessionStore.persists acceptor.config.session.sessionId)
    (MemorySessionStore.savesOrKeeps _) (fun _ => MemorySessionStore.refreshKeeps _)
    (show acceptor.config.ResetsNothing by decide +kernel)
    (show (openSession acceptor none (some usedStore) 3).1 = .ok {} by decide +kernel)
    (Reaches.of_stepsOk secondConnection .start (by decide +kernel))
    (by decide +kernel) ⟨1, 3, 4, 5, 6, false⟩ (by decide +kernel)).1

/-- The snapshot of an engine in which the session has not been live lists it with `(1, 1)`. Once it
is applied, a session with the record `(2, 2)` starts with `(1, 1)`. -/
theorem snapshot_lowers_numbers :
    MemorySessionStore.content.recovery 1 usedStore = some record ∧
      acceptor.config.ResetsNothing ∧
      (openSession acceptor (some (takeSnapshot [] [1] 0 1)) (some usedStore) 3).1 =
        .ok {} ∧
      startNumbers {} (openSession acceptor (some (takeSnapshot [] [1] 0 1))
        (some usedStore) 3).2 = (1, 1) ∧
      ¬record.AtMost (1, 1) := by
  decide +kernel

end NimbleFix
