import NimbleFix.Lib.Transition
import NimbleFix.Proof.StoreMirror
import NimbleFix.Store.DurableContent
import NimbleFix.Session.Sample

/-!
# The store after a run

Every command that succeeds keeps the store in step with the session, so after a run of successful
commands the store has the counters and the frames, provided that a refresh keeps what was saved.
The durable batch store's refresh does not: it drops what was not yet written.
-/

namespace NimbleFix

open Fallible

/-! ## Runs of successful calls -/

/-- The frames the calls of a run returned. -/
def emittedFrames (outcomes : List (Except Status ProtocolEvent)) : List EncodedFrame :=
  outcomes.flatMap fun outcome =>
    match outcome with
    | .ok event => event.outboundFrames
    | .error _ => []

section

variable (env : ProtocolEnv) {σ : Type} [SessionStore σ]

/-- The call succeeds, and so does every frame it takes from those put aside: the overload for an
owned frame returns the status of its drain only in the other overload. -/
def CallOk (c : Command) (p : AdminProtocol σ) : Prop :=
  (perform env c p).1.isOk ∧
    match c with
    | .inboundOwned frame ts => (perform env (.inbound frame ts) p).1.isOk
    | _ => True

instance (c : Command) (p : AdminProtocol σ) : Decidable (CallOk env c p) :=
  match c with
  | .inboundOwned _ _ => instDecidableAnd
  | .connect _ | .close | .inbound _ _ | .inboundDecoded _ _ | .timer _ | .send _ _ _
  | .sendEncoded _ _ _ _ | .logout _ _ => instDecidableAnd

/-- The call succeeds, or it fails and leaves the counters and the store alone. -/
def CallKept (c : Command) (p : AdminProtocol σ) : Prop :=
  CallOk env c p ∨ ((perform env c p).1.isOk = false ∧ (perform env c p).2.books = p.books)

def AllCallsOk : List Command → AdminProtocol σ → Prop :=
  StepsOk (fun c p => (perform env c p).2) (CallOk env)

instance (commands : List Command) (p : AdminProtocol σ) :
    Decidable (AllCallsOk env commands p) := StepsOk.decidable ..

end

theorem filter_inRange_self {r : MessageRecord} : ∀ {records : List MessageRecord},
    Ascending records → r ∈ records → records.filter (·.inRange r.seqNum r.seqNum) = [r]
  | x :: xs, h, hr => by
    obtain ⟨hx, hxs⟩ := List.pairwise_cons.1 h
    rcases List.mem_cons.1 hr with rfl | hr
    · rw [List.filter_cons_of_pos (by simp [MessageRecord.inRange])]
      refine congrArg _ (List.filter_eq_nil_iff.2 fun y hy => ?_)
      have := hx y hy
      simp only [MessageRecord.inRange, Bool.and_eq_true, decide_eq_true_eq]
      omega
    · have := hx r hr
      rw [List.filter_cons_of_neg, filter_inRange_self hxs hr]
      simp only [MessageRecord.inRange, Bool.and_eq_true, decide_eq_true_eq]
      omega

section

variable {σ : Type} [SessionStore σ] {env : ProtocolEnv} {sent : List EncodedFrame}
  {p : AdminProtocol σ} {M S : List EncodedFrame → AdminProtocol σ → Prop}

/-! ## Commands -/

section

variable (k : MirrorRules env M S)

include k

theorem MirrorRules.connect (h : S sent p) (ts : Nat) :
    Upholds S sent (onTransportConnected env ts) p := by
  refine .bind ensureInitialized_ok fun _ p₁ ⟨hp₁, _⟩ => ?_
  subst hp₁
  refine .bind (P := fun _ p' => S sent p') ?_ fun _ p₂ h₂ => ?_
  · exact .ite (fun hr => (k.refresh h hr).mono fun _ _ h => h.1) fun _ => .pure h
  refine .bind (onTransportConnected_books.ensures p₂) fun _ p₃ hp₃ => ?_
  refine .bind (k.persist (k.mid (k.of_books h₂ hp₃))) fun _ p₄ h₄ => ?_
  refine .ite (fun _ => ?_) fun _ => Upholds.pure h₄ rfl
  refine .bind (P := fun _ p' => S sent p') ?_ fun _ p₅ h₅ => ?_
  · exact .ite (fun _ => (k.resetSessionState (k.mid h₄) fun hr => by cases hr).mono
      fun _ _ h => h.1) fun _ => .pure h₄
  refine .bind (beginLogon_books.ensures p₅) fun _ p₆ hp₆ => ?_
  exact .bind (k.buildLogon (k.mid (k.of_books h₅ hp₆)) ts _) fun _ _ h₇ => .pure h₇

theorem MirrorRules.close (h : S sent p) :
    Ensures (onTransportClosed env) p fun _ p' => S sent p' := by
  refine .bind ensureInitialized_ok fun _ p₁ ⟨hp₁, _⟩ => .get (.modify ?_)
  subst hp₁
  refine .bind (onTransportClosed_books.ensures _) fun _ p₂ hp₂ => ?_
  have h₂ : S sent p₂ := k.of_books h (hp₂.trans rfl)
  exact .ite (fun _ => (k.resetSessionState (k.mid h₂) fun hr => by cases hr).mono
    fun _ _ h => h.1) fun _ => k.persist (k.mid h₂)

theorem MirrorRules.timer (h : S sent p) (ts : Nat) :
    Upholds S sent (onTimer env ts) p := by
  refine .bind ensureInitialized_ok fun _ p₁ ⟨hp₁, _⟩ => .get ?_
  subst hp₁
  split
  · exact Upholds.pure h rfl
  · exact Upholds.pure h rfl
  · have hm : (AdminMessage.testRequest (decimal ts)).msgType ∈ adminFrameTypes := by
      simp [adminFrameTypes]
    refine .modify (.bind (k.buildAdmin ?_ hm ts) fun _ _ h₁ => .pure h₁)
    exact k.of_ledger (k.mid h) rfl
  · exact .bind (k.buildAdmin (k.mid h) (by simp [adminFrameTypes]) ts) fun _ _ h₁ => .pure h₁

theorem MirrorRules.handleInboundDecodeFailure (h : S sent p) (status : Status)
    (ts : Nat) :
    Upholds S sent (handleInboundDecodeFailure status ts) p := by
  refine .ite (fun _ => .fail status) fun _ => ?_
  refine .bind ensureInitialized_ok fun _ p₁ ⟨hp₁, _⟩ => ?_
  subst hp₁
  refine .bind ((recordInbound_books ts).ensures p₁) fun _ p₂ hp₂ => ?_
  exact .bind (k.persist (k.mid (k.of_books h hp₂))) fun _ p₃ h₃ => Upholds.pure h₃ rfl

theorem MirrorRules.onInbound (h : S sent p) (frame : Bytes) (ts : Nat) :
    Upholds S sent (onInbound env frame ts) p := by
  unfold NimbleFix.onInbound
  split
  · exact k.handleInboundDecodeFailure h _ ts
  · refine .bind (k.onInboundDecoded h ts) fun event p₁ h₁ => ?_
    intro e p' hp'
    unfold drainOrFail at hp'
    have hdrain := k.drainLoop ts p₁.deferredGapFrames.length h₁
    split at hp'
    · rename_i hd
      cases hp'
      unfold drainDeferredGapFrames at hd
      rw [hd] at hdrain
      exact hdrain rfl
    · cases hp'

omit k in
/-- The overload for an owned frame does the same when the other one succeeds. -/
theorem onInboundOwned_of_ok {frame : Bytes} {ts : Nat} {e : ProtocolEvent} {p' : AdminProtocol σ}
    (h : onInbound env frame ts p = (.ok e, p')) : onInboundOwned env frame ts p = (.ok e, p') := by
  unfold onInbound at h
  unfold onInboundOwned
  cases hdecode : decodeInbound env frame with
  | error status =>
    rw [hdecode] at h
    exact h
  | ok decoded =>
    rw [hdecode] at h
    obtain ⟨event, p₁, h₁, h₂⟩ := bind_ok h
    refine (bind_of_ok h₁).trans ?_
    unfold drainOrFail at h₂
    unfold drainAnyway
    split at h₂
    · rename_i hd
      cases h₂
      rw [hd]
    · cases h₂

omit k [SessionStore σ] in
theorem ensureSendable_ok : Ensures (ensureSendable (σ := σ)) p fun _ p' => p' = p := by
  intro _ p' hp'
  unfold ensureSendable at hp'
  split at hp' <;> cases hp'
  rfl

theorem MirrorRules.perform (h : S sent p) {c : Command}
    (hok : CallOk env c p) : Upholds S sent (perform env c) p := by
  cases c with
  | connect ts => exact k.connect h ts
  | close => exact .bind (k.close h) fun _ p₁ h₁ => Upholds.pure h₁ rfl
  | inbound frame ts => exact k.onInbound h frame ts
  | inboundOwned frame ts =>
    obtain ⟨-, hspan⟩ := hok
    intro e p' hp'
    cases hresult : NimbleFix.onInbound env frame ts p with
    | mk outcome p₁ =>
      cases outcome with
      | error status =>
        change (NimbleFix.onInbound env frame ts p).1.isOk at hspan
        rw [hresult] at hspan
        cases hspan
      | ok e₁ =>
        have howned : NimbleFix.onInboundOwned env frame ts p = (.ok e, p') := hp'
        rw [onInboundOwned_of_ok hresult] at howned
        cases howned
        exact k.onInbound h frame ts _ _ hresult
  | inboundDecoded decoded ts => exact k.onInboundDecoded h ts
  | timer ts => exact k.timer h ts
  | send m envelope ts =>
    refine .bind (P := fun f p' => S (sent ++ [f]) p') ?_
      fun _ _ h₁ => .pure h₁
    refine .bind ensureInitialized_ok fun _ p₁ ⟨hp₁, _⟩ => ?_
    subst hp₁
    refine .bind ensureSendable_ok fun _ p₂ hp₂ => ?_
    subst hp₂
    exact k.send (k.mid h) (.message m) (fun ha => by cases ha) ts
  | sendEncoded m envelope extras ts =>
    refine .bind (P := fun f p' => S (sent ++ [f]) p') ?_
      fun _ _ h₁ => .pure h₁
    refine .bind ensureInitialized_ok fun _ p₁ ⟨hp₁, _⟩ => ?_
    subst hp₁
    refine .bind ensureSendable_ok fun _ p₂ hp₂ => ?_
    subst hp₂
    exact k.send (k.mid h) (.preEncoded _) (fun ha => by cases ha) ts
  | logout text ts =>
    exact .bind (k.beginLogout (k.mid h) text ts) fun _ _ h₁ => .pure h₁

end

omit [SessionStore σ] in
theorem initialized_of_ok {α : Type} {m : Method (AdminProtocol σ) α} {a : α}
    {p' : AdminProtocol σ} (h : (do ensureInitialized; m : Method (AdminProtocol σ) α) p =
      (.ok a, p')) : p.initializationError = none := by
  obtain ⟨_, p₁, h₁, -⟩ := bind_ok h
  exact (ensureInitialized_ok _ _ h₁).2

/-- A call that succeeds is one of an object that was set up without an error. -/
theorem initialized_of_perform {c : Command} {e : ProtocolEvent} {p' : AdminProtocol σ}
    (h : NimbleFix.perform env c p = (.ok e, p')) : p.initializationError = none := by
  have hdecodeFailure : ∀ {status ts}, handleInboundDecodeFailure status ts p = (.ok e, p') →
      p.initializationError = none := by
    intro status ts h
    unfold NimbleFix.handleInboundDecodeFailure at h
    split at h
    · cases h
    · exact initialized_of_ok h
  cases c with
  | connect ts => exact initialized_of_ok h
  | close =>
    obtain ⟨_, _, h, -⟩ := bind_ok h
    exact initialized_of_ok h
  | inbound frame ts =>
    change NimbleFix.onInbound env frame ts p = _ at h
    unfold NimbleFix.onInbound at h
    cases hdecode : decodeInbound env frame with
    | error status =>
      rw [hdecode] at h
      exact hdecodeFailure h
    | ok decoded =>
      rw [hdecode] at h
      obtain ⟨_, _, h, -⟩ := bind_ok h
      exact initialized_of_ok h
  | inboundOwned frame ts =>
    change NimbleFix.onInboundOwned env frame ts p = _ at h
    unfold NimbleFix.onInboundOwned at h
    cases hdecode : decodeInbound env frame with
    | error status =>
      rw [hdecode] at h
      exact hdecodeFailure h
    | ok decoded =>
      rw [hdecode] at h
      obtain ⟨_, _, h, -⟩ := bind_ok h
      exact initialized_of_ok h
  | inboundDecoded decoded ts => exact initialized_of_ok h
  | timer ts => exact initialized_of_ok h
  | send m envelope ts =>
    obtain ⟨_, _, h, -⟩ := bind_ok h
    exact initialized_of_ok h
  | sendEncoded m envelope extras ts =>
    obtain ⟨_, _, h, -⟩ := bind_ok h
    exact initialized_of_ok h
  | logout text ts =>
    obtain ⟨_, _, h, -⟩ := bind_ok h
    exact initialized_of_ok h

/-! ## The run -/

variable {content : StoreContent σ} {bound : Bool}
  (laws : Persists content env.config.session.sessionId)
  (hrefresh : env.config.refreshOnLogon → RefreshKeeps content env.config.session.sessionId)

include laws in
/-- An object set up without an error has the counters of the recovery record, or `(1, 1)`. -/
theorem create_counters {st : σ}
    (hinit : (AdminProtocol.create env (some st)).initializationError = none) :
    ∃ st', (AdminProtocol.create env (some st)).store = some st' ∧
      content.Same env.config.session.sessionId st st' ∧
      (AdminProtocol.create env (some st)).session.config = env.config.session ∧
      0 < (AdminProtocol.create env (some st)).session.nextOutSeq ∧
      ∀ r ∈ content.recovery env.config.session.sessionId st,
        r.nextInSeq = (AdminProtocol.create env (some st)).session.nextInSeq ∧
          r.nextOutSeq = (AdminProtocol.create env (some st)).session.nextOutSeq := by
  have hsame := laws.loadRecovery_same st
  have hok := @Persists.loadRecovery_ok _ _ _ _ laws st
  have hnotFound := @Persists.loadRecovery_notFound _ _ _ _ laws st
  have hid : (SessionCore.setWarmupCount env.config.warmupMessageCount
      { config := env.config.session }).config.sessionId = env.config.session.sessionId := rfl
  unfold AdminProtocol.create at hinit ⊢
  dsimp only at hinit ⊢
  rw [hid] at hinit ⊢
  revert hinit hsame hok hnotFound
  generalize SessionStore.loadRecoveryState env.config.session.sessionId st = loaded
  obtain ⟨recovery, st'⟩ := loaded
  intro hinit hsame hok hnotFound
  dsimp only at hsame hok hnotFound hinit ⊢
  cases recovery with
  | error e =>
    by_cases hcode : e.code = .notFound
    · refine ⟨st', rfl, hsame, rfl, Nat.one_pos, fun r hr => ?_⟩
      rw [hnotFound rfl hcode] at hr
      cases hr
    · dsimp only at hinit
      rw [if_neg hcode, Option.or_eq_none_iff] at hinit
      cases hinit.2
  | ok r =>
    dsimp only at hinit ⊢
    cases hrestore : SessionCore.restoreSequenceState r.nextInSeq r.nextOutSeq
        (SessionCore.setWarmupCount env.config.warmupMessageCount
          { config := env.config.session }) with
    | mk outcome session =>
      rw [hrestore] at hinit
      cases outcome with
      | error e =>
        dsimp only at hinit
        rw [Option.or_eq_none_iff] at hinit
        cases hinit.2
      | ok _ =>
        unfold SessionCore.restoreSequenceState at hrestore
        rw [if_neg (by simp [SessionCore.setWarmupCount])] at hrestore
        split at hrestore
        · cases hrestore
        · rename_i hzero
          cases hrestore
          refine ⟨st', rfl, hsame, rfl, Nat.pos_of_ne_zero fun h => hzero (.inr h), ?_⟩
          intro r' hr'
          rw [hok rfl] at hr'
          cases hr'
          exact ⟨rfl, rfl⟩

include laws in
/-- An object set up without an error starts with the counters of its store. -/
theorem create_synced {st : σ}
    (hasc : Ascending (content.outbound env.config.session.sessionId st))
    (hinit : (AdminProtocol.create env (some st)).initializationError = none) :
    Synced env content true [] (.create env (some st)) := by
  obtain ⟨st', hstore, hsame, hconfig, hpos, hcounters⟩ := create_counters laws hinit
  refine ⟨⟨?_, ?_, hpos, by simp, by simp, ⟨_, hpos, rfl, rfl⟩, ?_, ?_⟩, ?_⟩
  · rw [hstore]; rfl
  · rw [hconfig]
  · intro st₁ hst₁
    obtain rfl : st' = st₁ := Option.some.inj (hstore.symm.trans hst₁)
    rw [hsame.1]
    exact hasc
  · intro _ _ f hf
    cases hf
  · intro st₁ hst₁
    obtain rfl : st' = st₁ := Option.some.inj (hstore.symm.trans hst₁)
    rw [hsame.2]
    cases hr : content.recovery env.config.session.sessionId st with
    | none => rfl
    | some r => exact hcounters r hr

/-- What holds between calls holds after a run of calls that succeed or change nothing. -/
theorem MirrorRules.run_kept (k : MirrorRules env M S) : ∀ (commands : List Command)
    {sent : List EncodedFrame} {p : AdminProtocol σ}, S sent p →
    StepsOk (fun c p => (NimbleFix.perform env c p).2) (CallKept env) commands p →
    S (sent ++ emittedFrames (runCommands env commands p).1) (runCommands env commands p).2
  | [], _, _, h, _ => append_nil h
  | c :: cs, sent, p, h, hok => by
    obtain ⟨hcall, hrest⟩ := hok
    dsimp only at hrest
    cases hresult : NimbleFix.perform env c p with
    | mk outcome p₁ =>
      have hstep : S (sent ++ emittedFrames [outcome]) p₁ := by
        rcases hcall with hcall | ⟨herror, hbooks⟩
        · cases outcome with
          | error status =>
            have hc := hcall.1
            rw [hresult] at hc
            cases hc
          | ok e =>
            have h₁ := k.perform h hcall e p₁ hresult
            rwa [show emittedFrames [.ok e] = e.outboundFrames by simp [emittedFrames]]
        · rw [hresult] at herror hbooks
          cases outcome with
          | error status => exact append_nil (k.of_books h hbooks)
          | ok e => cases herror
      rw [hresult] at hrest
      have hrun : runCommands env (c :: cs) p =
          (outcome :: (runCommands env cs p₁).1, (runCommands env cs p₁).2) := by
        rw [runCommands, hresult]
      have hemitted : emittedFrames (outcome :: (runCommands env cs p₁).1) =
          emittedFrames [outcome] ++ emittedFrames (runCommands env cs p₁).1 := by
        simp [emittedFrames]
      rw [hrun, hemitted, ← List.append_assoc]
      exact MirrorRules.run_kept k cs hstep hrest

/-- The first call of a run of successful calls shows that the object was set up without an error. -/
theorem MirrorRules.run (k : MirrorRules env M S) {commands : List Command} (hne : commands ≠ [])
    (h : p.initializationError = none → S sent p) (hok : AllCallsOk env commands p) :
    S (sent ++ emittedFrames (runCommands env commands p).1) (runCommands env commands p).2 := by
  refine k.run_kept commands (h ?_) (hok.mono fun _ _ => .inl)
  cases commands with
  | nil => exact absurd rfl hne
  | cons c cs =>
    have hcall := hok.1.1
    cases hresult : NimbleFix.perform env c p with
    | mk outcome p₁ =>
      rw [hresult] at hcall
      cases outcome with
      | error status => cases hcall
      | ok e => exact initialized_of_perform hresult

include laws hrefresh in
/-- After a run of successful calls the store's recovery state, if it has one, has the counters of the
session, and every frame that was returned since the last reset under a number of its own is what
the store loads for that number. -/
theorem store_mirrors_session {st : σ}
    (hasc : Ascending (content.outbound env.config.session.sessionId st)) {commands : List Command}
    (hne : commands ≠ []) (hok : AllCallsOk env commands (.create env (some st))) :
    let out := runCommands env commands (.create env (some st))
    ∃ st', out.2.store = some st' ∧
      (∀ r, (SessionStore.loadRecoveryState env.config.session.sessionId st').1 = .ok r →
        r.nextInSeq = out.2.session.nextInSeq ∧ r.nextOutSeq = out.2.session.nextOutSeq) ∧
      ∀ f ∈ emittedFrames out.1, f.fresh → f.epoch = out.2.storeResets →
        ∃ r, (SessionStore.loadOutboundRange env.config.session.sessionId f.seqNum f.seqNum st').1 =
          .ok [r] ∧ r.seqNum = f.seqNum ∧ r.payload = f.bytes := by
  have h := (mirrorRules_synced laws hrefresh).run hne (create_synced laws hasc) hok
  rw [List.nil_append] at h
  intro out
  obtain ⟨st', hst'⟩ := Option.isSome_iff_exists.1 h.bound_eq
  refine ⟨st', hst', fun r hr => ?_, fun f hf hfresh hepoch => ?_⟩
  · have hsaved := h.saved st' hst'
    rw [laws.loadRecovery_ok hr] at hsaved
    exact hsaved
  · have hcur : f ∈ currentFrames out.2.storeResets (emittedFrames out.1) :=
      List.mem_filter.2 ⟨hf, by simp [hfresh, hepoch]⟩
    obtain ⟨ts, hr⟩ := h.stored st' hst' f hcur
    refine ⟨f.record env.config.session.sessionId ts, ?_, rfl, rfl⟩
    rw [laws.loadOutbound (h.ascending st' hst') (h.seqNum_lt hcur).1 (Nat.le_refl _)]
    exact congrArg Except.ok (filter_inRange_self (h.ascending st' hst') hr)

end

namespace Sample

/-- The acceptor is connected, logged on, sends an order and gets one past a gap. -/
def traffic : List Command :=
  [.connect 1, .inbound (logonFrame 1) 2,
    .send (.mk (ascii "D") [⟨11, .string (ascii "order")⟩] []) {} 3, .inboundOwned (orderFrame 4) 4]

/-- The acceptor reads its counters back from the store on every Logon. -/
def refreshing : ProtocolEnv :=
  { acceptor with config := { acceptor.config with refreshOnLogon := true } }

/-- A durable batch store with the default options. -/
def durable : AdminProtocol (DurableBatchSessionStore {}) := .create refreshing (some {})

/-- The refreshing acceptor is connected, logged on, loses its connection and is connected again. -/
def reconnect : List Command := [.connect 1, .inbound (logonFrame 1) 2, .close, .connect 3]

end Sample

open Sample

theorem store_mirrors_session_sample :
    let out := runCommands refreshing traffic
      (.create refreshing (some ({} : MemorySessionStore)))
    ∃ st', out.2.store = some st' ∧
      (∀ r, (SessionStore.loadRecoveryState 1 st').1 = .ok r →
        r.nextInSeq = out.2.session.nextInSeq ∧ r.nextOutSeq = out.2.session.nextOutSeq) ∧
      ∀ f ∈ emittedFrames out.1, f.fresh → f.epoch = out.2.storeResets →
        ∃ r, (SessionStore.loadOutboundRange 1 f.seqNum f.seqNum st').1 = .ok [r] ∧
          r.seqNum = f.seqNum ∧ r.payload = f.bytes := by
  have laws : Persists MemorySessionStore.content refreshing.config.session.sessionId :=
    MemorySessionStore.persists 1
  have hasc : Ascending (MemorySessionStore.content.outbound
      refreshing.config.session.sessionId {}) := List.Pairwise.nil
  exact store_mirrors_session laws (fun _ => MemorySessionStore.refreshKeeps 1) hasc (by decide)
    (by decide +kernel)

/-- The Logon with number 1 was sent and saved, but the refresh on the second connection drops it:
the store has no record of it, and the session will use number 1 again. -/
theorem refresh_loses_sent_frame :
    AllCallsOk refreshing reconnect durable ∧
      let out := runCommands refreshing reconnect durable
      (∃ f ∈ emittedFrames out.1, f.fresh ∧ f.epoch = out.2.storeResets ∧ f.seqNum = 1) ∧
      out.2.store.map (fun st => (SessionStore.loadOutboundRange 1 1 1 st).1.toOption) =
        some (some []) ∧
      out.2.session.nextOutSeq = 1 := by
  decide +kernel

end NimbleFix
