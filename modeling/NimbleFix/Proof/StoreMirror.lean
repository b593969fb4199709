import NimbleFix.Proof.SessionSteps
import NimbleFix.Proof.StoreSteps

/-!
# Calls keep the store and the session in step

One lemma for each stage of a call: from a state where the store mirrors the session, a stage that
succeeds ends in such a state again, with the frames it returns added to those sent.
-/

namespace NimbleFix

open Fallible AdminProtocol SessionCore

/-! ## The cursor of a replay -/

namespace ReplayCursor

variable {c : ReplayCursor}

theorem passed_records : c.passed.records ⊆ c.records := by
  unfold passed
  split
  · rename_i r rs hrecords
    rw [hrecords]
    split
    · exact List.subset_cons_self r rs
    · exact List.Subset.refl _
  · exact List.nil_subset _

theorem skipGap_records (boundedEnd : Nat) : ∀ (fuel : Nat) (c : ReplayCursor),
    (c.skipGap boundedEnd fuel).records ⊆ c.records
  | 0, _ => List.Subset.refl _
  | fuel + 1, c => by
    unfold skipGap
    split
    · exact List.Subset.refl _
    · exact fun r hr => passed_records (skipGap_records boundedEnd fuel c.passed hr)

theorem replayable_mem {r : MessageRecord} (h : c.replayable = some r) :
    r ∈ c.records ∧ r.isAdmin = false := by
  unfold replayable at h
  split at h
  · rename_i r' rs hrecords
    split at h
    · rename_i hr
      cases h
      exact ⟨by simp [hrecords], by simpa using hr.2⟩
    · cases h
  · cases h

end ReplayCursor

section

variable {σ : Type} {M S : List EncodedFrame → AdminProtocol σ → Prop} {sent : List EncodedFrame}
  {p : AdminProtocol σ}

/-- If `m` succeeds, `S` holds with the frames of the event added to those sent. -/
def Upholds (S : List EncodedFrame → AdminProtocol σ → Prop) (sent : List EncodedFrame)
    (m : Method (AdminProtocol σ) ProtocolEvent) (p : AdminProtocol σ) : Prop :=
  Ensures m p fun e p' => S (sent ++ e.outboundFrames) p'

theorem append_nil (h : S sent p) : S (sent ++ []) p := by
  rwa [List.append_nil]

theorem quiet {e : ProtocolEvent} (h : S sent p) (he : e.outboundFrames = []) :
    S (sent ++ e.outboundFrames) p := by
  rwa [he, List.append_nil]

theorem Upholds.pure {e : ProtocolEvent} (h : S sent p) (he : e.outboundFrames = []) :
    Upholds S sent (Pure.pure e) p := Ensures.pure (quiet h he)

/-! ## Operations that leave the books alone -/

theorem recordInbound_books (ts : Nat) :
    Preserves books (recordInbound (σ := σ) ts) := fun _ => rfl

theorem settleTestRequest_books :
    Preserves books (settleTestRequest (σ := σ)) := fun _ => rfl

theorem onSession_books {α : Type} {m : Method SessionCore α}
    (h : ∀ s, (m s).2.config = s.config ∧ (m s).2.nextOutSeq = s.nextOutSeq ∧
      (m s).2.nextInSeq = s.nextInSeq) :
    Preserves books (onSession (σ := σ) m) := by
  intro p
  obtain ⟨h₁, h₂, h₃⟩ := h p.session
  simp only [books, ledger, onSession, zoom_apply, h₁, h₂, h₃]

theorem onSession_ledger {α : Type} {m : Method SessionCore α}
    (h : ∀ s, (m s).2.config = s.config ∧ (m s).2.nextOutSeq = s.nextOutSeq) :
    Preserves ledger (onSession (σ := σ) m) := by
  intro p
  obtain ⟨h₁, h₂⟩ := h p.session
  simp only [ledger, onSession, zoom_apply, h₁, h₂]

theorem SessionCore.noteGap_config (n : Nat) (s : SessionCore) :
    (s.noteGap n).config = s.config ∧ (s.noteGap n).nextOutSeq = s.nextOutSeq ∧
      (s.noteGap n).nextInSeq = s.nextInSeq := by
  unfold noteGap
  split <;> exact ⟨rfl, rfl, rfl⟩

theorem observeInboundSeq_ledger (n : Nat) :
    Preserves ledger (onSession (σ := σ) (observeInboundSeq n)) := by
  refine onSession_ledger fun s => ?_
  unfold observeInboundSeq
  split
  · exact ⟨rfl, rfl⟩
  · split
    · exact ⟨rfl, rfl⟩
    · split
      · exact ⟨(noteGap_config n s).1, (noteGap_config n s).2.1⟩
      · exact ⟨settleResend_config _, settleResend_nextOutSeq _⟩

theorem observeInboundSeq_books {n : Nat} {e : Status} {p' : AdminProtocol σ}
    (h : onSession (observeInboundSeq n) p = (.error e, p')) : p'.books = p.books := by
  obtain ⟨h₁, rfl⟩ := Prod.mk.inj h
  simp only [books, ledger]
  unfold observeInboundSeq at h₁ ⊢
  split
  · rfl
  · rename_i hst
    rw [if_neg hst] at h₁
    split
    · rfl
    · rename_i hlow
      rw [if_neg hlow] at h₁
      split
      · obtain ⟨hc, ho, hi⟩ := noteGap_config n p.session
        simp only [hc, ho, hi]
      · rename_i hhigh
        rw [if_neg hhigh] at h₁
        cases h₁

theorem advanceInboundExpectedSeq_ledger (n : Nat) : Preserves ledger
    (onSession (σ := σ) (advanceInboundExpectedSeq n)) := by
  refine onSession_ledger fun s => ?_
  unfold advanceInboundExpectedSeq
  split
  · exact ⟨rfl, rfl⟩
  · split
    · exact ⟨rfl, rfl⟩
    · exact ⟨settleResend_config _, settleResend_nextOutSeq _⟩

theorem onLogonAccepted_books :
    Preserves books (onSession (σ := σ) onLogonAccepted) := by
  refine onSession_books fun s => ?_
  unfold onLogonAccepted
  split <;> exact ⟨rfl, rfl, rfl⟩

theorem beginLogon_books :
    Preserves books (onSession (σ := σ) beginLogon) := by
  refine onSession_books fun s => ?_
  unfold beginLogon
  split <;> exact ⟨rfl, rfl, rfl⟩

theorem onTransportConnected_books :
    Preserves books (onSession (σ := σ) SessionCore.onTransportConnected) := by
  refine onSession_books fun s => ?_
  unfold SessionCore.onTransportConnected
  split <;> exact ⟨rfl, rfl, rfl⟩

theorem onTransportClosed_books :
    Preserves books (onSession (σ := σ) SessionCore.onTransportClosed) := by
  refine onSession_books fun s => ?_
  unfold SessionCore.onTransportClosed
  dsimp only
  split <;> exact ⟨rfl, rfl, rfl⟩

theorem beginSessionLogout_books :
    Preserves books (beginSessionLogout (σ := σ)) := by
  intro p
  unfold beginSessionLogout
  split
  · refine onSession_books (fun s => ?_) p
    unfold SessionCore.beginLogout
    split <;> exact ⟨rfl, rfl, rfl⟩
  · rfl

theorem rejectionEvent_quiet (r : Rejection) : (rejectionEvent r).outboundFrames = [] := by
  unfold rejectionEvent
  split <;> rfl

variable {env : ProtocolEnv} {d : DecodedMessageView}

/-- A reset Logon has reached the acceptor with its outbound number reset already. -/
def LogonReset (env : ProtocolEnv) (d : DecodedMessageView) (p : AdminProtocol σ) : Prop :=
  d.isLogonReset → env.config.session.isInitiator = false → p.session.nextOutSeq = 1

theorem LogonReset.of_ledger {p' : AdminProtocol σ} (h : LogonReset env d p)
    (hl : p'.ledger = p.ledger) : LogonReset env d p' := by
  intro hflag hinit
  have hout : p'.session.nextOutSeq = p.session.nextOutSeq := congrArg (fun l => l.2.1) hl
  rw [hout]
  exact h hflag hinit

/-! ## Rules -/

variable [SessionStore σ]

/-- What a call needs to keep `S` between calls and `M` inside one, where a counter may not be saved
yet: `M` is kept by what leaves the ledger alone, a save leads back to `S`, a send adds its frame,
and the outbound number is set only together with a reset of the store. -/
structure MirrorRules (env : ProtocolEnv) (M S : List EncodedFrame → AdminProtocol σ → Prop) :
    Prop where
  mid {sent : List EncodedFrame} {p : AdminProtocol σ} : S sent p → M sent p
  of_ledger {sent : List EncodedFrame} {p p' : AdminProtocol σ} :
    M sent p → p'.ledger = p.ledger → M sent p'
  of_books {sent : List EncodedFrame} {p p' : AdminProtocol σ} :
    S sent p → p'.books = p.books → S sent p'
  append_stale {sent : List EncodedFrame} {f : EncodedFrame} {p : AdminProtocol σ} :
    S sent p → f.fresh = false → f.epoch = 0 → S (sent ++ [f]) p
  persist {sent : List EncodedFrame} {p : AdminProtocol σ} :
    M sent p → Ensures persistRecoveryState p fun _ p' => S sent p'
  commit {sent : List EncodedFrame} {p : AdminProtocol σ} : M sent p →
    ∀ d ts, Ensures (commitInboundPersistence d ts) p fun _ p' => S sent p'
  send {sent : List EncodedFrame} {p : AdminProtocol σ} {msgType : Bytes}
    {encode : EncodeOptions → Except Status Bytes} {admin : Bool} {envelope : SessionSendEnvelope} :
    M sent p → EncodesAs env msgType encode → (admin → msgType ∈ adminFrameTypes) → ∀ ts,
    Ensures (encodeFrameWith env msgType encode { admin, envelope } ts) p
      fun f p' => S (sent ++ [f]) p'
  gapFill {sent : List EncodedFrame} {p : AdminProtocol σ} {msgType : Bytes}
    {encode : EncodeOptions → Except Status Bytes} : M sent p → ∀ beginSeq ts,
    Ensures (encodeFrameWith env msgType encode (gapFillParams beginSeq) ts) p
      fun f p' => S (sent ++ [f]) p'
  load {sent : List EncodedFrame} {p : AdminProtocol σ} : S sent p → ∀ beginSeq endSeq,
    Ensures (onStore [] fun s => SessionStore.loadOutboundRange s.config.sessionId beginSeq endSeq)
      p fun _ p' => S sent p'
  resetSessionState {sent : List EncodedFrame} {p : AdminProtocol σ} {nextIn nextOut : Nat}
    {reset : Bool} : M sent p → (reset = false → nextOut = p.session.nextOutSeq ∨
      env.config.refreshOnLogon ∧ currentFrames p.storeResets sent = []) →
    Ensures (resetSessionState nextIn nextOut reset) p
      fun _ p' => S sent p' ∧ p'.session.nextOutSeq = nextOut
  refresh {sent : List EncodedFrame} {p : AdminProtocol σ} : S sent p →
    env.config.refreshOnLogon → Ensures refreshSessionStateFromStore p fun _ p' => S sent p' ∧
      (p'.session.nextOutSeq = p.session.nextOutSeq ∨ currentFrames p'.storeResets sent = [])

/-- Between calls the store is in step with the session, provided that a refresh keeps what was
saved. -/
theorem mirrorRules_synced {env : ProtocolEnv} {content : StoreContent σ} {bound : Bool}
    (laws : Persists content env.config.session.sessionId)
    (hrefresh : env.config.refreshOnLogon → RefreshKeeps content env.config.session.sessionId) :
    MirrorRules env (Mirrors env content bound) (Synced env content bound) where
  mid h := h.toMirrors
  of_ledger := Mirrors.of_ledger
  of_books := Synced.of_books
  append_stale h hfresh hepoch := h.append_stale (by simpa using hfresh) (by simp [hepoch])
  persist h := h.persist laws
  commit h := h.commit laws
  send h henc hadmin := h.send laws henc hadmin
  gapFill h := h.gapFill laws
  load {_ p} h beginSeq endSeq := by
    intro records p₁ hp₁
    rcases onStore_ok hp₁ with ⟨-, rfl⟩ | ⟨st, st', hst, hm, rfl⟩
    · exact h
    · refine h.of_same hst ?_
      rw [h.session] at hm
      have hsame := laws.loadOutbound_same beginSeq endSeq st
      rwa [hm] at hsame
  resetSessionState h hout := h.resetSessionState laws fun hr => (hout hr).imp_right And.right
  refresh h hr := h.refresh laws (hrefresh hr)

theorem commit_nextOutSeq (d : DecodedMessageView) (ts : Nat) :
    Preserves (fun p : AdminProtocol σ => p.session.nextOutSeq) (commitInboundPersistence d ts) := by
  refine .bind (fun _ => rfl) fun _ p => ?_
  unfold onStore
  split <;> rfl

/-! ## Frames and logouts -/

variable (k : MirrorRules env M S)

include k

theorem MirrorRules.buildAdmin {m : MessageData} (h : M sent p)
    (hm : m.msgType ∈ adminFrameTypes) (ts : Nat) :
    Ensures (buildAdminFrame env m ts) p fun f p' => S (sent ++ [f]) p' :=
  k.send h (.message m) (fun _ => hm) ts

theorem MirrorRules.buildLogon (h : M sent p) (ts : Nat) (reset : Bool) :
    Ensures (buildLogonFrame env ts reset) p fun f p' => S (sent ++ [f]) p' :=
  Ensures.get (k.buildAdmin h (by simp [adminFrameTypes]) ts)

theorem MirrorRules.beginLogout (h : M sent p) (text : Bytes) (ts : Nat) :
    Ensures (beginLogout env text ts) p fun f p' => S (sent ++ [f]) p' := by
  refine .bind ensureInitialized_ok fun _ p₁ ⟨hp₁, _⟩ => .get (.ite (fun _ => .fail _) fun _ => ?_)
  subst hp₁
  refine .bind (beginSessionLogout_books.ensures p₁) fun _ p₂ hp₂ => .modify ?_
  have h₂ := k.of_ledger h (congrArg Prod.fst hp₂)
  have hm : (AdminMessage.logout text).msgType ∈ adminFrameTypes := by simp [adminFrameTypes]
  refine k.buildAdmin ?_ hm ts
  exact k.of_ledger h₂ rfl

theorem MirrorRules.logoutAndDisconnect {event : ProtocolEvent}
    (h : M (sent ++ event.outboundFrames) p) (text : Bytes) (ts : Nat) :
    Upholds S sent (logoutAndDisconnect env event text ts) p := by
  refine .bind (k.beginLogout h text ts) fun f p₁ h₁ => .pure ?_
  rwa [List.append_assoc] at h₁

theorem MirrorRules.logoutQuietly {event : ProtocolEvent} (h : M sent p)
    (he : event.outboundFrames = []) (text : Bytes) (ts : Nat) :
    Upholds S sent (NimbleFix.logoutAndDisconnect env event text ts) p :=
  k.logoutAndDisconnect (by rwa [he, List.append_nil]) text ts

theorem MirrorRules.rejectInbound (h : M sent p) (r : Rejection) (ts : Nat) :
    Upholds S sent (rejectInbound env d r ts) p := by
  refine .ite (fun _ => k.logoutQuietly h (rejectionEvent_quiet r) r.text ts) fun _ => ?_
  exact .bind (k.buildAdmin h (by simp [adminFrameTypes]) ts) fun f p₁ h₁ => .pure h₁

theorem MirrorRules.rejectThenLogout (h : M sent p) (r : Rejection) (ts : Nat) :
    Upholds S sent (rejectThenLogout env d r ts) p :=
  .bind (k.rejectInbound h _ ts) fun _ _ h₁ => k.logoutAndDisconnect (k.mid h₁) r.text ts

theorem MirrorRules.observeAndPersist (h : M sent p) (ts : Nat) :
    Ensures (observeAndPersist d ts) p fun _ p' => S sent p' := by
  refine .bind ((observeInboundSeq_ledger _).ensures p) fun _ p₁ hp₁ => ?_
  refine .bind (settleTestRequest_books.ensures p₁) fun _ p₂ hp₂ => ?_
  refine .bind ((recordInbound_books ts).ensures p₂) fun _ p₃ hp₃ => ?_
  have h₂ := k.of_ledger (k.of_ledger h hp₁) (congrArg Prod.fst hp₂)
  exact k.persist (k.of_ledger h₂ (congrArg Prod.fst hp₃))

theorem MirrorRules.consumeExpected (h : S sent p) (before : SessionSnapshot) (ts : Nat) :
    Ensures (consumeExpectedInboundBeforeReject d before ts) p fun _ p' => S sent p' := by
  intro a p' hp'
  unfold consumeExpectedInboundBeforeReject at hp'
  split at hp'
  · exact k.observeAndPersist (k.mid h) ts a p' hp'
  · cases hp'
    exact h

theorem MirrorRules.phaseViolationLogout (h : S sent p) (text : Bytes)
    (before : SessionSnapshot) (msgType : Bytes) (ts : Nat) :
    Upholds S sent (phaseViolationLogout env text before msgType ts) p :=
  .ite (fun _ => Upholds.pure h rfl) fun _ => k.logoutQuietly (k.mid h) rfl text ts

/-! ## Replays -/

theorem MirrorRules.replayLoop (o : ReplayOptions) (boundedEnd ts : Nat) : ∀ (fuel : Nat)
    (c : ReplayCursor) {sent : List EncodedFrame} {p : AdminProtocol σ},
    S sent p → Ensures (replayLoop env o boundedEnd ts fuel c) p fun r p' => S (sent ++ r.1) p'
  | 0, c, sent, p, h => .pure (append_nil h)
  | fuel + 1, c, sent, p, h => by
    unfold NimbleFix.replayLoop
    refine .ite (fun _ => .pure (append_nil h)) fun _ => ?_
    split
    · refine .bind (k.gapFill (k.mid h) c.seq ts) fun f p₁ h₁ => ?_
      refine .bind (MirrorRules.replayLoop o boundedEnd ts fuel _ h₁) fun r p₂ h₂ => .pure ?_
      rwa [List.append_assoc] at h₂
    · rename_i record _
      refine .bind (.ofExcept (P := fun f p' => S (sent ++ [f]) p') fun f hf => ?_) fun f p₁ h₁ => ?_
      · have hstale : f.fresh = false ∧ f.epoch = 0 := by
          unfold replayFrame at hf
          cases hdecode : decodeRawPassThrough soh false
              (if record.bodyStartOffset = 0 then none else some record.bodyStartOffset)
              record.payload with
          | error e =>
            rw [hdecode] at hf
            cases hf
          | ok parsed =>
            rw [hdecode] at hf
            cases hf
            exact ⟨rfl, rfl⟩
        exact k.append_stale h hstale.1 hstale.2
      · refine .bind (MirrorRules.replayLoop o boundedEnd ts fuel _ h₁) fun r p₂ h₂ => .pure ?_
        rwa [List.append_assoc] at h₂

theorem MirrorRules.replayOutbound (h : S sent p) (beginSeq endSeq ts : Nat) :
    Ensures (replayOutbound env beginSeq endSeq ts) p fun frames p' => S (sent ++ frames) p' := by
  intro frames p' hp'
  unfold NimbleFix.replayOutbound at hp'
  cases hst : p.store with
  | none =>
    rw [hst] at hp'
    cases hp'
    exact append_nil h
  | some st =>
    rw [hst] at hp'
    dsimp only at hp'
    split at hp'
    · cases hp'
      exact append_nil h
    · revert frames p' hp'
      refine Ensures.bind (k.load h _ _) fun records p₁ h₁ => ?_
      refine .bind (P := fun _ p' => S sent p') ?_ fun time p₂ h₂ => ?_
      · rintro _ _ ⟨⟩
        exact k.of_books h₁ rfl
      · exact .bind (k.replayLoop _ _ ts _ _ h₂) fun r p₃ h₃ => .pure h₃

/-! ## Logon -/

theorem MirrorRules.resetAfterLogon (h : S sent p) (hreset : LogonReset env d p)
    (hlogon : d.msgType = MsgType.logon) :
    Ensures (resetAfterLogon env d) p fun _ p' => S sent p' := by
  intro a p' hp'
  unfold NimbleFix.resetAfterLogon at hp'
  split at hp'
  · rename_i hflag
    refine (k.resetSessionState (k.mid h) (fun _ => .inl ?_) a p' hp').1
    cases hinit : env.config.session.isInitiator with
    | true => rfl
    | false =>
      have hlr : d.isLogonReset := by
        simpa [DecodedMessageView.isLogonReset, DecodedMessageView.isLogon, hlogon] using hflag
      exact (hreset hlr hinit).symm
  · cases hp'
    exact h

theorem MirrorRules.logonResponse (h : S sent p) (reset : Bool) (ts : Nat) :
    Ensures (logonResponse env reset ts) p fun frames p' => S (sent ++ frames) p' :=
  .ite (fun _ => .pure (append_nil h)) fun _ =>
    .bind (k.buildLogon (k.mid h) ts _) fun _ _ h₁ => .pure h₁

theorem MirrorRules.logonReplay (h : S sent p) (expected : Option Int)
    (preLogonNextOut ts : Nat) :
    Ensures (logonReplay env expected preLogonNextOut ts) p
      fun frames p' => S (sent ++ frames) p' := by
  unfold NimbleFix.logonReplay
  split
  · exact .ite (fun _ => .pure (append_nil h)) fun _ => k.replayOutbound h _ _ ts
  · exact .pure (append_nil h)

theorem MirrorRules.acceptLogon (h : S sent p) (preLogonNextOut ts : Nat) :
    Upholds S sent (acceptLogon env d preLogonNextOut ts) p := by
  refine .bind (k.logonResponse h _ ts) fun response p₁ h₁ => ?_
  refine .bind (onLogonAccepted_books.ensures p₁) fun _ p₂ hp₂ => ?_
  refine .bind (k.persist (k.mid (k.of_books h₁ hp₂))) fun _ p₃ h₃ => ?_
  refine .bind (k.logonReplay h₃ _ preLogonNextOut ts) fun replay p₄ h₄ => .pure ?_
  rwa [List.append_assoc] at h₄

theorem MirrorRules.processInboundLogon (h : S sent p) (hreset : LogonReset env d p)
    (hlogon : d.msgType = MsgType.logon) (ts : Nat) :
    Upholds S sent (processInboundLogon env d ts) p := by
  refine .bind (k.resetAfterLogon h hreset hlogon) fun _ p₁ h₁ => .get ?_
  split
  · exact k.logoutQuietly (k.mid h₁) rfl _ ts
  · exact k.acceptLogon h₁ _ ts

/-! ## Dispatch -/

theorem MirrorRules.processInboundApplication (h : S sent p) (ts : Nat) :
    Upholds S sent (processInboundApplication env d ts) p := by
  intro e p' hp'
  unfold NimbleFix.processInboundApplication at hp'
  split at hp'
  · cases hp'
  · split at hp'
    · revert e p' hp'
      refine Ensures.bind (k.buildAdmin (k.mid h) ?_ ts) fun f p₁ h₁ => .pure h₁
      simp [adminFrameTypes]
    · exact k.rejectInbound (k.mid h) _ ts e p' hp'
    · cases hp'
      exact quiet h rfl

theorem MirrorRules.processGapFill (h : S sent p) (ts : Nat) :
    Upholds S sent (processGapFill env d ts) p := by
  intro e p' hp'
  unfold NimbleFix.processGapFill at hp'
  split at hp'
  · exact k.rejectInbound (k.mid h) _ ts e p' hp'
  · split at hp'
    · exact k.rejectInbound (k.mid h) _ ts e p' hp'
    · revert e p' hp'
      refine Ensures.bind ((advanceInboundExpectedSeq_ledger _).ensures p) fun _ p₁ hp₁ => ?_
      exact .bind (k.persist (k.of_ledger (k.mid h) hp₁)) fun _ p₂ h₂ => .pure (quiet h₂ rfl)

theorem MirrorRules.processResendRequest (h : S sent p) (ts : Nat) :
    Upholds S sent (processResendRequest env d ts) p :=
  .bind (k.replayOutbound h _ _ ts) fun _ _ h₁ => .pure h₁

theorem MirrorRules.processHeartbeat (h : S sent p) :
    Upholds S sent (processHeartbeat d) p := by
  intro e p' hp'
  unfold NimbleFix.processHeartbeat at hp'
  dsimp only at hp'
  split at hp' <;> cases hp'
  · exact quiet (k.of_books h rfl) rfl
  · exact quiet h rfl

theorem MirrorRules.processTestRequest (h : S sent p) (ts : Nat) :
    Upholds S sent (processTestRequest env d ts) p :=
  .bind (k.buildAdmin (k.mid h) (by simp [adminFrameTypes]) ts) fun _ _ h₁ => .pure h₁

theorem MirrorRules.processLogout (h : S sent p) (ts : Nat) :
    Upholds S sent (processLogout env ts) p := by
  intro e p' hp'
  unfold NimbleFix.processLogout at hp'
  split at hp'
  · exact k.logoutQuietly (k.mid h) rfl [] ts e p' hp'
  · cases hp'
    exact quiet h rfl

theorem MirrorRules.dispatchMessage (h : S sent p) (hreset : LogonReset env d p)
    (ts : Nat) : Upholds S sent (dispatchMessage env d ts) p := by
  unfold NimbleFix.dispatchMessage
  refine .ite (fun hlogon => k.processInboundLogon h hreset hlogon ts) fun _ => ?_
  refine .ite (fun _ => k.processHeartbeat h) fun _ => ?_
  refine .ite (fun _ => k.processTestRequest h ts) fun _ => ?_
  refine .ite (fun _ => k.processResendRequest h ts) fun _ => ?_
  refine .ite (fun _ => k.processGapFill h ts) fun _ => ?_
  refine .ite (fun _ => k.processLogout h ts) fun _ => ?_
  exact .ite (fun _ => Upholds.pure h rfl) fun _ => k.processInboundApplication h ts

theorem MirrorRules.checkPhaseAndContent {accepted : Method (AdminProtocol σ) ProtocolEvent}
    (h : S sent p) (before : SessionSnapshot) (ts : Nat)
    (haccepted : Upholds S sent accepted p) :
    Upholds S sent (checkPhaseAndContent env d before ts accepted) p := by
  unfold NimbleFix.checkPhaseAndContent
  split
  · exact k.phaseViolationLogout h _ before _ ts
  · exact k.rejectInbound (k.mid h) _ ts
  · exact haccepted

/-! ## By number -/

theorem MirrorRules.requestResend (h : S sent p) (range : ResendRange) (ts : Nat) :
    Upholds S sent (requestResend env d range ts) p := by
  refine .bind ((recordInbound_books ts).ensures p) fun _ p₁ hp₁ => ?_
  refine .bind (k.buildAdmin (k.mid (k.of_books h hp₁)) ?_ ts) fun f p₂ h₂ => .modify (.pure ?_)
  · simp [adminFrameTypes]
  · exact k.of_books h₂ rfl

theorem MirrorRules.processOutOfSequence (h : S sent p) (before : SessionSnapshot)
    (status : Status) (ts : Nat) :
    Upholds S sent (processOutOfSequence env d before status ts) p := by
  intro e p' hp'
  unfold NimbleFix.processOutOfSequence at hp'
  split at hp'
  · split at hp'
    · revert e p' hp'
      refine Ensures.bind ((recordInbound_books ts).ensures p) fun _ p₁ hp₁ => ?_
      exact k.phaseViolationLogout (k.of_books h hp₁) _ before _ ts
    · exact k.requestResend h _ ts e p' hp'
    · cases hp'
  · cases hp'

theorem MirrorRules.processInOrder (h : S sent p) (hreset : LogonReset env d p)
    (before : SessionSnapshot) (ts : Nat) :
    Upholds S sent (processInOrder env d before ts) p := by
  have hledger := observeInboundSeq_ledger d.header.msgSeqNum p
  have hbooks := @observeInboundSeq_books σ p d.header.msgSeqNum
  unfold NimbleFix.processInOrder
  refine .bind (P := fun r p' => p'.ledger = p.ledger ∧
      ∀ e, r = .error e → p'.books = p.books) ?_ fun observed p₁ ⟨hl, herror⟩ => ?_
  · rintro r p' ⟨⟩
    exact ⟨hledger, fun e he => hbooks (Prod.ext he rfl)⟩
  refine .bind (settleTestRequest_books.ensures p₁) fun _ p₂ hp₂ => ?_
  cases observed with
  | error status =>
    exact k.processOutOfSequence (k.of_books h (hp₂.trans (herror status rfl))) before status ts
  | ok _ =>
    have hl₂ : p₂.ledger = p.ledger := (congrArg Prod.fst hp₂).trans hl
    refine .bind (P := fun _ p' => S sent p' ∧ LogonReset env d p') ?_ ?_
    · intro _ p₃ hp₃
      refine ⟨k.commit (k.of_ledger (k.mid h) hl₂) d ts _ _ hp₃, ?_⟩
      have hnext := (commit_nextOutSeq d ts).ensures p₂ _ _ hp₃
      intro hflag hinit
      exact hnext.trans ((hreset.of_ledger hl₂) hflag hinit)
    · intro _ p₃ ⟨h₃, hreset₃⟩
      exact k.checkPhaseAndContent h₃ before ts (k.dispatchMessage h₃ hreset₃ ts)

theorem MirrorRules.advanceThenCommit (h : S sent p) (before : SessionSnapshot)
    (newSeqNum ts : Nat) {next : Method (AdminProtocol σ) ProtocolEvent}
    (hnext : ∀ p', S sent p' → Upholds S sent next p') :
    Upholds S sent (do
      advanceExpected before newSeqNum
      commitInboundPersistence d ts
      next) p := by
  refine .bind (P := fun _ p' => p'.ledger = p.ledger) ?_ fun _ p₁ hp₁ => ?_
  · refine .ite (fun _ => ?_) fun _ => .pure rfl
    refine .bind ((advanceInboundExpectedSeq_ledger _).ensures p) fun _ p₁ hp₁ => ?_
    exact (settleTestRequest_books.ensures p₁).mono fun _ p₂ hp₂ => (congrArg Prod.fst hp₂).trans hp₁
  · exact .bind (k.commit (k.of_ledger (k.mid h) hp₁) d ts) fun _ p₂ h₂ => hnext p₂ h₂

theorem MirrorRules.processSequenceReset (h : S sent p) (before : SessionSnapshot)
    (ts : Nat) : Upholds S sent (processSequenceReset env d before ts) p := by
  unfold NimbleFix.processSequenceReset
  split
  · exact k.rejectInbound (k.mid h) _ ts
  · refine .ite (fun _ => k.rejectInbound (k.mid h) _ ts) fun _ => ?_
    exact k.advanceThenCommit h before _ ts fun p' h' =>
      k.checkPhaseAndContent h' before ts (Upholds.pure h' rfl)

theorem MirrorRules.processStale (h : S sent p) (before : SessionSnapshot) (ts : Nat) :
    Upholds S sent (processStale env d before ts) p := by
  refine .ite (fun _ => ?_) fun _ => .ite (fun _ => ?_) fun _ => ?_
  · unfold processStaleSequenceReset
    split
    · exact k.rejectInbound (k.mid h) _ ts
    · refine .ite (fun _ => k.logoutQuietly (k.mid h) rfl _ ts) fun _ => ?_
      refine .ite (fun _ => k.rejectInbound (k.mid h) _ ts) fun _ => ?_
      exact k.advanceThenCommit h before _ ts fun p' h' => Upholds.pure h' rfl
  · exact .bind (k.commit (k.mid h) d ts) fun _ p₁ h₁ => Upholds.pure h₁ rfl
  · exact k.logoutQuietly (k.mid h) rfl _ ts

theorem MirrorRules.processSequenced (h : S sent p) (hreset : LogonReset env d p)
    (before : SessionSnapshot) (ts : Nat) :
    Upholds S sent (processSequenced env d before ts) p := by
  have hnumber : Upholds S sent (processByNumber env d before ts) p :=
    .ite (fun _ => k.processStale h before ts) fun _ =>
      .ite (fun _ => k.processSequenceReset h before ts) fun _ =>
        k.processInOrder h hreset before ts
  unfold NimbleFix.processSequenced
  split
  · refine .ite (fun _ => ?_) fun _ => hnumber
    refine .bind ((recordInbound_books ts).ensures p) fun _ p₁ hp₁ => ?_
    exact .bind (k.persist (k.mid (k.of_books h hp₁))) fun _ p₂ h₂ => Upholds.pure h₂ rfl
  · exact hnumber

/-! ## A frame and the frames put aside -/

theorem MirrorRules.processChecked (h : S sent p) (ts : Nat) :
    Upholds S sent (processChecked env d p.session.snapshot ts) p := by
  refine .bind (P := fun _ p' => S sent p' ∧ (p'.session.nextOutSeq = p.session.nextOutSeq ∨
    env.config.refreshOnLogon ∧ currentFrames p'.storeResets sent = [])) ?_ fun _ p₁ ⟨h₁, hout⟩ => ?_
  · refine .ite (fun hr => ?_) fun _ => .pure ⟨h, .inl rfl⟩
    exact (k.refresh h hr.2).mono fun _ _ h => ⟨h.1, h.2.imp_right fun hnil => ⟨hr.2, hnil⟩⟩
  refine .bind (P := fun _ p' => S sent p' ∧ LogonReset env d p')
    (.ite (fun _ => ?_) fun hno => .pure ⟨h₁, fun hlr => ?_⟩)
    fun before p₂ ⟨h₂, hreset⟩ => k.processSequenced h₂ hreset before ts
  · refine .bind (k.resetSessionState (k.mid h₁) fun hr => ?_) fun _ p₂ ⟨h₂, hnext⟩ =>
      .get (.pure ⟨h₂, fun _ hinit => ?_⟩)
    · rw [if_pos (by simpa using hr)]
      exact hout.imp_left Eq.symm
    · rw [hnext, if_neg (by simp [hinit])]
  · simp [resetsOnLogon, hlr] at hno

theorem MirrorRules.rejectCompIds (h : S sent p) (before : SessionSnapshot)
    (r : Rejection) (ts : Nat) :
    Upholds S sent (rejectCompIds env d before r ts) p := by
  refine .bind (k.consumeExpected h before ts) fun _ p₁ h₁ => .ite (fun _ => ?_) fun _ =>
    k.rejectInbound (k.mid h₁) r ts
  refine .bind (P := fun _ p' => S sent p') ?_ fun _ p₂ h₂ =>
    k.rejectThenLogout (k.mid h₂) r ts
  refine .ite (fun _ => ?_) fun _ => .pure h₁
  refine .bind ((observeInboundSeq_ledger _).ensures p₁) fun _ p₂ hp₂ => ?_
  refine .bind ((recordInbound_books ts).ensures p₂) fun _ p₃ hp₃ => ?_
  exact k.persist (k.of_ledger (k.of_ledger (k.mid h₁) hp₂) (congrArg Prod.fst hp₃))

theorem MirrorRules.onInboundDecoded (h : S sent p) (ts : Nat) :
    Upholds S sent (onInboundDecoded env d ts) p := by
  refine .bind ensureInitialized_ok fun _ p₁ ⟨hp₁, _⟩ => .get ?_
  subst hp₁
  unfold processFrame
  split
  · exact k.rejectCompIds h _ _ ts
  · exact .bind (k.consumeExpected h _ ts) fun _ p₂ h₂ => k.rejectInbound (k.mid h₂) _ ts
  · refine .ite (fun _ => ?_) fun _ => k.processChecked h ts
    exact .bind (k.consumeExpected h _ ts) fun _ p₂ h₂ =>
      k.rejectThenLogout (k.mid h₂) _ ts

/-- A drain that succeeds adds the frames of the events it joins. -/
theorem MirrorRules.drainLoop (ts : Nat) :
    ∀ (fuel : Nat) {event : ProtocolEvent} {p : AdminProtocol σ},
    S (sent ++ event.outboundFrames) p →
    (drainLoop env ts fuel event p).1.2 = .ok () →
    S (sent ++ (drainLoop env ts fuel event p).1.1.outboundFrames)
      (drainLoop env ts fuel event p).2
  | 0, _, _, h, _ => h
  | fuel + 1, event, p, h, hok => by
    unfold NimbleFix.drainLoop at hok ⊢
    cases hnext : nextDeferred p with
    | none => exact h
    | some next =>
      obtain ⟨frame, p₁⟩ := next
      have h₁ : S (sent ++ event.outboundFrames) p₁ := by
        unfold nextDeferred at hnext
        split at hnext
        · split at hnext
          · cases hnext
          · cases hnext
            exact k.of_books h rfl
        · cases hnext
      rw [hnext] at hok
      dsimp only at hok ⊢
      cases hdecode : decodeInbound env frame with
      | error e =>
        rw [hdecode] at hok
        exact MirrorRules.drainLoop ts fuel h₁ hok
      | ok decoded =>
        rw [hdecode] at hok
        dsimp only at hok ⊢
        split at hok
        · rename_i hstale
          rw [if_pos hstale]
          exact MirrorRules.drainLoop ts fuel h₁ hok
        · rename_i hstale
          rw [if_neg hstale]
          have h₂ := k.onInboundDecoded h₁ (d := decoded) ts
          cases hinner : NimbleFix.onInboundDecoded env decoded ts p₁ with
          | mk outcome p₂ =>
            rw [hinner] at hok
            cases outcome with
            | error status => cases hok
            | ok inner =>
              have h₃ := h₂ inner p₂ hinner
              dsimp only at h₃
              rw [List.append_assoc] at h₃
              dsimp only at hok ⊢
              split at hok
              · rename_i hdisc
                rw [if_pos hdisc]
                exact h₃
              · rename_i hdisc
                rw [if_neg hdisc]
                exact MirrorRules.drainLoop ts fuel h₃ hok

end

end NimbleFix
