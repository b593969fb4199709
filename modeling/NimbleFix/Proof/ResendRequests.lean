import NimbleFix.Proof.ExpectedNumber
import NimbleFix.Proof.Frames
import NimbleFix.Lib.Transition

/-!
# What a ResendRequest asks for

The session asks for a resend in one place only: after a frame past a gap, for the range that is
pending then. A gap that is newly found begins at the expected number. A gap that is being filled
keeps the beginning it was found with, while the expected number moves on, so a request for it that
comes after a part has arrived asks again for numbers that are consumed.
-/

namespace NimbleFix

open Fallible AdminMessage

/-- A ResendRequest of the session itself. -/
def EncodedFrame.IsResendRequest (f : EncodedFrame) : Prop :=
  f.admin ∧ f.msgType = MsgType.resendRequest

/-- The frame encodes a ResendRequest whose `BeginSeqNo` is `beginSeq`. A dictionary that takes the
field for the count of a group has no place for its value. -/
def AsksFrom (env : ProtocolEnv) (f : EncodedFrame) (beginSeq : Nat) : Prop :=
  (∃ endSeq o, encodeMessage env (resendRequest beginSeq endSeq) o = .ok f.bytes) ∧
    (env.dictionary.findGroup Tag.beginSeqNo = none →
      HasFields f.bytes [⟨Tag.msgType, MsgType.resendRequest⟩] [⟨Tag.beginSeqNo, decimal beginSeq⟩])

theorem asksFrom_of_encodeMessage {env : ProtocolEnv} {f : EncodedFrame} {beginSeq endSeq : Nat}
    {o : EncodeOptions} (hdelim : o.delimiter = soh)
    (h : encodeMessage env (resendRequest beginSeq endSeq) o = .ok f.bytes) :
    AsksFrom env f beginSeq := by
  refine ⟨⟨endSeq, o, h⟩, fun hgroup => ?_⟩
  obtain ⟨header, body, hframe, hheader, hbody⟩ := hasFields_encodeMessage
    (m := resendRequest beginSeq endSeq) [⟨Tag.beginSeqNo, .int beginSeq⟩] hdelim
    (show MsgType.resendRequest ≠ [] by decide) rfl
    (by simpa using ⟨rfl, by decide, hgroup⟩) h
  rw [← formatInt_natCast beginSeq]
  exact ⟨header, body, hframe, fun g hg => hheader (by simp_all), hbody⟩

/-- A gap is being filled and no longer begins at the expected number. -/
def AdminProtocol.PartlyFilled {σ : Type} (p : AdminProtocol σ) : Prop :=
  p.session.state = .resendProcessing ∧
    ∃ range ∈ p.session.pendingResend, range.beginSeq ≠ p.session.nextInSeq

/-- The frame gets past the checks and is numbered above the expected number. -/
def PastGap {σ : Type} (env : ProtocolEnv) (d : DecodedMessageView) (ts : Nat)
    (p : AdminProtocol σ) : Prop :=
  HeaderAccepted env d ts ∧ p.session.nextInSeq < d.header.msgSeqNum ∧
    ¬(d.isSequenceReset ∧ !d.isGapFill) ∧ adminPhaseViolationText p.session.state d.msgType = none

section

variable {env : ProtocolEnv} {σ : Type} [SessionStore σ] {α : Type}

/-! ## Everything but the gap branch -/

/-- No ResendRequest of the session is among the frames. -/
def NoRequest (frames : List EncodedFrame) : Prop := ∀ f ∈ frames, ¬f.IsResendRequest

theorem noRequest_nil : NoRequest [] := by
  intro f hf
  cases hf

theorem NoRequest.append {xs ys : List EncodedFrame} (hx : NoRequest xs) (hy : NoRequest ys) :
    NoRequest (xs ++ ys) := by
  intro f hf
  rcases List.mem_append.1 hf with h | h
  · exact hx f h
  · exact hy f h

/-- The frames `m` returns, by `frames`, hold no ResendRequest. -/
abbrev AsksNothing (frames : α → List EncodedFrame) (m : Method (AdminProtocol σ) α) : Prop :=
  Returns (fun a => NoRequest (frames a)) m

variable {frames : α → List EncodedFrame} {d : DecodedMessageView} {p q p' : AdminProtocol σ}
  {ts : Nat} {e : ProtocolEvent} {f : EncodedFrame}

theorem encodeFrame_asksNothing {m : MessageData} (h : m.msgType ≠ MsgType.resendRequest)
    (params : FrameParams) (ts : Nat) :
    AsksNothing (fun f => [f]) (encodeFrame (σ := σ) env m params ts) := by
  intro p f p' hf g hg hrequest
  obtain ⟨_, _, _, _, htype, -⟩ := encodeFrameWith_ok hf
  rw [List.mem_singleton.1 hg] at hrequest
  exact h (htype.symm.trans hrequest.2)

theorem beginLogout_asksNothing (text : Bytes) (ts : Nat) :
    AsksNothing (fun f => [f]) (beginLogout (σ := σ) env text ts) :=
  .after fun _ => .after fun _ => .ite (.fail _) (.after fun _ => .after fun _ =>
    encodeFrame_asksNothing (by rw [logout_msgType]; decide) _ ts)

theorem logoutAndDisconnect_asksNothing {event : ProtocolEvent} (h : NoRequest event.outboundFrames)
    (text : Bytes) (ts : Nat) :
    AsksNothing ProtocolEvent.outboundFrames (logoutAndDisconnect (σ := σ) env event text ts) :=
  .bind (beginLogout_asksNothing text ts) fun _ hf => .pure (h.append hf)

theorem rejectInbound_asksNothing (d : DecodedMessageView) (r : Rejection) (ts : Nat) :
    AsksNothing ProtocolEvent.outboundFrames (rejectInbound (σ := σ) env d r ts) := by
  refine .ite (logoutAndDisconnect_asksNothing ?_ _ ts) (.bind (encodeFrame_asksNothing ?_ _ ts)
    fun _ hf => .pure hf)
  · unfold rejectionEvent
    split <;> exact noRequest_nil
  · rw [reject_msgType]
    decide

theorem rejectThenLogout_asksNothing (d : DecodedMessageView) (r : Rejection) (ts : Nat) :
    AsksNothing ProtocolEvent.outboundFrames (rejectThenLogout (σ := σ) env d r ts) :=
  .bind (rejectInbound_asksNothing d _ ts) fun _ he => logoutAndDisconnect_asksNothing he _ ts

theorem phaseViolationLogout_asksNothing (text : Bytes) (before : SessionSnapshot)
    (msgType : Bytes) (ts : Nat) : AsksNothing ProtocolEvent.outboundFrames
      (phaseViolationLogout (σ := σ) env text before msgType ts) :=
  .ite (.pure noRequest_nil) (logoutAndDisconnect_asksNothing noRequest_nil _ ts)

theorem checkPhaseAndContent_asksNothing (d : DecodedMessageView) (before : SessionSnapshot)
    (ts : Nat) {accepted : Method (AdminProtocol σ) ProtocolEvent}
    (h : AsksNothing ProtocolEvent.outboundFrames accepted) :
    AsksNothing ProtocolEvent.outboundFrames (checkPhaseAndContent env d before ts accepted) := by
  unfold checkPhaseAndContent
  split
  · exact phaseViolationLogout_asksNothing _ before _ ts
  · exact rejectInbound_asksNothing d _ ts
  · exact h

theorem replayLoop_asksNothing (o : ReplayOptions) (boundedEnd ts : Nat) :
    ∀ (fuel : Nat) (c : ReplayCursor),
      AsksNothing Prod.fst (replayLoop (σ := σ) env o boundedEnd ts fuel c)
  | 0, _ => .pure noRequest_nil
  | fuel + 1, c => by
    unfold replayLoop
    refine .ite (.pure noRequest_nil) ?_
    split
    · have hgap : ∀ n, (gapFill n).msgType ≠ MsgType.resendRequest := fun _ =>
        show MsgType.sequenceReset ≠ MsgType.resendRequest by decide
      exact .bind (encodeFrame_asksNothing (hgap _) _ ts) fun _ hf =>
        .bind (replayLoop_asksNothing o boundedEnd ts fuel _) fun _ hr => .pure (hf.append hr)
    · rename_i record _
      refine .bind (P := fun f => NoRequest [f]) (fun p => .ofExcept fun f hf g hg hrequest => ?_)
        fun _ hf => .bind (replayLoop_asksNothing o boundedEnd ts fuel _) fun _ hr =>
          .pure (hf.append hr)
      -- A replayed frame is no administrative one.
      rw [List.mem_singleton.1 hg] at hrequest
      unfold replayFrame at hf
      cases hdecode : decodeRawPassThrough soh false
          (if record.bodyStartOffset = 0 then none else some record.bodyStartOffset)
          record.payload with
      | error e => rw [hdecode] at hf; cases hf
      | ok parsed =>
        rw [hdecode] at hf
        cases hf
        cases hrequest.1

theorem replayOutbound_asksNothing (beginSeq endSeq ts : Nat) :
    AsksNothing id (replayOutbound (σ := σ) env beginSeq endSeq ts) := by
  intro p frames p' h
  unfold replayOutbound at h
  split at h
  · cases h
    exact noRequest_nil
  · dsimp only at h
    split at h
    · cases h
      exact noRequest_nil
    · have hrange : AsksNothing id (replayRange (σ := σ) env beginSeq
          (replayEnd p.session.nextOutSeq endSeq) ts) :=
        .after fun _ => .after fun _ => .bind (replayLoop_asksNothing _ _ ts _ _) fun _ hr => .pure hr
      exact hrange p frames p' h

theorem processInboundLogon_asksNothing (d : DecodedMessageView) (ts : Nat) :
    AsksNothing ProtocolEvent.outboundFrames (processInboundLogon (σ := σ) env d ts) := by
  refine .after fun _ => .after fun p => ?_
  split
  · exact logoutAndDisconnect_asksNothing noRequest_nil _ ts
  · refine .bind (P := NoRequest) (.ite (.pure noRequest_nil) (.bind (P := fun f => NoRequest [f])
      (.after fun _ => encodeFrame_asksNothing ?_ _ ts) fun _ hf => .pure hf)) fun _ hresponse =>
      .after fun _ => .after fun _ => .bind (P := NoRequest) ?_ fun _ hreplay =>
        .pure (hresponse.append hreplay)
    · rw [logon_msgType]
      decide
    · unfold logonReplay
      split
      · exact .ite (.pure noRequest_nil) (replayOutbound_asksNothing _ _ ts)
      · exact .pure noRequest_nil

theorem processInboundApplication_asksNothing (d : DecodedMessageView) (ts : Nat) :
    AsksNothing ProtocolEvent.outboundFrames (processInboundApplication (σ := σ) env d ts) := by
  have hreject : ∀ reason, AsksNothing ProtocolEvent.outboundFrames
      (sendBusinessReject (σ := σ) env d reason ts) := fun _ =>
    .bind (encodeFrame_asksNothing (by rw [businessReject_msgType]; decide) _ ts)
      fun _ hf => .pure hf
  intro p e p' h
  unfold processInboundApplication at h
  split at h
  · cases h
  · split at h
    · exact hreject _ p e p' h
    · exact rejectInbound_asksNothing d _ ts p e p' h
    · cases h
      exact noRequest_nil

theorem dispatchMessage_asksNothing (d : DecodedMessageView) (ts : Nat) :
    AsksNothing ProtocolEvent.outboundFrames (dispatchMessage (σ := σ) env d ts) := by
  refine .ite (processInboundLogon_asksNothing d ts) (.ite ?_ (.ite ?_ (.ite ?_ (.ite ?_ (.ite ?_
    (.ite (.pure noRequest_nil) (processInboundApplication_asksNothing d ts)))))))
  · intro p e p' h
    unfold processHeartbeat at h
    dsimp only at h
    split at h <;> cases h <;> exact noRequest_nil
  · exact .bind (encodeFrame_asksNothing (by rw [heartbeat_msgType]; decide) _ ts)
      fun _ hf => .pure hf
  · exact .bind (P := NoRequest) (replayOutbound_asksNothing _ _ ts) fun _ hr => .pure hr
  · intro p e p' h
    unfold processGapFill at h
    split at h
    · exact rejectInbound_asksNothing d _ ts p e p' h
    · split at h
      · exact rejectInbound_asksNothing d _ ts p e p' h
      · exact Returns.after (Q := fun e => NoRequest e.outboundFrames)
          (fun _ => .after fun _ => .pure noRequest_nil) p e p' h
  · intro p e p' h
    unfold processLogout at h
    split at h
    · exact logoutAndDisconnect_asksNothing noRequest_nil _ ts p e p' h
    · cases h
      exact noRequest_nil

theorem processSequenceReset_asksNothing (d : DecodedMessageView) (before : SessionSnapshot)
    (ts : Nat) : AsksNothing ProtocolEvent.outboundFrames
      (processSequenceReset (σ := σ) env d before ts) := by
  unfold processSequenceReset
  split
  · exact rejectInbound_asksNothing d _ ts
  · exact .ite (rejectInbound_asksNothing d _ ts) (.after fun _ => .after fun _ =>
      checkPhaseAndContent_asksNothing d before ts (.pure noRequest_nil))

theorem processStale_asksNothing (d : DecodedMessageView) (before : SessionSnapshot) (ts : Nat) :
    AsksNothing ProtocolEvent.outboundFrames (processStale (σ := σ) env d before ts) := by
  refine .ite ?_ (.ite (.after fun _ => .pure noRequest_nil)
    (logoutAndDisconnect_asksNothing noRequest_nil _ ts))
  unfold processStaleSequenceReset
  split
  · exact rejectInbound_asksNothing d _ ts
  · exact .ite (logoutAndDisconnect_asksNothing noRequest_nil _ ts)
      (.ite (rejectInbound_asksNothing d _ ts)
        (.after fun _ => .after fun _ => .pure noRequest_nil))

/-! ## The gap branch -/

variable (env) in
/-- What a ResendRequest `f` tells that processing `d` from `p` returned with the state `p'`: it
asks for the pending range, and the frame was put aside. -/
structure Asked (d : DecodedMessageView) (before : SessionSnapshot) (p p' : AdminProtocol σ)
    (f : EncodedFrame) : Prop where
  range : ∃ range ∈ p'.session.pendingResend, AsksFrom env f range.beginSeq
  deferred : p'.deferredGapFrames = p.deferredGapFrames ++ [d.raw]
  number : before.nextInSeq < d.header.msgSeqNum
  mode : ¬(d.isSequenceReset ∧ !d.isGapFill)
  phase : adminPhaseViolationText before.state d.msgType = none

variable (env) in
/-- Every ResendRequest `m` returns is one of `d` from the state `p`. -/
def AsksFor (d : DecodedMessageView) (before : SessionSnapshot) (p : AdminProtocol σ)
    (m : Method (AdminProtocol σ) ProtocolEvent) (q : AdminProtocol σ) : Prop :=
  Ensures m q fun e p' => ∀ f ∈ e.outboundFrames, f.IsResendRequest → Asked env d before p p' f

omit [SessionStore σ] in
theorem AsksNothing.asksFor {m : Method (AdminProtocol σ) ProtocolEvent} {before : SessionSnapshot}
    (h : AsksNothing ProtocolEvent.outboundFrames m) (q : AdminProtocol σ) :
    AsksFor env d before p m q :=
  fun e p' hm f hf hrequest => absurd hrequest (h q e p' hm f hf)

theorem processOutOfSequence_asksFor {before : SessionSnapshot}
    (hq : q.deferredGapFrames = p.deferredGapFrames) (hmode : ¬(d.isSequenceReset ∧ !d.isGapFill))
    (status : Status) (ts : Nat) :
    AsksFor env d before p (processOutOfSequence env d before status ts) q := by
  intro e p' h f hf hrequest
  unfold processOutOfSequence at h
  split at h
  · rename_i hnumber
    split at h
    · exact absurd hrequest
        (Returns.after (fun _ => phaseViolationLogout_asksNothing _ before _ ts) q e p' h f hf)
    · rename_i range hphase hrange
      obtain ⟨_, q₁, hrecord, h₁⟩ := bind_ok h
      obtain ⟨frame, q₂, hbuild, h₂⟩ := bind_ok h₁
      cases hrecord
      cases h₂
      obtain ⟨_, _, -, hbytes, -⟩ := encodeFrameWith_ok hbuild
      have hcore := (buildAdminFrame_core env _ ts).ensures _ _ _ hbuild
      have hpending : q₂.session.pendingResend = some range :=
        (congrArg InboundCore.pendingResend hcore).trans hrange
      have hdeferred : q₂.deferredGapFrames = q.deferredGapFrames :=
        congrArg InboundCore.deferredGapFrames hcore
      rw [List.mem_singleton.1 hf]
      refine ⟨⟨range, hpending, asksFrom_of_encodeMessage rfl hbytes⟩, ?_, hnumber, hmode, hphase⟩
      show q₂.deferredGapFrames ++ [d.raw] = _
      rw [hdeferred, hq]
    · cases h
  · cases h

theorem processInOrder_asksFor (before : SessionSnapshot)
    (hq : q.deferredGapFrames = p.deferredGapFrames) (hmode : ¬(d.isSequenceReset ∧ !d.isGapFill))
    (ts : Nat) : AsksFor env d before p (processInOrder env d before ts) q := by
  intro e p' h
  cases hobserved : ((onSession (SessionCore.observeInboundSeq d.header.msgSeqNum)) q).1 with
  | error status =>
    rw [processInOrder_of_error env hobserved] at h
    exact processOutOfSequence_asksFor (q := observedState d q) hq hmode status ts e p' h
  | ok _ =>
    rw [processInOrder_of_ok env hobserved] at h
    exact AsksNothing.asksFor (.after fun _ => checkPhaseAndContent_asksNothing d before ts
      (dispatchMessage_asksNothing d ts)) _ e p' h

theorem processSequenced_asksFor (d : DecodedMessageView) (before : SessionSnapshot)
    (hq : q.deferredGapFrames = p.deferredGapFrames) (ts : Nat) :
    AsksFor env d before p (processSequenced env d before ts) q := by
  have hnumber : AsksFor env d before p (processByNumber env d before ts) q :=
    .ite (fun _ => (processStale_asksNothing d before ts).asksFor q) fun _ =>
      .ite (fun _ => (processSequenceReset_asksNothing d before ts).asksFor q) fun hmode =>
        processInOrder_asksFor before hq hmode ts
  unfold processSequenced
  split
  · exact .ite (fun _ => AsksNothing.asksFor (.after fun _ => .after fun _ => .pure noRequest_nil) q)
      fun _ => hnumber
  · exact hnumber

theorem processChecked_asked (hacc : HeaderAccepted env d ts)
    (h : processChecked env d p.session.snapshot ts p = (.ok e, p')) (hf : f ∈ e.outboundFrames)
    (hrequest : f.IsResendRequest) :
    (∃ range ∈ p'.session.pendingResend, AsksFrom env f range.beginSeq) ∧
      p'.deferredGapFrames = p.deferredGapFrames ++ [d.raw] ∧
      (p.session.state = .resendProcessing → PastGap env d ts p) := by
  obtain ⟨_, p₁, hrefresh, h₁⟩ := bind_ok h
  obtain ⟨before, p₂, hreset, h₂⟩ := bind_ok h₁
  have hcore₁ : p₁.session.state = p.session.state ∧
      p₁.deferredGapFrames = p.deferredGapFrames := by
    have hcases := refreshOnLogon_core env d p
    rw [hrefresh] at hcases
    rcases hcases with hc | ⟨-, -, n, hc⟩
    · exact ⟨congrArg InboundCore.state hc, congrArg InboundCore.deferredGapFrames hc⟩
    · exact ⟨congrArg InboundCore.state hc, congrArg InboundCore.deferredGapFrames hc⟩
  -- A session that fills a gap refuses the reset, so the snapshot is the one before the frame.
  have hcore₂ : p₂.deferredGapFrames = p₁.deferredGapFrames ∧
      (p₁.session.state = .resendProcessing → before = p.session.snapshot) := by
    unfold resetOnLogon at hreset
    split at hreset
    · obtain ⟨_, p₃, hstate, h₃⟩ := bind_ok hreset
      have hcases := resetSessionState_core 1
        (if env.config.session.isInitiator then p.session.snapshot.nextOutSeq else 1)
        (!env.config.session.isInitiator) p₁
      rw [hstate] at hcases
      cases h₃
      rcases hcases with ⟨hne, -⟩ | ⟨hst, hc⟩
      · exact absurd rfl hne
      · exact ⟨congrArg InboundCore.deferredGapFrames hc, fun h => absurd h hst⟩
    · cases hreset
      exact ⟨rfl, fun _ => rfl⟩
  obtain ⟨hrange, hdeferred, hnumber, hmode, hphase⟩ :=
    processSequenced_asksFor d before (hcore₂.1.trans hcore₁.2) ts e p' h₂ f hf hrequest
  refine ⟨hrange, hdeferred, fun hstate => ?_⟩
  rw [hcore₂.2 (hcore₁.1.trans hstate)] at hnumber hphase
  exact ⟨hacc, hnumber, hmode, hphase⟩

theorem onInboundDecoded_asked (h : onInboundDecoded env d ts p = (.ok e, p'))
    (hf : f ∈ e.outboundFrames) (hrequest : f.IsResendRequest) :
    (∃ range ∈ p'.session.pendingResend, AsksFrom env f range.beginSeq) ∧
      p'.deferredGapFrames = p.deferredGapFrames ++ [d.raw] ∧
      (p.session.state = .resendProcessing → PastGap env d ts p) := by
  obtain ⟨_, p₁, hinit, h₁⟩ := bind_ok h
  obtain ⟨rfl, -⟩ := ensureInitialized_ok _ _ hinit
  by_cases hacc : HeaderAccepted env d ts
  · rw [bind_of_ok (get_apply p₁), processFrame_of_accepted env hacc] at h₁
    exact processChecked_asked hacc h₁ hf hrequest
  · have hquiet := returns_of_header_refused (σ := σ) env hacc
      (fun r => rejectInbound_asksNothing d r ts) (fun r => rejectThenLogout_asksNothing d r ts)
    exact absurd hrequest (hquiet _ p₁ e p' h₁ f hf)

/-- The range that a gap leaves pending begins at the expected number, unless an older range is
extended. -/
theorem InboundCore.noteGap_beginSeq {c : InboundCore} {n : Nat} {range : ResendRange}
    (h : (c.noteGap n).pendingResend = some range) :
    range.beginSeq = c.nextInSeq ∨ c.state = .resendProcessing ∧
      ∃ old, c.pendingResend = some old ∧ range.beginSeq = old.beginSeq := by
  unfold InboundCore.noteGap at h
  split at h
  · rename_i old hstate hold
    cases h
    exact .inr ⟨hstate, old, hold, rfl⟩
  · cases h
    exact .inl rfl

/-- Unless the frame is past a gap that is partly filled, its ResendRequest begins at the expected
number. -/
theorem onInboundDecoded_asksExpected (hok : ¬(p.PartlyFilled ∧ PastGap env d ts p))
    (h : onInboundDecoded env d ts p = (.ok e, p')) (hf : f ∈ e.outboundFrames)
    (hrequest : f.IsResendRequest) :
    AsksFrom env f p'.session.nextInSeq ∧ p'.session.pendingResend.isSome := by
  obtain ⟨⟨range, hrange, hasks⟩, hdeferred, hpast⟩ := onInboundDecoded_asked h hf hrequest
  refine ⟨?_, by rw [hrange]; rfl⟩
  obtain ⟨c, hrestored, heffect⟩ := onInboundDecoded_effect env d ts p
  have hc : c.deferredGapFrames = p.deferredGapFrames := by
    cases hrestored with
    | same => rfl
    | restored n _ _ => rfl
  rw [h] at heffect
  have hne : p'.inboundCore.deferredGapFrames ≠ c.deferredGapFrames := by
    intro heq
    have happend := hdeferred.symm.trans (heq.trans hc)
    simp at happend
  have hgap : p'.session.nextInSeq = c.nextInSeq ∧
      (c.noteGap d.header.msgSeqNum).pendingResend = some range := by
    have hpending : p'.inboundCore.pendingResend = some range := hrange
    have hnext : p'.inboundCore.nextInSeq = p'.session.nextInSeq := rfl
    rw [← hnext]
    revert heffect hne hpending
    generalize p'.inboundCore = c'
    intro heffect hne hpending
    cases heffect with
    | quiet hs _ => exact absurd hs.deferredGapFrames_eq hne
    | consumed _ _ hs _ => exact absurd (by rw [hs.deferredGapFrames_eq]; simp) hne
    | filled n _ _ _ _ _ _ _ => exact absurd (by simp) hne
    | reset n _ _ _ hs _ _ => exact absurd (by rw [hs.deferredGapFrames_eq]; simp) hne
    | gapped _ _ _ hs _ => exact absurd (by rw [hs.deferredGapFrames_eq]; simp) hne
    | deferred _ _ _ _ => exact ⟨InboundCore.noteGap_nextInSeq _ _, hpending⟩
  rw [hgap.1]
  rcases InboundCore.noteGap_beginSeq hgap.2 with hbegin | ⟨hstate, old, hold, hbegin⟩
  · rwa [← hbegin]
  · cases hrestored with
    | restored n _ hst => exact absurd hstate hst
    | same =>
      have heq : old.beginSeq = p.session.nextInSeq := by
        by_contra hpartly
        exact hok ⟨⟨hstate, old, hold, hpartly⟩, hpast hstate⟩
      rw [hbegin, heq] at hasks
      exact hasks

/-! ## Runs -/

variable (env) in
/-- The frame of the command is not past a gap that is partly filled. -/
def Timely (c : Command) (p : AdminProtocol σ) : Prop :=
  match c with
  | .inbound frame ts | .inboundOwned frame ts =>
    ∀ d, decodeInbound env frame = .ok d → ¬(p.PartlyFilled ∧ PastGap env d ts p)
  | .inboundDecoded d ts => ¬(p.PartlyFilled ∧ PastGap env d ts p)
  | _ => True

variable (env) in
/-- Every ResendRequest that the command emits begins at the number expected then. -/
def AsksExpected (c : Command) (p : AdminProtocol σ) : Prop :=
  ∀ e p', perform env c p = (.ok e, p') → ∀ f ∈ e.outboundFrames, f.IsResendRequest →
    AsksFrom env f p'.session.nextInSeq

/-- A drained frame is processed while no range is pending, and a request ends the drain. -/
theorem drain_asksExpected (ts : Nat) {event : ProtocolEvent}
    (h : ∀ f ∈ event.outboundFrames, f.IsResendRequest →
      AsksFrom env f p.session.nextInSeq ∧ p.session.pendingResend.isSome) :
    ∀ f ∈ (drainDeferredGapFrames env ts event p).1.1.outboundFrames, f.IsResendRequest →
      AsksFrom env f (drainDeferredGapFrames env ts event p).2.session.nextInSeq := by
  have hdrain := drainLoop_invariant env ts (P := fun event (p : AdminProtocol σ) =>
    ∀ f ∈ event.outboundFrames, f.IsResendRequest →
      AsksFrom env f p.session.nextInSeq ∧ p.session.pendingResend.isSome) ?_ ?_
    p.deferredGapFrames.length event p h
  · exact fun f hf hrequest => (hdrain f hf hrequest).1
  · intro event p _ q hp hnext f hf hrequest
    obtain ⟨rest, -, hnone, -⟩ := nextDeferred_eq_some.1 hnext
    have hsome := (hp f hf hrequest).2
    rw [hnone] at hsome
    cases hsome
  · intro event p _ q d hp hnext _ _ f hf hrequest
    obtain ⟨rest, -, hnone, rfl⟩ := nextDeferred_eq_some.1 hnext
    have hquiet : f ∉ event.outboundFrames := by
      intro hmem
      have hsome := (hp f hmem hrequest).2
      rw [hnone] at hsome
      cases hsome
    have hok : ¬(AdminProtocol.PartlyFilled { p with deferredGapFrames := rest } ∧
        PastGap env d ts { p with deferredGapFrames := rest }) := by
      rintro ⟨⟨-, range, hrange, -⟩, -⟩
      have hrange : p.session.pendingResend = some range := hrange
      rw [hnone] at hrange
      cases hrange
    cases hinner : onInboundDecoded env d ts { p with deferredGapFrames := rest } with
    | mk outcome p' =>
      rw [hinner] at hf
      cases outcome with
      | error status => exact absurd hf hquiet
      | ok inner =>
        rcases List.mem_append.1 hf with hf | hf
        · exact absurd hf hquiet
        · exact onInboundDecoded_asksExpected hok hinner hf hrequest

theorem byteCall_asksExpected {frame : Bytes}
    (hok : ∀ d, decodeInbound env frame = .ok d → ¬(p.PartlyFilled ∧ PastGap env d ts p))
    {out : Except Status ProtocolEvent × AdminProtocol σ} (h : ByteCall env frame ts p out)
    {e : ProtocolEvent} (he : out.1 = .ok e) :
    ∀ f ∈ e.outboundFrames, f.IsResendRequest → AsksFrom env f out.2.session.nextInSeq := by
  cases h with
  | malformed status hd =>
    have hquiet : AsksNothing ProtocolEvent.outboundFrames
        (handleInboundDecodeFailure (σ := σ) status ts) :=
      .ite (.fail _) (.after fun _ => .after fun _ => .after fun _ => .pure noRequest_nil)
    exact fun f hf hrequest => absurd hrequest (hquiet p e _ (Prod.ext he rfl) f hf)
  | failed d status q _ _ => cases he
  | drained d event q r hdecode hd hr =>
    rcases hr with hr | ⟨status, -, hr⟩
    · rw [hr] at he
      cases he
      exact drain_asksExpected ts fun f hf hrequest =>
        onInboundDecoded_asksExpected (hok d hdecode) hd hf hrequest
    · rw [hr] at he
      cases he

/-- Every command that is not late asks from the expected number. -/
theorem Timely.asksExpected {c : Command} (h : Timely env c p) : AsksExpected env c p := by
  intro e p' hrun
  have hquiet : AsksNothing ProtocolEvent.outboundFrames (perform (σ := σ) env c) →
      ∀ f ∈ e.outboundFrames, f.IsResendRequest → AsksFrom env f p'.session.nextInSeq :=
    fun hm f hf hrequest => absurd hrequest (hm p e p' hrun f hf)
  have happ : ∀ {msgType : Bytes} {encode : EncodeOptions → Except Status Bytes}
      {envelope : SessionSendEnvelope} {ts : Nat}, AsksNothing (fun f => [f]) (encodeFrameWith
        (σ := σ) env msgType encode { admin := false, envelope } ts) := by
    intro _ _ _ _ p f p' hf g hg hrequest
    obtain ⟨_, _, _, _, -, hadmin, -⟩ := encodeFrameWith_ok hf
    rw [List.mem_singleton.1 hg] at hrequest
    rw [hrequest.1] at hadmin
    cases hadmin
  cases c with
  | connect ts =>
    refine hquiet (.after fun _ => .after fun _ => .after fun _ => .after fun _ =>
      .ite (.after fun _ => .after fun _ => .bind (P := fun f => NoRequest [f]) (.after fun _ =>
        encodeFrame_asksNothing ?_ _ ts) fun _ hf => .pure hf) (.pure noRequest_nil))
    rw [logon_msgType]
    decide
  | close => exact hquiet (.after fun _ => .pure noRequest_nil)
  | inbound frame ts =>
    have hcall := onInbound_byteCall env frame ts p
    rw [show onInbound env frame ts p = (.ok e, p') from hrun] at hcall
    exact byteCall_asksExpected h hcall rfl
  | inboundOwned frame ts =>
    have hcall := onInboundOwned_byteCall env frame ts p
    rw [show onInboundOwned env frame ts p = (.ok e, p') from hrun] at hcall
    exact byteCall_asksExpected h hcall rfl
  | inboundDecoded d ts =>
    exact fun f hf hrequest => (onInboundDecoded_asksExpected h hrun hf hrequest).1
  | timer ts =>
    refine hquiet (.after fun _ => .after fun p => ?_)
    split
    · exact .pure noRequest_nil
    · exact .pure noRequest_nil
    · exact .after fun _ => .bind (encodeFrame_asksNothing
        (by rw [testRequest_msgType]; decide) _ ts) fun _ hf => .pure hf
    · exact .bind (encodeFrame_asksNothing
        (by rw [heartbeat_msgType]; decide) _ ts) fun _ hf => .pure hf
  | send m envelope ts =>
    exact hquiet (.bind (P := fun f => NoRequest [f]) (.after fun _ => .after fun _ => happ)
      fun _ hf => .pure hf)
  | sendEncoded m envelope extras ts =>
    exact hquiet (.bind (P := fun f => NoRequest [f]) (.after fun _ => .after fun _ => happ)
      fun _ hf => .pure hf)
  | logout text ts => exact hquiet (.bind (beginLogout_asksNothing text ts) fun _ hf => .pure hf)

end

/-- In every run in which no frame past a gap arrives while that gap is partly filled, every
ResendRequest begins at the number expected when it is emitted. -/
theorem run_asksExpected {env : ProtocolEnv} {σ : Type} [SessionStore σ] (commands : List Command)
    (p : AdminProtocol σ)
    (h : StepsOk (fun c p => (perform env c p).2) (Timely env) commands p) :
    StepsOk (fun c p => (perform env c p).2) (AsksExpected env) commands p :=
  h.mono fun _ _ hc => hc.asksExpected

open Sample

theorem run_asksExpected_order :
    StepsOk (fun c p => (perform acceptor c p).2) (AsksExpected acceptor)
      [.connect 1, .inbound (logonFrame 1) 2, .inbound (orderFrame 5) 3]
      (fresh acceptor) := by
  refine run_asksExpected _ _ ⟨trivial, fun d _ h => ?_, fun d _ h => ?_, trivial⟩
  · exact absurd h.1.1 (by decide +kernel)
  · exact absurd h.1.1 (by decide +kernel)

/-- The `BeginSeqNo` the counterparty reads in a frame. -/
def Sample.beginSeqNo (f : EncodedFrame) : Option Int :=
  (decodeInbound initiator f.bytes).toOption.bind (·.message.getInt Tag.beginSeqNo)

/-- After order 5 the gap is 2 to 4; order 2 fills a part of it; order 6 makes the session ask for
2 again, which it has consumed. -/
theorem partly_filled_gap_asked_again :
    let p := after acceptor [.connect 1, .inbound (logonFrame 1) 2,
      .inbound (orderFrame 5) 3, .inbound (orderFrame 2) 4]
    let out := perform acceptor (.inbound (orderFrame 6) 5) p
    (out.1.toOption.map fun e => e.outboundFrames.map fun f =>
        (f.admin, f.msgType, beginSeqNo f)) =
        some [(true, MsgType.resendRequest, some 2)] ∧ out.2.session.nextInSeq = 3 := by
  decide +kernel

end NimbleFix
