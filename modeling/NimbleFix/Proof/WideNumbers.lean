import NimbleFix.Proof.ExpectedNumber
import NimbleFix.Proof.Overloads
import NimbleFix.Proof.ReplayPartition

/-!
# Numbers of the peer that do not fit into 32 bits

`NewSeqNo`, `BeginSeqNo` and `EndSeqNo` are read as 64-bit integers and cut to 32 bits before they
are compared with the counters.

* A `SequenceReset` is refused or the expected number becomes its `NewSeqNo` modulo `2 ^ 32`, except
  for a gap fill past a gap, which is put aside (`onInboundDecoded_endsAt`).
* A resend request is answered for the interval between its bounds modulo `2 ^ 32`, which is the
  requested one exactly where `ExactRequest` holds (`replayed_iff_requested`).
-/

namespace NimbleFix

open Fallible

/-- A frame was rejected: with a Reject, or with the end of the connection. -/
def ProtocolEvent.Rejects (event : ProtocolEvent) : Prop :=
  event.disconnect = true ∨ ∃ f ∈ event.outboundFrames, f.msgType = MsgType.reject

/-- The `SequenceReset` leads to its `NewSeqNo`: it fits into 32 bits, and the frame is no gap fill
past a gap. -/
def ResetFits {σ : Type} (d : DecodedMessageView) (newSeqNo : Nat) (p : AdminProtocol σ) : Prop :=
  if d.isGapFill ∧ p.session.nextInSeq < d.header.msgSeqNum then newSeqNo = p.session.nextInSeq
  else newSeqNo < 2 ^ 32

section

variable {env : ProtocolEnv} {σ : Type} [SessionStore σ] {α : Type}

/-! ## Refusals -/

/-- Every event of the method rejects the frame. -/
abbrev Refuses (m : Method (AdminProtocol σ) ProtocolEvent) : Prop :=
  Returns ProtocolEvent.Rejects m

theorem logoutAndDisconnect_refuses (event : ProtocolEvent) (text : Bytes) (ts : Nat) :
    Refuses (logoutAndDisconnect (σ := σ) env event text ts) :=
  .after fun _ _ => .pure (.inl rfl)

theorem rejectInbound_refuses (d : DecodedMessageView) (r : Rejection) (ts : Nat) :
    Refuses (rejectInbound (σ := σ) env d r ts) := by
  refine .ite (logoutAndDisconnect_refuses _ _ ts) fun p => ?_
  refine .bind (P := fun f _ => f.msgType = MsgType.reject) (fun f q hf => ?_)
    fun f _ hf => .pure (.inr ⟨f, by simp, hf⟩)
  obtain ⟨_, _, _, _, htype, _⟩ := encodeFrameWith_ok hf
  rw [htype, AdminMessage.reject_msgType]

theorem rejectInbound_frames (d : DecodedMessageView) (r : Rejection) (ts : Nat) :
    Returns (fun event => ∀ f ∈ event.outboundFrames, f.msgType ∈ [MsgType.reject, MsgType.logout])
      (rejectInbound (σ := σ) env d r ts) := by
  have hframe : ∀ (m : MessageData) (params : FrameParams),
      m.msgType ∈ [MsgType.reject, MsgType.logout] →
      Returns (fun f => f.msgType ∈ [MsgType.reject, MsgType.logout])
        (encodeFrame (σ := σ) env m params ts) := by
    intro m params hm p f q hf
    obtain ⟨_, _, _, _, htype, _⟩ := encodeFrameWith_ok hf
    rwa [htype]
  refine .ite (.bind (.after fun _ => .after fun _ => .ite (.fail _) (.after fun _ => .after fun _ =>
    hframe _ _ (by simp))) fun f hf => .pure ?_) (.bind (hframe _ _ (by simp)) fun f hf => .pure ?_)
  · have hnone : (rejectionEvent r).outboundFrames = [] := by
      unfold rejectionEvent
      split <;> rfl
    intro g hg
    rw [hnone, List.nil_append, List.mem_singleton] at hg
    rwa [hg]
  · intro g hg
    rw [List.mem_singleton] at hg
    rwa [hg]

theorem phaseViolationLogout_refuses (text : Bytes) (before : SessionSnapshot) (msgType : Bytes)
    (ts : Nat) : Refuses (phaseViolationLogout (σ := σ) env text before msgType ts) :=
  .ite (fun _ => .pure (.inl rfl)) (logoutAndDisconnect_refuses _ _ ts)

theorem rejectThenLogout_refuses (d : DecodedMessageView) (r : Rejection) (ts : Nat) :
    Refuses (rejectThenLogout (σ := σ) env d r ts) :=
  .after fun _ => logoutAndDisconnect_refuses _ _ ts

variable {d : DecodedMessageView} {ts n : Nat} {p : AdminProtocol σ}

/-! ## Where a `SequenceReset` ends -/

/-- The frame is rejected or the expected number is `n` afterwards. -/
def EndsAt (n : Nat) (m : Method (AdminProtocol σ) ProtocolEvent) (p : AdminProtocol σ) : Prop :=
  Ensures m p fun event q => event.Rejects ∨ q.session.nextInSeq = n

omit [SessionStore σ] in
theorem Refuses.endsAt {m : Method (AdminProtocol σ) ProtocolEvent} (h : Refuses m) (n : Nat)
    (p : AdminProtocol σ) : EndsAt n m p := (h p).mono fun _ _ => .inl

theorem checkPhaseAndContent_endsAt {before : SessionSnapshot}
    {accepted : Method (AdminProtocol σ) ProtocolEvent} (h : EndsAt n accepted p) :
    EndsAt n (checkPhaseAndContent env d before ts accepted) p := by
  unfold checkPhaseAndContent
  split
  · exact (phaseViolationLogout_refuses _ before _ ts).endsAt n p
  · exact (rejectInbound_refuses d _ ts).endsAt n p
  · exact h

theorem jump_endsAt {before : SessionSnapshot} {k : Method (AdminProtocol σ) ProtocolEvent}
    (hnum : before.nextInSeq = p.session.nextInSeq) (hle : p.session.nextInSeq ≤ n)
    (hk : ∀ q, q.session.nextInSeq = n → EndsAt n k q) :
    EndsAt n (do advanceExpected before n; commitInboundPersistence d ts; k) p := by
  have hok := (advanceExpected_cases hnum hle).1
  have hafter : (advanceExpected before n p).2.session.nextInSeq = n := by
    unfold advanceExpected
    rcases Nat.eq_or_lt_of_le hle with heq | hlt
    · rw [if_neg (by omega)]
      exact heq
    · obtain ⟨hmoved, hcore⟩ := onSession_advance p (by omega) hle
      rw [if_pos (by omega), bind_of_ok (Prod.ext hmoved rfl)]
      exact (congrArg InboundCore.nextInSeq ((settleTestRequest_core _).trans hcore)).trans
        (InboundCore.advance_nextInSeq _ n)
  unfold EndsAt Ensures
  rw [bind_of_ok (Prod.ext hok rfl)]
  exact ensures_commit fun q hq => hk q ((congrArg InboundCore.nextInSeq hq).trans hafter)

variable {before : SessionSnapshot}

theorem processSequenceReset_endsAt (hparse : parseSequenceResetNewSeq d.message = .ok n)
    (hnum : before.nextInSeq = p.session.nextInSeq) :
    EndsAt n (processSequenceReset env d before ts) p := by
  unfold processSequenceReset
  rw [hparse]
  refine .ite (fun _ => (rejectInbound_refuses d _ ts).endsAt n p) fun hle => ?_
  exact jump_endsAt hnum (by omega) fun q hq => checkPhaseAndContent_endsAt (.pure (.inr hq))

theorem processStale_endsAt (hparse : parseSequenceResetNewSeq d.message = .ok n)
    (hd : d.isSequenceReset) (hnum : before.nextInSeq = p.session.nextInSeq) :
    EndsAt n (processStale env d before ts) p := by
  unfold processStale processStaleSequenceReset
  rw [if_pos hd, hparse]
  refine .ite (fun _ => (logoutAndDisconnect_refuses _ _ ts).endsAt n p) fun _ => ?_
  refine .ite (fun _ => (rejectInbound_refuses d _ ts).endsAt n p) fun hle => ?_
  exact jump_endsAt hnum (by omega) fun q hq => .pure (.inr hq)

theorem processGapFill_endsAt (hparse : parseSequenceResetNewSeq d.message = .ok n) :
    EndsAt n (processGapFill env d ts) p := by
  unfold EndsAt Ensures processGapFill
  rw [hparse]
  dsimp only
  split
  · exact (rejectInbound_refuses d _ ts).endsAt n p
  · rename_i hle
    intro event q h
    obtain ⟨_, p₁, hmove, h⟩ := bind_ok h
    obtain ⟨_, p₂, hsave, h⟩ := bind_ok h
    cases h
    have hcore := persistRecoveryState_core p₁
    rw [hsave] at hcore
    have hpos : n ≠ 0 := by
      rintro rfl
      have hzero := onSession_advance_zero p
      rw [hmove] at hzero
      cases hzero
    have hadvance := (onSession_advance p (Nat.pos_of_ne_zero hpos) (by omega)).2
    rw [hmove] at hadvance
    exact .inr ((congrArg InboundCore.nextInSeq (hcore.trans hadvance)).trans
      (InboundCore.advance_nextInSeq _ n))

omit [SessionStore σ] in
theorem observedState_nextInSeq
    (h : ((onSession (SessionCore.observeInboundSeq d.header.msgSeqNum)) p).1 ≠ .ok ()) :
    (observedState d p).session.nextInSeq = p.session.nextInSeq := by
  have hcore := congrArg InboundCore.nextInSeq (settleTestRequest_core
    ((onSession (SessionCore.observeInboundSeq d.header.msgSeqNum)) p).2)
  refine hcore.trans ?_
  rcases onSession_observe_cases p d.header.msgSeqNum with ⟨_, hs, _⟩ | ⟨_, _, _, hs⟩ | ⟨_, _, hok, _⟩
  · rw [hs]
    rfl
  · exact (congrArg InboundCore.nextInSeq hs).trans (InboundCore.noteGap_nextInSeq _ _)
  · exact absurd hok h

/-- A gap fill in order ends at `NewSeqNo`; past a gap it leaves the expected number. -/
theorem processInOrder_endsAt (hparse : parseSequenceResetNewSeq d.message = .ok n)
    (hd : d.isSequenceReset) (hnum : before.nextInSeq = p.session.nextInSeq) :
    EndsAt (if p.session.nextInSeq < d.header.msgSeqNum then p.session.nextInSeq else n)
      (processInOrder env d before ts) p := by
  unfold EndsAt Ensures
  cases hobserve : ((onSession (SessionCore.observeInboundSeq d.header.msgSeqNum)) p).1 with
  | error status =>
    have hkeep : (observedState d p).session.nextInSeq = p.session.nextInSeq :=
      observedState_nextInSeq (by rw [hobserve]; simp)
    rw [processInOrder_of_error env hobserve]
    unfold processOutOfSequence
    rw [hnum]
    split
    · split
      · exact Refuses.endsAt (.after fun _ => phaseViolationLogout_refuses _ before _ ts) _ _
      · rename_i range _ _
        intro event q h
        have hcore : q.session.nextInSeq = (observedState d p).session.nextInSeq := by
          have hcases := requestResend_cases env d range ts (observedState d p)
          rw [h] at hcases
          exact hcases.elim (congrArg InboundCore.nextInSeq) fun hc =>
            congrArg InboundCore.nextInSeq hc.2
        exact .inr (hcore.trans hkeep)
      · rintro event q ⟨⟩
    · rintro event q ⟨⟩
  | ok _ =>
    have heq : d.header.msgSeqNum = p.session.nextInSeq := by
      rcases onSession_observe_cases p d.header.msgSeqNum with ⟨hne, _⟩ | ⟨_, _, hne, _⟩ | ⟨_, hn, _⟩
      · exact absurd hobserve hne
      · exact absurd hobserve hne
      · exact hn
    rw [processInOrder_of_ok env hobserve, if_neg (by omega)]
    refine ensures_commit fun q _ => checkPhaseAndContent_endsAt ?_
    have htype : d.msgType = MsgType.sequenceReset := by
      simpa [DecodedMessageView.isSequenceReset] using hd
    have hdispatch : dispatchMessage (σ := σ) env d ts = processGapFill env d ts := by
      unfold dispatchMessage
      rw [htype]
      rfl
    rw [hdispatch]
    exact processGapFill_endsAt hparse

/-- A `SequenceReset` is rejected or ends at its `NewSeqNo` as it was parsed, unless it is a gap fill
past a gap. -/
theorem onInboundDecoded_endsAt (hparse : parseSequenceResetNewSeq d.message = .ok n)
    (hd : d.isSequenceReset) :
    EndsAt (if d.isGapFill ∧ p.session.nextInSeq < d.header.msgSeqNum then p.session.nextInSeq else n)
      (onInboundDecoded env d ts) p := by
  refine onInboundDecoded_ensures env ?_
  by_cases hacc : HeaderAccepted env d ts
  · unfold Ensures
    rw [processFrame_of_accepted env hacc,
      processChecked_of_not_logon env (by simpa using not_isLogon_of_isSequenceReset hd)]
    have hnumber : EndsAt (if d.isGapFill ∧ p.session.nextInSeq < d.header.msgSeqNum then
        p.session.nextInSeq else n) (processByNumber env d p.session.snapshot ts) p := by
      refine .ite (fun hlt => ?_) fun hle => .ite (fun hmode => ?_) fun hmode => ?_
      · change d.header.msgSeqNum < p.session.nextInSeq at hlt
        rw [if_neg (by omega)]
        exact processStale_endsAt hparse hd rfl
      · rw [if_neg (by simpa using fun h => absurd h (by simpa using hmode.2))]
        exact processSequenceReset_endsAt hparse rfl
      · have hgap : d.isGapFill = true := by simpa [hd] using hmode
        simp only [hgap, true_and]
        exact processInOrder_endsAt hparse hd rfl
    change EndsAt _ (processSequenced env d p.session.snapshot ts) p
    unfold processSequenced
    cases adminPhaseViolationText p.session.snapshot.state d.msgType with
    | none => exact hnumber
    | some text =>
      refine .ite (fun _ => ?_) fun _ => hnumber
      exact Refuses.endsAt (.after fun _ => .after fun _ _ => .pure (.inl rfl)) _ p
  · exact Refuses.endsAt (returns_of_header_refused env hacc
      (fun r => rejectInbound_refuses d r ts) (fun r => rejectThenLogout_refuses d r ts) _) _ p

end

/-! ## The interval of a resend request -/

/-- The sent numbers that are asked for. An end of `0` asks for all. -/
def Requested (beginSeq endSeq nextOut n : Nat) : Prop :=
  beginSeq ≤ n ∧ (endSeq = 0 ∨ n ≤ endSeq) ∧ n < nextOut

/-- The numbers that are answered, by a message or a gap fill. A range from `0` on is not loaded. -/
def Replayed (beginSeq endSeq nextOut n : Nat) : Prop :=
  wrap32 beginSeq ≠ 0 ∧ wrap32 beginSeq ≤ n ∧ n ≤ replayEnd nextOut (wrap32 endSeq)

/-- The bounds fit into 32 bits, or cutting them changes nothing for the numbers that were sent. -/
def ExactRequest (beginSeq endSeq nextOut : Nat) : Prop :=
  (beginSeq < 2 ^ 32 ∧ (endSeq < 2 ^ 32 ∨ replayEnd nextOut (wrap32 endSeq) = nextOut - 1)) ∨
    (nextOut ≤ beginSeq ∧ (wrap32 beginSeq = 0 ∨
      replayEnd nextOut (wrap32 endSeq) < wrap32 beginSeq))

theorem replayed_iff_requested {beginSeq endSeq nextOut : Nat} (hbegin : 0 < beginSeq)
    (hpos : 0 < nextOut) (hout : nextOut < 2 ^ 32) :
    (∀ n, Replayed beginSeq endSeq nextOut n ↔ Requested beginSeq endSeq nextOut n) ↔
      ExactRequest beginSeq endSeq nextOut := by
  unfold Replayed Requested ExactRequest
  have hlast : replayEnd nextOut (wrap32 endSeq) ≤ nextOut - 1 := by
    unfold replayEnd
    split <;> omega
  constructor
  · intro h
    -- Where the intervals differ, they do so at the last number sent or at the last one answered.
    have hsent := h (nextOut - 1)
    have hanswered := h (replayEnd nextOut (wrap32 endSeq))
    by_cases hfits : beginSeq < 2 ^ 32
    · rw [wrap32_of_lt hfits] at hsent hanswered ⊢
      omega
    · omega
  · rintro (⟨hfits, hlt | heq⟩ | ⟨hnone, hempty⟩) n
    · rw [wrap32_of_lt hfits, wrap32_of_lt hlt]
      unfold replayEnd
      split <;> omega
    · rw [wrap32_of_lt hfits, heq]
      by_cases hlt : endSeq < 2 ^ 32
      · rw [wrap32_of_lt hlt] at heq
        unfold replayEnd at heq
        split at heq <;> omega
      · omega
    · omega

/-- What answering a request needs of the store: receiving a frame keeps the sent records, and no
range from `0` on is loaded. -/
structure KeepsSent (σ : Type) [SessionStore σ] [LawfulSessionStore σ] : Prop where
  saveInbound {record : MessageRecord} {state : SessionRecoveryState} {s s' : σ} (sessionId : Nat) :
    SessionStore.saveInboundViewAndRecoveryState record state s = (.ok (), s') →
    LawfulSessionStore.outbound sessionId s' = LawfulSessionStore.outbound sessionId s
  load_zero {sessionId endSeq : Nat} {s : σ} {records : List MessageRecord} :
    (SessionStore.loadOutboundRange sessionId 0 endSeq s).1 ≠ .ok records

theorem MemorySessionStore.keepsSent : KeepsSent MemorySessionStore where
  saveInbound {record state s s'} sessionId h := by
    have hsaved := (saveInboundViewAndRecoveryState_apply (validateRecordView_of_ok h)
      state s).symm.trans h
    cases hsaved
    simp only [LawfulSessionStore.outbound, modifySession, Function.update_apply]
    split
    · rename_i hid
      rw [hid]
    · rfl
  load_zero {sessionId endSeq s records} := by
    change (loadOutboundRange sessionId 0 endSeq s).1 ≠ _
    simp [loadOutboundRange]

/-- The frame is a request for a range of numbers. -/
structure RequestsRange (d : DecodedMessageView) (beginSeq endSeq : Int) : Prop where
  msgType : d.msgType = MsgType.resendRequest
  headerType : d.header.msgType = MsgType.resendRequest
  beginSeqNo : d.message.getInt Tag.beginSeqNo = some beginSeq
  endSeqNo : d.message.getInt Tag.endSeqNo = some endSeq

theorem RequestsRange.bounds {env : ProtocolEnv} {d : DecodedMessageView} {beginSeq endSeq : Int}
    (h : RequestsRange d beginSeq endSeq) (hvalid : validateAdministrativeMessage env d = none) :
    0 < beginSeq ∧ 0 ≤ endSeq := by
  have hresend : validateResendRequest d.message = none := by
    unfold validateAdministrativeMessage at hvalid
    simp only [h.headerType] at hvalid
    simp only [isAdminMessage, MsgType.resendRequest, MsgType.logon, MsgType.testRequest, ascii]
      at hvalid
    simpa using (Option.or_eq_none_iff.1 (Option.or_eq_none_iff.1
      (Option.or_eq_none_iff.1 (by simpa using hvalid)).2).2).2
  unfold validateResendRequest at hresend
  simp only [h.beginSeqNo, h.endSeqNo] at hresend
  repeat' split at hresend
  all_goals simp_all

section

variable (env : ProtocolEnv) {σ : Type} [SessionStore σ] [LawfulSessionStore σ]

/-- The frames that answer a request: none for an empty interval, and a partition of the interval
otherwise. -/
def AnswersRange (content : List MessageRecord) (beginSeq endSeq nextOut : Nat)
    (frames : List EncodedFrame) : Prop :=
  ((∀ n, ¬Replayed beginSeq endSeq nextOut n) → frames = []) ∧
    ∀ n, Replayed beginSeq endSeq nextOut n → ∃ items time,
      ReplayPlan content (wrap32 beginSeq) (replayEnd nextOut (wrap32 endSeq)) items ∧
        List.Forall₂ (ReplayItem.EncodedAs env time) items frames

variable {env} {d : DecodedMessageView} {p : AdminProtocol σ} {s : σ} {beginSeq endSeq : Int}

theorem processResendRequest_answers (hkeeps : KeepsSent σ) (hfields : GapFillFields env.dictionary)
    (hd : RequestsRange d beginSeq endSeq) (hbegin : 0 < beginSeq) (hend : 0 ≤ endSeq) (ts : Nat)
    (hstore : p.store = some s)
    (hasc : Ascending (LawfulSessionStore.outbound p.session.config.sessionId s))
    (hout : p.session.nextOutSeq < 2 ^ 32) :
    Ensures (processResendRequest env d ts) p fun event _ =>
      AnswersRange env (LawfulSessionStore.outbound p.session.config.sessionId s) beginSeq.toNat
        endSeq.toNat p.session.nextOutSeq event.outboundFrames := by
  unfold processResendRequest
  have hfirst : max 1 beginSeq = beginSeq := max_eq_right hbegin
  simp only [hd.beginSeqNo, hd.endSeqNo, Option.getD_some, max_eq_right hend, hfirst]
  refine .bind (P := fun frames _ => _) (fun frames q h => ?_) fun frames _ h => .pure h
  constructor
  · intro hnone
    have hempty := hnone (replayEnd p.session.nextOutSeq (wrap32 endSeq.toNat))
    unfold Replayed at hempty
    by_cases hlt : replayEnd p.session.nextOutSeq (wrap32 endSeq.toNat) < wrap32 beginSeq.toNat ∨
        replayEnd p.session.nextOutSeq (wrap32 endSeq.toNat) = 0
    · simp only [replayOutbound, hstore, if_pos hlt] at h
      cases h
      rfl
    · -- the range would start at `0`, which the store refuses
      have hzero : wrap32 beginSeq.toNat = 0 := by omega
      simp only [replayOutbound, hstore, if_neg hlt] at h
      rw [hzero] at h
      obtain ⟨records, p₁, hload, -⟩ := bind_ok h
      simp only [onStore, hstore] at hload
      exact absurd (congrArg Prod.fst hload) hkeeps.load_zero
  · rintro n ⟨hne, hle, hle'⟩
    exact (replayOutbound_plan env hfields hstore hasc (Nat.pos_of_ne_zero hne) hout h).2
      (hle.trans hle')

theorem commitInboundPersistence_keepsSent {ts : Nat} {q : AdminProtocol σ} (hkeeps : KeepsSent σ)
    (hstore : p.store = some s) (h : commitInboundPersistence d ts p = (.ok (), q)) :
    ∃ s', q.store = some s' ∧ q.session.config = p.session.config ∧
      q.session.nextOutSeq = p.session.nextOutSeq ∧
      ∀ id, LawfulSessionStore.outbound id s' = LawfulSessionStore.outbound id s := by
  obtain ⟨_, p₁, hrecord, hsave⟩ := bind_ok h
  obtain rfl : (recordInbound ts p).2 = p₁ := congrArg Prod.snd hrecord
  unfold onStore at hsave
  rw [show (recordInbound ts p).2.store = some s from hstore] at hsave
  obtain ⟨hok, rfl⟩ := Prod.mk.inj hsave
  exact ⟨_, rfl, rfl, rfl, fun id => hkeeps.saveInbound id (Prod.ext hok rfl)⟩

omit [SessionStore σ] [LawfulSessionStore σ] in
theorem observedState_keepsSent
    (h : ((onSession (SessionCore.observeInboundSeq d.header.msgSeqNum)) p).1 = .ok ()) :
    (observedState d p).session.config = p.session.config ∧
      (observedState d p).session.nextOutSeq = p.session.nextOutSeq := by
  have hmoved : ((onSession (SessionCore.observeInboundSeq d.header.msgSeqNum)) p).2.session =
      SessionCore.settleResend { p.session with nextInSeq := wrap32 (p.session.nextInSeq + 1) } := by
    rcases p.session.observeInboundSeq_cases d.header.msgSeqNum with ⟨-, hne, -⟩ |
      ⟨-, -, hne, -⟩ | ⟨-, -, hne, -⟩ | ⟨-, -, -, hs⟩
    · exact absurd h hne
    · exact absurd h hne
    · exact absurd h hne
    · exact hs
  exact ⟨(congrArg SessionCore.config hmoved).trans (SessionCore.settleResend_config _),
    (congrArg SessionCore.nextOutSeq hmoved).trans (SessionCore.settleResend_nextOutSeq _)⟩

/-- A frame in order is committed, which leaves the sent records and the outbound number. -/
theorem inOrder_ensures {Q : ProtocolEvent → AdminProtocol σ → Prop} {ts : Nat}
    (hkeeps : KeepsSent σ) (hlogon : d.isLogon = false) (hreset : ¬d.isSequenceReset)
    (hacc : HeaderAccepted env d ts) (hseq : d.header.msgSeqNum = p.session.nextInSeq)
    (hphase : adminPhaseViolationText p.session.state d.msgType = none) (hstore : p.store = some s)
    (hk : ∀ q s', q.store = some s' → q.session.config = p.session.config →
      q.session.nextOutSeq = p.session.nextOutSeq →
      (∀ id, LawfulSessionStore.outbound id s' = LawfulSessionStore.outbound id s) →
      Ensures (checkPhaseAndContent env d p.session.snapshot ts (dispatchMessage env d ts)) q Q) :
    Ensures (onInboundDecoded env d ts) p Q := by
  refine onInboundDecoded_ensures env fun event q h => ?_
  rw [processFrame_of_accepted env hacc, processChecked_of_not_logon env hlogon,
    processSequenced_of_no_violation env hphase] at h
  have hexpected : d.header.msgSeqNum = p.session.snapshot.nextInSeq := hseq
  have hinorder : processByNumber (σ := σ) env d p.session.snapshot ts =
      processInOrder env d p.session.snapshot ts := by
    unfold processByNumber
    rw [if_neg (by rw [hexpected]; omega), if_neg fun h => hreset h.1]
  rw [hinorder] at h
  cases hobserve : ((onSession (SessionCore.observeInboundSeq d.header.msgSeqNum)) p).1 with
  | error status =>
    rw [processInOrder_of_error env hobserve] at h
    unfold processOutOfSequence at h
    rw [if_neg (by rw [hexpected]; omega)] at h
    cases h
  | ok _ =>
    rw [processInOrder_of_ok env hobserve] at h
    obtain ⟨_, q₁, hcommit, h⟩ := bind_ok h
    obtain ⟨hconfig, hout⟩ := observedState_keepsSent hobserve
    obtain ⟨s', hs', hconfig', hout', hsent⟩ :=
      commitInboundPersistence_keepsSent (p := observedState d p) hkeeps hstore hcommit
    exact hk q₁ s' hs' (hconfig'.trans hconfig) (hout'.trans hout) hsent event q h

variable (env) in
/-- A request in order: with invalid content it is answered with a Reject or a Logout only, and
otherwise with the range between its bounds modulo `2 ^ 32`. -/
theorem onInboundDecoded_answers {ts : Nat} (hkeeps : KeepsSent σ)
    (hfields : GapFillFields env.dictionary) (hd : RequestsRange d beginSeq endSeq)
    (hacc : HeaderAccepted env d ts) (hseq : d.header.msgSeqNum = p.session.nextInSeq)
    (hphase : adminPhaseViolationText p.session.state d.msgType = none) (hstore : p.store = some s)
    (hasc : Ascending (LawfulSessionStore.outbound p.session.config.sessionId s))
    (hout : p.session.nextOutSeq < 2 ^ 32) :
    Ensures (onInboundDecoded env d ts) p fun event _ =>
      if (validateAdministrativeMessage env d).isSome then
        event.Rejects ∧ ∀ f ∈ event.outboundFrames, f.msgType ∈ [MsgType.reject, MsgType.logout]
      else AnswersRange env (LawfulSessionStore.outbound p.session.config.sessionId s)
        beginSeq.toNat endSeq.toNat p.session.nextOutSeq event.outboundFrames := by
  refine inOrder_ensures hkeeps (by simp [DecodedMessageView.isLogon, hd.msgType]; decide)
    (by simp [DecodedMessageView.isSequenceReset, hd.msgType]; decide) hacc hseq hphase hstore ?_
  intro q s' hs' hconfig hnext hsent
  unfold checkPhaseAndContent
  rw [show adminPhaseViolationText p.session.snapshot.state d.msgType = none from hphase]
  cases hvalid : validateAdministrativeMessage env d with
  | some r =>
    exact fun event q' h => ⟨rejectInbound_refuses d r ts q event q' h,
      rejectInbound_frames d r ts q event q' h⟩
  | none =>
    obtain ⟨hbegin, hend⟩ := hd.bounds hvalid
    have hdispatch : dispatchMessage (σ := σ) env d ts = processResendRequest env d ts := by
      unfold dispatchMessage
      rw [hd.msgType]
      rfl
    dsimp only
    rw [hdispatch, ← hnext, ← hconfig, ← hsent]
    exact processResendRequest_answers hkeeps hfields hd hbegin hend ts hs'
      (by rwa [hsent, hconfig]) (by rwa [hnext])

omit [LawfulSessionStore σ] in
/-- Without frames that were put aside, nothing is drained. -/
theorem byteCalls_eq {frame : Bytes} {ts : Nat} (hqueue : p.deferredGapFrames = [])
    (hdecode : decodeInbound env frame = .ok d) :
    onInbound env frame ts p = onInboundDecoded env d ts p ∧
      onInboundOwned env frame ts p = onInboundDecoded env d ts p := by
  unfold onInbound onInboundOwned
  rw [hdecode]
  cases h : onInboundDecoded env d ts p with
  | mk r q =>
    cases r with
    | error status => exact ⟨bind_of_error h, bind_of_error h⟩
    | ok event =>
      have hkept := onInboundDecoded_deferredGapFrames env d ts p
      rw [h, hqueue] at hkept
      have hnone : nextDeferred q = none := by
        rcases hkept with hempty | ⟨-, hpending⟩
        · unfold nextDeferred
          rw [show q.deferredGapFrames = [] from hempty]
        · exact nextDeferred_of_pending hpending
      have hdrain := drain_of_nothing env hnone ts event
      constructor
      · refine (bind_of_ok h).trans ?_
        unfold drainOrFail
        rw [hdrain]
      · refine (bind_of_ok h).trans ?_
        unfold drainAnyway
        rw [hdrain]

end

namespace Sample

/-- A `SequenceReset` to number 7. -/
def resetToSeven : DecodedMessageView :=
  (decodeInbound acceptor (frame "4" [(36, "7")] 2)).toOption.get (by decide +kernel)

/-- A request for everything that was sent. -/
def resendAll : DecodedMessageView :=
  (decodeInbound acceptor (frame "2" [(7, "1"), (16, "0")] 2)).toOption.get (by decide +kernel)

/-- The expected number and the types of the frames after a call that does not disconnect. -/
def answered (bytes : Bytes) : Option (Nat × List (Bytes × Nat)) :=
  let out := onInbound acceptor bytes 6 sentOrders
  match out.1 with
  | .ok event => if event.disconnect then none else some (out.2.session.nextInSeq,
      event.outboundFrames.map fun f => (f.msgType, f.seqNum))
  | .error _ => none

end Sample

open Sample

end NimbleFix
