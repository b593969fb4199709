import NimbleFix.Proof.Overloads
import NimbleFix.Spec.InboundReport

/-!
# The event of an inbound frame has its report

One lemma for each stage of `OnInbound`: if the stage returns an event, its report is the one
`reportOf` decides on. `onInboundDecoded_reports` is the result.
-/

namespace NimbleFix

open Fallible

section

variable {env : ProtocolEnv} {σ : Type} [SessionStore σ] {d : DecodedMessageView} {ts : Nat}

/-- Every event of the method has the report. -/
abbrev Reports (R : Report) (m : Method (AdminProtocol σ) ProtocolEvent) : Prop :=
  Returns (fun e => e.report = R) m

/-- The event of the method from the state `p`, if there is one, has the report. -/
abbrev ReportsAt (R : Report) (m : Method (AdminProtocol σ) ProtocolEvent) (p : AdminProtocol σ) :
    Prop :=
  Ensures m p fun e _ => e.report = R

/-! ## Refusals -/

theorem logoutAndDisconnect_reports (event : ProtocolEvent) (text : Bytes) (ts : Nat) :
    Reports (σ := σ) event.report (logoutAndDisconnect env event text ts) :=
  .after fun _ => .pure rfl

theorem rejectionEvent_report (r : Rejection) : (rejectionEvent r).report = .refusal r := by
  unfold rejectionEvent Report.refusal
  split <;> rfl

theorem rejectInbound_reports (d : DecodedMessageView) (r : Rejection) (ts : Nat) :
    Reports (σ := σ) (.refusal r) (rejectInbound env d r ts) := by
  have hreport := rejectionEvent_report r
  refine .ite ?_ (.after fun _ => .pure hreport)
  rw [← hreport]
  exact logoutAndDisconnect_reports _ _ ts

theorem rejectThenLogout_reports (d : DecodedMessageView) (r : Rejection) (ts : Nat) :
    Reports (σ := σ) (.refusal r) (rejectThenLogout env d r ts) :=
  .bind (rejectInbound_reports d { r with disconnect := false } ts) fun event hevent p =>
    (logoutAndDisconnect_reports event r.text ts p).mono fun _ _ h => h.trans hevent

theorem phaseViolationLogout_reports (text : Bytes) (before : SessionSnapshot) (msgType : Bytes)
    (ts : Nat) :
    Reports (σ := σ) { errors := [text] } (phaseViolationLogout env text before msgType ts) :=
  .ite (.pure rfl) (logoutAndDisconnect_reports _ _ ts)

/-! ## Messages in order -/

variable {p : AdminProtocol σ}

theorem processGapFill_reports (hd : d.msgType = MsgType.sequenceReset) :
    ReportsAt (.dispatched env d p.session.nextInSeq) (processGapFill env d ts) p := by
  unfold ReportsAt Ensures processGapFill Report.dispatched
  rw [if_pos hd]
  cases parseSequenceResetNewSeq d.message with
  | error r => exact rejectInbound_reports d r ts p
  | ok n =>
    dsimp only
    split
    · exact rejectInbound_reports d _ ts p
    · exact Ensures.after fun _ _ => .after fun _ _ => .pure rfl

theorem processInboundApplication_reports (hd : isAdminMessage d.msgType = false) (n : Nat) :
    ReportsAt (.dispatched env d n) (processInboundApplication env d ts) p := by
  have hreset : d.msgType ≠ MsgType.sequenceReset := fun h => by rw [h] at hd; cases hd
  have hreject : d.msgType ≠ MsgType.reject := fun h => by rw [h] at hd; cases hd
  unfold ReportsAt Ensures processInboundApplication Report.dispatched
  rw [if_neg hreset, if_neg hreject, hd]
  split
  · rintro _ _ ⟨⟩
  · cases businessRejectReason env d with
    | some reason => exact Ensures.after fun _ _ => .pure rfl
    | none =>
      cases validateApplicationMessage env d with
      | some r => exact rejectInbound_reports d r ts p
      | none => rintro _ _ ⟨⟩; rfl

theorem dispatchMessage_of_application (happ : isAdminMessage d.msgType = false) :
    dispatchMessage (σ := σ) env d ts = processInboundApplication env d ts := by
  have hne : ∀ {t : Bytes}, isAdminMessage t = true → d.msgType ≠ t := by
    rintro t ht rfl
    rw [happ] at ht
    cases ht
  unfold dispatchMessage
  rw [if_neg (hne (by decide)), if_neg (hne (by decide)), if_neg (hne (by decide)),
    if_neg (hne (by decide)), if_neg (hne (by decide)), if_neg (hne (by decide)),
    if_neg (hne (by decide))]

theorem dispatchMessage_reports (hd : d.isLogon = false) :
    ReportsAt (.dispatched env d p.session.nextInSeq) (dispatchMessage env d ts) p := by
  cases hadmin : isAdminMessage d.msgType with
  | false =>
    rw [dispatchMessage_of_application hadmin]
    exact processInboundApplication_reports hadmin _
  | true =>
    have hplain : d.msgType ≠ MsgType.sequenceReset → d.msgType ≠ MsgType.reject →
        Report.dispatched env d p.session.nextInSeq = {} := fun h₁ h₂ => by
      rw [Report.dispatched, if_neg h₁, if_neg h₂, if_pos hadmin]
    unfold dispatchMessage
    refine .ite (fun h => absurd h (by simpa [DecodedMessageView.isLogon] using hd)) fun h₁ =>
      .ite (fun h => ?_) fun h₂ => .ite (fun h => ?_) fun h₃ => .ite (fun h => ?_) fun h₄ =>
      .ite (fun h => processGapFill_reports h) fun h₅ => .ite (fun h => ?_) fun h₆ =>
      .ite (fun h => ?_) fun h₇ => ?_
    · rw [hplain (by rw [h]; decide) (by rw [h]; decide)]
      intro event q hrun
      unfold processHeartbeat at hrun
      dsimp only at hrun
      split at hrun <;> cases hrun <;> rfl
    · rw [hplain (by rw [h]; decide) (by rw [h]; decide)]
      exact .after fun _ _ => .pure rfl
    · rw [hplain (by rw [h]; decide) (by rw [h]; decide)]
      exact .after fun _ _ => .pure rfl
    · rw [hplain (by rw [h]; decide) (by rw [h]; decide)]
      intro event q hrun
      unfold processLogout at hrun
      split at hrun
      · exact logoutAndDisconnect_reports {} [] ts p event q hrun
      · cases hrun
        rfl
    · rw [Report.dispatched, if_neg h₅, if_pos h]
      exact .pure rfl
    · exfalso
      simp only [isAdminMessage, List.contains_iff_mem, List.mem_cons, List.not_mem_nil] at hadmin
      tauto

theorem checkPhaseAndContent_reports {R : Report} {before : SessionSnapshot}
    {accepted : Method (AdminProtocol σ) ProtocolEvent} (h : ReportsAt R accepted p) :
    ReportsAt (.checked env d before.state R) (checkPhaseAndContent env d before ts accepted) p := by
  unfold checkPhaseAndContent Report.checked
  cases adminPhaseViolationText before.state d.msgType with
  | some text => exact phaseViolationLogout_reports text before _ ts p
  | none =>
    cases validateAdministrativeMessage env d with
    | some r => exact rejectInbound_reports d r ts p
    | none => exact h

variable {before : SessionSnapshot}

theorem processOutOfSequence_reports {q : AdminProtocol σ} (status : Status) :
    ReportsAt { errors := (adminPhaseViolationText before.state d.msgType).toList }
      (processOutOfSequence env d before status ts) q := by
  unfold ReportsAt Ensures processOutOfSequence
  split
  · cases adminPhaseViolationText before.state d.msgType with
    | some text => exact Ensures.after fun _ q => phaseViolationLogout_reports text before _ ts q
    | none =>
      cases q.session.pendingResend with
      | some range => exact Ensures.after fun _ _ => .after fun _ _ => .after fun _ _ => .pure rfl
      | none => rintro _ _ ⟨⟩
  · rintro _ _ ⟨⟩

theorem processInOrder_reports (hd : d.isLogon = false)
    (hnum : before.nextInSeq = p.session.nextInSeq) :
    ReportsAt (if d.header.msgSeqNum = before.nextInSeq then
        .checked env d before.state (.dispatched env d (wrap32 (before.nextInSeq + 1)))
      else { errors := (adminPhaseViolationText before.state d.msgType).toList })
      (processInOrder env d before ts) p := by
  unfold ReportsAt Ensures
  cases hobserve : ((onSession (SessionCore.observeInboundSeq d.header.msgSeqNum)) p).1 with
  | error status =>
    rw [processInOrder_of_error env hobserve]
    split
    · -- the expected number is refused in a state that does not count
      unfold processOutOfSequence
      rw [if_neg (by omega)]
      rintro _ _ ⟨⟩
    · exact processOutOfSequence_reports status
  | ok _ =>
    rcases onSession_observe_cases p d.header.msgSeqNum with ⟨hne, _⟩ | ⟨_, _, hne, _⟩ |
      ⟨_, hseq, _, hs⟩
    · exact absurd hobserve hne
    · exact absurd hobserve hne
    · have hnext : (observedState d p).session.nextInSeq = wrap32 (before.nextInSeq + 1) := by
        rw [hnum]
        exact (congrArg InboundCore.nextInSeq ((settleTestRequest_core _).trans hs)).trans
          p.inboundCore.consume_nextInSeq
      rw [processInOrder_of_ok env hobserve, if_pos (hseq.trans hnum.symm)]
      refine ensures_commit fun q hq => checkPhaseAndContent_reports ?_
      have hkeep : q.session.nextInSeq = (observedState d p).session.nextInSeq :=
        congrArg InboundCore.nextInSeq hq
      rw [← hnext, ← hkeep]
      exact dispatchMessage_reports hd

/-! ## Other numbers -/

theorem processSequenceReset_reports :
    Reports (σ := σ) (.reset env d before.state before.nextInSeq)
      (processSequenceReset env d before ts) := by
  unfold processSequenceReset Report.reset
  cases parseSequenceResetNewSeq d.message with
  | error r => exact rejectInbound_reports d r ts
  | ok n =>
    dsimp only
    split
    · exact rejectInbound_reports d _ ts
    · exact .after fun _ => .after fun _ _ => checkPhaseAndContent_reports (.pure rfl)

theorem processStale_reports :
    Reports (σ := σ) (.stale env d before.nextInSeq) (processStale env d before ts) := by
  unfold processStale processStaleSequenceReset Report.stale
  split
  · cases parseSequenceResetNewSeq d.message with
    | error r => exact rejectInbound_reports d r ts
    | ok n =>
      dsimp only
      split
      · exact logoutAndDisconnect_reports _ _ ts
      · split
        · exact rejectInbound_reports d _ ts
        · exact .after fun _ => .after fun _ => .pure rfl
  · split
    · exact .after fun _ => .pure rfl
    · exact logoutAndDisconnect_reports _ _ ts

theorem processByNumber_reports (hd : d.isLogon = false)
    (hnum : before.nextInSeq = p.session.nextInSeq) :
    ReportsAt (.numbered env d before.state before.nextInSeq) (processByNumber env d before ts) p := by
  unfold processByNumber Report.numbered
  split
  · exact processStale_reports p
  · split
    · exact processSequenceReset_reports p
    · exact processInOrder_reports hd hnum

theorem processSequenced_reports (hd : d.isLogon = false) {before : SessionSnapshot}
    (hbefore : before = p.session.snapshot) :
    ReportsAt
      (match adminPhaseViolationText p.session.state d.msgType with
      | some text =>
        if !env.config.session.isInitiator ∧ p.session.state = .connected then { errors := [text] }
        else .numbered env d p.session.state p.session.nextInSeq
      | none => .numbered env d p.session.state p.session.nextInSeq)
      (processSequenced env d before ts) p := by
  subst hbefore
  have hlogon : d.msgType ≠ MsgType.logon := by simpa [DecodedMessageView.isLogon] using hd
  have hnumbered : ReportsAt (.numbered env d p.session.state p.session.nextInSeq)
      (processByNumber env d p.session.snapshot ts) p := processByNumber_reports hd rfl
  unfold processSequenced
  change ReportsAt _ (match adminPhaseViolationText p.session.state d.msgType with
    | some _ => _
    | none => _) p
  cases adminPhaseViolationText p.session.state d.msgType with
  | none => exact hnumbered
  | some text =>
    dsimp only
    by_cases hrefused : !env.config.session.isInitiator ∧ p.session.state = .connected
    · rw [if_pos hrefused, if_pos ⟨hrefused.1, hrefused.2, hlogon⟩]
      exact .after fun _ _ => .after fun _ _ => .pure rfl
    · rw [if_neg hrefused, if_neg fun h => hrefused ⟨h.1, h.2.1⟩]
      exact hnumbered

/-- Whenever a frame that is no Logon is processed with an event, the event has its report. -/
theorem onInboundDecoded_reports (hd : d.isLogon = false) :
    ReportsAt (reportOf env d ts p) (onInboundDecoded env d ts) p := by
  refine onInboundDecoded_ensures env ?_
  unfold processFrame reportOf
  cases validateCompIds env d with
  | some r =>
    exact .after fun _ => Returns.ite (.after fun _ => rejectThenLogout_reports d r ts)
      (rejectInbound_reports d r ts)
  | none =>
    cases (validatePossDup env d).or (origSendingTimeRejection d) with
    | some r => exact .after fun _ => rejectInbound_reports d r ts
    | none =>
      dsimp only
      split
      · exact .after fun _ => rejectThenLogout_reports d _ ts
      · unfold Ensures
        rw [processChecked_of_not_logon env hd]
        exact processSequenced_reports hd rfl

/-! ## What a report brings -/

/-- A message for the application: a Reject, or an application message that is supported and
valid. -/
def ForApplication (env : ProtocolEnv) (d : DecodedMessageView) : Prop :=
  d.msgType = MsgType.reject ∨ isAdminMessage d.msgType = false ∧
    businessRejectReason env d = none ∧ validateApplicationMessage env d = none

instance (env : ProtocolEnv) (d : DecodedMessageView) : Decidable (ForApplication env d) :=
  inferInstanceAs (Decidable (_ ∨ _))

/-- A message for the application in order: its header, its phase and its content pass the checks
and it has the expected number. -/
def Delivered (env : ProtocolEnv) (d : DecodedMessageView) (ts : Nat) (p : AdminProtocol σ) : Prop :=
  HeaderAccepted env d ts ∧ d.header.msgSeqNum = p.session.nextInSeq ∧
    adminPhaseViolationText p.session.state d.msgType = none ∧
    validateAdministrativeMessage env d = none ∧ ForApplication env d

instance (env : ProtocolEnv) (d : DecodedMessageView) (ts : Nat) (p : AdminProtocol σ) :
    Decidable (Delivered env d ts p) := inferInstanceAs (Decidable (_ ∧ _))

/-- The report has the message if `P` holds, and beside it and its flags nothing but texts. -/
inductive Report.Brings (d : DecodedMessageView) (P : Prop) : Report → Prop
  | message (h : P) (possResend sessionReject : Bool) :
    Brings d P { messages := [d], possResend, sessionReject }
  | texts (h : ¬P) (warnings errors : List Bytes) : Brings d P { warnings, errors }

section

variable {P Q : Prop} {R : Report}

theorem Report.Brings.congr (h : R.Brings d P) (hiff : P ↔ Q) : R.Brings d Q := by
  rwa [← hiff]

theorem Report.Brings.messages [Decidable P] (h : R.Brings d P) :
    R.messages = if P then [d] else [] := by
  cases h with
  | message h => rw [if_pos h]
  | texts h => rw [if_neg h]

theorem Report.Brings.dangling (h : R.Brings d P) : R.dangling = false := by
  cases h <;> rfl

theorem Report.Brings.eq_texts (h : R.Brings d P) (hmessages : R.messages = []) :
    R = { warnings := R.warnings, errors := R.errors } := by
  cases h with
  | message => cases hmessages
  | texts => rfl

theorem refusal_brings (h : ¬P) (r : Rejection) : (Report.refusal r).Brings d P := by
  unfold Report.refusal
  split <;> exact .texts h _ _

theorem not_forApplication_of_isSequenceReset (h : d.isSequenceReset) : ¬ForApplication env d := by
  have htype : d.msgType = MsgType.sequenceReset := by
    simpa [DecodedMessageView.isSequenceReset] using h
  rintro (h' | ⟨h', -⟩)
  · exact absurd (htype.symm.trans h') (by decide)
  · rw [htype] at h'
    exact absurd h' (by decide)

theorem dispatched_brings (n : Nat) :
    (Report.dispatched env d n).Brings d (ForApplication env d) := by
  unfold Report.dispatched
  split
  · rename_i htype
    have hnot : ¬ForApplication env d := not_forApplication_of_isSequenceReset
      (by simpa [DecodedMessageView.isSequenceReset] using htype)
    cases parseSequenceResetNewSeq d.message with
    | error r => exact refusal_brings hnot r
    | ok n =>
      dsimp only
      split
      · exact refusal_brings hnot _
      · exact .texts hnot _ _
  · split
    · rename_i hreject
      exact .message (.inl hreject) _ _
    · rename_i hreject
      split
      · rename_i hadmin
        exact .texts (by simp [ForApplication, hreject, hadmin]) _ _
      · rename_i hadmin
        cases hreason : businessRejectReason env d with
        | some reason => exact .texts (by simp [ForApplication, hreject, hreason]) _ _
        | none =>
          cases hvalid : validateApplicationMessage env d with
          | some r => exact refusal_brings (by simp [ForApplication, hreject, hvalid]) r
          | none => exact .message (.inr ⟨by simpa using hadmin, hreason, hvalid⟩) _ _

theorem stale_brings (h : ¬P) {n : Nat} : (Report.stale env d n).Brings d P := by
  unfold Report.stale
  split
  · cases parseSequenceResetNewSeq d.message with
    | error r => exact refusal_brings h r
    | ok n =>
      dsimp only
      split
      · exact .texts h _ _
      · split
        · exact refusal_brings h _
        · exact .texts h _ _
  · split <;> exact .texts h _ _

theorem checked_brings {state : SessionState} (h : R.Brings d P) :
    (Report.checked env d state R).Brings d (adminPhaseViolationText state d.msgType = none ∧
      validateAdministrativeMessage env d = none ∧ P) := by
  unfold Report.checked
  cases adminPhaseViolationText state d.msgType with
  | some text => exact .texts (by simp) _ _
  | none =>
    cases validateAdministrativeMessage env d with
    | some r => exact refusal_brings (by simp) r
    | none => exact h.congr (by simp)

theorem reset_brings (h : ¬P) {state : SessionState} {n : Nat} :
    (Report.reset env d state n).Brings d P := by
  unfold Report.reset
  cases parseSequenceResetNewSeq d.message with
  | error r => exact refusal_brings h r
  | ok n =>
    dsimp only
    split
    · exact refusal_brings h _
    · exact (checked_brings (.texts h _ _)).congr ⟨fun hP => hP.2.2, fun hP => absurd hP h⟩

theorem numbered_brings (state : SessionState) (n : Nat) :
    (Report.numbered env d state n).Brings d (d.header.msgSeqNum = n ∧
      adminPhaseViolationText state d.msgType = none ∧
      validateAdministrativeMessage env d = none ∧ ForApplication env d) := by
  unfold Report.numbered
  split
  · exact stale_brings fun h => absurd h.1 (by omega)
  · split
    · rename_i hreset
      exact reset_brings fun h => not_forApplication_of_isSequenceReset hreset.1 h.2.2.2
    · split
      · rename_i hseq
        exact (checked_brings (dispatched_brings _)).congr (by simp [hseq])
      · rename_i hne
        exact .texts (fun h => hne h.1) _ _

end

omit [SessionStore σ] in
/-- The report of a frame brings its message exactly if it is to be delivered. -/
theorem reportOf_brings : (reportOf env d ts p).Brings d (Delivered env d ts p) := by
  unfold reportOf
  cases hcomp : validateCompIds env d with
  | some r => exact refusal_brings (by simp [Delivered, HeaderAccepted, hcomp]) r
  | none =>
    cases hdup : (validatePossDup env d).or (origSendingTimeRejection d) with
    | some r => exact refusal_brings (by simp [Delivered, HeaderAccepted, hdup]) r
    | none =>
      dsimp only
      split
      · rename_i htime
        exact refusal_brings (by simp [Delivered, HeaderAccepted, htime]) _
      · rename_i htime
        have haccepted : HeaderAccepted env d ts := ⟨hcomp, hdup, by simpa using htime⟩
        have hnumbered : (Report.numbered env d p.session.state p.session.nextInSeq).Brings d
            (Delivered env d ts p) :=
          (numbered_brings _ _).congr (by simp [Delivered, haccepted])
        cases hphase : adminPhaseViolationText p.session.state d.msgType with
        | none => exact hnumbered
        | some text =>
          dsimp only
          split
          · exact .texts (by simp [Delivered, hphase]) _ _
          · exact hnumbered

/-! ## Logons -/

omit [SessionStore σ] in
theorem not_delivered_of_isLogon (hd : d.isLogon) : ¬Delivered env d ts p := by
  have htype : d.msgType = MsgType.logon := by simpa [DecodedMessageView.isLogon] using hd
  rintro ⟨-, -, -, -, h | ⟨h, -⟩⟩
  · exact absurd (htype.symm.trans h) (by decide)
  · rw [htype] at h
    exact absurd h (by decide)

/-- No event of the method has a message or views of freed storage. -/
abbrev Quiet (m : Method (AdminProtocol σ) ProtocolEvent) : Prop :=
  Returns (fun e => e.applicationMessages = [] ∧ e.dangling = false) m

omit [SessionStore σ] in
theorem quiet_of_reports {R : Report} {m : Method (AdminProtocol σ) ProtocolEvent}
    (h : ReportsAt R m p) (hR : R.Brings d False) :
    Ensures m p fun e _ => e.applicationMessages = [] ∧ e.dangling = false := by
  refine h.mono fun e _ he => ⟨(congrArg Report.messages he).trans hR.messages, ?_⟩
  exact (congrArg Report.dangling he).trans hR.dangling

theorem rejectInbound_quiet (r : Rejection) : Quiet (σ := σ) (rejectInbound env d r ts) :=
  fun p => quiet_of_reports (rejectInbound_reports d r ts p) (refusal_brings (d := d) not_false r)

theorem rejectThenLogout_quiet (r : Rejection) : Quiet (σ := σ) (rejectThenLogout env d r ts) :=
  fun p => quiet_of_reports (rejectThenLogout_reports d r ts p)
    (refusal_brings (d := d) not_false r)

theorem processInboundLogon_quiet : Quiet (σ := σ) (processInboundLogon env d ts) := by
  refine .after fun _ => .after fun p => ?_
  split
  · exact .after fun _ => .pure ⟨rfl, rfl⟩
  · exact .after fun _ => .after fun _ => .after fun _ => .after fun _ => .pure ⟨rfl, rfl⟩

theorem processInOrder_quiet (hd : d.isLogon) :
    Quiet (σ := σ) (processInOrder env d before ts) := by
  refine .after fun observed => .after fun _ => ?_
  cases observed with
  | error status =>
    exact fun p => quiet_of_reports (processOutOfSequence_reports status)
      (.texts (d := d) not_false [] _)
  | ok _ =>
    refine .after fun _ => ?_
    unfold checkPhaseAndContent dispatchMessage
    rw [if_pos (by simpa [DecodedMessageView.isLogon] using hd)]
    cases adminPhaseViolationText before.state d.msgType with
    | some text =>
      exact fun p => quiet_of_reports (phaseViolationLogout_reports text before _ ts p)
        (.texts (d := d) not_false [] _)
    | none =>
      cases validateAdministrativeMessage env d with
      | some r => exact rejectInbound_quiet r
      | none => exact processInboundLogon_quiet

theorem processByNumber_quiet (hd : d.isLogon) :
    Quiet (σ := σ) (processByNumber env d before ts) :=
  .ite (fun p => quiet_of_reports (processStale_reports p) (stale_brings (d := d) not_false))
    (.ite (fun p => quiet_of_reports (processSequenceReset_reports p)
      (reset_brings (d := d) not_false)) (processInOrder_quiet hd))

theorem onInboundDecoded_quiet (hd : d.isLogon) : Quiet (σ := σ) (onInboundDecoded env d ts) := by
  refine .after fun _ => .after fun p => ?_
  unfold processFrame
  cases validateCompIds env d with
  | some r =>
    exact .after fun _ => .ite (.after fun _ => rejectThenLogout_quiet r) (rejectInbound_quiet r)
  | none =>
    cases (validatePossDup env d).or (origSendingTimeRejection d) with
    | some r => exact .after fun _ => rejectInbound_quiet r
    | none =>
      refine .ite (.after fun _ => rejectThenLogout_quiet _) (.after fun _ => .after fun before => ?_)
      unfold processSequenced
      split
      · exact .ite (.after fun _ => .after fun _ => .pure ⟨rfl, rfl⟩) (processByNumber_quiet hd)
      · exact processByNumber_quiet hd

/-- Only the drain frees what an event has views of. -/
theorem onInboundDecoded_lasts :
    Returns (σ := AdminProtocol σ) (fun e => e.dangling = false) (onInboundDecoded env d ts) := by
  intro p
  cases hd : d.isLogon with
  | true => exact (onInboundDecoded_quiet hd p).mono fun _ _ h => h.2
  | false =>
    exact (onInboundDecoded_reports hd).mono fun _ _ h =>
      (congrArg Report.dangling h).trans reportOf_brings.dangling

end

end NimbleFix
