import NimbleFix.Lib.Transition
import NimbleFix.Proof.SessionSteps

/-!
# Histories of a session

The operations of `SessionCore` in any order. What holds along them speaks of the past: the state a
gap was found in, and the state recovery was entered from. `History` carries the two, and `Holds`
says what one operation may do: the counters stay positive, the expected number does not go back, a
range is pending exactly while it is being filled, and a gap that is filled leaves the session in
the state it was found in.

`holds_iff_safe` says which operations break it. They are the ones that forget about a pending
range: a transport that closes under one, and a recovery entered from one, whose `resumeState` takes
the place of that of the gap; and the one that observes the largest number there is.
-/

namespace NimbleFix

namespace SessionCore

/-! ## What holds along a history -/

/-- A session with its past. -/
structure History where
  core : SessionCore
  /-- The state the pending gap was found in. -/
  gapFrom : Option SessionState := none
  /-- The state recovery was last entered from. -/
  recoveryFrom : Option SessionState := none

namespace Op

/-- A logout, a close or a disconnect. -/
def ends : Op → Bool
  | beginLogout | close | onTransportClosed => true
  | _ => false

/-- The operations that may set the expected number back. -/
def restores : Op → Bool
  | restoreSequenceState _ _ | triggerDayCut | checkDayCut _ => true
  | _ => false

/-- The operation fills the pending range: the expected number is now behind it, or the resend is
declared complete. -/
def Fills (op : Op) (s : SessionCore) : Prop :=
  (op.run s).1 = .ok () ∧ ∃ range, s.pendingResend = some range ∧
    match op with
    | observeInboundSeq _ | advanceInboundExpectedSeq _ => range.endSeq < (op.run s).2.nextInSeq
    | completeResend => True
    | _ => False

/-- The operation with what it adds to the past. -/
def act (op : Op) (h : History) : History where
  core := (op.run h.core).2
  gapFrom :=
    if op.ends ∧ (op.run h.core).1 = .ok () then none
    else if h.core.pendingResend.isNone ∧ (op.run h.core).2.pendingResend.isSome then
      some h.core.state
    else if (op.run h.core).2.pendingResend.isNone then none
    else h.gapFrom
  recoveryFrom :=
    if op = .beginRecovery ∧ h.core.state ≠ .recovering then some h.core.state else h.recoveryFrom

end Op

/-- The session is filling a gap, or is in a recovery that was entered while it did. -/
def History.Filling (h : History) : Prop :=
  h.core.state = .resendProcessing ∨
    h.core.state = .recovering ∧ h.recoveryFrom = some .resendProcessing

/-- What holds of an operation and the session after it. -/
structure Holds (op : Op) (h : History) : Prop where
  nextInSeq : 1 ≤ (op.act h).core.nextInSeq
  nextOutSeq : 1 ≤ (op.act h).core.nextOutSeq
  forward : (op.act h).core.nextInSeq < h.core.nextInSeq → op.restores
  pending : (op.act h).core.pendingResend.isSome ↔ (op.act h).Filling
  filled : op.Fills h.core → ∀ state, h.gapFrom = some state → (op.act h).core.state = state

/-- It holds of every operation of the list. -/
def HoldsAlong : List Op → History → Prop
  | [], _ => True
  | op :: ops, h => Holds op h ∧ HoldsAlong ops (op.act h)

/-! ## The operations that keep it -/

/-- The end of the pending range is passed when the state to resume is the resend itself. -/
def PassesUnresumed (n : Nat) (s : SessionCore) : Prop :=
  s.resumeState = .resendProcessing ∧ s.pendingResend.any fun range => range.endSeq < n

/-- The operation does not forget about a pending range, and the expected number stays in its 32
bits. -/
def Op.Safe : Op → SessionCore → Prop
  | .onTransportClosed, s => s.pendingResend = none
  | .restoreSequenceState nextInSeq nextOutSeq, s =>
    s.state = .recovering → s.resumeState = .resendProcessing → nextInSeq = 0 ∨ nextOutSeq = 0
  | .observeInboundSeq seqNum, s => CountsSequences s.state → seqNum.toNat = s.nextInSeq →
    s.nextInSeq < uint32Max ∧ ¬s.PassesUnresumed (s.nextInSeq + 1)
  | .advanceInboundExpectedSeq nextInSeq, s => s.nextInSeq ≤ nextInSeq.toNat → nextInSeq ≠ 0 →
    ¬s.PassesUnresumed nextInSeq.toNat
  | .completeResend, s => s.state = .resendProcessing → s.resumeState ≠ .resendProcessing
  | _, _ => True

/-! ## The invariant -/

/-- A state other than those of a gap or a recovery. -/
def Plain (state : SessionState) : Prop := state ≠ .resendProcessing ∧ state ≠ .recovering

/-- What holds of a session after safe operations. A recovery entered from a resend has put the
resend in the place of the state to resume. -/
structure Sound (h : History) : Prop where
  nextInSeq : 1 ≤ h.core.nextInSeq
  nextOutSeq : 1 ≤ h.core.nextOutSeq
  pending : h.core.pendingResend.isSome ↔ h.Filling
  recovering : h.core.state = .recovering →
    h.recoveryFrom = some h.core.resumeState ∧ h.core.resumeState ≠ .recovering
  gap : h.core.pendingResend.isSome → ∃ state, h.gapFrom = some state ∧ Plain state ∧
    (h.core.state = .resendProcessing →
      h.core.resumeState = state ∨ h.core.resumeState = .resendProcessing)

theorem Sound.start (config : SessionConfig) : Sound { core := { config } } where
  nextInSeq := Nat.le_refl 1
  nextOutSeq := Nat.le_refl 1
  pending := by simp [History.Filling]
  recovering := by simp
  gap := by simp

/-- The operation does what holds, and leaves a sound session. -/
def Keeps (op : Op) (h : History) : Prop := Holds op h ∧ Sound (op.act h)

section

variable {op : Op} {h : History}

theorem Sound.keeps (hs : Sound (op.act h))
    (hforward : (op.act h).core.nextInSeq < h.core.nextInSeq → op.restores)
    (hfilled : op.Fills h.core → ∀ state, h.gapFrom = some state → (op.act h).core.state = state) :
    Keeps op h :=
  ⟨⟨hs.nextInSeq, hs.nextOutSeq, hforward, hs.pending, hfilled⟩, hs⟩

theorem Sound.none_of_not_filling (hs : Sound h) (hnot : ¬h.Filling) :
    h.core.pendingResend = none := by
  simpa using fun hsome => hnot (hs.pending.1 hsome)

theorem not_filling_of_plain (hplain : Plain h.core.state) : ¬h.Filling := by
  rintro (hstate | ⟨hstate, -⟩)
  · exact hplain.1 hstate
  · exact hplain.2 hstate

theorem keeps_of_plain (hplain : Plain (op.run h.core).2.state)
    (hnone : (op.run h.core).2.pendingResend = none) (hin : 1 ≤ (op.run h.core).2.nextInSeq)
    (hout : 1 ≤ (op.run h.core).2.nextOutSeq)
    (hforward : (op.run h.core).2.nextInSeq < h.core.nextInSeq → op.restores)
    (hfilled : op.Fills h.core → ∀ state, h.gapFrom = some state →
      (op.run h.core).2.state = state) : Keeps op h := by
  refine Sound.keeps ⟨hin, hout, ?_, fun hstate => absurd hstate hplain.2, ?_⟩ hforward hfilled
  · exact iff_of_false (by simp [Op.act, hnone]) (not_filling_of_plain hplain)
  · simp [Op.act, hnone]

theorem Op.not_fills_of_none {s : SessionCore} (hnone : s.pendingResend = none) :
    ¬op.Fills s := by
  rintro ⟨-, range, hrange, -⟩
  simp [hnone] at hrange

theorem Op.not_fills_of_restores {s : SessionCore} (hop : op.restores) : ¬op.Fills s := by
  rintro ⟨-, range, -, hpassed⟩
  cases op <;> first | exact hpassed | exact absurd hop Bool.false_ne_true

theorem keeps_of_restored (hop : op.restores) (hplain : Plain (op.run h.core).2.state)
    (hnone : (op.run h.core).2.pendingResend = none) (hin : 1 ≤ (op.run h.core).2.nextInSeq)
    (hout : 1 ≤ (op.run h.core).2.nextOutSeq) : Keeps op h :=
  keeps_of_plain hplain hnone hin hout (fun _ => hop) fun hfill =>
    absurd hfill (Op.not_fills_of_restores hop)

theorem gapFrom_act (op : Op)
    (hends : op.ends → (op.run h.core).1 = .ok () → h.core.pendingResend = none)
    (hbefore : h.core.pendingResend.isSome) (hafter : (op.run h.core).2.pendingResend.isSome) :
    (op.act h).gapFrom = h.gapFrom := by
  have hnotEnds : ¬(op.ends ∧ (op.run h.core).1 = .ok ()) := by
    rintro ⟨hop, hok⟩
    simp [hends hop hok] at hbefore
  obtain ⟨range, hrange⟩ := Option.isSome_iff_exists.1 hbefore
  obtain ⟨range', hrange'⟩ := Option.isSome_iff_exists.1 hafter
  simp [Op.act, hnotEnds, hrange, hrange']

theorem recoveryFrom_act (hop : op ≠ .beginRecovery) :
    (op.act h).recoveryFrom = h.recoveryFrom := by
  simp [Op.act, hop]

theorem keeps_of_same (hs : Sound h) (hstate : (op.run h.core).2.state = h.core.state)
    (hresume : (op.run h.core).2.resumeState = h.core.resumeState)
    (hpending : (op.run h.core).2.pendingResend = h.core.pendingResend)
    (hin : 1 ≤ (op.run h.core).2.nextInSeq) (hout : 1 ≤ (op.run h.core).2.nextOutSeq)
    (hforward : (op.run h.core).2.nextInSeq < h.core.nextInSeq → op.restores)
    (hends : op.ends → (op.run h.core).1 = .ok () → h.core.pendingResend = none)
    (hrecovery : op = .beginRecovery → h.core.state = .recovering) (hfills : ¬op.Fills h.core) :
    Keeps op h := by
  have hfrom : (op.act h).recoveryFrom = h.recoveryFrom := by
    unfold Op.act
    exact if_neg fun hop => hop.2 (hrecovery hop.1)
  have hiff : (op.act h).core.pendingResend.isSome ↔ (op.act h).Filling := by
    unfold History.Filling
    rw [hfrom]
    simpa [Op.act, hpending, hstate, History.Filling] using hs.pending
  refine Sound.keeps ⟨hin, hout, hiff, fun hrec => ?_, fun hsome => ?_⟩ hforward
    fun hfill => absurd hfill hfills
  · rw [hfrom]
    have hcore := hs.recovering (hstate ▸ hrec)
    simpa [Op.act, hresume] using hcore
  · have hbefore : h.core.pendingResend.isSome := by simpa [Op.act, hpending] using hsome
    have hgap := gapFrom_act op hends hbefore (by rw [hpending]; exact hbefore)
    obtain ⟨state, hfound, hplain, hresumed⟩ := hs.gap hbefore
    refine ⟨state, hgap.trans hfound, hplain, fun hresend => ?_⟩
    simpa [Op.act, hresume] using hresumed (hstate ▸ hresend)

theorem keeps_of_refused (hs : Sound h) (hsame : (op.run h.core).2 = h.core)
    (herror : (op.run h.core).1 ≠ .ok ())
    (hrecovery : op = .beginRecovery → h.core.state = .recovering) :
    Keeps op h :=
  keeps_of_same hs (by rw [hsame]) (by rw [hsame]) (by rw [hsame]) (by simp [hsame, hs.nextInSeq])
    (by simp [hsame, hs.nextOutSeq]) (by simp [hsame]) (fun _ hok => absurd hok herror) hrecovery
    fun hfill => herror hfill.1

theorem keeps_of_moved (hs : Sound h) (hbefore : Plain h.core.state)
    (hafter : Plain (op.run h.core).2.state)
    (hpending : (op.run h.core).2.pendingResend = h.core.pendingResend)
    (hin : (op.run h.core).2.nextInSeq = h.core.nextInSeq)
    (hout : (op.run h.core).2.nextOutSeq = h.core.nextOutSeq) : Keeps op h := by
  have hnone := hs.none_of_not_filling (not_filling_of_plain hbefore)
  refine keeps_of_plain hafter (hpending.trans hnone) (hs.nextInSeq.trans hin.ge)
    (hs.nextOutSeq.trans hout.ge) (fun hlt => absurd hin hlt.ne) fun hfill =>
      absurd hfill (Op.not_fills_of_none hnone)

/-! ## Connecting, closing and logging on -/

theorem beginConnect_keeps (hs : Sound h) :
    Keeps .beginConnect h := by
  by_cases hstate : h.core.state = .disconnected
  · apply keeps_of_moved hs <;> simp [Op.run, beginConnect, hstate, Plain]
  · apply keeps_of_refused hs <;> simp [Op.run, beginConnect, hstate]

theorem onTransportConnected_keeps (hs : Sound h) :
    Keeps .onTransportConnected h := by
  by_cases hstate : h.core.state = .disconnected ∨ h.core.state = .connecting
  · have hrun : Op.onTransportConnected.run h.core = (.ok (), { h.core with
        state := .connected, logonAccepted := false }) := by
      rcases hstate with hstate | hstate <;> simp [Op.run, onTransportConnected, hstate]
    have hplain : Plain h.core.state := by
      rcases hstate with hstate | hstate <;> simp [hstate, Plain]
    apply keeps_of_moved hs hplain <;> simp [hrun, Plain]
  · have hrun : h.core.state ≠ .disconnected ∧ h.core.state ≠ .connecting := by tauto
    apply keeps_of_refused hs <;> simp [Op.run, onTransportConnected, hrun]

theorem close_keeps (hs : Sound h) : Keeps .close h := by
  refine keeps_of_plain ?_ rfl hs.nextInSeq hs.nextOutSeq ?_ ?_
  · simp [Op.run, close, Plain]
  · simp [Op.run, close]
  · simp [Op.Fills]

theorem beginLogon_keeps (hs : Sound h) : Keeps .beginLogon h := by
  by_cases hstate : h.core.state = .connected
  · apply keeps_of_moved hs <;> simp [Op.run, beginLogon, hstate, Plain]
  · apply keeps_of_refused hs <;> simp [Op.run, beginLogon, hstate]

theorem onLogonAccepted_keeps (hs : Sound h) :
    Keeps .onLogonAccepted h := by
  by_cases hstate : h.core.state = .connected ∨ h.core.state = .pendingLogon
  · have hrun : Op.onLogonAccepted.run h.core = (.ok (), { h.core with
        state := .active, warmupRemaining := h.core.warmupTotal, logonAccepted := true }) := by
      rcases hstate with hstate | hstate <;> simp [Op.run, onLogonAccepted, hstate]
    have hplain : Plain h.core.state := by
      rcases hstate with hstate | hstate <;> simp [hstate, Plain]
    apply keeps_of_moved hs hplain <;> simp [hrun, Plain]
  · have hrun : h.core.state ≠ .connected ∧ h.core.state ≠ .pendingLogon := by tauto
    apply keeps_of_refused hs <;> simp [Op.run, onLogonAccepted, hrun]

theorem beginLogout_keeps (hs : Sound h) :
    Keeps .beginLogout h := by
  by_cases hstate : h.core.state ≠ .active ∧ h.core.state ≠ .resendProcessing
  · apply keeps_of_refused hs <;> simp [Op.run, beginLogout, hstate]
  · apply keeps_of_plain <;> simp only [Op.run, beginLogout, if_neg hstate]
    · simp [Plain]
    · exact hs.nextInSeq
    · exact hs.nextOutSeq
    · simp
    · simp [Op.Fills]

theorem onTransportClosed_keeps (hs : Sound h) (hsafe : h.core.pendingResend = none) :
    Keeps .onTransportClosed h := by
  by_cases hstate : h.core.state = .closed
  · apply keeps_of_plain <;> simp [Op.run, onTransportClosed, hstate, Plain, hsafe, hs.nextInSeq,
      hs.nextOutSeq, Op.Fills]
  · apply keeps_of_plain <;> simp [Op.run, onTransportClosed, hstate, Plain, hsafe, hs.nextInSeq,
      hs.nextOutSeq, Op.Fills]

/-! ## Counters -/

theorem allocateOutboundSeq_keeps (hs : Sound h) :
    Keeps .allocateOutboundSeq h := by
  by_cases hcounts : CountsSequences h.core.state
  · by_cases hmax : h.core.nextOutSeq = uint32Max
    · apply keeps_of_refused hs <;>
        simp [Op.run, allocateOutboundSeq, hcounts, hmax, Except.map]
    · have hrun : Op.allocateOutboundSeq.run h.core =
          (.ok (), { h.core with nextOutSeq := h.core.nextOutSeq + 1 }) := by
        simp [Op.run, allocateOutboundSeq, hcounts, hmax, Except.map]
      apply keeps_of_same hs <;> simp [hrun, hs.nextInSeq, Op.ends, Op.Fills]
  · apply keeps_of_refused hs <;> simp [Op.run, allocateOutboundSeq, hcounts, Except.map]

theorem plain_of_restorable {state : SessionState}
    (h : ¬(state ≠ .disconnected ∧ state ≠ .connected ∧ state ≠ .pendingLogon ∧
      state ≠ .active ∧ state ≠ .recovering)) : state = .recovering ∨ Plain state := by
  unfold Plain
  cases state <;> simp at h ⊢

theorem restoreSequenceState_keeps (hs : Sound h) {nextInSeq nextOutSeq : UInt32}
    (hsafe : (Op.restoreSequenceState nextInSeq nextOutSeq).Safe h.core) :
    Keeps (.restoreSequenceState nextInSeq nextOutSeq) h := by
  by_cases hstate : h.core.state ≠ .disconnected ∧ h.core.state ≠ .connected ∧
      h.core.state ≠ .pendingLogon ∧ h.core.state ≠ .active ∧ h.core.state ≠ .recovering
  · apply keeps_of_refused hs <;> simp [Op.run, restoreSequenceState, hstate]
  by_cases hzero : nextInSeq.toNat = 0 ∨ nextOutSeq.toNat = 0
  · apply keeps_of_refused hs <;> simp [Op.run, restoreSequenceState, hstate, hzero]
  have hrun : (Op.restoreSequenceState nextInSeq nextOutSeq).run h.core = (.ok (), { h.core with
      nextInSeq := nextInSeq.toNat, nextOutSeq := nextOutSeq.toNat, pendingResend := none }) := by
    change restoreSequenceState _ _ h.core = _
    unfold restoreSequenceState
    rw [if_neg hstate, if_neg hzero]
  have hin : 1 ≤ nextInSeq.toNat := by omega
  have hout : 1 ≤ nextOutSeq.toNat := by omega
  rcases plain_of_restorable hstate with hrecovering | hplain
  · -- the recovery was not entered from a resend, so nothing is forgotten
    have hresume : h.core.resumeState ≠ .resendProcessing := fun hresend => by
      rcases hsafe hrecovering hresend with hz | hz <;> simp [hz] at hzero
    have hnone : h.core.pendingResend = none := hs.none_of_not_filling <| by
      simp [History.Filling, hrecovering, (hs.recovering hrecovering).1, hresume]
    have hop : (Op.restoreSequenceState nextInSeq nextOutSeq).restores := rfl
    apply keeps_of_same hs <;>
      simp [hrun, hin, hout, hnone, Op.ends, Op.not_fills_of_restores, hop]
  · refine keeps_of_restored rfl ?_ ?_ ?_ ?_ <;> simp [hrun, hin, hout, hplain]

theorem triggerDayCut_cases (s : SessionCore) :
    ((triggerDayCut s).1 ≠ .ok () ∧ (triggerDayCut s).2 = s) ∨
      Plain s.state ∧ triggerDayCut s =
        (.ok (), { s with nextInSeq := 1, nextOutSeq := 1, pendingResend := none }) := by
  unfold triggerDayCut Plain
  cases s.state <;> simp

theorem triggerDayCut_keeps (hs : Sound h) :
    Keeps .triggerDayCut h := by
  rcases triggerDayCut_cases h.core with ⟨herror, hsame⟩ | ⟨hplain, hrun⟩
  · apply keeps_of_refused hs <;> simp [Op.run, herror, hsame]
  · refine keeps_of_restored rfl ?_ ?_ ?_ ?_ <;> simp [Op.run, hrun, hplain]

theorem checkDayCut_cases (nowNs : Nat) (s : SessionCore) :
    (∃ date, checkDayCut nowNs s = { s with lastDayCutDate := date }) ∨
      Plain s.state ∧ ∃ date, checkDayCut nowNs s = { s with
        lastDayCutDate := date, nextInSeq := 1, nextOutSeq := 1, pendingResend := none } := by
  unfold checkDayCut
  split
  · exact .inl ⟨s.lastDayCutDate, rfl⟩
  · dsimp only
    split
    · exact .inl ⟨_, rfl⟩
    · split
      · exact .inl ⟨s.lastDayCutDate, rfl⟩
      · rcases triggerDayCut_cases { s with
          lastDayCutDate := effectiveDate s.dayCutConfig nowNs } with ⟨-, hsame⟩ | ⟨hplain, hrun⟩
        · exact .inl ⟨_, hsame⟩
        · exact .inr ⟨hplain, _, by rw [hrun]⟩

theorem checkDayCut_keeps (hs : Sound h) (nowNs : UInt64) :
    Keeps (.checkDayCut nowNs) h := by
  rcases checkDayCut_cases nowNs.toNat h.core with ⟨date, hrun⟩ | ⟨hplain, date, hrun⟩
  · have hop : (Op.checkDayCut nowNs).restores := rfl
    apply keeps_of_same hs <;> simp [Op.run, hrun, hs.nextInSeq, hs.nextOutSeq, Op.ends,
      Op.not_fills_of_restores, hop]
  · refine keeps_of_restored rfl ?_ ?_ ?_ ?_ <;> simp [Op.run, hrun, hplain]

/-! ## Recovery -/

theorem beginRecovery_keeps (hs : Sound h) :
    Keeps .beginRecovery h := by
  by_cases hstate : h.core.state = .recovering
  · apply keeps_of_refused hs <;> simp [Op.run, beginRecovery, hstate]
  have hcore : (Op.beginRecovery.act h).core =
      { h.core with resumeState := h.core.state, state := .recovering } := by
    simp [Op.act, Op.run, beginRecovery, hstate]
  have hfrom : (Op.beginRecovery.act h).recoveryFrom = some h.core.state := by
    simp [Op.act, hstate]
  refine Sound.keeps ⟨?_, ?_, ?_, ?_, fun hsome => ?_⟩ (by simp [hcore]) (by simp [Op.Fills])
  · simp [hcore, hs.nextInSeq]
  · simp [hcore, hs.nextOutSeq]
  · simpa [History.Filling, hcore, hfrom, hstate] using hs.pending
  · simp [hcore, hfrom, hstate]
  · have hbefore : h.core.pendingResend.isSome := by simpa [hcore] using hsome
    obtain ⟨state, hgap, hplain, -⟩ := hs.gap hbefore
    have hsame := gapFrom_act .beginRecovery (by simp [Op.ends]) hbefore hsome
    exact ⟨state, hsame.trans hgap, hplain, by simp [hcore]⟩

theorem finishRecovery_keeps (hs : Sound h) :
    Keeps .finishRecovery h := by
  by_cases hstate : h.core.state = .recovering
  swap
  · apply keeps_of_refused hs <;> simp [Op.run, finishRecovery, hstate]
  obtain ⟨hfrom, hresume⟩ := hs.recovering hstate
  have hrun : Op.finishRecovery.run h.core =
      (.ok (), { h.core with state := h.core.resumeState }) := by
    simp [Op.run, finishRecovery, hstate]
  by_cases hresend : h.core.resumeState = .resendProcessing
  · have hbefore : h.core.pendingResend.isSome :=
      hs.pending.2 (.inr ⟨hstate, by rw [hfrom, hresend]⟩)
    have hcore : (Op.finishRecovery.act h).core = { h.core with state := .resendProcessing } := by
      rw [← hresend]
      exact congrArg Prod.snd hrun
    refine Sound.keeps ⟨?_, ?_, ?_, ?_, fun hsome => ?_⟩ (by simp [hcore]) (by simp [Op.Fills])
    · simp [hcore, hs.nextInSeq]
    · simp [hcore, hs.nextOutSeq]
    · simp [History.Filling, hcore, hbefore]
    · simp [hcore]
    · obtain ⟨state, hgap, hplain, -⟩ := hs.gap hbefore
      have hsame := gapFrom_act .finishRecovery (by simp [Op.ends]) hbefore hsome
      exact ⟨state, hsame.trans hgap, hplain, by simp [hcore, hresend]⟩
  · have hnone : h.core.pendingResend = none := hs.none_of_not_filling <| by
      simp [History.Filling, hstate, hfrom, hresend]
    apply keeps_of_plain <;>
      simp [hrun, hnone, hs.nextInSeq, hs.nextOutSeq, Op.Fills, Plain, hresend, hresume]

/-! ## Gaps -/

/-- Filling a gap whose state to resume was not replaced leads back to the state it was found in. -/
theorem Sound.resumes (hs : Sound h) (hstate : h.core.state = .resendProcessing)
    (hresume : h.core.resumeState ≠ .resendProcessing) :
    h.gapFrom = some h.core.resumeState ∧ Plain h.core.resumeState := by
  obtain ⟨state, hgap, hplain, hresumed⟩ := hs.gap (hs.pending.2 (.inl hstate))
  obtain rfl := (hresumed hstate).resolve_right hresume
  exact ⟨hgap, hplain⟩

theorem completeResend_keeps (hs : Sound h) (hsafe : Op.completeResend.Safe h.core) :
    Keeps .completeResend h := by
  by_cases hstate : h.core.state = .resendProcessing
  · obtain ⟨hgap, hplain⟩ := hs.resumes hstate (hsafe hstate)
    apply keeps_of_plain <;>
      simp [Op.run, completeResend, hstate, hplain, hs.nextInSeq, hs.nextOutSeq, hgap]
  · apply keeps_of_refused hs <;> simp [Op.run, completeResend, hstate]

theorem keeps_of_advance (hs : Sound h) {n : Nat} (hle : h.core.nextInSeq ≤ n)
    (hrun : op.run h.core = (.ok (), settleResend { h.core with nextInSeq := n }))
    (hends : ¬op.ends) (hop : op ≠ .beginRecovery)
    (hfills : op.Fills h.core → h.core.pendingResend.any fun range => range.endSeq < n)
    (hsafe : ¬h.core.PassesUnresumed n) : Keeps op h := by
  have hin : 1 ≤ n := hs.nextInSeq.trans hle
  rcases settleResend_cases { h.core with nextInSeq := n } with
    hsame | ⟨hstate, ⟨range, hrange, hpassed⟩, hsettled⟩
  · rw [hsame] at hrun
    refine keeps_of_same hs (by rw [hrun]) (by rw [hrun]) (by rw [hrun]) (by rw [hrun]; exact hin)
      (by rw [hrun]; exact hs.nextOutSeq) (by rw [hrun]; exact fun hlt => absurd hlt hle.not_gt)
      (fun hend => absurd hend hends) (fun hrec => absurd hrec hop) fun hfill => ?_
    have hpassed := hfills hfill
    obtain ⟨range, hrange⟩ := Option.isSome_iff_exists.1 (Option.isSome_of_any hpassed)
    rcases hs.pending.1 (by simp [hrange]) with hstate | ⟨hstate, hfrom⟩
    · have hlt : range.endSeq < n := by simpa [hrange] using hpassed
      have hnone := congrArg SessionCore.pendingResend hsame
      simp [settleResend, hrange, hstate, hlt] at hnone
    · rw [(hs.recovering hstate).1] at hfrom
      exact hsafe ⟨Option.some.inj hfrom, hpassed⟩
  · dsimp only at hstate hrange hpassed hsettled
    rw [hsettled] at hrun
    have hresume : h.core.resumeState ≠ .resendProcessing := fun hresend =>
      hsafe ⟨hresend, by simp [hrange, hpassed]⟩
    obtain ⟨hgap, hplain⟩ := hs.resumes hstate hresume
    apply keeps_of_plain <;> simp [hrun, hin, hplain, hs.nextOutSeq, hgap]
    exact fun hlt => absurd hlt hle.not_gt

theorem advanceInboundExpectedSeq_keeps (hs : Sound h) {nextInSeq : UInt32}
    (hsafe : (Op.advanceInboundExpectedSeq nextInSeq).Safe h.core) :
    Keeps (.advanceInboundExpectedSeq nextInSeq) h := by
  by_cases hzero : nextInSeq = 0
  · apply keeps_of_refused hs <;> simp [Op.run, advanceInboundExpectedSeq, hzero]
  have hpos : nextInSeq.toNat ≠ 0 := fun hz => hzero (UInt32.toNat_inj.1 hz)
  by_cases hlt : nextInSeq.toNat < h.core.nextInSeq
  · apply keeps_of_refused hs <;> simp [Op.run, advanceInboundExpectedSeq, hpos, hlt]
  have hrun : (Op.advanceInboundExpectedSeq nextInSeq).run h.core =
      (.ok (), settleResend { h.core with nextInSeq := nextInSeq.toNat }) := by
    simp [Op.run, advanceInboundExpectedSeq, hpos, hlt]
  refine keeps_of_advance hs (Nat.le_of_not_lt hlt) hrun Bool.false_ne_true (by simp) ?_
    (hsafe (Nat.le_of_not_lt hlt) hzero)
  rintro ⟨-, range, hrange, hpassed⟩
  simpa [hrange, hrun] using hpassed

theorem keeps_of_opened (hs : Sound h) (hplain : Plain h.core.state) (hends : ¬op.ends)
    (range : ResendRange)
    (hcore : (op.run h.core).2 = { h.core with
      pendingResend := some range, resumeState := h.core.state, state := .resendProcessing }) :
    Keeps op h := by
  have hnone := hs.none_of_not_filling (not_filling_of_plain hplain)
  have hact : (op.act h).core = { h.core with
      pendingResend := some range, resumeState := h.core.state, state := .resendProcessing } :=
    hcore
  have hgap : (op.act h).gapFrom = some h.core.state := by
    simp [Op.act, hends, hnone, hcore]
  refine Sound.keeps ⟨?_, ?_, ?_, ?_, fun _ => ⟨_, hgap, hplain, ?_⟩⟩ (by simp [hact])
    fun hfill => absurd hfill (Op.not_fills_of_none hnone)
  · simp [hact, hs.nextInSeq]
  · simp [hact, hs.nextOutSeq]
  · simp [History.Filling, hact]
  · simp [hact]
  · simp [hact]

theorem keeps_of_extended (hs : Sound h) (hstate : h.core.state = .resendProcessing)
    (hends : ¬op.ends) (hfills : ¬op.Fills h.core) (range : ResendRange)
    (hcore : (op.run h.core).2 = { h.core with pendingResend := some range }) :
    Keeps op h := by
  have hact : (op.act h).core = { h.core with pendingResend := some range } := hcore
  obtain ⟨state, hfound, hplain, hresumed⟩ := hs.gap (hs.pending.2 (.inl hstate))
  have hgap := gapFrom_act op (fun hend => absurd hend hends)
    (hs.pending.2 (.inl hstate)) (by simp [hcore])
  refine Sound.keeps ⟨?_, ?_, ?_, ?_, fun _ => ⟨state, hgap.trans hfound, hplain, ?_⟩⟩
    (by simp [hact]) fun hfill => absurd hfill hfills
  · simp [hact, hs.nextInSeq]
  · simp [hact, hs.nextOutSeq]
  · simp [History.Filling, hact, hstate]
  · simp [hact, hstate]
  · simpa [hact] using hresumed

theorem noteGap_keeps (hs : Sound h) {seqNum : UInt32} (hcounts : CountsSequences h.core.state)
    (hgap : h.core.nextInSeq < seqNum.toNat) :
    Keeps (.observeInboundSeq seqNum) h := by
  have hrun : (Op.observeInboundSeq seqNum).run h.core =
      (.error (.InvalidArgument "inbound sequence gap detected"), noteGap seqNum.toNat h.core) := by
    simp [Op.run, observeInboundSeq, hcounts, hgap, Nat.lt_asymm hgap]
  have hfills : ¬(Op.observeInboundSeq seqNum).Fills h.core := by
    simp [Op.Fills, hrun]
  by_cases hstate : h.core.state = .resendProcessing
  · obtain ⟨range, hrange⟩ := Option.isSome_iff_exists.1 (hs.pending.2 (.inl hstate))
    refine keeps_of_extended hs hstate Bool.false_ne_true hfills
      { range with endSeq := max range.endSeq (seqNum.toNat - 1) } ?_
    simp [hrun, noteGap, hstate, hrange]
  · have hplain : Plain h.core.state := by
      refine ⟨hstate, fun hrecovering => ?_⟩
      simp [hrecovering, CountsSequences] at hcounts
    refine keeps_of_opened hs hplain Bool.false_ne_true ⟨h.core.nextInSeq, seqNum.toNat - 1⟩ ?_
    simp [hrun, noteGap, hstate]

theorem observeInboundSeq_keeps (hs : Sound h) {seqNum : UInt32}
    (hsafe : (Op.observeInboundSeq seqNum).Safe h.core) :
    Keeps (.observeInboundSeq seqNum) h := by
  by_cases hcounts : CountsSequences h.core.state
  swap
  · apply keeps_of_refused hs <;> simp [Op.run, observeInboundSeq, hcounts]
  rcases Nat.lt_trichotomy seqNum.toNat h.core.nextInSeq with hlt | heq | hgt
  · apply keeps_of_refused hs <;> simp [Op.run, observeInboundSeq, hcounts, hlt]
  · obtain ⟨hmax, hpasses⟩ := hsafe hcounts heq
    have hwrap : wrap32 (h.core.nextInSeq + 1) = h.core.nextInSeq + 1 :=
      wrap32_of_lt (by unfold uint32Max at hmax; omega)
    have hrun : (Op.observeInboundSeq seqNum).run h.core =
        (.ok (), settleResend { h.core with nextInSeq := h.core.nextInSeq + 1 }) := by
      simp [Op.run, observeInboundSeq, hcounts, heq, hwrap]
    refine keeps_of_advance hs (Nat.le_succ _) hrun Bool.false_ne_true (by simp) ?_ hpasses
    rintro ⟨-, range, hrange, hpassed⟩
    simpa [hrange, hrun] using hpassed
  · exact noteGap_keeps hs hcounts hgt

theorem beginResend_keeps (hs : Sound h) (beginSeq endSeq : UInt32) :
    Keeps (.beginResend beginSeq endSeq) h := by
  by_cases hstate : h.core.state ≠ .active ∧ h.core.state ≠ .awaitingLogout
  · apply keeps_of_refused hs <;> simp [Op.run, beginResend, hstate]
  by_cases hrange : beginSeq.toNat = 0 ∨ endSeq.toNat = 0 ∨ endSeq.toNat < beginSeq.toNat
  · apply keeps_of_refused hs <;> simp [Op.run, beginResend, hstate, hrange]
  have hplain : Plain h.core.state := by
    unfold Plain
    cases hcase : h.core.state <;> simp [hcase] at hstate ⊢
  refine keeps_of_opened hs hplain Bool.false_ne_true ⟨beginSeq.toNat, endSeq.toNat⟩ ?_
  change (beginResend beginSeq.toNat endSeq.toNat h.core).2 = _
  unfold beginResend
  rw [if_neg hstate, if_neg hrange]

theorem other_keeps (hs : Sound h) (hstate : (op.run h.core).2.state = h.core.state)
    (hresume : (op.run h.core).2.resumeState = h.core.resumeState)
    (hpending : (op.run h.core).2.pendingResend = h.core.pendingResend)
    (hin : (op.run h.core).2.nextInSeq = h.core.nextInSeq)
    (hout : (op.run h.core).2.nextOutSeq = h.core.nextOutSeq) (hends : ¬op.ends)
    (hop : op ≠ .beginRecovery) (hfills : ¬op.Fills h.core) : Keeps op h :=
  keeps_of_same hs hstate hresume hpending (hs.nextInSeq.trans hin.ge)
    (hs.nextOutSeq.trans hout.ge) (fun hlt => absurd hin hlt.ne) (fun hend => absurd hend hends)
    (fun hrec => absurd hrec hop) hfills

/-! ## Whole histories -/

theorem Sound.step (hs : Sound h) (hsafe : op.Safe h.core) : Keeps op h := by
  cases op with
  | beginConnect => exact beginConnect_keeps hs
  | onTransportConnected => exact onTransportConnected_keeps hs
  | close => exact close_keeps hs
  | beginRecovery => exact beginRecovery_keeps hs
  | finishRecovery => exact finishRecovery_keeps hs
  | beginLogon => exact beginLogon_keeps hs
  | restoreSequenceState nextInSeq nextOutSeq => exact restoreSequenceState_keeps hs hsafe
  | advanceInboundExpectedSeq nextInSeq => exact advanceInboundExpectedSeq_keeps hs hsafe
  | onLogonAccepted => exact onLogonAccepted_keeps hs
  | beginLogout => exact beginLogout_keeps hs
  | onTransportClosed => exact onTransportClosed_keeps hs hsafe
  | allocateOutboundSeq => exact allocateOutboundSeq_keeps hs
  | observeInboundSeq seqNum => exact observeInboundSeq_keeps hs hsafe
  | beginResend beginSeq endSeq => exact beginResend_keeps hs beginSeq endSeq
  | completeResend => exact completeResend_keeps hs hsafe
  | consumeWarmupMessage =>
    have hrun : ∃ warmup, (Op.consumeWarmupMessage.run h.core).2 =
        { h.core with warmupRemaining := warmup } := by
      by_cases hpos : 0 < h.core.warmupRemaining
      · exact ⟨_, by simp [Op.run, consumeWarmupMessage, hpos]; rfl⟩
      · exact ⟨h.core.warmupRemaining, by simp [Op.run, consumeWarmupMessage, hpos]⟩
    obtain ⟨warmup, hrun⟩ := hrun
    apply other_keeps hs <;> simp [hrun, Op.ends, Op.Fills]
  | checkDayCut nowNs => exact checkDayCut_keeps hs nowNs
  | triggerDayCut => exact triggerDayCut_keeps hs
  | consumeResendCompleted | recordInboundActivity | recordOutboundActivity | setWarmupCount
  | setDayCutConfig =>
    exact other_keeps hs rfl rfl rfl rfl rfl Bool.false_ne_true (by simp) (by simp [Op.Fills])

/-- An operation that is not safe breaks what holds. -/
theorem Sound.safe (hs : Sound h) (hholds : Holds op h) : op.Safe h.core := by
  have hafter : (op.act h).core = (op.run h.core).2 := rfl
  -- a resend that is over and resumes itself is one without a range
  have hunresumed : (op.run h.core).2.pendingResend = none →
      (op.run h.core).2.state ≠ .resendProcessing := fun hnone hstate => by
    have hpending := hholds.pending.2 (.inl hstate)
    simp [hafter, hnone] at hpending
  cases op with
  | onTransportClosed =>
    by_contra hsome
    have hfilling := hholds.pending.1 (by
      obtain ⟨range, hrange⟩ := Option.ne_none_iff_exists'.1 hsome
      by_cases hclosed : h.core.state = .closed <;>
        simp [Op.act, Op.run, onTransportClosed, hclosed, hrange])
    by_cases hclosed : h.core.state = .closed <;>
      simp [History.Filling, Op.act, Op.run, onTransportClosed, hclosed] at hfilling
  | restoreSequenceState nextInSeq nextOutSeq =>
    intro hstate hresume
    by_contra hzero
    rw [not_or] at hzero
    have hin : nextInSeq.toNat ≠ 0 := fun hz => hzero.1 (UInt32.toNat_inj.1 hz)
    have hout : nextOutSeq.toNat ≠ 0 := fun hz => hzero.2 (UInt32.toNat_inj.1 hz)
    have hpending := hholds.pending.2 (.inr ⟨?_, ?_⟩)
    · simp [Op.act, Op.run, restoreSequenceState, hstate, hin, hout] at hpending
    · simp [Op.act, Op.run, restoreSequenceState, hstate, hin, hout]
    · rw [recoveryFrom_act (by simp), (hs.recovering hstate).1, hresume]
  | observeInboundSeq seqNum =>
    intro hcounts heq
    have hrun : (Op.observeInboundSeq seqNum).run h.core =
        (.ok (), settleResend { h.core with nextInSeq := wrap32 (h.core.nextInSeq + 1) }) := by
      simp [Op.run, observeInboundSeq, hcounts, heq]
    have hmax : h.core.nextInSeq < uint32Max := by
      have hin := hholds.nextInSeq
      rw [hafter, hrun, settleResend_nextInSeq] at hin
      have hlt := seqNum.toNat_lt
      unfold wrap32 at hin
      unfold uint32Max
      by_contra hge
      rw [show h.core.nextInSeq = 2 ^ 32 - 1 by omega] at hin
      simp at hin
    refine ⟨hmax, fun hpasses => ?_⟩
    obtain ⟨hresume, hpassed⟩ := hpasses
    have hwrap : wrap32 (h.core.nextInSeq + 1) = h.core.nextInSeq + 1 :=
      wrap32_of_lt (by unfold uint32Max at hmax; omega)
    obtain ⟨range, hrange⟩ := Option.isSome_iff_exists.1 (Option.isSome_of_any hpassed)
    have hlt : range.endSeq < h.core.nextInSeq + 1 := by simpa [hrange] using hpassed
    have hstate : h.core.state = .resendProcessing := by
      rcases hs.pending.1 (by simp [hrange]) with hstate | ⟨hstate, -⟩
      · exact hstate
      · simp [hstate, CountsSequences] at hcounts
    exact hunresumed (by simp [hrun, hwrap, settleResend, hrange, hstate, hlt])
      (by simp [hrun, hwrap, settleResend, hrange, hstate, hlt, hresume])
  | advanceInboundExpectedSeq nextInSeq =>
    rintro hle hzero ⟨hresume, hpassed⟩
    have hpos : nextInSeq.toNat ≠ 0 := fun hz => hzero (UInt32.toNat_inj.1 hz)
    have hrun : (Op.advanceInboundExpectedSeq nextInSeq).run h.core =
        (.ok (), settleResend { h.core with nextInSeq := nextInSeq.toNat }) := by
      simp [Op.run, advanceInboundExpectedSeq, hpos, Nat.not_lt.2 hle]
    obtain ⟨range, hrange⟩ := Option.isSome_iff_exists.1 (Option.isSome_of_any hpassed)
    have hlt : range.endSeq < nextInSeq.toNat := by simpa [hrange] using hpassed
    rcases hs.pending.1 (by simp [hrange]) with hstate | ⟨hstate, -⟩
    · exact hunresumed (by simp [hrun, settleResend, hrange, hstate, hlt])
        (by simp [hrun, settleResend, hrange, hstate, hlt, hresume])
    · -- the gap is filled within the recovery, which is not the state it was found in
      obtain ⟨state, hgap, hplain, -⟩ := hs.gap (by simp [hrange])
      have hfilled := hholds.filled ⟨by simp [hrun], range, hrange, by simpa [hrun] using hlt⟩
        state hgap
      have hrecovering : (settleResend { h.core with nextInSeq := nextInSeq.toNat }).state =
          .recovering := by
        simp [settleResend, hrange, hstate]
      rw [hafter, hrun, hrecovering] at hfilled
      exact hplain.2 hfilled.symm
  | completeResend =>
    intro hstate hresume
    exact hunresumed (by simp [Op.run, completeResend, hstate])
      (by simp [Op.run, completeResend, hstate, hresume])
  | _ => exact trivial

end

theorem holdsAlong_iff_of_sound : ∀ {ops : List Op} {h : History}, Sound h →
    (HoldsAlong ops h ↔ StepsOk Op.act (fun op h => op.Safe h.core) ops h)
  | [], _, _ => Iff.rfl
  | op :: ops, h, hs => by
    constructor
    · rintro ⟨hholds, hrest⟩
      have hsafe := hs.safe hholds
      exact ⟨hsafe, (holdsAlong_iff_of_sound (hs.step hsafe).2).1 hrest⟩
    · rintro ⟨hsafe, hrest⟩
      obtain ⟨hholds, hnext⟩ := hs.step hsafe
      exact ⟨hholds, (holdsAlong_iff_of_sound hnext).2 hrest⟩

theorem holds_iff_safe (config : SessionConfig) (ops : List Op) :
    HoldsAlong ops { core := { config } } ↔
      StepsOk Op.act (fun op h => op.Safe h.core) ops { core := { config } } :=
  holdsAlong_iff_of_sound (Sound.start config)

/-- A session after operations. -/
def after (ops : List Op) : SessionCore :=
  ops.foldl (fun s op => (op.run s).2) { config := { sessionId := 1, key := ⟨[], [], []⟩ } }

/-- Up to an active session that has found a gap. -/
def gapFound : List Op := [.onTransportConnected, .onLogonAccepted, .observeInboundSeq 3]

/-- A transport that closes under a gap leaves the range pending; a recovery during a gap makes the
session stay in it when the gap is filled, without a range; and the number after the largest one
is zero. -/
theorem gap_forgotten :
    ((after gapFound).state = .resendProcessing ∧
      (after gapFound).pendingResend = some ⟨1, 2⟩) ∧
    ((after (gapFound ++ [.onTransportClosed])).state = .disconnected ∧
      (after (gapFound ++ [.onTransportClosed])).pendingResend = some ⟨1, 2⟩) ∧
    ((after (gapFound ++ [.beginRecovery, .finishRecovery, .observeInboundSeq 1,
        .observeInboundSeq 2])).state = .resendProcessing ∧
      (after (gapFound ++ [.beginRecovery, .finishRecovery, .observeInboundSeq 1,
        .observeInboundSeq 2])).pendingResend = none) ∧
    (after [.onTransportConnected, .advanceInboundExpectedSeq 4294967295,
      .observeInboundSeq 4294967295]).nextInSeq = 0 := by
  decide +kernel

end SessionCore

end NimbleFix
