import NimbleFix.Proof.InboundRefine

/-!
# The deferred frames

A frame is put aside only when it leaves a resend pending, and the drain starts only when none is.
So the drain of a call takes nothing but frames that earlier calls put aside. `drainLoop_invariant`
is the rule by which a property of the drain is proved from what one drained frame does.
-/

namespace NimbleFix

/-! ## The queue -/

namespace InboundCore

variable {c c' : InboundCore}

@[simp] theorem settle_deferredGapFrames (c : InboundCore) :
    c.settle.deferredGapFrames = c.deferredGapFrames := by
  unfold settle
  split
  · split <;> rfl
  · rfl

@[simp] theorem advance_deferredGapFrames (n : Nat) (c : InboundCore) :
    (c.advance n).deferredGapFrames = c.deferredGapFrames := settle_deferredGapFrames _

@[simp] theorem consume_deferredGapFrames (c : InboundCore) :
    c.consume.deferredGapFrames = c.deferredGapFrames := settle_deferredGapFrames _

@[simp] theorem noteGap_deferredGapFrames (n : Nat) (c : InboundCore) :
    (c.noteGap n).deferredGapFrames = c.deferredGapFrames := by
  unfold noteGap
  split <;> rfl

theorem noteGap_isSome (n : Nat) (c : InboundCore) : (c.noteGap n).pendingResend.isSome := by
  unfold noteGap
  split <;> rfl

theorem Settling.deferredGapFrames_eq (h : Settling c c') :
    c'.deferredGapFrames = c.deferredGapFrames := by
  cases h with
  | logout _ => unfold startLogout; split <;> rfl
  | clear _ => rfl
  | accept _ => rfl

theorem Settles.deferredGapFrames_eq (h : c.Settles c') :
    c'.deferredGapFrames = c.deferredGapFrames := by
  induction h with
  | refl => rfl
  | tail _ hstep ih => rw [hstep.deferredGapFrames_eq, ih]

end InboundCore

/-- A frame that is put aside leaves a resend pending. -/
theorem InboundEffect.deferredGapFrames_eq {env : ProtocolEnv} {d : DecodedMessageView}
    {expected : Nat} {c c' : InboundCore} {r : Except Status ProtocolEvent}
    (h : InboundEffect env d expected c r c') :
    c'.deferredGapFrames = c.deferredGapFrames ∨
      c'.deferredGapFrames = c.deferredGapFrames ++ [d.raw] ∧ c'.pendingResend.isSome := by
  cases h with
  | quiet hs _ => exact .inl hs.deferredGapFrames_eq
  | consumed _ _ hs _ => exact .inl (by rw [hs.deferredGapFrames_eq]; simp)
  | filled n _ _ _ _ _ _ _ => exact .inl (by simp)
  | reset n _ _ _ hs _ _ => exact .inl (by rw [hs.deferredGapFrames_eq]; simp)
  | gapped _ _ _ hs _ => exact .inl (by rw [hs.deferredGapFrames_eq]; simp)
  | deferred _ _ _ _ =>
    exact .inr ⟨by simp [InboundCore.defer], InboundCore.noteGap_isSome _ _⟩

section

variable (env : ProtocolEnv) {σ : Type} [SessionStore σ]

theorem onInboundDecoded_deferredGapFrames (d : DecodedMessageView) (ts : Nat)
    (p : AdminProtocol σ) :
    (onInboundDecoded env d ts p).2.deferredGapFrames = p.deferredGapFrames ∨
      (onInboundDecoded env d ts p).2.deferredGapFrames = p.deferredGapFrames ++ [d.raw] ∧
        (onInboundDecoded env d ts p).2.session.pendingResend.isSome := by
  obtain ⟨c, hr, he⟩ := onInboundDecoded_effect env d ts p
  cases hr with
  | same => exact he.deferredGapFrames_eq
  | restored _ _ _ => exact he.deferredGapFrames_eq

/-! ## The drain -/

omit [SessionStore σ] in
theorem nextDeferred_eq_some {p q : AdminProtocol σ} {frame : Bytes} :
    nextDeferred p = some (frame, q) ↔
      ∃ rest, p.deferredGapFrames = frame :: rest ∧ p.session.pendingResend = none ∧
        q = { p with deferredGapFrames := rest } := by
  unfold nextDeferred
  constructor
  · intro h
    split at h
    · rename_i f rest hq
      split at h
      · cases h
      · rename_i hpend
        cases h
        exact ⟨rest, hq, by simpa using hpend, rfl⟩
    · cases h
  · rintro ⟨rest, hq, hpend, rfl⟩
    rw [hq]
    simp [hpend]

omit [SessionStore σ] in
theorem nextDeferred_of_pending {p : AdminProtocol σ} (h : p.session.pendingResend.isSome) :
    nextDeferred p = none := by
  cases hn : nextDeferred p with
  | none => rfl
  | some x =>
    obtain ⟨-, -, hnone, -⟩ := nextDeferred_eq_some.1 hn
    rw [hnone] at h
    cases h

theorem drain_of_nothing {p : AdminProtocol σ} (h : nextDeferred p = none) (ts : Nat)
    (event : ProtocolEvent) :
    drainDeferredGapFrames env ts event p = ((event, .ok ()), p) := by
  unfold drainDeferredGapFrames
  cases p.deferredGapFrames.length with
  | zero => rfl
  | succ fuel =>
    unfold drainLoop
    rw [h]

/-- The event of the drain after a frame with the outcome `r`. -/
def ProtocolEvent.absorbOutcome (event : ProtocolEvent) (r : Except Status ProtocolEvent) :
    ProtocolEvent :=
  match r with
  | .ok inner => event.absorb inner
  | .error _ => event

def ProtocolEvent.absorbAll (event : ProtocolEvent)
    (outcomes : List (Except Status ProtocolEvent)) : ProtocolEvent :=
  outcomes.foldl absorbOutcome event

theorem absorbAll_applicationMessages (outcomes : List (Except Status ProtocolEvent)) :
    ∀ event : ProtocolEvent, (event.absorbAll outcomes).applicationMessages =
      event.applicationMessages ++ outcomes.flatMap delivered := by
  induction outcomes with
  | nil => simp [ProtocolEvent.absorbAll]
  | cons r outcomes ih =>
    intro event
    refine (ih _).trans ?_
    cases r <;> simp [ProtocolEvent.absorbOutcome, ProtocolEvent.absorb, delivered]

/-- A property of the event and the state holds after the drain if dropping and processing a
deferred frame both keep it. -/
theorem drainLoop_invariant (ts : Nat) {P : ProtocolEvent → AdminProtocol σ → Prop}
    (drop : ∀ {event p frame q}, P event p → nextDeferred p = some (frame, q) → P event q)
    (step : ∀ {event p frame q d}, P event p → nextDeferred p = some (frame, q) →
      decodeInbound env frame = .ok d → q.session.nextInSeq ≤ d.header.msgSeqNum →
      P (event.absorbOutcome (onInboundDecoded env d ts q).1) (onInboundDecoded env d ts q).2) :
    ∀ (fuel : Nat) (event : ProtocolEvent) (p : AdminProtocol σ), P event p →
      P (drainLoop env ts fuel event p).1.1 (drainLoop env ts fuel event p).2 := by
  intro fuel
  induction fuel with
  | zero => exact fun _ _ h => h
  | succ fuel ih =>
    intro event p h
    unfold drainLoop
    cases hn : nextDeferred p with
    | none => exact h
    | some x =>
      obtain ⟨frame, q⟩ := x
      dsimp only
      cases hdec : decodeInbound env frame with
      | error _ => exact ih event q (drop h hn)
      | ok d =>
        dsimp only
        split
        · exact ih event q (drop h hn)
        · rename_i hseq
          have hstep := step h hn hdec (Nat.le_of_not_lt hseq)
          revert hstep
          generalize onInboundDecoded env d ts q = y
          obtain ⟨_ | inner, q'⟩ := y
          · exact id
          · intro hstep
            dsimp only
            split
            · exact hstep
            · exact ih _ q' hstep

/-! ## The calls with raw bytes -/

/-- The outcomes of a call with the bytes `frame`. The two overloads differ in the last one only:
the one that takes a span fails when its drain does, the other keeps the event. -/
inductive ByteCall (frame : Bytes) (ts : Nat) (p : AdminProtocol σ) :
    Except Status ProtocolEvent × AdminProtocol σ → Prop
  | malformed (status : Status) : decodeInbound env frame = .error status →
      ByteCall frame ts p (handleInboundDecodeFailure status ts p)
  | failed (d : DecodedMessageView) (status : Status) (q : AdminProtocol σ) :
      decodeInbound env frame = .ok d → onInboundDecoded env d ts p = (.error status, q) →
      ByteCall frame ts p (.error status, q)
  | drained (d : DecodedMessageView) (event : ProtocolEvent) (q : AdminProtocol σ)
      (r : Except Status ProtocolEvent) : decodeInbound env frame = .ok d →
      onInboundDecoded env d ts p = (.ok event, q) →
      r = .ok (drainDeferredGapFrames env ts event q).1.1 ∨
        (∃ status, (drainDeferredGapFrames env ts event q).1.2 = .error status ∧
          r = .error status) →
      ByteCall frame ts p (r, (drainDeferredGapFrames env ts event q).2)

theorem onInbound_byteCall (frame : Bytes) (ts : Nat) (p : AdminProtocol σ) :
    ByteCall env frame ts p (onInbound env frame ts p) := by
  unfold onInbound
  cases hdec : decodeInbound env frame with
  | error status => exact .malformed status hdec
  | ok d =>
    dsimp only
    cases hd : onInboundDecoded env d ts p with
    | mk r q =>
      cases r with
      | error status =>
        rw [Fallible.bind_of_error hd]
        exact .failed d status q hdec hd
      | ok event =>
        rw [Fallible.bind_of_ok hd]
        have hcall := fun r => ByteCall.drained d event q r hdec hd
        revert hcall
        unfold drainOrFail
        generalize drainDeferredGapFrames env ts event q = z
        obtain ⟨⟨e, _ | _⟩, q'⟩ := z
        · exact fun hcall => hcall _ (.inr ⟨_, rfl, rfl⟩)
        · exact fun hcall => hcall _ (.inl rfl)

theorem onInboundOwned_byteCall (frame : Bytes) (ts : Nat) (p : AdminProtocol σ) :
    ByteCall env frame ts p (onInboundOwned env frame ts p) := by
  unfold onInboundOwned
  cases hdec : decodeInbound env frame with
  | error status => exact .malformed status hdec
  | ok d =>
    dsimp only
    cases hd : onInboundDecoded env d ts p with
    | mk r q =>
      cases r with
      | error status =>
        rw [Fallible.bind_of_error hd]
        exact .failed d status q hdec hd
      | ok event =>
        rw [Fallible.bind_of_ok hd]
        exact .drained d event q _ hdec hd (.inl rfl)

theorem handleInboundDecodeFailure_core (status : Status) (ts : Nat) :
    Fallible.Preserves AdminProtocol.inboundCore
      (handleInboundDecodeFailure (σ := σ) status ts) :=
  .ite (.fail _) (.bind ensureInitialized_core fun _ => .bind (recordInbound_core ts) fun _ =>
    .bind persistRecoveryState_core fun _ => .pure _)

theorem handleInboundDecodeFailure_silent (status : Status) (ts : Nat) :
    Silent (handleInboundDecodeFailure (σ := σ) status ts) :=
  .ite (.fail _) (.bind fun _ => .bind fun _ => .bind fun _ => .pure rfl)

end

end NimbleFix
