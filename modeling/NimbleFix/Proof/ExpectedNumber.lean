import NimbleFix.Proof.Drain
import NimbleFix.Session.Sample
import NimbleFix.Spec.InboundTrace

/-!
# The expected number and the delivered messages

Every frame that a byte-level call processes moves the expected number as `NumberMove` says, and
the steps of a run link up, so the frames processed between two resets are `InSequence`.
-/

namespace NimbleFix

open Fallible

/-! ## One frame -/

namespace InboundCore

variable {c c' : InboundCore}

theorem Settling.nextInSeq_eq (h : Settling c c') : c'.nextInSeq = c.nextInSeq := by
  cases h with
  | logout _ => unfold startLogout; split <;> rfl
  | clear _ => rfl
  | accept _ => rfl

theorem Settles.nextInSeq_eq (h : c.Settles c') : c'.nextInSeq = c.nextInSeq := by
  induction h with
  | refl => rfl
  | tail _ hstep ih => rw [hstep.nextInSeq_eq, ih]

@[simp] theorem noteGap_nextInSeq (n : Nat) (c : InboundCore) :
    (c.noteGap n).nextInSeq = c.nextInSeq := by
  unfold noteGap
  split <;> rfl

end InboundCore

theorem newSeqNo_of_parse {m : ParsedMessageData} {n : Nat}
    (h : parseSequenceResetNewSeq m = .ok n) (hlt : ∀ v ∈ m.getInt Tag.newSeqNo, v < 2 ^ 32 - 1) :
    m.getInt Tag.newSeqNo = some (n : Int) := by
  unfold parseSequenceResetNewSeq at h
  cases hv : m.getInt Tag.newSeqNo with
  | none => rw [hv] at h; cases h
  | some v =>
    have hv' := hlt v (by rw [hv]; rfl)
    rw [hv] at h
    dsimp only at h
    split at h
    · cases h
    · injection h with h
      rw [wrap32_of_lt (by omega)] at h
      congr 1
      omega

section

variable (env : ProtocolEnv) {σ : Type} [SessionStore σ]

/-- What holds of the event, if there is one, holds of the event of a frame that completes. -/
theorem InboundStep.Completes.yields {s : InboundStep σ} (h : s.Completes env)
    {P : ProtocolEvent → Prop} (hP : IfOk (s.outcome env) P) : s.Yields env P := by
  unfold Completes at h
  unfold Yields
  cases hr : s.outcome env with
  | error e => rw [hr] at h; cases h
  | ok event => rw [hr] at hP; exact ⟨event, rfl, hP⟩

/-- A frame that brings no new counters, with numbers in range, moves the expected number as it
should, provided it is processed without an error and a `SequenceReset` in reset mode passes its
checks. -/
theorem numberMove_of_step {s : InboundStep σ} (hkeep : s.KeepsCounters env)
    (hnum : s.Numbered) (hdone : s.Completes env) (hreset : s.SoundReset env) :
    NumberMove env s := by
  obtain ⟨c, hres, heff⟩ := onInboundDecoded_effect env s.decoded s.timestampNs s.before
  cases hres with
  | restored _ h _ => exact absurd h hkeep
  | same =>
    change InboundEffect env s.decoded _ _ (s.outcome env) (s.after env).inboundCore at heff
    have hafter : (s.after env).inboundCore.nextInSeq = (s.after env).session.nextInSeq := rfl
    have hbefore : s.before.inboundCore.nextInSeq = s.before.session.nextInSeq := rfl
    have hconsume : s.decoded.header.msgSeqNum = s.before.session.nextInSeq →
        s.before.inboundCore.consume.nextInSeq = s.before.session.nextInSeq + 1 := by
      intro hseq
      rw [InboundCore.consume_nextInSeq, hbefore, wrap32_of_lt]
      have := hnum.1
      omega
    generalize hc : (s.after env).inboundCore = c' at heff
    rw [hc] at hafter
    cases heff with
    | quiet hs hr => exact .stays (hafter.symm.trans hs.nextInSeq_eq) hr
    | consumed _ hseq hs hr =>
      refine .consumes hseq ?_ (hr.imp (And.imp_right fun h ha => hdone.yields env (h ha)) And.left)
      rw [← hafter, hs.nextInSeq_eq, hconsume hseq]
    | filled n _ hseq hd hn hle hr hun =>
      rw [InboundCore.advance_nextInSeq] at hafter
      rw [hconsume hseq] at hle
      exact .jumps hd (hafter ▸ newSeqNo_of_parse hn hnum.2) (by omega) hr
        (hdone.yields env hun)
    | reset n hd hn hlt hs hr hun =>
      rw [hs.nextInSeq_eq, InboundCore.advance_nextInSeq] at hafter
      have hnew := newSeqNo_of_parse hn hnum.2
      refine .jumps hd (hafter ▸ hnew) (hafter ▸ hlt) hr
        (hdone.yields env (hun (hreset hd fun v hv => ?_)))
      rw [hnew] at hv
      cases hv
      exact_mod_cast hlt
    | gapped _ _ _ hs hr =>
      refine .stays ?_ hr
      rw [← hafter, hs.nextInSeq_eq, InboundCore.noteGap_nextInSeq]
      rfl
    | deferred _ _ _ hr =>
      refine .stays ?_ hr
      rw [← hafter]
      exact InboundCore.noteGap_nextInSeq _ _

/-! ## The steps of a run link up -/

omit [SessionStore σ] in
theorem nextDeferred_session {p q : AdminProtocol σ} {frame : Bytes}
    (h : nextDeferred p = some (frame, q)) : q.session = p.session := by
  obtain ⟨_, _, _, rfl⟩ := nextDeferred_eq_some.1 h
  rfl

/-- The drain ends where its steps lead, absorbs what they yield, and succeeds if they complete. -/
theorem drainLoop_steps (ts : Nat) : ∀ (fuel : Nat) (event : ProtocolEvent) (p : AdminProtocol σ),
    ExpectedPath env p.session.nextInSeq (drainSteps env ts fuel p)
        (drainLoop env ts fuel event p).2.session.nextInSeq ∧
      (drainLoop env ts fuel event p).1.1 =
        event.absorbAll ((drainSteps env ts fuel p).map (·.outcome env)) ∧
      ((drainLoop env ts fuel event p).1.2 = .ok () ↔
        ∀ s ∈ drainSteps env ts fuel p, s.Completes env)
  | 0, event, p => ⟨rfl, rfl, by simp [drainLoop, drainSteps]⟩
  | fuel + 1, event, p => by
    unfold drainLoop drainSteps
    cases hn : nextDeferred p with
    | none => exact ⟨rfl, rfl, by simp⟩
    | some x =>
      obtain ⟨frame, q⟩ := x
      rw [← nextDeferred_session hn]
      dsimp only
      cases hdec : decodeInbound env frame with
      | error _ => exact drainLoop_steps ts fuel event q
      | ok d =>
        dsimp only
        split
        · exact drainLoop_steps ts fuel event q
        · have hout : ∀ r q', onInboundDecoded env d ts q = (r, q') →
              (⟨q, d, ts⟩ : InboundStep σ).outcome env = r ∧
                (⟨q, d, ts⟩ : InboundStep σ).after env = q' :=
            fun r q' h => ⟨congrArg Prod.fst h, congrArg Prod.snd h⟩
          cases hstep : onInboundDecoded env d ts q with
          | mk r q' =>
            obtain ⟨hr, hq⟩ := hout r q' hstep
            rw [List.map_cons, List.forall_mem_cons, InboundStep.Completes, hr, hq]
            have hcons : ∀ {steps : List (InboundStep σ)} {last : Nat},
                ExpectedPath env q'.session.nextInSeq steps last →
                ExpectedPath env q.session.nextInSeq (⟨q, d, ts⟩ :: steps) last :=
              fun h => .cons rfl (congrArg (fun p => p.session.nextInSeq) hq) h
            cases r with
            | error status =>
              exact ⟨hcons rfl, rfl, by simp [Except.isOk, Except.toBool]⟩
            | ok inner =>
              dsimp only
              split
              · exact ⟨hcons rfl, rfl, by simp [Except.isOk, Except.toBool]⟩
              · obtain ⟨hpath, hevent, hstatus⟩ := drainLoop_steps ts fuel (event.absorb inner) q'
                exact ⟨hcons hpath, hevent, by rw [hstatus]; simp [Except.isOk, Except.toBool]⟩

theorem receive_byteCall (c : InboundCall) (p : AdminProtocol σ) :
    ByteCall env c.frame c.timestampNs p (receive env c p) := by
  unfold receive
  split
  · exact onInboundOwned_byteCall env c.frame c.timestampNs p
  · exact onInbound_byteCall env c.frame c.timestampNs p

theorem callSteps_path (c : InboundCall) (p : AdminProtocol σ) :
    ExpectedPath env p.session.nextInSeq (callSteps env c p)
      (receive env c p).2.session.nextInSeq := by
  have hc := receive_byteCall env c p
  revert hc
  generalize receive env c p = out
  intro hc
  unfold callSteps
  cases hc with
  | malformed status hdec =>
    rw [hdec]
    have hcore := handleInboundDecodeFailure_core status c.timestampNs p
    exact (congrArg InboundCore.nextInSeq hcore).symm
  | failed d status q hdec hd =>
    rw [hdec]
    simp [InboundStep.outcome, InboundStep.after, hd, EdgePath]
  | drained d event q r hdec hd _ =>
    rw [hdec]
    refine ⟨rfl, ?_⟩
    simp only [InboundStep.outcome, InboundStep.after, hd]
    exact (drainLoop_steps env c.timestampNs _ event q).1

/-- A call whose frames all complete delivers what they do: its drain does not fail. -/
theorem receive_delivered {c : InboundCall} {p : AdminProtocol σ}
    (h : ∀ s ∈ callSteps env c p, s.Completes env) :
    delivered (receive env c p).1 =
      (callSteps env c p).flatMap fun s => delivered (s.outcome env) := by
  have hc := receive_byteCall env c p
  revert hc h
  generalize receive env c p = out
  unfold callSteps
  intro h hc
  cases hc with
  | malformed status hdec =>
    rw [hdec]
    exact handleInboundDecodeFailure_silent status c.timestampNs p
  | failed d status q hdec hd =>
    rw [hdec] at h
    have hok := h _ List.mem_cons_self
    simp [InboundStep.Completes, InboundStep.outcome, hd, Except.isOk, Except.toBool] at hok
  | drained d first q r hdec hd hr =>
    rw [hdec] at h ⊢
    simp only [List.flatMap_cons, InboundStep.outcome, InboundStep.after, hd] at h ⊢
    obtain ⟨-, hevent, hstatus⟩ := drainLoop_steps env c.timestampNs
      q.deferredGapFrames.length first q
    rcases hr with rfl | ⟨status, hfails, rfl⟩
    · change (drainLoop env c.timestampNs
        q.deferredGapFrames.length first q).1.1.applicationMessages = _
      rw [hevent, absorbAll_applicationMessages, List.flatMap_map]
      rfl
    · have hok := hstatus.2 fun s hs => h s (List.mem_cons_of_mem _ hs)
      unfold drainDeferredGapFrames at hfails
      rw [hok] at hfails
      cases hfails

theorem receiveAll_delivered : ∀ {calls : List InboundCall} {p : AdminProtocol σ},
    (∀ s ∈ runSteps env calls p, s.Completes env) →
    (receiveAll env calls p).1.flatMap delivered =
      (runSteps env calls p).flatMap fun s => delivered (s.outcome env)
  | [], _, _ => rfl
  | c :: calls, p, h => by
    unfold runSteps at h ⊢
    rw [List.flatMap_append, ← receive_delivered env fun s hs => h s (List.mem_append_left _ hs),
      ← receiveAll_delivered fun s hs => h s (List.mem_append_right _ hs)]
    rfl

theorem runSteps_path : ∀ (calls : List InboundCall) (p : AdminProtocol σ),
    ExpectedPath env p.session.nextInSeq (runSteps env calls p)
      (receiveAll env calls p).2.session.nextInSeq
  | [], _ => rfl
  | c :: calls, p => (callSteps_path env c p).append (runSteps_path calls (receive env c p).2)

/-! ## The steps between two resets -/

section

variable {env} {s : InboundStep σ}

theorem NumberMove.le (h : NumberMove env s) :
    s.before.session.nextInSeq ≤ (s.after env).session.nextInSeq := by
  cases h with
  | stays h _ => omega
  | consumes _ h _ => omega
  | jumps _ _ h _ _ => omega

/-- A message is delivered by the frame that consumed the expected number. -/
theorem NumberMove.delivered_eq (h : NumberMove env s) {d : DecodedMessageView}
    (hd : d ∈ delivered (s.outcome env)) :
    d = s.decoded ∧ d.header.msgSeqNum = s.before.session.nextInSeq ∧
      (s.after env).session.nextInSeq = s.before.session.nextInSeq + 1 := by
  cases h with
  | stays _ hr => rw [hr] at hd; cases hd
  | jumps _ _ _ hr _ => rw [hr] at hd; cases hd
  | consumes hseq hnext hr =>
    rcases hr with ⟨hr, _⟩ | hr
    · rw [hr] at hd; cases hd
    · rw [hr, List.mem_singleton] at hd
      subst hd
      exact ⟨rfl, hseq, hnext⟩

end

theorem inSequence_of_moves {steps : List (InboundStep σ)}
    (hmoves : ∀ s ∈ steps, NumberMove env s)
    (hpath : ∃ first last, ExpectedPath env first steps last) :
    InSequence env steps := by
  refine ⟨hmoves, hpath, fun s hs d hd => ?_, ?_, ?_⟩
  · exact ⟨((hmoves s hs).delivered_eq hd).1, ((hmoves s hs).delivered_eq hd).2.1⟩
  · obtain ⟨first, last, hp⟩ := hpath
    refine List.pairwise_flatMap.2 ⟨fun s hs => ?_, ?_⟩
    · -- one frame delivers at most itself
      cases hmoves s hs with
      | stays _ hr => rw [hr]; exact .nil
      | jumps _ _ _ hr _ => rw [hr]; exact .nil
      | consumes _ _ hr =>
        rcases hr with ⟨hr, _⟩ | hr <;> rw [hr]
        · exact .nil
        · exact List.pairwise_singleton _ _
    · refine List.Pairwise.imp_of_mem ?_ (hp.pairwise fun s hs => (hmoves s hs).le)
      intro s t hs ht hle d hd d' hd'
      obtain ⟨-, hseq, hnext⟩ := (hmoves s hs).delivered_eq hd
      obtain ⟨-, hseq', -⟩ := (hmoves t ht).delivered_eq hd'
      omega
  · intro first last hp n hfirst hlast
    obtain ⟨s, hs, hle, hlt⟩ := hp.covers hfirst hlast
    refine ⟨s, hs, ?_⟩
    cases hmoves s hs with
    | stays h _ => omega
    | consumes hseq hnext hr =>
      refine .inl ⟨by omega, by omega, ?_⟩
      rcases hr with ⟨_, hans⟩ | hr
      · cases hadmin : isAdminMessage s.decoded.msgType with
        | true => exact .inr (.inl rfl)
        | false => exact .inr (.inr (hans hadmin))
      · exact .inl hr
    | jumps hd _ _ _ hun => exact .inr ⟨hd, hle, hlt, hun⟩

end

/-- The orders 4 and 2 and then the missing 3, given to an acceptor that has accepted Logon 1. -/
def Sample.gapCalls : List InboundCall :=
  [⟨false, orderFrame 4, 3⟩, ⟨true, orderFrame 2, 4⟩, ⟨false, orderFrame 3, 5⟩]

open Sample

end NimbleFix
