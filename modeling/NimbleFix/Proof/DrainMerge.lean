import NimbleFix.Proof.ExpectedNumber
import NimbleFix.Proof.InboundReport

/-!
# What the drain adds to an event

`drainSteps` lists the deferred frames that a drain processes, each with the state it is processed
in. The drain ends after at most as many rounds as frames were put aside. The event it returns has
all frames of these steps, but none of their flags, warnings and errors (`absorb`), and their
messages are views of events that are gone. When one of the steps fails, the overload for a span
returns its error and no event, so the messages of the frames before it are lost; the other overload
returns an event without the message of the frame that failed.
-/

namespace NimbleFix

open ProtocolEvent

/-! ## Two ways to join events -/

/-- Everything of both events. -/
def ProtocolEvent.join (event inner : ProtocolEvent) : ProtocolEvent where
  outboundFrames := event.outboundFrames ++ inner.outboundFrames
  applicationMessages := event.applicationMessages ++ inner.applicationMessages
  sessionActive := event.sessionActive || inner.sessionActive
  disconnect := event.disconnect || inner.disconnect
  possResend := event.possResend || inner.possResend
  sessionReject := event.sessionReject || inner.sessionReject
  warnings := event.warnings ++ inner.warnings
  errors := event.errors ++ inner.errors
  dangling := event.dangling || inner.dangling

/-- The event of a frame that yields one, the empty event otherwise. -/
def yielded (r : Except Status ProtocolEvent) : ProtocolEvent :=
  match r with
  | .ok event => event
  | .error _ => {}

/-- The event with everything the outcomes yield, in order. -/
def ProtocolEvent.joinAll (event : ProtocolEvent)
    (outcomes : List (Except Status ProtocolEvent)) : ProtocolEvent :=
  outcomes.foldl (fun e r => e.join (yielded r)) event

theorem join_of_report {event inner : ProtocolEvent} (h : inner.report = {}) :
    event.join inner = event.absorb inner := by
  simp only [ProtocolEvent.report, Report.mk.injEq] at h
  obtain ⟨hmessages, hactive, hresend, hreject, hwarnings, herrors, hdangling⟩ := h
  simp [ProtocolEvent.join, absorb, hmessages, hactive, hresend, hreject, hwarnings, herrors,
    hdangling]

theorem joinAll_of_reports (outcomes : List (Except Status ProtocolEvent)) :
    ∀ event : ProtocolEvent, (∀ r ∈ outcomes, (yielded r).report = {}) →
      event.joinAll outcomes = event.absorbAll outcomes := by
  induction outcomes with
  | nil => exact fun _ _ => rfl
  | cons r outcomes ih =>
    intro event h
    obtain ⟨hr, hrest⟩ := List.forall_mem_cons.1 h
    have hstep : event.join (yielded r) = event.absorbOutcome r := by
      cases r with
      | error _ => simp [ProtocolEvent.join, yielded, absorbOutcome]
      | ok inner => exact join_of_report hr
    exact (congrArg (joinAll · outcomes) hstep).trans (ih _ hrest)

theorem joinAll_texts (outcomes : List (Except Status ProtocolEvent)) :
    ∀ event : ProtocolEvent,
      (event.joinAll outcomes).warnings =
          event.warnings ++ outcomes.flatMap (fun r => (yielded r).warnings) ∧
        (event.joinAll outcomes).errors =
          event.errors ++ outcomes.flatMap (fun r => (yielded r).errors) ∧
        (event.joinAll outcomes).dangling =
          (event.dangling || outcomes.any fun r => (yielded r).dangling) := by
  induction outcomes with
  | nil => simp [joinAll]
  | cons r outcomes ih =>
    intro event
    obtain ⟨hwarnings, herrors, hdangling⟩ := ih (event.join (yielded r))
    rw [show event.joinAll (r :: outcomes) = (event.join (yielded r)).joinAll outcomes from rfl,
      hwarnings, herrors, hdangling]
    simp [ProtocolEvent.join, Bool.or_assoc]

theorem absorbAll_texts (outcomes : List (Except Status ProtocolEvent)) :
    ∀ event : ProtocolEvent,
      (event.absorbAll outcomes).warnings = event.warnings ∧
        (event.absorbAll outcomes).errors = event.errors ∧
        (event.absorbAll outcomes).dangling =
          (event.dangling || outcomes.any fun r => !(yielded r).applicationMessages.isEmpty) := by
  induction outcomes with
  | nil => simp [absorbAll]
  | cons r outcomes ih =>
    intro event
    obtain ⟨hwarnings, herrors, hdangling⟩ := ih (event.absorbOutcome r)
    rw [show event.absorbAll (r :: outcomes) = (event.absorbOutcome r).absorbAll outcomes from rfl,
      hwarnings, herrors, hdangling]
    cases r <;> simp [absorbOutcome, absorb, yielded, Bool.or_assoc]

theorem absorbAll_eq_joinAll_iff {event : ProtocolEvent} (hevent : event.dangling = false)
    {outcomes : List (Except Status ProtocolEvent)}
    (hsound : ∀ r ∈ outcomes, ∃ d P, (yielded r).report.Brings d P) :
    event.absorbAll outcomes = event.joinAll outcomes ↔
      ∀ r ∈ outcomes, (yielded r).report = {} := by
  refine ⟨fun h r hr => ?_, fun h => (joinAll_of_reports outcomes event h).symm⟩
  obtain ⟨hwarnings, herrors, hdangling⟩ := absorbAll_texts outcomes event
  obtain ⟨hwarnings', herrors', hdangling'⟩ := joinAll_texts outcomes event
  rw [h, hwarnings', List.append_right_eq_self, List.flatMap_eq_nil_iff] at hwarnings
  rw [h, herrors', List.append_right_eq_self, List.flatMap_eq_nil_iff] at herrors
  have hlasts : (outcomes.any fun r => (yielded r).dangling) = false := by
    refine List.any_eq_false.2 fun r hr => ?_
    obtain ⟨d, P, hbrings⟩ := hsound r hr
    simp [show (yielded r).dangling = false from hbrings.dangling]
  rw [h, hdangling', hevent, hlasts, Bool.false_or, Bool.false_or, eq_comm, List.any_eq_false]
    at hdangling
  have hmessages : (yielded r).applicationMessages = [] := by simpa using hdangling r hr
  obtain ⟨d, P, hbrings⟩ := hsound r hr
  rw [hbrings.eq_texts hmessages, Report.mk.injEq]
  exact ⟨rfl, rfl, rfl, rfl, hwarnings r hr, herrors r hr, rfl⟩

/-! ## The drained frames -/

section

variable (env : ProtocolEnv) {σ : Type} [SessionStore σ]

/-- The drain ends: no more rounds are made than frames were put aside. -/
theorem drainLoop_enough (ts : Nat) : ∀ (fuel : Nat) (event : ProtocolEvent) {p : AdminProtocol σ},
    p.deferredGapFrames.length ≤ fuel →
      drainLoop env ts (fuel + 1) event p = drainLoop env ts fuel event p
  | 0, event, p, h => by
    have hnone : nextDeferred p = none := by
      unfold nextDeferred
      rw [List.length_eq_zero_iff.1 (Nat.le_zero.1 h)]
    simp [drainLoop, hnone]
  | fuel + 1, event, p, h => by
    rw [drainLoop, drainLoop]
    cases hnext : nextDeferred p with
    | none => rfl
    | some x =>
      obtain ⟨frame, q⟩ := x
      obtain ⟨rest, hqueue, -, rfl⟩ := nextDeferred_eq_some.1 hnext
      have hrest : rest.length ≤ fuel := by
        rw [hqueue] at h
        simpa using h
      dsimp only
      cases decodeInbound env frame with
      | error e => exact drainLoop_enough ts fuel event hrest
      | ok d =>
        dsimp only
        split
        · exact drainLoop_enough ts fuel event hrest
        · have hkept := onInboundDecoded_deferredGapFrames env d ts
            { p with deferredGapFrames := rest }
          revert hkept
          generalize onInboundDecoded env d ts { p with deferredGapFrames := rest } = out
          obtain ⟨_ | inner, q'⟩ := out
          · exact fun _ => rfl
          · intro hkept
            dsimp only at hkept ⊢
            split
            · rfl
            · rcases hkept with hsame | ⟨-, hpending⟩
              · exact drainLoop_enough ts fuel _ (by rw [hsame]; exact hrest)
              · -- A frame was put aside again, so a resend is pending and the loop stops.
                have hnone := nextDeferred_of_pending hpending
                cases fuel <;> simp [drainLoop, hnone]

theorem drainLoop_of_le {ts : Nat} {event : ProtocolEvent} {p : AdminProtocol σ} {fuel : Nat}
    (h : p.deferredGapFrames.length ≤ fuel) :
    drainLoop env ts fuel event p = drainDeferredGapFrames env ts event p := by
  induction fuel, h using Nat.le_induction with
  | base => rfl
  | succ fuel h ih => rw [drainLoop_enough env ts fuel event h, ih]

namespace InboundStep

/-- What the frame is to be reported as, in the state it is processed in. -/
def report (s : InboundStep σ) : Report := reportOf env s.decoded s.timestampNs s.before

/-- The number of the frame is consumed, also if the call fails afterwards. -/
def Consumes (s : InboundStep σ) : Prop :=
  (s.after env).session.nextInSeq ≠ s.before.session.nextInSeq

instance (s : InboundStep σ) : Decidable (s.Consumes env) :=
  inferInstanceAs (Decidable (_ ≠ _))

/-- The messages the application is owed once the number is consumed. -/
def owed (s : InboundStep σ) : List DecodedMessageView :=
  if s.Consumes env then (s.report env).messages else []

variable {env} {s : InboundStep σ}

theorem report_of_completes (hs : s.decoded.isLogon = false) (h : s.Completes env) :
    (yielded (s.outcome env)).report = s.report env := by
  have hreports : ReportsAt (s.report env) (onInboundDecoded env s.decoded s.timestampNs) s.before :=
    onInboundDecoded_reports hs
  unfold Completes outcome at h
  unfold outcome
  cases hout : onInboundDecoded env s.decoded s.timestampNs s.before with
  | mk r q =>
    rw [hout] at h
    cases r with
    | error _ => cases h
    | ok event => exact hreports event q hout

theorem yielded_of_not_completes (h : ¬s.Completes env) : yielded (s.outcome env) = {} := by
  unfold Completes at h
  cases hout : s.outcome env with
  | error _ => rfl
  | ok _ =>
    rw [hout] at h
    exact absurd rfl h

theorem report_brings (hs : s.decoded.isLogon = false) :
    ∃ P, (yielded (s.outcome env)).report.Brings s.decoded P := by
  by_cases h : s.Completes env
  · rw [report_of_completes hs h]
    exact ⟨_, reportOf_brings⟩
  · rw [yielded_of_not_completes h]
    exact ⟨_, .texts not_false [] []⟩

theorem report_eq_iff (hs : s.decoded.isLogon = false) :
    (yielded (s.outcome env)).report = {} ↔ (s.Completes env → s.report env = {}) := by
  by_cases h : s.Completes env
  · rw [report_of_completes hs h]
    simp [h]
  · rw [yielded_of_not_completes h]
    exact ⟨fun _ h' => absurd h' h, fun _ => rfl⟩

theorem owed_eq_nil_iff : s.owed env = [] ↔ (s.Consumes env → (s.report env).messages = []) := by
  unfold owed
  split <;> simp [*]

end InboundStep

/-- The outcome is an event with all that the first event and the steps have, and no message of a
frame whose number was consumed is missing. -/
def WholeEvent (event : ProtocolEvent) (steps : List (InboundStep σ))
    (r : Except Status ProtocolEvent) : Prop :=
  r = .ok (event.joinAll (steps.map (·.outcome env))) ∧
    delivered r = event.applicationMessages ++ steps.flatMap (·.owed env)

variable {env} {event : ProtocolEvent} {steps : List (InboundStep σ)}

/-- The event of a drain is whole exactly when no step that completes reports anything and no step
that fails has consumed the number of a message. -/
theorem wholeEvent_absorbAll_iff (hevent : event.dangling = false)
    (hlogon : ∀ s ∈ steps, s.decoded.isLogon = false) :
    WholeEvent env event steps (.ok (event.absorbAll (steps.map (·.outcome env)))) ↔
      ∀ s ∈ steps, (s.Completes env → s.report env = {}) ∧
        (s.Consumes env → (s.report env).messages = []) := by
  have hsound : ∀ r ∈ steps.map (·.outcome env), ∃ d P, (yielded r).report.Brings d P :=
    List.forall_mem_map.2 fun s hs => ⟨_, InboundStep.report_brings (hlogon s hs)⟩
  have hmerge : event.absorbAll (steps.map (·.outcome env)) =
      event.joinAll (steps.map (·.outcome env)) ↔
        ∀ s ∈ steps, s.Completes env → s.report env = {} := by
    rw [absorbAll_eq_joinAll_iff hevent hsound, List.forall_mem_map]
    exact forall₂_congr fun s hs => InboundStep.report_eq_iff (hlogon s hs)
  have howed : steps.flatMap (·.owed env) = [] ↔
      ∀ s ∈ steps, s.Consumes env → (s.report env).messages = [] := by
    rw [List.flatMap_eq_nil_iff]
    exact forall₂_congr fun s _ => InboundStep.owed_eq_nil_iff
  unfold WholeEvent
  rw [Except.ok.injEq, hmerge, forall₂_and, ← howed]
  refine and_congr_right fun hquiet => ?_
  have hnone : (steps.map (·.outcome env)).flatMap delivered = [] := by
    rw [List.flatMap_map, List.flatMap_eq_nil_iff]
    intro s hs
    have hreport := (InboundStep.report_eq_iff (hlogon s hs)).2 (hquiet s hs)
    have hmessages := congrArg Report.messages hreport
    cases hout : s.outcome env with
    | error _ => rfl
    | ok inner => rwa [hout] at hmessages
  rw [delivered, absorbAll_applicationMessages, hnone, List.append_nil, List.self_eq_append_right]

variable (env)

end

open Sample

/-- An acceptor that waits for order 2 and has put the given frame aside. -/
def Sample.holding (frame : Bytes) : AdminProtocol MemorySessionStore :=
  after acceptor
    [.connect 1, .inbound (logonFrame 1) 2, .inbound frame 3]

def Sample.orderTwo : DecodedMessageView :=
  (decodeInbound acceptor (orderFrame 2)).toOption.get (by decide +kernel)

/-- Order 2 has arrived and the drain is to come. -/
def Sample.filled (frame : Bytes) : Except Status ProtocolEvent × AdminProtocol MemorySessionStore :=
  onInboundDecoded acceptor orderTwo 4 (holding frame)

def Sample.drained (frame : Bytes) : List (InboundStep MemorySessionStore) :=
  drainSteps acceptor 4 (filled frame).2.deferredGapFrames.length (filled frame).2

/-- The acceptor with two outbound numbers left, which its Logon and a ResendRequest take. -/
def Sample.running : AdminProtocol MemorySessionStore :=
  [Command.connect 1, .inbound (logonFrame 1) 2,
    .inbound (frame "1" [(112, "t")] 3) 3].foldl (fun p c => (perform acceptor c p).2)
    (.create acceptor (some (SessionStore.saveRecoveryState
      ⟨1, 1, uint32Max - 2, 0, 0, false⟩ ({} : MemorySessionStore)).2))

/-- A connected acceptor that gets Logon 2 before message 1. -/
def Sample.early : AdminProtocol MemorySessionStore :=
  after acceptor [.connect 1, .inbound (logonFrame 2) 2]

end NimbleFix
