import NimbleFix.Proof.InboundRefine
import NimbleFix.Proof.WorkerCommands

/-!
# What a worker does to the inbound side of its connections

`Worker.flow` is the inbound side of all connections: what has arrived, what waits and what was
handed on. Sends, commands, notifications and the session protocol leave it alone; a frame changes
it for its own connection only, in the way `FrameEffect` and `FrameDone` say.
-/

namespace NimbleFix

open Fallible

section

variable {σ : Type}

/-- A connection without its session and without what it has sent. -/
def ConnectionState.inbound (c : ConnectionState σ) : ConnectionState σ :=
  { c with session := none, sent := [] }

def Worker.inbound (w : Worker σ) (id : Nat) : Option (ConnectionState σ) :=
  (w.find id).map ConnectionState.inbound

/-- The inbound side of every connection, the system clock and the log. -/
def Worker.flow (w : Worker σ) : (Nat → Option (ConnectionState σ)) × Nat × List (HandedFrame σ) :=
  (w.inbound, w.wallNs, w.log)

theorem inbound_modify (w : Worker σ) (id other : Nat) {f g : ConnectionState σ → ConnectionState σ}
    (hid : ∀ c, (f c).connectionId = c.connectionId) (hg : ∀ c, (f c).inbound = g c.inbound) :
    (w.modify id f).inbound other = (w.inbound other).map fun c => if other = id then g c else c := by
  unfold Worker.inbound
  rw [find_modify w id other hid]
  cases w.find other with
  | none => rfl
  | some c =>
    by_cases h : other = id
    · simp [h, hg]
    · simp [h]

theorem flow_modify (w : Worker σ) (id : Nat) {f : ConnectionState σ → ConnectionState σ}
    (h : ∀ c, (f c).connectionId = c.connectionId ∧ (f c).inbound = c.inbound) :
    (w.modify id f).flow = w.flow := by
  refine Prod.ext (funext fun other => ?_) rfl
  change (w.modify id f).inbound other = w.inbound other
  rw [inbound_modify w id other (g := fun c => c) (fun c => (h c).1) fun c => (h c).2]
  simp

/-! ## What leaves the flow alone -/

theorem onProtocol_keeps_flow {α : Type} (id : Nat) (m : ProtocolEnv → Method (AdminProtocol σ) α) :
    Preserves Worker.flow (onProtocol id m) := by
  intro w
  unfold onProtocol
  split
  · rfl
  · exact flow_modify w id fun _ => ⟨rfl, rfl⟩

theorem orUnbind_keeps_flow {id : Nat} {m : Method (Worker σ) Unit} (h : Preserves Worker.flow m) :
    Preserves Worker.flow (orUnbind id m) := by
  intro w
  have hm := h w
  unfold orUnbind
  revert hm
  generalize m w = out
  obtain ⟨_ | _, w'⟩ := out
  · intro hm
    exact (flow_modify w' id (f := ConnectionState.unbind) fun _ => ⟨rfl, rfl⟩).trans hm
  · exact fun hm => hm

end

section

variable {σ : Type} (rt : LiveRuntime σ)

theorem callback_keeps_flow : Preserves Worker.flow (callback rt) := fun _ => rfl

theorem writeFrames_keeps_flow (id : Nat) (frames : List EncodedFrame) :
    Preserves Worker.flow (writeFrames rt id frames) := by
  intro w
  unfold writeFrames
  split
  · rfl
  · exact flow_modify { w with writes := w.writes + 1 } id fun _ => ⟨rfl, rfl⟩

theorem sendEventFrames_keeps_flow (id : Nat) (frames : List EncodedFrame) :
    Preserves Worker.flow (sendEventFrames rt id frames) :=
  .ite (.pure ()) (writeFrames_keeps_flow rt id frames)

variable [SessionStore σ]

theorem executeCommand_keeps_flow (command : OutboundCommand) (ts : Nat) :
    Preserves Worker.flow (executeCommand rt command ts) := by
  intro w
  unfold executeCommand
  split
  · rfl
  · split
    · rfl
    · exact Preserves.bind (onProtocol_keeps_flow _ _) (fun _ => writeFrames_keeps_flow rt _ _) w

theorem drainLoopCommands_keeps_flow (ts : Nat) (queue : List OutboundCommand) :
    Preserves Worker.flow (drainLoopCommands rt ts queue) := by
  induction queue with
  | nil => exact .pure ()
  | cons command rest ih =>
    exact .bind (.modify fun _ => rfl) fun _ => .bind (executeCommand_keeps_flow rt command ts)
      fun _ => ih

theorem drainWorkerCommands_keeps_flow (ts : Nat) :
    Preserves Worker.flow (drainWorkerCommands rt ts) :=
  fun w => drainLoopCommands_keeps_flow rt ts w.commands w

theorem drainInline_keeps_flow (id ts : Nat) : Preserves Worker.flow (drainInline rt id ts) := by
  intro w
  unfold drainInline
  split
  · exact drainWorkerCommands_keeps_flow rt ts w
  · rfl

theorem notify_keeps_flow (id ts : Nat) : Preserves Worker.flow (notify rt id ts) := by
  refine .bind (callback_keeps_flow rt) fun status => ?_
  cases status with
  | error e => exact .fail e
  | ok a => exact drainInline_keeps_flow rt id ts

theorem notifyIf_keeps_flow (condition : Bool) (id ts : Nat) :
    Preserves Worker.flow (notifyIf rt condition id ts) :=
  .ite (notify_keeps_flow rt id ts) (.pure ())

theorem bindSession_keeps_flow (id : Nat) (counterparty : Counterparty σ) (ts : Nat) :
    Preserves Worker.flow (bindSession rt id counterparty ts) := by
  intro w
  unfold bindSession
  split
  · rfl
  · split
    · rfl
    · refine Preserves.bind ?_ (fun _ => orUnbind_keeps_flow (.bind
        (sendEventFrames_keeps_flow rt id _) fun _ => notify_keeps_flow rt id ts)) w
      exact fun w => flow_modify w id fun _ => ⟨rfl, rfl⟩

theorem ensureBound_keeps_flow (id : Nat) (header : SessionHeaderView) (ts : Nat) :
    Preserves Worker.flow (ensureBound rt id header ts) := by
  intro w
  unfold ensureBound
  split
  · rfl
  · unfold bindConnectionFromLogon
    split
    · rfl
    · dsimp only
      split
      · rfl
      · exact bindSession_keeps_flow rt id _ ts { w with binds := w.binds + 1 }

end

/-! ## One connection at a time -/

/-- From `w` to `w'` the inbound side changes for the connection `id` only, and there as `R` says;
the frames given to the protocol meanwhile meet `E` at the reading of the system clock. -/
structure Along {σ : Type} (id : Nat) (E : Nat → HandedFrame σ → Prop)
    (R : ConnectionState σ → ConnectionState σ → Prop) (w w' : Worker σ) : Prop where
  wall : w'.wallNs = w.wallNs
  others : ∀ other, other ≠ id → w'.inbound other = w.inbound other
  absent : w.inbound id = none → w'.inbound id = none
  own : ∀ c, w.inbound id = some c → ∃ c', w'.inbound id = some c' ∧ R c c'
  log : ∃ new, w'.log = w.log ++ new ∧ ∀ e ∈ new, E w.wallNs e

namespace Along

variable {σ : Type} {id : Nat} {E : Nat → HandedFrame σ → Prop}
  {R R' : ConnectionState σ → ConnectionState σ → Prop}

instance [Std.Refl R] : Std.Refl (Along id E R) where
  refl _ := ⟨rfl, fun _ _ => rfl, fun h => h, fun c hc => ⟨c, hc, refl_of R c⟩, [], by simp, by simp⟩

instance [IsTrans _ R] : IsTrans _ (Along id E R) where
  trans w₁ w₂ w₃ h₁₂ h₂₃ := by
    obtain ⟨new₂, hnew₂, hE₂⟩ := h₁₂.log
    obtain ⟨new₃, hnew₃, hE₃⟩ := h₂₃.log
    refine ⟨h₂₃.wall.trans h₁₂.wall,
      fun other hne => (h₂₃.others other hne).trans (h₁₂.others other hne),
      fun h => h₂₃.absent (h₁₂.absent h), fun c hc => ?_, new₂ ++ new₃, ?_, fun e he => ?_⟩
    · obtain ⟨c₂, hc₂, hR₂⟩ := h₁₂.own c hc
      obtain ⟨c₃, hc₃, hR₃⟩ := h₂₃.own c₂ hc₂
      exact ⟨c₃, hc₃, trans_of R hR₂ hR₃⟩
    · rw [hnew₃, hnew₂, List.append_assoc]
    · rcases List.mem_append.1 he with he | he
      · exact hE₂ e he
      · rw [← h₁₂.wall]
        exact hE₃ e he

theorem mono (h : ∀ c c', R c c' → R' c c') {w w' : Worker σ} (hw : Along id E R w w') :
    Along id E R' w w' := by
  refine ⟨hw.wall, hw.others, hw.absent, fun c hc => ?_, hw.log⟩
  obtain ⟨c', hc', hR⟩ := hw.own c hc
  exact ⟨c', hc', h c c' hR⟩

theorem of_flow [Std.Refl R] {w w' : Worker σ} (h : w'.flow = w.flow) : Along id E R w w' := by
  obtain ⟨hinbound, hrest⟩ := Prod.mk.inj h
  obtain ⟨hwall, hlog⟩ := Prod.mk.inj hrest
  exact ⟨hwall, fun other _ => congrFun hinbound other,
    fun h => (congrFun hinbound id).trans h,
    fun c hc => ⟨c, (congrFun hinbound id).trans hc, refl_of R c⟩, [], by simp [hlog], by simp⟩

theorem of_preserves [Std.Refl R] {α : Type} {m : Method (Worker σ) α}
    (h : Preserves Worker.flow m) : Moves (Along id E R) m := fun w => of_flow (h w)

theorem onConnection (f : ConnectionState σ → ConnectionState σ)
    (hf : ∀ c, (f c).connectionId = c.connectionId ∧ (f c).inbound = f c.inbound)
    (hR : ∀ c, R c (f c)) : Moves (Along id E R) (NimbleFix.onConnection id f) := by
  intro w
  refine ⟨rfl, fun other hne => ?_, fun hnone => ?_, fun c hc => ⟨f c, ?_, hR c⟩, [], ?_, by simp⟩
  · change (w.modify id f).inbound other = _
    rw [inbound_modify w id other (fun c => (hf c).1) fun c => (hf c).2]
    simp [hne]
  · change (w.modify id f).inbound id = _
    rw [inbound_modify w id id (fun c => (hf c).1) fun c => (hf c).2, hnone]
    rfl
  · change (w.modify id f).inbound id = _
    rw [inbound_modify w id id (fun c => (hf c).1) fun c => (hf c).2, hc]
    simp
  · exact (List.append_nil _).symm

end Along

/-- The queues of the connection stay as they are. -/
structure SameQueues {σ : Type} (c c' : ConnectionState σ) : Prop where
  inbox : c'.inbox = c.inbox
  stashed : c'.stashedAppFrame = c.stashedAppFrame
  arrived : c'.arrived = c.arrived
  closing : c.closeRequested → c'.closeRequested

instance {σ : Type} : Std.Refl (SameQueues (σ := σ)) where
  refl _ := ⟨rfl, rfl, rfl, id⟩

instance {σ : Type} : IsTrans _ (SameQueues (σ := σ)) where
  trans _ _ _ h₁₂ h₂₃ := ⟨h₂₃.inbox.trans h₁₂.inbox, h₂₃.stashed.trans h₁₂.stashed,
    h₂₃.arrived.trans h₁₂.arrived, fun h => h₂₃.closing (h₁₂.closing h)⟩

/-- Any change of the connection. -/
def Anyhow {σ : Type} (_ _ : ConnectionState σ) : Prop := True

instance {σ : Type} : Std.Refl (Anyhow (σ := σ)) where
  refl _ := trivial

instance {σ : Type} : IsTrans _ (Anyhow (σ := σ)) where
  trans _ _ _ _ _ := trivial

/-- An entry of the log: the frame was decoded by the session it was given to, at the clocks. -/
def IsEntry {σ : Type} (ts wall : Nat) (e : HandedFrame σ) : Prop :=
  e.timestampNs = ts ∧ e.wallNs = wall ∧ decodeInbound e.session.env e.frame = .ok e.decoded

section

variable {σ : Type} {E : Nat → HandedFrame σ → Prop} {id : Nat}

theorem markConnectionForClose_along :
    Moves (Along id E SameQueues) (markConnectionForClose (σ := σ) id) :=
  Along.onConnection (fun c => c.requestClose) (fun _ => ⟨rfl, rfl⟩)
    fun _ => ⟨rfl, rfl, rfl, fun _ => rfl⟩

variable {m : Method (Worker σ) Unit}

theorem orClose_moves {R : Worker σ → Worker σ → Prop} [IsTrans _ R] (hm : Moves R m)
    (hclose : Moves R (markConnectionForClose (σ := σ) id)) : Moves R (orClose id m) := by
  intro w
  have hw := hm w
  unfold orClose
  revert hw
  generalize m w = out
  obtain ⟨_ | _, w'⟩ := out
  · exact fun hw => trans_of R hw (hclose w')
  · exact fun hw => hw

theorem orClose_along (hm : Moves (Along id E SameQueues) m) :
    Moves (Along id E SameQueues) (orClose id m) :=
  orClose_moves hm markConnectionForClose_along

theorem along_anyhow {α : Type} {R : ConnectionState σ → ConnectionState σ → Prop}
    {m : Method (Worker σ) α} (hm : Moves (Along id E R) m) : Moves (Along id E Anyhow) m :=
  fun w => (hm w).mono fun _ _ _ => trivial

theorem takeFrame_along (rest : List Bytes) (hm : Moves (Along id E SameQueues) m) :
    Moves (Along id E Anyhow) (takeFrame id rest m) :=
  .bind (Along.onConnection (fun c => c.setInbox rest) (fun _ => ⟨rfl, rfl⟩)
    fun _ => trivial) fun _ => along_anyhow (orClose_along hm)

variable [SessionStore σ] (rt : LiveRuntime σ)

/-! ## Dispatch -/

theorem settleAppAnswer_along (message : DecodedMessageView) (ts : Nat)
    (status : Except Status Unit) :
    Moves (Along id E SameQueues) (settleAppAnswer rt id message ts status) := by
  intro w
  unfold settleAppAnswer
  cases status with
  | ok a =>
    exact Moves.bind
      (Along.onConnection (fun c => c.accept message) (fun _ => ⟨rfl, rfl⟩)
        fun c => ⟨rfl, rfl, rfl, fun h => h⟩)
      (fun _ => Along.of_preserves (drainInline_keeps_flow rt id ts)) w
  | error e =>
    dsimp only
    split
    · exact (Along.onConnection (fun c => c.setPending (some message)) (fun _ => ⟨rfl, rfl⟩)
        fun c => ⟨rfl, rfl, rfl, fun h => h⟩) w
    · exact refl_of (Along id E SameQueues) w

theorem dispatchMessages_along (ts : Nat) (messages : List DecodedMessageView) :
    Moves (Along id E SameQueues) (dispatchMessages rt id ts messages) := by
  induction messages with
  | nil => exact .pure ()
  | cons message rest ih =>
    have hdispatch : Moves (Along id E SameQueues) (dispatchAppMessage rt id message ts) :=
      .bind (Along.of_preserves (onProtocol_keeps_flow id _)) fun _ =>
        .bind (Along.of_preserves (callback_keeps_flow rt)) fun status =>
          settleAppAnswer_along rt message ts status
    exact .bind hdispatch fun _ => .bind (Along.of_preserves .get) fun _ => .ite (.pure ()) ih

theorem handleProtocolEvent_along (event : ProtocolEvent) (ts : Nat) :
    Moves (Along id E SameQueues) (handleProtocolEvent rt id event ts) :=
  .bind (Along.of_preserves (sendEventFrames_keeps_flow rt id _)) fun _ =>
    .bind (dispatchMessages_along rt ts _) fun _ => .ite markConnectionForClose_along (.pure ())

/-! ## Frames -/

theorem processByProtocol_cases (id : Nat) (frame : Bytes) (ts : Nat) (w : Worker σ) :
    (∃ e, processByProtocol id frame ts w = (.error e, w)) ∨
      ∃ s decoded, (w.find id).bind (fun c => c.session) = some s ∧
        decodeInbound s.env frame = .ok decoded ∧
        processByProtocol id frame ts w = handToProtocol id frame decoded ts w := by
  unfold processByProtocol
  cases hs : (w.find id).bind fun c => c.session with
  | none => exact .inl ⟨noSession, bind_of_error (by simp only [decodeFor, hs])⟩
  | some s =>
    cases hd : decodeInbound s.env frame with
    | error e => exact .inl ⟨e, bind_of_error (by simp only [decodeFor, hs, hd])⟩
    | ok decoded => exact .inr ⟨s, decoded, rfl, hd, bind_of_ok (by simp only [decodeFor, hs, hd])⟩

omit [SessionStore σ] in
theorem recordHanded_along {entry : HandedFrame σ} {w : Worker σ} (h : E w.wallNs entry) :
    Along id E SameQueues w (recordHanded id entry w).2 := by
  have hhand : Along id E SameQueues w (w.modify id fun c => c.hand entry) :=
    (Along.onConnection (fun c => c.hand entry) (fun _ => ⟨rfl, rfl⟩)
      fun c => ⟨rfl, rfl, rfl, fun h => h⟩) w
  exact ⟨rfl, hhand.others, hhand.absent, hhand.own, [entry], rfl, by simpa using h⟩

theorem processByProtocol_along (frame : Bytes) (ts : Nat) :
    Moves (Along id (IsEntry ts) SameQueues) (processByProtocol (σ := σ) id frame ts) := by
  intro w
  rcases processByProtocol_cases id frame ts w with ⟨e, h⟩ | ⟨s, decoded, hs, hd, h⟩
  · rw [h]
    exact refl_of (Along id (IsEntry ts) SameQueues) w
  · rw [h]
    unfold handToProtocol
    simp only [hs]
    exact Moves.bind_at (recordHanded_along (E := IsEntry ts) ⟨rfl, rfl, hd⟩) (fun _ => Moves.bind
      (Along.of_preserves (onProtocol_keeps_flow id _)) fun event : ProtocolEvent => Moves.bind
        (Along.onConnection (fun c => c.produce event.applicationMessages) (fun _ => ⟨rfl, rfl⟩)
          fun c => ⟨rfl, rfl, rfl, fun h => h⟩) fun _ => .pure event)

/-- Whatever comes of a frame, its connection keeps its queues, and nothing but decoded frames is
logged. -/
theorem handleInboundFrame_along (frame : Bytes) (header : SessionHeaderView) (ts : Nat) :
    Moves (Along id (IsEntry ts) SameQueues) (handleInboundFrame rt id frame header ts) := by
  have hreceive : Moves (Along id (IsEntry ts) SameQueues) (receiveFrame rt id frame header ts) :=
    .bind (Along.of_preserves (ensureBound_keeps_flow rt id header ts)) fun _ =>
      .bind (processByProtocol_along frame ts) fun event =>
        .bind (Along.of_preserves (notifyIf_keeps_flow rt _ id ts)) fun _ =>
          .bind (Along.of_preserves (notifyIf_keeps_flow rt _ id ts)) fun _ => .pure event
  exact .bind hreceive fun event => handleProtocolEvent_along rt event ts

theorem processFrameBytes_along (c : ConnectionState σ) (frame : Bytes) (ts : Nat) :
    Moves (Along id (IsEntry ts) SameQueues) (processFrameBytes rt id c frame ts) :=
  .bind (Along.of_preserves (.ofExcept _)) fun header =>
    handleInboundFrame_along rt frame header ts

/-! ## Reading -/

theorem readLoop_along (ts fuel : Nat) :
    Moves (Along id (IsEntry ts) Anyhow) (readLoop rt id ts fuel) := by
  induction fuel with
  | zero => exact .pure ()
  | succ fuel ih =>
    intro w
    have hstay := refl_of (Along id (IsEntry ts) Anyhow) w
    unfold readLoop
    cases w.find id with
    | none => exact hstay
    | some c =>
      dsimp only
      split
      · exact hstay
      · cases c.inbox with
        | nil => exact hstay
        | cons frame rest =>
          exact Moves.bind (takeFrame_along rest (processFrameBytes_along rt c frame ts))
            (fun _ => ih) w

theorem drainAdminFrames_along (ts fuel : Nat) :
    Moves (Along id (IsEntry ts) Anyhow) (drainAdminFrames rt id ts fuel) := by
  induction fuel with
  | zero => exact .pure ()
  | succ fuel ih =>
    intro w
    have hstay := refl_of (Along id (IsEntry ts) Anyhow) w
    unfold drainAdminFrames
    cases w.find id with
    | none => exact hstay
    | some c =>
      dsimp only
      split
      · exact hstay
      · cases c.inbox with
        | nil => exact hstay
        | cons frame rest =>
          dsimp only
          cases peekFor c frame with
          | error e => exact takeFrame_along rest (Along.of_preserves (.fail e)) w
          | ok header =>
            dsimp only
            split
            · exact Moves.bind (takeFrame_along rest (handleInboundFrame_along rt frame header ts))
                (fun _ => ih) w
            · exact Moves.bind
                (Along.onConnection (fun c => c.setInbox rest) (fun _ => ⟨rfl, rfl⟩) fun _ => trivial)
                (fun _ => orClose_moves (Along.onConnection
                  (fun c => c.stash frame) (fun _ => ⟨rfl, rfl⟩) fun _ => trivial)
                  (along_anyhow markConnectionForClose_along)) w

theorem processStashed_along (ts : Nat) :
    Moves (Along id (IsEntry ts) Anyhow) (processStashed rt id ts) := by
  intro w
  unfold processStashed
  cases w.find id with
  | none => exact refl_of (Along id (IsEntry ts) Anyhow) w
  | some c =>
    dsimp only
    split
    · exact refl_of (Along id (IsEntry ts) Anyhow) w
    · exact Moves.bind (Along.onConnection (fun c => c.stash []) (fun _ => ⟨rfl, rfl⟩)
        fun _ => trivial) (fun _ => along_anyhow (orClose_along
          (processFrameBytes_along rt c c.stashedAppFrame ts))) w

theorem readUnlessPending_along (ts : Nat) :
    Moves (Along id (IsEntry ts) Anyhow) (readUnlessPending rt id ts) := by
  intro w
  unfold readUnlessPending
  split
  · split
    · exact drainAdminFrames_along rt ts _ w
    · exact refl_of (Along id (IsEntry ts) Anyhow) w
  · exact Moves.bind (processStashed_along rt ts) (fun _ w => readLoop_along rt ts _ w) w

/-! ## Postponed messages and timers -/

theorem settleRetry_along (message : DecodedMessageView) (ts : Nat)
    (status : Except Status Unit) :
    Moves (Along id E SameQueues) (settleRetry rt id message ts status) := by
  unfold settleRetry
  cases status with
  | error e => exact .ite (.pure ()) (.fail e)
  | ok a =>
    exact .bind (Along.onConnection (fun c => c.accept message) (fun _ => ⟨rfl, rfl⟩)
      fun c => ⟨rfl, rfl, rfl, fun h => h⟩) fun _ =>
        .bind (Along.of_preserves (drainInline_keeps_flow rt id ts)) fun _ =>
          Along.onConnection (fun c => c.setPending none) (fun _ => ⟨rfl, rfl⟩)
            fun c => ⟨rfl, rfl, rfl, fun h => h⟩

theorem retryPendingAppEvent_along (ts : Nat) :
    Moves (Along id E SameQueues) (retryPendingAppEvent rt id ts) := by
  intro w
  unfold retryPendingAppEvent
  split
  · exact refl_of (Along id E SameQueues) w
  · exact Moves.bind (Along.of_preserves (callback_keeps_flow rt))
      (fun status => settleRetry_along rt _ ts status) w

theorem serviceTimer_along (inWindow : Bool) (ts : Nat) :
    Moves (Along id E SameQueues) (serviceTimer rt id inWindow ts) := by
  intro w
  unfold serviceTimer
  split
  · exact Moves.bind (Along.of_preserves (onProtocol_keeps_flow id _))
      (fun event => handleProtocolEvent_along rt event ts) w
  · split
    · exact Moves.bind (Along.of_preserves (onProtocol_keeps_flow id _))
        (fun frame => Along.of_preserves (writeFrames_keeps_flow rt id [frame])) w
    · exact markConnectionForClose_along w

end

/-! ## Invariants of all connections -/

section

variable {σ : Type}

variable {id : Nat} {α : Type}

theorem inbound_of_find {w : Worker σ} {c : ConnectionState σ} (h : w.find id = some c) :
    w.inbound id = some c.inbound := by
  rw [Worker.inbound, h]
  rfl

/-- `I` holds of every connection. -/
def Everywhere (I : ConnectionState σ → Prop) (w : Worker σ) : Prop :=
  ∀ id c, w.inbound id = some c → I c

variable {I : ConnectionState σ → Prop} {E : Nat → HandedFrame σ → Prop}

theorem Everywhere.along {R : ConnectionState σ → ConnectionState σ → Prop} {w w' : Worker σ}
    (h : Everywhere I w) (hw : Along id E R w w')
    (hR : ∀ c c', w'.inbound id = some c' → I c → R c c' → I c') : Everywhere I w' := by
  intro other c' hc'
  by_cases hid : other = id
  · subst hid
    cases hc : w.inbound other with
    | none =>
      rw [hw.absent hc] at hc'
      cases hc'
    | some c =>
      obtain ⟨c₁, hc₁, hcR⟩ := hw.own c hc
      obtain rfl : c₁ = c' := Option.some.inj (hc₁.symm.trans hc')
      exact hR c c₁ hc₁ (h other c hc) hcR
  · exact h other c' (by rw [← hw.others other hid, hc'])

theorem maintains_of_along {R : ConnectionState σ → ConnectionState σ → Prop}
    {m : Method (Worker σ) α} (hm : Moves (Along id E R) m) (hR : ∀ c c', R c c' → I c → I c') :
    Maintains (Everywhere I) m :=
  fun w h => h.along (hm w) fun c c' _ hI hcR => hR c c' hcR hI

theorem maintains_of_flow {m : Method (Worker σ) α} (h : Preserves Worker.flow m) :
    Maintains (Everywhere I) m := by
  intro w hI id c hc
  obtain ⟨hinbound, -⟩ := Prod.mk.inj (h w)
  exact hI id c ((congrFun hinbound id).symm.trans hc)

theorem forEach_maintains {J : Worker σ → Prop} {f : α → Method (Worker σ) Unit}
    (h : ∀ x, Maintains J (f x)) (xs : List α) : Maintains J (forEach f xs) := by
  induction xs with
  | nil => exact .pure ()
  | cons x xs ih => exact .bind (h x) fun _ => ih

variable (rt : LiveRuntime σ)

theorem notifyClosed_keeps_flow (id : Nat) : Preserves Worker.flow (notifyClosed rt id) := by
  intro w
  unfold notifyClosed
  split <;> rfl

theorem closeIfRequested_inbound (id : Nat) (w : Worker σ) (other : Nat) (c : ConnectionState σ)
    (hc : (closeIfRequested rt id w).2.inbound other = some c) : w.inbound other = some c := by
  have hnotify : (notifyClosed rt id w) = (.ok (), (notifyClosed rt id w).2) ∧
      (notifyClosed rt id w).2.connections = w.connections := by
    unfold notifyClosed
    split <;> exact ⟨rfl, rfl⟩
  unfold closeIfRequested at hc
  split at hc
  · rw [bind_of_ok hnotify.1] at hc
    simp only [Worker.inbound, Worker.find, modify_apply, hnotify.2, List.find?_filter] at hc ⊢
    by_cases hid : other = id
    · subst hid
      simp only [Option.map_eq_some_iff] at hc
      obtain ⟨c₀, hc₀, -⟩ := hc
      have := List.find?_some hc₀
      simp at this
    · rw [← hc]
      congr 2
      funext c₀
      by_cases hc₀ : c₀.connectionId = other
      · simp [hc₀, hid]
      · simp [hc₀]
  · exact hc

theorem closeIfRequested_maintains (id : Nat) :
    Maintains (Everywhere I) (closeIfRequested rt id) :=
  fun w h other c hc => h other c (closeIfRequested_inbound rt id w other c hc)

theorem pollApplicationSessions_keeps_flow :
    Preserves Worker.flow (pollApplicationSessions rt) := by
  intro w
  have hloop : ∀ xs : List (ConnectionState σ), Preserves Worker.flow
      (forEach (fun _ => do let status ← callback rt; Fallible.ofExcept status) xs) := by
    intro xs
    induction xs with
    | nil => exact .pure ()
    | cons x xs ih => exact .bind (.bind (callback_keeps_flow rt) fun _ => .ofExcept _) fun _ => ih
  exact hloop _ w

/-! ## Invariants of a round -/

variable [SessionStore σ]

/-- What is kept by all that leaves the flow alone, by a message offered again, by a timer and by a
close is kept by the round behind the connections that are ready. -/
theorem pollWorkerOnce_invariant {J : Worker σ → Prop} {p : Poll} {w : Worker σ}
    (hflow : ∀ {m : Method (Worker σ) Unit}, Preserves Worker.flow m → Maintains J m)
    (hretry : ∀ id ts, Maintains J (orClose id (retryPendingAppEvent rt id ts)))
    (htimer : ∀ id inWindow, Maintains J (orClose id (serviceTimer rt id inWindow p.timersNs)))
    (hclose : ∀ id, Maintains J (closeIfRequested rt id))
    (hready : J (forEach (fun id => processConnection rt id p.nowNs) p.ready
      { w with wallNs := p.wallNs }).2) : J (pollWorkerOnce rt p w).2 := by
  have hretries : ∀ ts, Maintains J (retryPendingAppEvents rt ts) := by
    intro ts w h
    unfold retryPendingAppEvents
    split
    · exact forEach_maintains (fun id => hretry id ts) _ w h
    · exact h
  have hdue : ∀ due, Maintains J (processDueTimer rt p.timersNs due) := by
    intro due w h
    unfold processDueTimer
    split
    · exact Maintains.bind (htimer due.1 due.2) (fun _ => hclose due.1) w h
    · exact h
  have hpolled := hflow (pollApplicationSessions_keeps_flow rt)
  have hdrained := fun ts => hflow (drainWorkerCommands_keeps_flow rt ts)
  have hserved : J (serveReady rt p w).2 := by
    unfold serveReady
    rw [bind_of_ok (modify_apply _ w)]
    exact Maintains.bind_at hready fun _ => .bind (hretries p.nowNs) fun _ => hpolled
  have htimers : Maintains J (serveTimers rt p) :=
    .bind (forEach_maintains hdue p.due) fun _ => .bind (hretries p.timersNs) fun _ => hpolled
  exact Maintains.bind_at hserved fun _ => .bind (hdrained _) fun _ => .bind htimers fun _ =>
    hdrained _

theorem workerStep_poll_cases (p : Poll) (l : WorkerLoop σ) :
    (workerStep rt (.poll p) l).worker = l.worker ∨ l.terminal = none ∧
      (workerStep rt (.poll p) l).worker = (pollWorkerOnce rt p l.worker).2 := by
  cases hterminal : l.terminal with
  | some e => exact .inl (by simp only [workerStep, hterminal])
  | none =>
    refine .inr ⟨rfl, ?_⟩
    simp only [workerStep, hterminal]
    obtain ⟨_ | _, w⟩ := pollWorkerOnce rt p l.worker <;> rfl

end

end NimbleFix
