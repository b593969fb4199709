import NimbleFix.Proof.Activation
import NimbleFix.Proof.WorkerFlow

/-!
# Frames and messages under backpressure

While a session with a queue of its own answers `Busy`, its connection keeps one message postponed
and one frame put aside. `Kept` is what a connection should keep of its traffic: every frame that
arrived was handed to the protocol, is put aside or waits, in this order, and every message the
events brought was taken by the application or is the postponed one.
-/

namespace NimbleFix

open Fallible

section

variable {σ : Type}

/-! ## What a connection should keep -/

namespace ConnectionState

variable (c : ConnectionState σ)

def handedFrames : List Bytes := c.handed.map HandedFrame.frame

/-- The frame put aside, if there is one. -/
def stashedFrames : List Bytes := if c.stashedAppFrame = [] then [] else [c.stashedAppFrame]

/-- The frames that were not handed on yet. -/
def waiting : List Bytes := c.stashedFrames ++ c.inbox

/-- Every frame that arrived was handed on, in the order of arrival, or is among `left`. -/
def FramesInOrder (left : List Bytes) : Prop := c.handedFrames ++ left = c.arrived

/-- Every message was taken by the application once, or is postponed. -/
def MessagesOnce : Prop := (c.accepted ++ c.pendingAppEvent.toList).Perm c.produced

/-- The traffic of a connection that is not closed is complete. -/
def Kept : Prop :=
  c.closeRequested = false → c.FramesInOrder c.waiting ∧ c.MessagesOnce

variable {c : ConnectionState σ}

theorem waiting_of_unstashed (h : c.stashedAppFrame = []) : c.waiting = c.inbox := by
  rw [waiting, stashedFrames, if_pos h, List.nil_append]

theorem waiting_of_stashed (h : c.stashedAppFrame ≠ []) :
    c.waiting = c.stashedAppFrame :: c.inbox := by
  rw [waiting, stashedFrames, if_neg h, List.singleton_append]

theorem kept_of_closing (h : c.closeRequested) : c.Kept := by
  intro hopen
  rw [h] at hopen
  cases hopen

end ConnectionState

open ConnectionState

/-! ## The connection of a frame that was processed -/

theorem inbound_of_keeps {α : Type} {m : Method (Worker σ) α} {w w' : Worker σ}
    {r : Except Status α} (h : Preserves Worker.flow m) (hm : m w = (r, w')) :
    w'.inbound = w.inbound := by
  have hw := h w
  rw [hm] at hw
  exact congrArg Prod.fst hw

theorem inbound_eq {w : Worker σ} {id : Nat} {c c₀ : ConnectionState σ} (hfind : w.find id = some c₀)
    (hc : w.inbound id = some c) : c₀.inbound = c :=
  Option.some.inj ((inbound_of_find hfind).symm.trans hc)

theorem inbound_onConnection {w : Worker σ} {id : Nat} {c : ConnectionState σ}
    (hc : w.inbound id = some c) (f : ConnectionState σ → ConnectionState σ)
    (hf : ∀ c, (f c).connectionId = c.connectionId ∧ (f c).inbound = f c.inbound) :
    (w.modify id f).inbound id = some (f c) := by
  rw [inbound_modify w id id (fun c => (hf c).1) fun c => (hf c).2, hc]
  simp

def AppAnswer.isBusy (a : AppAnswer) : Bool :=
  match a.status with
  | .error e => e.code == .busy
  | .ok () => false

variable {id ts fuel : Nat} {answer : AppAnswer} {w w' : Worker σ} {c c' : ConnectionState σ}
  {messages : List DecodedMessageView} {event : ProtocolEvent} {frame : Bytes}

/-- The message was taken, or it was postponed because of the answer. -/
def Offered (answer : AppAnswer) (message : DecodedMessageView) (c c' : ConnectionState σ) : Prop :=
  c' = c.accept message ∨ (answer.isBusy ∧ c' = c.setPending (some message))

theorem onProtocol_callbacks {α : Type} (id : Nat) (m : ProtocolEnv → Method (AdminProtocol σ) α) :
    Preserves Worker.callbacks (onProtocol id m) := by
  intro w
  unfold onProtocol
  split <;> rfl

/-- What a successful dispatch of at most one message leads to. -/
def Dispatched (answer : AppAnswer) (messages : List DecodedMessageView)
    (c c' : ConnectionState σ) : Prop :=
  match messages with
  | [] => c' = c
  | message :: _ => Offered answer message c c'

theorem sendEventFrames_callbacks (rt : LiveRuntime σ) (id : Nat)
    (frames : List EncodedFrame) :
    Preserves Worker.callbacks (sendEventFrames rt id frames) := by
  refine .ite (.pure ()) fun w => ?_
  unfold writeFrames
  split <;> rfl

theorem Dispatched.messagesOnce {c₁ : ConnectionState σ} (h : Dispatched answer messages c₁ c')
    (hlen : messages.length ≤ 1) (hc : c.MessagesOnce)
    (hproduced : c₁.produced = c.produced ++ messages) (haccepted : c₁.accepted = c.accepted)
    (hpending : c₁.pendingAppEvent = c.pendingAppEvent)
    (hsafe : c.pendingAppEvent = none ∨ (messages ≠ [] → answer.isBusy = false)) :
    c'.MessagesOnce := by
  unfold MessagesOnce at hc ⊢
  match messages with
  | [] =>
    obtain rfl : c' = c₁ := h
    rwa [hproduced, haccepted, hpending, List.append_nil]
  | [message] =>
    rcases h with rfl | ⟨hbusy, rfl⟩
    · simp only [accept, hproduced, haccepted, hpending]
      refine (List.perm_append_right_iff [message]).2 hc |>.symm.trans ?_ |>.symm
      simp only [List.append_assoc]
      exact List.Perm.append_left _ List.perm_append_comm
    · have hnone : c.pendingAppEvent = none := by
        rcases hsafe with hnone | hsafe
        · exact hnone
        · rw [hsafe (by simp)] at hbusy
          cases hbusy
      rw [hnone] at hc
      simp only [setPending, hproduced, haccepted]
      simpa using (List.perm_append_right_iff [message]).2 hc
  | _ :: _ :: _ => simp at hlen

theorem Dispatched.frames (h : Dispatched answer messages c c') :
    c'.handed = c.handed ∧ c'.arrived = c.arrived ∧ c'.inbox = c.inbox ∧
      c'.stashedAppFrame = c.stashedAppFrame := by
  cases messages with
  | nil =>
    obtain rfl : c' = c := h
    exact ⟨rfl, rfl, rfl, rfl⟩
  | cons message rest =>
    rcases h with rfl | ⟨-, rfl⟩
    · exact ⟨rfl, rfl, rfl, rfl⟩
    · exact ⟨rfl, rfl, rfl, rfl⟩

/-- What holds of the connection after `m`, or once it is to be closed, holds after `orClose`. -/
theorem orClose_own {E : Nat → HandedFrame σ → Prop} {m : Method (Worker σ) Unit}
    {P : ConnectionState σ → Prop} (hm : Moves (Along id E SameQueues) m)
    (hc : w.inbound id = some c)
    (hok : ∀ w', m w = (.ok (), w') → ∃ c', w'.inbound id = some c' ∧ P c')
    (herror : ∀ c', SameQueues c c' → P c'.requestClose) :
    ∃ c', (orClose id m w).2.inbound id = some c' ∧ P c' := by
  obtain ⟨c', hc', hR⟩ := (hm w).own c hc
  unfold orClose
  cases hout : m w with
  | mk status w' =>
    cases status with
    | ok a => exact hok w' hout
    | error e =>
      rw [hout] at hc'
      exact ⟨c'.requestClose,
        inbound_onConnection hc' (fun c => c.requestClose) (fun _ => ⟨rfl, rfl⟩),
        herror c' hR⟩

theorem takeFrame_own {E : Nat → HandedFrame σ → Prop} (rest : List Bytes)
    {m : Method (Worker σ) Unit} {P : ConnectionState σ → Prop}
    (hm : Moves (Along id E SameQueues) m) (hc : w.inbound id = some c)
    (hok : ∀ w₁ w', w₁.inbound id = some (c.setInbox rest) → m w₁ = (.ok (), w') →
      ∃ c', w'.inbound id = some c' ∧ P c')
    (herror : ∀ c', SameQueues (c.setInbox rest) c' → P c'.requestClose) :
    ∃ c', (takeFrame id rest m w).2.inbound id = some c' ∧ P c' := by
  have hc₁ := inbound_onConnection hc (fun c => c.setInbox rest) fun _ => ⟨rfl, rfl⟩
  exact orClose_own hm hc₁ (fun w' h => hok _ w' hc₁ h) herror

theorem orClose_ok (id : Nat) (m : Method (Worker σ) Unit) (w : Worker σ) :
    orClose id m w = (.ok (), (orClose id m w).2) := by
  unfold orClose
  cases m w with
  | mk status w' => cases status <;> rfl

theorem takeFrame_ok (id : Nat) (rest : List Bytes) (m : Method (Worker σ) Unit) (w : Worker σ) :
    takeFrame id rest m w = (.ok (), (takeFrame id rest m w).2) :=
  orClose_ok id m (w.modify id fun c => c.setInbox rest)

/-- Nothing is put aside and what arrived is complete. -/
def KeptUnstashed (c : ConnectionState σ) : Prop := c.Kept ∧ c.stashedAppFrame = []

theorem Kept.setInbox {rest : List Bytes} (h : c.Kept) (hopen : c.closeRequested = false)
    (hstash : c.stashedAppFrame = []) (hinbox : c.inbox = frame :: rest) :
    (c.setInbox rest).FramesInOrder (frame :: (c.setInbox rest).waiting) ∧
      (c.setInbox rest).MessagesOnce := by
  obtain ⟨hframes, hmessages⟩ := h hopen
  refine ⟨?_, hmessages⟩
  rw [waiting_of_unstashed hstash, hinbox] at hframes
  rw [waiting_of_unstashed (c := c.setInbox rest) hstash]
  exact hframes

theorem keptUnstashed_of_sameQueues (h : SameQueues c c') (hstash : c.stashedAppFrame = []) :
    KeptUnstashed c'.requestClose :=
  ⟨kept_of_closing rfl, h.stashed.trans hstash⟩

/-- A connection whose traffic was complete has it complete afterwards. -/
def StaysKept (c c' : ConnectionState σ) : Prop := c.Kept → c'.Kept

instance : Std.Refl (StaysKept (σ := σ)) where
  refl _ h := h

instance : IsTrans _ (StaysKept (σ := σ)) where
  trans _ _ _ h₁₂ h₂₃ h := h₂₃ (h₁₂ h)

/-- The traffic of every connection is complete. -/
def AllKept (w : Worker σ) : Prop := Everywhere ConnectionState.Kept w

theorem allKept_of_along {α : Type} {m : Method (Worker σ) α}
    (h : Moves (Along id (IsEntry ts) StaysKept) m) : Maintains AllKept m :=
  maintains_of_along h fun _ _ hR hk => hR hk

theorem markConnectionForClose_kept (id ts : Nat) :
    Moves (Along id (IsEntry ts) StaysKept) (markConnectionForClose (σ := σ) id) :=
  Along.onConnection (fun c => c.requestClose) (fun _ => ⟨rfl, rfl⟩)
    fun _ _ => kept_of_closing rfl

theorem adopt_kept {session : Option (ActiveSession σ)} (h : AllKept w) :
    AllKept { w with connections := w.connections ++ [{ connectionId := id, session }] } := by
  intro other c hc
  simp only [Worker.inbound, Worker.find, List.find?_append, Option.map_eq_some_iff,
    Option.or_eq_some_iff] at hc
  obtain ⟨c₀, hfind | ⟨-, hnew⟩, rfl⟩ := hc
  · exact h other _ (inbound_of_find hfind)
  · obtain rfl := List.mem_singleton.1 (List.mem_of_find?_eq_some hnew)
    intro _
    exact ⟨rfl, List.Perm.refl _⟩

theorem arrive_kept {frames : List Bytes} (h : AllKept w) :
    AllKept (w.modify id fun c => c.arrive frames) := by
  refine Everywhere.along h ((Along.onConnection (E := IsEntry 0)
    (R := fun c c' => c' = c.arrive frames) (fun c => c.arrive frames) (fun _ => ⟨rfl, rfl⟩)
    fun _ => rfl) w) ?_
  rintro c _ - hk rfl hopen
  obtain ⟨hframes, hmessages⟩ := hk hopen
  refine ⟨?_, hmessages⟩
  unfold FramesInOrder waiting stashedFrames
    at hframes ⊢
  simp only [arrive, ← hframes, handedFrames, List.append_assoc]

/-! ## Dispatch -/

variable [SessionStore σ] (rt : LiveRuntime σ)

theorem settleAppAnswer_offered {message : DecodedMessageView} (hc : w.inbound id = some c)
    (h : settleAppAnswer rt id message ts answer.status w = (.ok (), w')) :
    ∃ c', w'.inbound id = some c' ∧ Offered answer message c c' := by
  unfold settleAppAnswer at h
  cases hs : answer.status with
  | ok a =>
    rw [hs] at h
    obtain ⟨_, w₁, haccept, hdrain⟩ := bind_ok h
    obtain ⟨-, rfl⟩ := Prod.mk.inj haccept
    refine ⟨c.accept message, ?_, .inl rfl⟩
    rw [inbound_of_keeps (drainInline_keeps_flow rt id ts) hdrain]
    exact inbound_onConnection hc (fun c => c.accept message) fun _ => ⟨rfl, rfl⟩
  | error e =>
    rw [hs] at h
    dsimp only at h
    split at h
    · rename_i hbusy
      obtain ⟨-, rfl⟩ := Prod.mk.inj h
      refine ⟨c.setPending (some message), ?_, .inr ⟨?_, rfl⟩⟩
      · exact inbound_onConnection hc (fun c => c.setPending (some message)) fun _ => ⟨rfl, rfl⟩
      · simp [AppAnswer.isBusy, hs, hbusy.1]
    · cases h

theorem dispatchAppMessage_offered {message : DecodedMessageView} (hc : w.inbound id = some c)
    (h : dispatchAppMessage rt id message ts w = (.ok (), w')) :
    ∃ c', w'.inbound id = some c' ∧ Offered (rt.callback w.callbacks) message c c' := by
  obtain ⟨_, w₁, hwarmup, h⟩ := bind_ok h
  obtain ⟨status, w₂, hcall, h⟩ := bind_ok h
  have hcallbacks : w₁.callbacks = w.callbacks := by
    have := onProtocol_callbacks (σ := σ) id (fun _ => onSession fun s =>
      (.ok (), s.consumeWarmupMessage.2)) w
    rwa [hwarmup] at this
  have hinbound : w₂.inbound = w.inbound := by
    rw [inbound_of_keeps (callback_keeps_flow rt) hcall,
      inbound_of_keeps (onProtocol_keeps_flow id _) hwarmup]
  obtain ⟨hstatus, -⟩ := Prod.mk.inj hcall
  obtain rfl := Except.ok.inj hstatus
  rw [hcallbacks] at h
  exact settleAppAnswer_offered rt (by rw [hinbound, hc]) h

theorem dispatchMessages_dispatched (hlen : messages.length ≤ 1) (hc : w.inbound id = some c)
    (h : dispatchMessages rt id ts messages w = (.ok (), w')) :
    ∃ c', w'.inbound id = some c' ∧ Dispatched (rt.callback w.callbacks) messages c c' := by
  match messages with
  | [] =>
    obtain ⟨-, rfl⟩ := Prod.mk.inj h
    exact ⟨c, hc, rfl⟩
  | [message] =>
    obtain ⟨_, w₁, hdispatch, h⟩ := bind_ok h
    obtain ⟨c', hc', hoffered⟩ := dispatchAppMessage_offered rt hc hdispatch
    refine ⟨c', ?_, hoffered⟩
    obtain ⟨w₂, w₃, hget, h⟩ := bind_ok h
    obtain ⟨-, rfl⟩ := Prod.mk.inj hget
    have hpure : ∀ b : Bool, (if b then pure () else dispatchMessages rt id ts [] :
        Method (Worker σ) Unit) w₁ = (.ok (), w₁) := by
      intro b
      cases b <;> rfl
    rw [hpure] at h
    obtain ⟨-, rfl⟩ := Prod.mk.inj h
    exact hc'
  | _ :: _ :: _ => simp at hlen

theorem handleProtocolEvent_dispatched (hlen : event.applicationMessages.length ≤ 1)
    (hc : w.inbound id = some c) (h : handleProtocolEvent rt id event ts w = (.ok (), w')) :
    ∃ c', w'.inbound id = some (if event.disconnect then c'.requestClose else c') ∧
      Dispatched (rt.callback w.callbacks) event.applicationMessages c c' := by
  obtain ⟨_, w₁, hsend, h⟩ := bind_ok h
  obtain ⟨_, w₂, hdispatch, h⟩ := bind_ok h
  have hcallbacks : w₁.callbacks = w.callbacks := by
    have := sendEventFrames_callbacks rt id event.outboundFrames w
    rwa [hsend] at this
  have hc₁ : w₁.inbound id = some c := by
    rw [inbound_of_keeps (sendEventFrames_keeps_flow rt id _) hsend, hc]
  obtain ⟨c', hc', hdone⟩ := dispatchMessages_dispatched rt hlen hc₁ hdispatch
  rw [hcallbacks] at hdone
  refine ⟨c', ?_, hdone⟩
  by_cases hdisc : event.disconnect
  · rw [if_pos hdisc] at h ⊢
    obtain ⟨-, rfl⟩ := Prod.mk.inj h
    exact inbound_onConnection hc' (fun c => c.requestClose) fun _ => ⟨rfl, rfl⟩
  · rw [if_neg hdisc] at h ⊢
    obtain ⟨-, rfl⟩ := Prod.mk.inj h
    exact hc'

/-! ## A frame -/

theorem InboundEffect.delivered_or {env : ProtocolEnv} {d : DecodedMessageView} {expected : Nat}
    {c c' : InboundCore} {r : Except Status ProtocolEvent}
    (h : InboundEffect env d expected c r c') : delivered r = [] ∨ delivered r = [d] := by
  cases h with
  | quiet _ hr => exact .inl hr
  | consumed _ _ _ hr => exact hr.imp And.left And.left
  | filled _ _ _ _ _ _ hr _ => exact .inl hr
  | reset _ _ _ _ _ hr _ => exact .inl hr
  | gapped _ _ _ _ hr => exact .inl hr
  | deferred _ _ _ hr => exact .inl hr

theorem onInboundDecoded_messages (env : ProtocolEnv) (d : DecodedMessageView) (ts : Nat)
    (p : AdminProtocol σ) (h : (onInboundDecoded env d ts p).1 = .ok event) :
    event.applicationMessages.length ≤ 1 := by
  obtain ⟨c, -, heffect⟩ := onInboundDecoded_effect env d ts p
  rw [h] at heffect
  have hone : event.applicationMessages = [] ∨ event.applicationMessages = [d] :=
    heffect.delivered_or
  rcases hone with hnil | hsingle
  · simp [hnil]
  · simp [hsingle]

theorem receiveFrame_received {header : SessionHeaderView} (hc : w.inbound id = some c)
    (h : receiveFrame rt id frame header ts w = (.ok event, w')) :
    ∃ entry : HandedFrame σ, entry.frame = frame ∧
      w'.inbound id = some ((c.hand entry).produce event.applicationMessages) ∧
      event.applicationMessages.length ≤ 1 := by
  obtain ⟨_, w₁, hbound, h⟩ := bind_ok h
  obtain ⟨event', w₂, hprotocol, h⟩ := bind_ok h
  obtain ⟨_, w₃, hadmin, h⟩ := bind_ok h
  obtain ⟨_, w₄, hactive, h⟩ := bind_ok h
  obtain ⟨hevent, rfl⟩ := Prod.mk.inj h
  obtain rfl := Except.ok.inj hevent
  rw [inbound_of_keeps (notifyIf_keeps_flow rt _ id ts) hactive,
    inbound_of_keeps (notifyIf_keeps_flow rt _ id ts) hadmin]
  have hc₁ : w₁.inbound id = some c := by
    rw [inbound_of_keeps (ensureBound_keeps_flow rt id header ts) hbound, hc]
  rcases processByProtocol_cases id frame ts w₁ with ⟨e, he⟩ | ⟨s, decoded, hs, hd, he⟩
  · rw [he] at hprotocol
    cases hprotocol
  · rw [he] at hprotocol
    unfold handToProtocol at hprotocol
    simp only [hs] at hprotocol
    obtain ⟨_, v₁, hhand, hprotocol⟩ := bind_ok hprotocol
    obtain ⟨event'', v₂, hinbound, hprotocol⟩ := bind_ok hprotocol
    obtain ⟨_, v₃, hproduce, hprotocol⟩ := bind_ok hprotocol
    obtain ⟨hevent, rfl⟩ := Prod.mk.inj hprotocol
    obtain rfl := Except.ok.inj hevent
    obtain ⟨-, rfl⟩ := Prod.mk.inj hhand
    obtain ⟨-, rfl⟩ := Prod.mk.inj hproduce
    refine ⟨⟨frame, decoded, s, ts, w₁.wallNs⟩, rfl, ?_, ?_⟩
    · refine inbound_onConnection ?_ (fun c => c.produce event''.applicationMessages)
        fun _ => ⟨rfl, rfl⟩
      rw [inbound_of_keeps (onProtocol_keeps_flow id _) hinbound]
      exact inbound_onConnection hc₁ (fun c => c.hand ⟨frame, decoded, s, ts, w₁.wallNs⟩)
        fun _ => ⟨rfl, rfl⟩
    · unfold onProtocol at hinbound
      split at hinbound
      · cases hinbound
      · obtain ⟨hev, -⟩ := Prod.mk.inj hinbound
        exact onInboundDecoded_messages _ decoded ts _ hev

/-- The application does not postpone the message this frame brings. -/
def OffersSafely (id : Nat) (frame : Bytes) (header : SessionHeaderView) (ts : Nat)
    (w : Worker σ) : Prop :=
  ∀ event w₁, receiveFrame rt id frame header ts w = (.ok event, w₁) →
    event.applicationMessages ≠ [] → (rt.callback w₁.callbacks).isBusy = false

/-- A frame that is processed joins those that were handed on, and its message those of the
application. -/
theorem handleInboundFrame_kept {header : SessionHeaderView} (hc : w.inbound id = some c)
    (hframes : c.FramesInOrder (frame :: c.waiting)) (hmessages : c.MessagesOnce)
    (hsafe : c.pendingAppEvent = none ∨ OffersSafely rt id frame header ts w)
    (h : handleInboundFrame rt id frame header ts w = (.ok (), w')) :
    ∃ c', w'.inbound id = some c' ∧ c'.Kept ∧ c'.stashedAppFrame = c.stashedAppFrame := by
  obtain ⟨event, w₁, hreceive, hevent⟩ := bind_ok h
  obtain ⟨entry, hentry, hc₁, hlen⟩ := receiveFrame_received rt hc hreceive
  obtain ⟨c₂, hc₂, hdispatched⟩ := handleProtocolEvent_dispatched rt hlen hc₁ hevent
  obtain ⟨hhanded, harrived, hinbox, hstash⟩ := hdispatched.frames
  have hmessages₂ : c₂.MessagesOnce :=
    hdispatched.messagesOnce hlen hmessages rfl rfl rfl
      (hsafe.imp_right fun hsafe hne => hsafe event w₁ hreceive hne)
  have hframes₂ : c₂.FramesInOrder c₂.waiting := by
    unfold FramesInOrder handedFrames waiting
      stashedFrames at hframes ⊢
    rw [hhanded, harrived, hinbox, hstash]
    simp only [produce, hand, ← hframes]
    simp [hentry]
  refine ⟨_, hc₂, ?_, ?_⟩
  · split
    · exact kept_of_closing rfl
    · exact fun _ => ⟨hframes₂, hmessages₂⟩
  · split <;> exact hstash

/-! ## Reading a connection -/

theorem processFrameBytes_kept {c₀ : ConnectionState σ} (hc : w.inbound id = some c)
    (hframes : c.FramesInOrder (frame :: c.waiting)) (hmessages : c.MessagesOnce)
    (hpending : c.pendingAppEvent = none)
    (h : processFrameBytes rt id c₀ frame ts w = (.ok (), w')) :
    ∃ c', w'.inbound id = some c' ∧ c'.Kept ∧ c'.stashedAppFrame = c.stashedAppFrame := by
  obtain ⟨header, w₁, hpeek, h⟩ := bind_ok h
  obtain ⟨-, rfl⟩ := Prod.mk.inj hpeek
  exact handleInboundFrame_kept rt hc hframes hmessages (.inl hpending) h

theorem readLoop_kept (ts fuel : Nat) (hc : w.inbound id = some c) (hk : KeptUnstashed c) :
    ∃ c', (readLoop rt id ts fuel w).2.inbound id = some c' ∧ KeptUnstashed c' := by
  induction fuel generalizing w c with
  | zero => exact ⟨c, hc, hk⟩
  | succ fuel ih =>
    unfold readLoop
    cases hfind : w.find id with
    | none => exact ⟨c, hc, hk⟩
    | some c₀ =>
      obtain rfl := inbound_eq hfind hc
      dsimp only
      split
      · exact ⟨_, hc, hk⟩
      · rename_i hgo
        simp only [not_or, Bool.not_eq_true, Option.isSome_eq_false_iff, Option.isNone_iff_eq_none]
          at hgo
        cases hinbox : c₀.inbox with
        | nil => exact ⟨_, hc, hk⟩
        | cons frame rest =>
          obtain ⟨hframes, hmessages⟩ := Kept.setInbox hk.1 hgo.1 hk.2 hinbox
          obtain ⟨c₁, hc₁, hk₁⟩ := takeFrame_own (P := KeptUnstashed) rest
            (processFrameBytes_along rt c₀ frame ts) hc
            (fun w₁ w' hw₁ h => by
              obtain ⟨c', hc', hkept, hstash⟩ :=
                processFrameBytes_kept rt hw₁ hframes hmessages hgo.2 h
              exact ⟨c', hc', hkept, hstash.trans hk.2⟩)
            fun c' h => keptUnstashed_of_sameQueues h hk.2
          dsimp only
          rw [bind_of_ok (takeFrame_ok id rest _ w)]
          exact ih hc₁ hk₁

/-- Along the loop over administrative frames, none of the frames brings a message that the
application postpones. -/
def DrainsSafely (id ts : Nat) : Nat → Worker σ → Prop
  | 0, _ => True
  | fuel + 1, w =>
    ∀ c frame rest header, w.find id = some c → c.closeRequested = false →
      c.inbox = frame :: rest → peekFor c frame = .ok header → isAdminMessage header.msgType →
      OffersSafely rt id frame header ts (w.modify id fun c => c.setInbox rest) ∧
        DrainsSafely id ts fuel
          (takeFrame id rest (handleInboundFrame rt id frame header ts) w).2

theorem drainAdminFrames_kept (hc : w.inbound id = some c) (hk : KeptUnstashed c)
    (hsafe : DrainsSafely rt id ts fuel w) :
    ∃ c', (drainAdminFrames rt id ts fuel w).2.inbound id = some c' ∧ c'.Kept := by
  induction fuel generalizing w c with
  | zero => exact ⟨c, hc, hk.1⟩
  | succ fuel ih =>
    unfold drainAdminFrames
    cases hfind : w.find id with
    | none => exact ⟨c, hc, hk.1⟩
    | some c₀ =>
      obtain rfl := inbound_eq hfind hc
      dsimp only
      split
      · exact ⟨_, hc, hk.1⟩
      · rename_i hopen
        rw [Bool.not_eq_true] at hopen
        cases hinbox : c₀.inbox with
        | nil => exact ⟨_, hc, hk.1⟩
        | cons frame rest =>
          obtain ⟨hframes, hmessages⟩ := Kept.setInbox hk.1 hopen hk.2 hinbox
          dsimp only
          cases hpeek : peekFor c₀ frame with
          | error e =>
            exact takeFrame_own rest (E := IsEntry ts)
              (Along.of_preserves (.fail e)) hc (fun _ _ _ h => by cases h)
              fun c' _ => kept_of_closing rfl
          | ok header =>
            dsimp only
            split
            · rename_i hadmin
              obtain ⟨hoffer, hrest⟩ := hsafe c₀ frame rest header hfind hopen hinbox hpeek hadmin
              have hc₁ := inbound_onConnection hc (fun c => c.setInbox rest) fun _ => ⟨rfl, rfl⟩
              obtain ⟨c₁, hc₁, hk₁⟩ : ∃ c', (takeFrame id rest
                  (handleInboundFrame rt id frame header ts) w).2.inbound id = some c' ∧
                  KeptUnstashed c' := by
                refine orClose_own (handleInboundFrame_along rt frame header ts) hc₁ ?_
                  fun c' h => keptUnstashed_of_sameQueues h hk.2
                intro w' h
                obtain ⟨c', hc', hkept, hstash⟩ :=
                  handleInboundFrame_kept rt hc₁ hframes hmessages (.inr hoffer) h
                exact ⟨c', hc', hkept, hstash.trans hk.2⟩
              rw [bind_of_ok (takeFrame_ok id rest _ w)]
              exact ih hc₁ hk₁ hrest
            · -- The frame is put aside; it is not empty, or it could not have been read.
              have hc₁ := inbound_onConnection hc (fun c => c.setInbox rest) fun _ => ⟨rfl, rfl⟩
              refine ⟨_, inbound_onConnection hc₁ (fun c => c.stash frame) (fun _ => ⟨rfl, rfl⟩),
                fun _ => ⟨?_, hmessages⟩⟩
              have hne : frame ≠ [] := by
                rintro rfl
                cases hpeek
              rw [waiting_of_unstashed (c := c₀.inbound.setInbox rest) hk.2] at hframes
              rw [waiting_of_stashed (c := (c₀.inbound.setInbox rest).stash frame) hne]
              exact hframes

theorem processStashed_kept (ts : Nat) (hc : w.inbound id = some c) (hk : c.Kept)
    (hpending : c.pendingAppEvent = none) :
    ∃ c', (processStashed rt id ts w).2.inbound id = some c' ∧ KeptUnstashed c' := by
  unfold processStashed
  cases hfind : w.find id with
  | none =>
    rw [Worker.inbound, hfind] at hc
    cases hc
  | some c₀ =>
    obtain rfl := inbound_eq hfind hc
    dsimp only
    split
    · rename_i hstash
      exact ⟨_, hc, hk, hstash⟩
    · rename_i hstash
      have hc₁ := inbound_onConnection hc (fun c => c.stash []) fun _ => ⟨rfl, rfl⟩
      refine orClose_own (processFrameBytes_along rt c₀ c₀.stashedAppFrame ts) hc₁ ?_
        fun c' h => keptUnstashed_of_sameQueues h rfl
      intro w' h
      by_cases hopen : c₀.closeRequested = false
      · obtain ⟨hframes, hmessages⟩ := hk hopen
        obtain ⟨c', hc', hkept, hstash'⟩ := processFrameBytes_kept rt hc₁ (by
          rw [waiting_of_stashed (c := c₀.inbound) hstash] at hframes
          rw [waiting_of_unstashed (c := c₀.inbound.stash []) rfl]
          exact hframes) hmessages hpending h
        exact ⟨c', hc', hkept, hstash'⟩
      · -- A connection that is to be closed stays so.
        obtain ⟨c', hc', hR⟩ :=
          (processFrameBytes_along rt c₀ c₀.stashedAppFrame ts (w.modify id fun c => c.stash [])).own
            _ hc₁
        rw [h] at hc'
        exact ⟨c', hc', kept_of_closing (hR.closing
          (show c₀.closeRequested = true by simpa using hopen)),
          hR.stashed⟩

/-- Nothing can be read: there is no frame, or the next one closes the connection. -/
def NothingReadable (c : ConnectionState σ) : Prop :=
  ∀ frame rest header, c.inbox = frame :: rest → peekFor c frame ≠ .ok header

theorem drainAdminFrames_unreadable (hfind : w.find id = some c) (hk : c.Kept)
    (hnone : NothingReadable c) :
    ∃ c', (drainAdminFrames rt id ts fuel w).2.inbound id = some c' ∧ c'.Kept := by
  have hc := inbound_of_find hfind
  have hk' : c.inbound.Kept := hk
  cases fuel with
  | zero => exact ⟨_, hc, hk'⟩
  | succ fuel =>
    unfold drainAdminFrames
    rw [hfind]
    dsimp only
    split
    · exact ⟨_, hc, hk'⟩
    · cases hinbox : c.inbox with
      | nil => exact ⟨_, hc, hk'⟩
      | cons frame rest =>
        dsimp only
        cases hpeek : peekFor c frame with
        | ok header => exact absurd hpeek (hnone frame rest header hinbox)
        | error e =>
          exact takeFrame_own rest (E := IsEntry ts) (Along.of_preserves (.fail e)) hc
            (fun _ _ _ h => by cases h) fun c' _ => kept_of_closing rfl

/-! ## Offering a postponed message again -/

theorem retryPendingAppEvent_ok (hc : w.inbound id = some c)
    (h : retryPendingAppEvent rt id ts w = (.ok (), w')) :
    w'.inbound id = some c ∨ ∃ message, c.pendingAppEvent = some message ∧
      w'.inbound id = some ((c.accept message).setPending none) := by
  unfold retryPendingAppEvent at h
  split at h
  · obtain ⟨-, rfl⟩ := Prod.mk.inj h
    exact .inl hc
  · rename_i message hpending
    obtain ⟨status, w₁, hcall, h⟩ := bind_ok h
    have hc₁ : w₁.inbound id = some c := by
      rw [inbound_of_keeps (callback_keeps_flow rt) hcall, hc]
    unfold settleRetry at h
    cases status with
    | error e =>
      dsimp only at h
      split at h
      · obtain ⟨-, rfl⟩ := Prod.mk.inj h
        exact .inl hc₁
      · cases h
    | ok a =>
      dsimp only at h
      obtain ⟨_, w₂, haccept, h₂⟩ := bind_ok h
      obtain ⟨_, w₃, hdrain, h₃⟩ := bind_ok h₂
      obtain ⟨-, rfl⟩ := Prod.mk.inj haccept
      obtain ⟨-, rfl⟩ := Prod.mk.inj h₃
      refine .inr ⟨message, ?_, ?_⟩
      · cases hfind : w.find id with
        | none =>
          rw [hfind] at hpending
          cases hpending
        | some c₀ =>
          obtain rfl := inbound_eq hfind hc
          rw [hfind] at hpending
          exact hpending
      · refine inbound_onConnection ?_ (fun c => c.setPending none) fun _ => ⟨rfl, rfl⟩
        rw [inbound_of_keeps (drainInline_keeps_flow rt id ts) hdrain]
        exact inbound_onConnection hc₁ (fun c => c.accept message) fun _ => ⟨rfl, rfl⟩

/-- Taking the postponed message completes the messages as well. -/
theorem retry_kept (id ts : Nat) :
    Moves (Along id (IsEntry ts) StaysKept) (orClose id (retryPendingAppEvent rt id ts)) := by
  intro w
  have hretry : Along id (IsEntry ts) SameQueues w
      (orClose id (retryPendingAppEvent rt id ts) w).2 :=
    orClose_along (retryPendingAppEvent_along rt ts) w
  refine ⟨hretry.wall, hretry.others, hretry.absent, fun c hc => ?_, hretry.log⟩
  refine orClose_own (retryPendingAppEvent_along (E := IsEntry ts) rt ts) hc ?_
    fun c' _ _ => kept_of_closing rfl
  intro w' h
  rcases retryPendingAppEvent_ok rt hc h with hsame | ⟨message, hpending, htaken⟩
  · exact ⟨c, hsame, fun hk => hk⟩
  · refine ⟨_, htaken, fun hk hopen => ?_⟩
    obtain ⟨hframes, hmessages⟩ := hk hopen
    refine ⟨hframes, ?_⟩
    unfold MessagesOnce at hmessages ⊢
    rw [hpending] at hmessages
    simpa [setPending, accept] using hmessages

/-! ## A connection that can be read -/

/-- When a message stays postponed, nothing is put aside yet (or nothing more can be read), and the
administrative frames that are read bring no message that is postponed as well. -/
def ReadsSafely (id ts : Nat) (w : Worker σ) : Prop :=
  let w₁ := (orClose id (retryPendingAppEvent rt id ts) w).2
  ∀ c, w₁.find id = some c → c.closeRequested = false → c.pendingAppEvent.isSome → rt.isAcceptor →
    NothingReadable c ∨
      (c.stashedAppFrame = [] ∧ DrainsSafely rt id ts (inboxLength w₁ id) w₁)

theorem drainAdminFrames_closing (hfind : w.find id = some c) (hclosing : c.closeRequested) :
    drainAdminFrames rt id ts fuel w = (.ok (), w) := by
  cases fuel with
  | zero => rfl
  | succ fuel =>
    unfold drainAdminFrames
    rw [hfind]
    dsimp only
    rw [if_pos hclosing]

theorem readUnlessPending_kept (hfind : w.find id = some c) (hk : c.Kept)
    (hsafe : c.closeRequested = false → c.pendingAppEvent.isSome → rt.isAcceptor →
      NothingReadable c ∨
        (c.stashedAppFrame = [] ∧ DrainsSafely rt id ts (inboxLength w id) w)) :
    ∃ c', (readUnlessPending rt id ts w).2.inbound id = some c' ∧ c'.Kept := by
  have hc := inbound_of_find hfind
  have hk' : c.inbound.Kept := hk
  unfold readUnlessPending
  simp only [hfind, Option.any_some]
  split
  · rename_i hpending
    split
    · rename_i hacceptor
      by_cases hopen : c.closeRequested = false
      · rcases hsafe hopen hpending hacceptor with hnone | ⟨hstash, hdrain⟩
        · exact drainAdminFrames_unreadable rt hfind hk hnone
        · exact drainAdminFrames_kept rt hc ⟨hk', hstash⟩ hdrain
      · rw [drainAdminFrames_closing rt hfind (by simpa using hopen)]
        exact ⟨_, hc, hk'⟩
    · exact ⟨_, hc, hk'⟩
  · rename_i hpending
    have hnone : c.pendingAppEvent = none := by simpa using hpending
    obtain ⟨c₁, hc₁, hk₁⟩ := processStashed_kept rt ts hc hk' hnone
    unfold readConnection
    rw [bind_apply]
    cases hstashed : processStashed rt id ts w with
    | mk status w₁ =>
      rw [hstashed] at hc₁
      cases status with
      | error e => exact ⟨c₁, hc₁, hk₁.1⟩
      | ok a =>
        obtain ⟨c₂, hc₂, hk₂⟩ := readLoop_kept rt ts (inboxLength w₁ id) hc₁ hk₁
        exact ⟨c₂, hc₂, hk₂.1⟩

/-! ## A round -/

theorem processConnection_kept (h : AllKept w) (hsafe : ReadsSafely rt id ts w) :
    AllKept (processConnection rt id ts w).2 := by
  have hretry : AllKept (orClose id (retryPendingAppEvent rt id ts) w).2 :=
    allKept_of_along (retry_kept rt id ts) w h
  refine Maintains.bind_at ?_ (fun _ => closeIfRequested_maintains rt id)
  unfold processReadable
  rw [bind_of_ok (orClose_ok id _ w)]
  generalize hw₁ : (orClose id (retryPendingAppEvent rt id ts) w).2 = w₁ at hretry
  refine Everywhere.along hretry (readUnlessPending_along rt ts w₁) fun c c' hc' hk _ => ?_
  cases hfind : w₁.find id with
  | none =>
    rw [(readUnlessPending_along rt ts w₁).absent (by rw [Worker.inbound, hfind]; rfl)] at hc'
    cases hc'
  | some c₀ =>
    subst hw₁
    have hk₀ : c₀.inbound.Kept := hretry id _ (inbound_of_find hfind)
    obtain ⟨c₂, hc₂, hk₂⟩ := readUnlessPending_kept rt hfind hk₀ (hsafe c₀ hfind)
    obtain rfl : c₂ = c' := Option.some.inj (hc₂.symm.trans hc')
    exact hk₂

theorem handleProtocolEvent_silent_kept (hsilent : event.applicationMessages = []) (id ts : Nat) :
    Moves (Along id (IsEntry ts) StaysKept) (handleProtocolEvent rt id event ts) := by
  unfold handleProtocolEvent
  rw [hsilent]
  exact .bind (Along.of_preserves (sendEventFrames_keeps_flow rt id _)) fun _ =>
    .bind (.pure ()) fun _ => .ite (markConnectionForClose_kept id ts) (.pure ())

theorem serviceTimer_kept (id : Nat) (inWindow : Bool) (ts : Nat) :
    Moves (Along id (IsEntry ts) StaysKept) (serviceTimer rt id inWindow ts) := by
  intro w
  unfold serviceTimer
  split
  · cases hout : onProtocol id (fun env => onTimer env ts) w with
    | mk status w' =>
      have hflow : w'.flow = w.flow := by
        have := onProtocol_keeps_flow id (fun env => onTimer (σ := σ) env ts) w
        rwa [hout] at this
      cases status with
      | error e =>
        rw [bind_of_error hout]
        exact Along.of_flow hflow
      | ok event =>
        have hsilent : event.applicationMessages = [] := by
          unfold onProtocol at hout
          split at hout
          · cases hout
          · rename_i s _
            have := onTimer_silent s.env ts s.protocol
            rw [(Prod.mk.inj hout).1] at this
            exact this
        rw [bind_of_ok hout]
        exact trans_of (Along id (IsEntry ts) StaysKept) (Along.of_flow hflow)
          (handleProtocolEvent_silent_kept rt hsilent id ts w')
  · split
    · exact Moves.bind (Along.of_preserves (onProtocol_keeps_flow id _))
        (fun frame => Along.of_preserves (writeFrames_keeps_flow rt id [frame])) w
    · exact markConnectionForClose_kept id ts w

/-- The connections of a round are each read in a state in which they can be read safely. -/
def PollsSafely (p : Poll) (w : Worker σ) : Prop :=
  StepsOk (fun id w => (processConnection rt id p.nowNs w).2)
    (fun id w => ReadsSafely rt id p.nowNs w) p.ready { w with wallNs := p.wallNs }

theorem processAll_kept (ts : Nat) (ready : List Nat) (h : AllKept w)
    (hsafe : StepsOk (fun id w => (processConnection rt id ts w).2)
      (fun id w => ReadsSafely rt id ts w) ready w) :
    AllKept (forEach (fun id => processConnection rt id ts) ready w).2 := by
  induction ready generalizing w with
  | nil => exact h
  | cons id rest ih =>
    have hfirst := processConnection_kept rt h hsafe.1
    have hrest := ih hfirst hsafe.2
    unfold forEach
    rw [bind_apply]
    cases hout : processConnection rt id ts w with
    | mk status w' =>
      rw [hout] at hfirst hrest
      cases status with
      | error e => exact hfirst
      | ok a => exact hrest

theorem pollWorkerOnce_kept {p : Poll} (h : AllKept w) (hsafe : PollsSafely rt p w) :
    AllKept (pollWorkerOnce rt p w).2 :=
  pollWorkerOnce_invariant rt maintains_of_flow
    (fun id ts => allKept_of_along (retry_kept rt id ts))
    (fun id inWindow => allKept_of_along (orClose_moves (serviceTimer_kept rt id inWindow p.timersNs)
      (markConnectionForClose_kept id p.timersNs)))
    (closeIfRequested_maintains rt) (processAll_kept rt p.nowNs p.ready h hsafe)

/-! ## Runs -/

/-- The condition of a step: a round reads its connections safely. -/
def StepSafe : WorkerInput σ → WorkerLoop σ → Prop
  | .poll p, l => l.terminal = none → PollsSafely rt p l.worker
  | _, _ => True

theorem workerStep_kept (input : WorkerInput σ) {l : WorkerLoop σ} (h : AllKept l.worker)
    (hsafe : StepSafe rt input l) : AllKept (workerStep rt input l).worker := by
  cases input with
  | adopt id session =>
    simp only [workerStep]
    split
    · exact h
    · exact adopt_kept h
  | arrive id frames => exact arrive_kept h
  | enqueue command => exact h
  | poll p =>
    rcases workerStep_poll_cases rt p l with hsame | ⟨hrunning, hpoll⟩
    · rw [hsame]
      exact h
    · rw [hpoll]
      exact pollWorkerOnce_kept rt h (hsafe hrunning)

/-- In every run whose rounds read safely, an open connection has handed on the frames that arrived
in their order, each once, up to the one put aside and those it has not read, and the application
has taken every message of every event once, up to the postponed one. -/
theorem traffic_complete_under_backpressure {w₀ : Worker σ} (hw₀ : w₀.connections = [])
    {l : WorkerLoop σ} (h : Reaches (workerStep rt) (StepSafe rt) { worker := w₀ } l) {id : Nat}
    {c : ConnectionState σ} (hc : l.worker.find id = some c) (hopen : c.closeRequested = false) :
    c.handedFrames ++ (c.stashedFrames ++ c.inbox) = c.arrived ∧
      (c.accepted ++ c.pendingAppEvent.toList).Perm c.produced := by
  have hstart : AllKept w₀ := by
    intro id c hc
    simp [Worker.inbound, Worker.find, hw₀] at hc
  have hkept : AllKept l.worker := h.invariant (I := fun l => AllKept l.worker) hstart
    fun input l h hsafe => workerStep_kept rt input h hsafe
  have hk : c.inbound.Kept := hkept id _ (inbound_of_find hc)
  exact hk hopen

end

/-! ## Sample runs -/

namespace Sample

/-- A session with a queue of its own is adopted as connection `1`; then each list of frames arrives
and is followed by a round in which the connection can be read. -/
def deliveries (arrivals : List (List Bytes)) : List (WorkerInput MemorySessionStore) :=
  .adopt 1 (some (live 1 .queueDecoupled logOn)) ::
    arrivals.flatMap fun frames => [.arrive 1 frames, .poll (round 10 [1])]

def rejectFrame (msgSeqNum : Nat) : Bytes := frame "3" [(45, "1")] msgSeqNum

/-- Nothing is postponed or nothing can be read when the connection is read. -/
def idle (rt : LiveRuntime MemorySessionStore) (id ts : Nat) (w : Worker MemorySessionStore) :
    Bool :=
  ((orClose id (retryPendingAppEvent rt id ts) w).2.find id).all fun c =>
    c.pendingAppEvent.isNone || c.inbox.isEmpty

theorem readsSafely_of_idle {rt : LiveRuntime MemorySessionStore} {id ts : Nat}
    {w : Worker MemorySessionStore} (h : idle rt id ts w) : ReadsSafely rt id ts w := by
  intro c hfind _ hpending _
  simp only [idle, hfind, Option.all_some, Bool.or_eq_true, Option.isNone_iff_eq_none,
    List.isEmpty_iff] at h
  rcases h with hnone | hempty
  · rw [hnone] at hpending
    cases hpending
  · left
    intro frame rest header hinbox
    rw [hempty] at hinbox
    cases hinbox

end Sample

open Sample

/-- An order that is postponed and taken in a later round. -/
theorem traffic_complete_under_backpressure_sample :
    let rt := runtime [0, 1, 2]
    let l := runWorker rt (deliveries [[orderFrame 2], []]) { worker := {} }
    Reaches (workerStep rt) (StepSafe rt) { worker := {} } l ∧
      ∀ c, l.worker.find 1 = some c → c.closeRequested = false →
        c.handedFrames ++ (c.stashedFrames ++ c.inbox) = c.arrived ∧
          (c.accepted ++ c.pendingAppEvent.toList).Perm c.produced := by
  intro rt l
  have hreach : Reaches (workerStep rt) (StepSafe rt) { worker := {} } l := by
    refine Reaches.of_stepsOk (deliveries [[orderFrame 2], []]) .start
      ⟨trivial, trivial, fun _ => ⟨readsSafely_of_idle ?_, trivial⟩, trivial,
        fun _ => ⟨readsSafely_of_idle ?_, trivial⟩, trivial⟩
    · decide +kernel
    · decide +kernel
  exact ⟨hreach, fun c hc hopen => traffic_complete_under_backpressure rt rfl hreach hc hopen⟩

/-- While order `2` stays postponed, order `3` is put aside and order `4` takes its place: order `3`
is never handed on. And a Reject that is postponed takes the place of the postponed order, which the
application never gets. -/
theorem stashed_order_lost :
    ((runWorker (runtime [0, 1, 2, 3, 4, 5, 6, 7, 8])
        (deliveries
          [[orderFrame 2], [orderFrame 3], [orderFrame 4], []])
        { worker := {} }).worker.find 1).map
        (fun c => (c.closeRequested, c.handedFrames, c.arrived, c.waiting)) =
      some (false, [orderFrame 2, orderFrame 4],
        [orderFrame 2, orderFrame 3, orderFrame 4], []) ∧
    ((runWorker (runtime [0, 1, 2, 3, 5])
        (deliveries [[orderFrame 2], [rejectFrame 3], []])
        { worker := {} }).worker.find 1).map
        (fun c => (c.closeRequested, c.produced.map (·.header.msgSeqNum),
          c.accepted.map (·.header.msgSeqNum), c.pendingAppEvent.isSome)) =
      some (false, [2, 3], [3], false) :=
  ⟨by decide +kernel, by decide +kernel⟩

end NimbleFix
