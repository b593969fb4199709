import NimbleFix.Runtime.Sample

/-!
# Commands that are refused

What draining the queue of a worker should do is `executeEach`: every command in order, each on the
connection of its own session. `drainWorkerCommands` does that exactly when no command on the way is
refused by its session or fails to be written.
-/

namespace NimbleFix

open Fallible

section

variable {σ : Type}

/-! ## Connections by their id -/

theorem find_modify (w : Worker σ) (id other : Nat) {f : ConnectionState σ → ConnectionState σ}
    (hf : ∀ c, (f c).connectionId = c.connectionId) :
    (w.modify id f).find other = (w.find other).map fun c => if other = id then f c else c := by
  have hid : ∀ c, (if c.connectionId = id then f c else c).connectionId = c.connectionId := by
    intro c
    split
    · exact hf c
    · rfl
  obtain ⟨connections⟩ := w
  simp only [Worker.modify, Worker.find, List.find?_map, Function.comp_def, hid]
  cases h : connections.find? fun c => c.connectionId == other with
  | none => rfl
  | some c =>
    have hc : c.connectionId = other := by simpa using List.find?_some h
    simp [hc]

theorem find_modify_of_ne (w : Worker σ) {id other : Nat} (hne : other ≠ id)
    {f : ConnectionState σ → ConnectionState σ} (hf : ∀ c, (f c).connectionId = c.connectionId) :
    (w.modify id f).find other = w.find other := by
  rw [find_modify w id other hf]
  simp [hne]

end

section

variable {σ : Type} [SessionStore σ] (rt : LiveRuntime σ)

/-! ## What draining should do -/

/-- Every command in order, whatever becomes of the ones before it. -/
def executeEach (ts : Nat) : List OutboundCommand → Worker σ → Worker σ
  | [], w => w
  | command :: rest, w => executeEach ts rest (executeCommand rt command ts w).2

/-- The command is dropped because its session is not connected, or the session performs it and the
frame is written. -/
def Takes (ts : Nat) (command : OutboundCommand) (w : Worker σ) : Prop :=
  ∀ c, w.findSession command.sessionId = some c → c.closeRequested = false →
    (∃ frame, (onProtocol c.connectionId (fun env => command.perform env ts) w).1 = .ok frame) ∧
      rt.write w.writes = .ok ()

/-- No command of the queue is refused when it is its turn. -/
def NoneRefused (ts : Nat) : List OutboundCommand → Worker σ → Prop
  | [], _ => True
  | command :: rest, w =>
    Takes rt ts command w ∧ NoneRefused ts rest (executeCommand rt command ts w).2

/-! ## One command -/

omit [SessionStore σ] in
theorem onProtocol_writes {α : Type} (id : Nat) (m : ProtocolEnv → Method (AdminProtocol σ) α)
    (w : Worker σ) : (onProtocol id m w).2.writes = w.writes := by
  unfold onProtocol
  split <;> rfl

omit [SessionStore σ] in
theorem writeFrames_ok_iff (id : Nat) (frames : List EncodedFrame) (w : Worker σ) :
    (writeFrames rt id frames w).1 = .ok () ↔ rt.write w.writes = .ok () := by
  unfold writeFrames
  cases h : rt.write w.writes with
  | error e => simp
  | ok a => simp

omit [SessionStore σ] in
theorem writeFrames_find_of_ne {id other : Nat} (frames : List EncodedFrame) (w : Worker σ)
    (hne : other ≠ id) : (writeFrames rt id frames w).2.find other = w.find other := by
  unfold writeFrames
  cases rt.write w.writes with
  | error e => rfl
  | ok a => exact find_modify_of_ne { w with writes := w.writes + 1 } hne fun _ => rfl

theorem executeCommand_ok_iff (command : OutboundCommand) (ts : Nat) (w : Worker σ) :
    (executeCommand rt command ts w).1 = .ok () ↔ Takes rt ts command w := by
  unfold executeCommand Takes
  cases hfind : w.findSession command.sessionId with
  | none => simp
  | some c =>
    by_cases hclose : c.closeRequested
    · simp [hclose]
    · simp only [hclose, Bool.false_eq_true, if_false, Option.some.injEq, forall_eq', true_implies]
      have hwrites := onProtocol_writes c.connectionId (fun env => command.perform env ts) w
      rw [bind_apply]
      generalize onProtocol c.connectionId (fun env => command.perform env ts) w = out at hwrites ⊢
      obtain ⟨_ | frame, w'⟩ := out
      · simp
      · change w'.writes = w.writes at hwrites
        simp only [sendFrame, writeFrames_ok_iff, hwrites, Except.ok.injEq, exists_eq', true_and]

theorem executeCommand_find_of_ne (command : OutboundCommand) (ts : Nat) {w : Worker σ}
    {c : ConnectionState σ} (hc : w.findSession command.sessionId = some c) {id : Nat}
    (hne : id ≠ c.connectionId) : (executeCommand rt command ts w).2.find id = w.find id := by
  have hprotocol : (onProtocol c.connectionId (fun env => command.perform env ts) w).2.find id =
      w.find id := by
    unfold onProtocol
    split
    · rfl
    · exact find_modify_of_ne w hne fun _ => rfl
  unfold executeCommand
  simp only [hc]
  by_cases hclose : c.closeRequested
  · simp [hclose]
  · rw [if_neg hclose, bind_apply]
    generalize onProtocol c.connectionId (fun env => command.perform env ts) w = out at hprotocol ⊢
    obtain ⟨_ | frame, w'⟩ := out
    · exact hprotocol
    · exact (writeFrames_find_of_ne rt [frame] w' hne).trans hprotocol

theorem executeCommand_commands (command : OutboundCommand) (ts : Nat) (w : Worker σ)
    (queue : List OutboundCommand) :
    executeCommand rt command ts { w with commands := queue } =
      ((executeCommand rt command ts w).1,
        { (executeCommand rt command ts w).2 with commands := queue }) := by
  have hprotocol : ∀ id, onProtocol id (fun env => command.perform env ts)
      { w with commands := queue } =
      ((onProtocol id (fun env => command.perform env ts) w).1,
        { (onProtocol id (fun env => command.perform env ts) w).2 with commands := queue }) := by
    intro id
    unfold onProtocol
    have hfind : Worker.find { w with commands := queue } id = w.find id := rfl
    rw [hfind]
    cases (w.find id).bind fun c => c.session with
    | none => rfl
    | some s => rfl
  unfold executeCommand
  have hfind : Worker.findSession { w with commands := queue } command.sessionId =
      w.findSession command.sessionId := rfl
  rw [hfind]
  cases w.findSession command.sessionId with
  | none => rfl
  | some c =>
    by_cases hclose : c.closeRequested
    · simp [hclose]
    · simp only [hclose, Bool.false_eq_true, if_false, bind_apply, hprotocol]
      generalize onProtocol c.connectionId (fun env => command.perform env ts) w = out
      obtain ⟨_ | frame, w'⟩ := out
      · rfl
      · simp only [sendFrame, writeFrames]
        cases rt.write w'.writes with
        | error e => rfl
        | ok a => rfl

/-! ## The queue -/

theorem drainLoopCommands_cons (command : OutboundCommand) (rest : List OutboundCommand) (ts : Nat)
    (w : Worker σ) :
    drainLoopCommands rt ts (command :: rest) w =
      match executeCommand rt command ts w with
      | (.ok (), w') => drainLoopCommands rt ts rest { w' with commands := rest }
      | (.error e, w') => (.error e, { w' with commands := rest }) := by
  simp only [drainLoopCommands, bind_apply, modify_apply, executeCommand_commands]
  generalize executeCommand rt command ts w = out
  obtain ⟨_ | _, w'⟩ := out
  · rfl
  · rfl

theorem noneRefused_commands (ts : Nat) (queue : List OutboundCommand) (w : Worker σ)
    (left : List OutboundCommand) :
    NoneRefused rt ts queue { w with commands := left } ↔ NoneRefused rt ts queue w := by
  induction queue generalizing w with
  | nil => rfl
  | cons command rest ih =>
    simp only [NoneRefused, ← executeCommand_ok_iff, executeCommand_commands, ih]

theorem drainLoopCommands_spec (ts : Nat) (queue : List OutboundCommand) {w : Worker σ}
    (hw : w.commands = queue) :
    (NoneRefused rt ts queue w →
        drainLoopCommands rt ts queue w =
          (.ok (), executeEach rt ts queue { w with commands := [] })) ∧
      (¬ NoneRefused rt ts queue w → ∃ e w', drainLoopCommands rt ts queue w = (.error e, w')) := by
  induction queue generalizing w with
  | nil =>
    refine ⟨fun _ => ?_, fun h => absurd trivial h⟩
    obtain ⟨_, _⟩ := w
    cases hw
    rfl
  | cons command rest ih =>
    rw [drainLoopCommands_cons]
    simp only [NoneRefused, ← executeCommand_ok_iff, executeEach, executeCommand_commands]
    cases hc : executeCommand rt command ts w with
    | mk status w' =>
      cases status with
      | error e => simp
      | ok a =>
        obtain ⟨hok, herror⟩ := ih (w := { w' with commands := rest }) rfl
        rw [noneRefused_commands] at hok herror
        simpa using ⟨hok, herror⟩

/-- The queue is worked off in order, with a refusal confined to its session, exactly when there is
no refusal. -/
theorem drainWorkerCommands_iff (ts : Nat) (w : Worker σ) :
    drainWorkerCommands rt ts w =
        (.ok (), executeEach rt ts w.commands { w with commands := [] }) ↔
      NoneRefused rt ts w.commands w := by
  obtain ⟨hok, herror⟩ := drainLoopCommands_spec rt ts w.commands (w := w) rfl
  refine ⟨fun h => ?_, hok⟩
  by_contra hrefused
  obtain ⟨e, w', hdrain⟩ := herror hrefused
  rw [drainWorkerCommands, hdrain] at h
  cases h

theorem drainWorkerCommands_ok {ts : Nat} {w w' : Worker σ}
    (h : drainWorkerCommands rt ts w = (.ok (), w')) :
    NoneRefused rt ts w.commands w ∧
      w' = executeEach rt ts w.commands { w with commands := [] } := by
  obtain ⟨hok, herror⟩ := drainLoopCommands_spec rt ts w.commands (w := w) rfl
  by_cases hrefused : NoneRefused rt ts w.commands w
  · refine ⟨hrefused, ?_⟩
    rw [drainWorkerCommands, hok hrefused] at h
    cases h
    rfl
  · obtain ⟨e, w'', hdrain⟩ := herror hrefused
    rw [drainWorkerCommands, hdrain] at h
    cases h

/-! ## A round -/

theorem workerStep_poll_running_iff {p : Poll} {l : WorkerLoop σ} (hl : l.terminal = none)
    (w : Worker σ) :
    workerStep rt (.poll p) l = ⟨w, none⟩ ↔ pollWorkerOnce rt p l.worker = (.ok (), w) := by
  obtain ⟨worker, terminal⟩ := l
  change terminal = none at hl
  subst hl
  simp only [workerStep]
  generalize pollWorkerOnce rt p worker = out
  obtain ⟨_ | _, w'⟩ := out
  · simp
  · simp

/-- Wherever the worker drains its queue, every command is executed in order and the drain succeeds
exactly when no command is refused; a command only touches the connection of its session; and a
round executes the commands of its two drains and leaves the worker running exactly when none of
them is refused. -/
theorem refusals_are_confined_iff :
    (∀ (ts : Nat) (w : Worker σ),
      drainWorkerCommands rt ts w =
          (.ok (), executeEach rt ts w.commands { w with commands := [] }) ↔
        NoneRefused rt ts w.commands w) ∧
    (∀ (command : OutboundCommand) (ts : Nat) (w : Worker σ) (c : ConnectionState σ) (id : Nat),
      w.findSession command.sessionId = some c → id ≠ c.connectionId →
        (executeCommand rt command ts w).2.find id = w.find id) ∧
    ∀ (p : Poll) (l : WorkerLoop σ) (w₁ w₂ : Worker σ), l.terminal = none →
      serveReady rt p l.worker = (.ok (), w₁) →
      serveTimers rt p (executeEach rt p.nowNs w₁.commands { w₁ with commands := [] }) =
        (.ok (), w₂) →
      (workerStep rt (.poll p) l =
          ⟨executeEach rt p.finalNs w₂.commands { w₂ with commands := [] }, none⟩ ↔
        NoneRefused rt p.nowNs w₁.commands w₁ ∧ NoneRefused rt p.finalNs w₂.commands w₂) := by
  refine ⟨drainWorkerCommands_iff rt,
    fun command ts w c id hc hne => executeCommand_find_of_ne rt command ts hc hne, ?_⟩
  intro p l w₁ w₂ hl hready htimers
  rw [workerStep_poll_running_iff rt hl, pollWorkerOnce, bind_of_ok hready]
  constructor
  · intro h
    obtain ⟨_, w, hfirst, h⟩ := bind_ok h
    obtain ⟨hnone, rfl⟩ := drainWorkerCommands_ok rt hfirst
    rw [bind_of_ok htimers] at h
    exact ⟨hnone, (drainWorkerCommands_ok rt h).1⟩
  · rintro ⟨hfirst, hsecond⟩
    rw [bind_of_ok ((drainWorkerCommands_iff rt _ _).2 hfirst), bind_of_ok htimers]
    exact (drainWorkerCommands_iff rt _ _).2 hsecond

end

/-! ## A sample queue -/

namespace Sample

def order : MessageData := .mk (ascii "D") [⟨11, .string (ascii "order")⟩] []

/-- Session `1` waits for a resend, session `2` is active; an order is queued for each of the
given sessions. -/
def queued (sessionIds : List Nat) : WorkerLoop MemorySessionStore where
  worker :=
    { connections :=
        [{ connectionId := 1
           session := some (live 1 .queueDecoupled (logOn ++ [.inbound (orderFrame 3) 3])) },
          { connectionId := 2, session := some (live 2 .queueDecoupled logOn) }]
      commands := sessionIds.map fun sessionId => .sendApplication sessionId order {} }

theorem queued_two_taken :
    NoneRefused (runtime []) 10 (queued [2]).worker.commands (queued [2]).worker :=
  ⟨(executeCommand_ok_iff _ _ _ _).1 (by decide +kernel), trivial⟩

end Sample

open Sample

/-- An order for the active session `2` alone is sent and the worker goes on. -/
theorem refusals_are_confined_iff_sample :
    NoneRefused (runtime []) 10 (queued [2]).worker.commands
        (queued [2]).worker ∧
      drainWorkerCommands (runtime []) 10 (queued [2]).worker =
        (.ok (), executeEach (runtime []) 10 (queued [2]).worker.commands
          { (queued [2]).worker with commands := [] }) ∧
      (executeEach (runtime []) 10 (queued [2]).worker.commands
          { (queued [2]).worker with commands := [] }).find 1 =
        (queued [2]).worker.find 1 := by
  obtain ⟨hdrain, hother, _⟩ := refusals_are_confined_iff (runtime [])
  exact ⟨queued_two_taken, (hdrain _ _).2 queued_two_taken,
    hother _ _ _ _ 1 rfl (by decide)⟩

/-- The session in resend processing refuses its order; with it the worker ends, and the order of
the other session stays in the queue. -/
theorem refused_order_ends_worker :
    let l := workerStep (runtime []) (.poll (round 10 [])) (queued [1, 2])
    l.terminal = some inactiveSession ∧
      l.worker.commands.map OutboundCommand.sessionId = [2] ∧
      (l.worker.find 2).map (fun c => c.sent) = some [] ∧
      NoneRefused (runtime []) 10 (queued [2]).worker.commands
        (queued [2]).worker :=
  ⟨by decide +kernel, by decide +kernel, by decide +kernel, queued_two_taken⟩

end NimbleFix
