import NimbleFix.Codec.Peek
import NimbleFix.Runtime.LiveSession

/-!
# A worker of the live runtimes (`runtime/live_acceptor.cpp`, `runtime/live_initiator.cpp`)

A worker owns connections and a queue of outbound commands. `pollWorkerOnce` is one round of its
loop: read the connections that are ready, offer postponed messages to the application again, drain
the commands and serve the timers. What the worker does not decide is in `LiveRuntime`: what the
application answers, whether a write succeeds, and which session a Logon belongs to.

Frames stand for the transport's read buffer: an `inbox` holds the complete frames that have been
received. Routing between workers, metrics and tracing are left out. The fields from `arrived` on
are history variables, as are those of the worker that say so.
-/

namespace NimbleFix

inductive AppDispatchMode
  | inline
  | queueDecoupled
  deriving DecidableEq, Repr

structure ActiveSession (σ : Type) where
  env : ProtocolEnv
  dispatchMode : AppDispatchMode
  protocol : AdminProtocol σ

def ActiveSession.sessionId {σ : Type} (s : ActiveSession σ) : Nat := s.env.config.session.sessionId

/-- A frame that was given to `OnInbound`: the session it was given to, as it was then, and the
readings of the two clocks. -/
structure HandedFrame (σ : Type) where
  frame : Bytes
  decoded : DecodedMessageView
  session : ActiveSession σ
  timestampNs : Nat
  wallNs : Nat

structure ConnectionState (σ : Type) where
  connectionId : Nat
  session : Option (ActiveSession σ) := none
  inbox : List Bytes := []
  pendingAppEvent : Option DecodedMessageView := none
  stashedAppFrame : Bytes := []
  closeRequested : Bool := false
  /-- The frames that have arrived. -/
  arrived : List Bytes := []
  /-- The frames that were given to the session protocol. -/
  handed : List (HandedFrame σ) := []
  /-- The application messages of the events. -/
  produced : List DecodedMessageView := []
  /-- The application messages the application has taken. -/
  accepted : List DecodedMessageView := []
  /-- The frames that were written. -/
  sent : List EncodedFrame := []

inductive OutboundCommand
  | beginLogout (sessionId : Nat) (text : Bytes)
  | sendApplication (sessionId : Nat) (m : MessageData) (envelope : SessionSendEnvelope)
  | sendEncodedApplication (sessionId : Nat) (m : EncodedApplicationMessage)
      (envelope : SessionSendEnvelope)

def OutboundCommand.sessionId : OutboundCommand → Nat
  | .beginLogout sessionId _ => sessionId
  | .sendApplication sessionId _ _ => sessionId
  | .sendEncodedApplication sessionId _ _ => sessionId

structure Worker (σ : Type) where
  connections : List (ConnectionState σ) := []
  commands : List OutboundCommand := []
  callbacks : Nat := 0
  writes : Nat := 0
  binds : Nat := 0
  /-- History variable: the system clock at the current round. -/
  wallNs : Nat := 0
  /-- History variable: the frames given to a session protocol, on any connection. -/
  log : List (HandedFrame σ) := []

/-- The answer of a callback, with the commands the application has queued in it. -/
structure AppAnswer where
  status : Except Status Unit
  commands : List OutboundCommand := []

/-- What `ResolveInboundSession` and `MakeStore` give for a Logon. -/
structure Counterparty (σ : Type) where
  env : ProtocolEnv
  dispatchMode : AppDispatchMode
  store : Option σ

structure LiveRuntime (σ : Type) where
  isAcceptor : Bool
  callback : Nat → AppAnswer
  write : Nat → Except Status Unit
  resolve : Nat → SessionHeaderView → Except Status (Counterparty σ)
  applied : Option HaStateSnapshot := none

namespace Worker

variable {σ : Type}

def find (w : Worker σ) (id : Nat) : Option (ConnectionState σ) :=
  w.connections.find? fun c => c.connectionId == id

def findSession (w : Worker σ) (sessionId : Nat) : Option (ConnectionState σ) :=
  w.connections.find? fun c => (c.session.map ActiveSession.sessionId) == some sessionId

def modify (w : Worker σ) (id : Nat) (f : ConnectionState σ → ConnectionState σ) : Worker σ :=
  { w with connections := w.connections.map fun c => if c.connectionId = id then f c else c }

end Worker

/-! ## Changes of a connection -/

namespace ConnectionState

variable {σ : Type} (c : ConnectionState σ)

def setProtocol (p : AdminProtocol σ) : ConnectionState σ :=
  { c with session := c.session.map fun s => { s with protocol := p } }

def bind (session : ActiveSession σ) : ConnectionState σ := { c with session := some session }

def unbind : ConnectionState σ := { c with session := none }

def requestClose : ConnectionState σ := { c with closeRequested := true }

def arrive (frames : List Bytes) : ConnectionState σ :=
  { c with inbox := c.inbox ++ frames, arrived := c.arrived ++ frames }

def setInbox (frames : List Bytes) : ConnectionState σ := { c with inbox := frames }

def stash (frame : Bytes) : ConnectionState σ := { c with stashedAppFrame := frame }

def hand (entry : HandedFrame σ) : ConnectionState σ := { c with handed := c.handed ++ [entry] }

def produce (messages : List DecodedMessageView) : ConnectionState σ :=
  { c with produced := c.produced ++ messages }

def accept (message : DecodedMessageView) : ConnectionState σ :=
  { c with accepted := c.accepted ++ [message] }

def setPending (message : Option DecodedMessageView) : ConnectionState σ :=
  { c with pendingAppEvent := message }

def recordSent (frames : List EncodedFrame) : ConnectionState σ :=
  { c with sent := c.sent ++ frames }

end ConnectionState

section

variable {σ : Type}

/-- Change the connection `id`. -/
def onConnection (id : Nat) (f : ConnectionState σ → ConnectionState σ) : Method (Worker σ) Unit :=
  Fallible.modify fun w => w.modify id f

def markConnectionForClose (id : Nat) : Method (Worker σ) Unit :=
  onConnection id fun c => c.requestClose

/-- A failure closes the connection and goes no further. -/
def orClose (id : Nat) (m : Method (Worker σ) Unit) : Method (Worker σ) Unit := fun w =>
  match m w with
  | (.ok (), w) => (.ok (), w)
  | (.error _, w) => markConnectionForClose id w

def noSession : Status := .NotFound "connection has no session"

/-- A call of the session protocol of the connection. -/
def onProtocol {α : Type} (id : Nat) (m : ProtocolEnv → Method (AdminProtocol σ) α) :
    Method (Worker σ) α := fun w =>
  match (w.find id).bind fun c => c.session with
  | none => (.error noSession, w)
  | some s =>
    ((m s.env s.protocol).1, w.modify id fun c => c.setProtocol (m s.env s.protocol).2)

def dispatchesInline (w : Worker σ) (id : Nat) : Bool :=
  ((w.find id).bind fun c => c.session).any fun s => s.dispatchMode == .inline

end

section

variable {σ : Type} [SessionStore σ] (rt : LiveRuntime σ)

/-! ## Writes and commands -/

/-- One write. -/
def writeFrames (id : Nat) (frames : List EncodedFrame) : Method (Worker σ) Unit := fun w =>
  match rt.write w.writes with
  | .error e => (.error e, { w with writes := w.writes + 1 })
  | .ok () =>
    (.ok (), { w with writes := w.writes + 1 }.modify id fun c => c.recordSent frames)

def sendFrame (id : Nat) (frame : EncodedFrame) : Method (Worker σ) Unit :=
  writeFrames rt id [frame]

/-- `SendFrames` and `SendFramesBatch`. -/
def sendEventFrames (id : Nat) (frames : List EncodedFrame) : Method (Worker σ) Unit :=
  if frames = [] then pure () else writeFrames rt id frames

def OutboundCommand.perform (env : ProtocolEnv) (timestampNs : Nat) :
    OutboundCommand → Method (AdminProtocol σ) EncodedFrame
  | .beginLogout _ text => NimbleFix.beginLogout env text timestampNs
  | .sendApplication _ m envelope => NimbleFix.sendApplication env m envelope timestampNs
  | .sendEncodedApplication _ m envelope =>
    NimbleFix.sendEncodedApplication env m envelope ⟨m.headerFragment, m.bodyFragment⟩ timestampNs

/-- The body of the drain loop. A command for a session that is not connected is dropped. -/
def executeCommand (command : OutboundCommand) (timestampNs : Nat) : Method (Worker σ) Unit :=
  fun w =>
    match w.findSession command.sessionId with
    | none => (.ok (), w)
    | some c =>
      if c.closeRequested then (.ok (), w)
      else (do
        let frame ← onProtocol c.connectionId fun env => command.perform env timestampNs
        sendFrame rt c.connectionId frame : Method (Worker σ) Unit) w

/-- The loop over the queue; a command that fails ends it with the rest still queued. -/
def drainLoopCommands (timestampNs : Nat) : List OutboundCommand → Method (Worker σ) Unit
  | [] => pure ()
  | command :: rest => do
    Fallible.modify fun w => { w with commands := rest }
    executeCommand rt command timestampNs
    drainLoopCommands timestampNs rest

def drainWorkerCommands (timestampNs : Nat) : Method (Worker σ) Unit := fun w =>
  drainLoopCommands rt timestampNs w.commands w

/-! ## The application -/

/-- A callback of the application; the commands it queues join the queue. -/
def callback : Method (Worker σ) (Except Status Unit) := fun w =>
  (.ok (rt.callback w.callbacks).status,
    { w with
      callbacks := w.callbacks + 1
      commands := w.commands ++ (rt.callback w.callbacks).commands })

variable (id timestampNs : Nat)

def drainInline : Method (Worker σ) Unit := fun w =>
  if dispatchesInline w id then drainWorkerCommands rt timestampNs w else (.ok (), w)

/-- `DispatchSessionEvent` and `DispatchAdminMessage`. -/
def notify : Method (Worker σ) Unit := do
  let status ← callback rt
  match status with
  | .error e => Fallible.fail e
  | .ok () => drainInline rt id timestampNs

/-- What the application's answer to a message leads to. Only a session with a queue of its own may
be told to come back later. -/
def settleAppAnswer (id : Nat) (message : DecodedMessageView) (timestampNs : Nat)
    (status : Except Status Unit) : Method (Worker σ) Unit := fun w =>
  match status with
  | .ok () => (do
      onConnection id fun c => c.accept message
      drainInline rt id timestampNs : Method (Worker σ) Unit) w
  | .error e =>
    if e.code = .busy ∧ !dispatchesInline w id then
      onConnection id (fun c => c.setPending (some message)) w
    else (.error e, w)

def dispatchAppMessage (id : Nat) (message : DecodedMessageView) (timestampNs : Nat) :
    Method (Worker σ) Unit := do
  onProtocol id fun _ => onSession fun s => (.ok (), s.consumeWarmupMessage.2)
  let status ← callback rt
  settleAppAnswer rt id message timestampNs status

/-- The messages of an event in order, up to the first that is postponed. -/
def dispatchMessages : List DecodedMessageView → Method (Worker σ) Unit
  | [] => pure ()
  | message :: rest => do
    dispatchAppMessage rt id message timestampNs
    let w ← Fallible.get
    if (w.find id).any fun c => c.pendingAppEvent.isSome then pure ()
    else dispatchMessages rest

def handleProtocolEvent (id : Nat) (event : ProtocolEvent) (timestampNs : Nat) :
    Method (Worker σ) Unit := do
  sendEventFrames rt id event.outboundFrames
  dispatchMessages rt id timestampNs event.applicationMessages
  if event.disconnect then markConnectionForClose id else pure ()

/-! ## Inbound frames -/

/-- Undo the binding when a step of it fails. -/
def orUnbind (id : Nat) (m : Method (Worker σ) Unit) : Method (Worker σ) Unit := fun w =>
  match m w with
  | (.ok (), w) => (.ok (), w)
  | (.error e, w) => (.error e, w.modify id fun c => c.unbind)

/-- Start the session of a counterparty on the connection. -/
def bindSession (id : Nat) (counterparty : Counterparty σ) (timestampNs : Nat) :
    Method (Worker σ) Unit := fun w =>
  if (w.findSession counterparty.env.config.session.sessionId).isSome then
    (.error ⟨.alreadyExists, "session already has an active transport connection"⟩, w)
  else
    match openSession counterparty.env rt.applied counterparty.store timestampNs with
    | (.error e, _) => (.error e, w)
    | (.ok event, protocol) => (do
        onConnection id fun c => c.bind ⟨counterparty.env, counterparty.dispatchMode, protocol⟩
        orUnbind id (do
          sendEventFrames rt id event.outboundFrames
          notify rt id timestampNs) : Method (Worker σ) Unit) w

def bindConnectionFromLogon (id : Nat) (header : SessionHeaderView) (timestampNs : Nat) :
    Method (Worker σ) Unit := fun w =>
  if header.msgType ≠ MsgType.logon then
    (.error (.InvalidArgument "acceptor requires Logon as the first inbound frame"), w)
  else
    let w' := { w with binds := w.binds + 1 }
    match rt.resolve w.binds header with
    | .error e => (.error e, w')
    | .ok counterparty => bindSession rt id counterparty timestampNs w'

def ensureBound (id : Nat) (header : SessionHeaderView) (timestampNs : Nat) :
    Method (Worker σ) Unit := fun w =>
  if ((w.find id).bind fun c => c.session).isSome then (.ok (), w)
  else bindConnectionFromLogon rt id header timestampNs w

def recordHanded (id : Nat) (entry : HandedFrame σ) : Method (Worker σ) Unit := do
  onConnection id fun c => c.hand entry
  Fallible.modify fun w => { w with log := w.log ++ [entry] }

/-- The call of `OnInbound`, with what it leaves in the history. -/
def handToProtocol (id : Nat) (frame : Bytes) (decoded : DecodedMessageView) (timestampNs : Nat) :
    Method (Worker σ) ProtocolEvent := fun w =>
  match (w.find id).bind fun c => c.session with
  | none => (.error noSession, w)
  | some s => (do
      recordHanded id ⟨frame, decoded, s, timestampNs, w.wallNs⟩
      let event ← onProtocol id fun env => onInboundDecoded env decoded timestampNs
      onConnection id fun c => c.produce event.applicationMessages
      pure event : Method (Worker σ) ProtocolEvent) w

/-- `DecodeInboundFrame` of the connection's session. -/
def decodeFor (id : Nat) (frame : Bytes) : Method (Worker σ) DecodedMessageView := fun w =>
  match (w.find id).bind fun c => c.session with
  | none => (.error noSession, w)
  | some s => (decodeInbound s.env frame, w)

/-- `DecodeInboundFrame` and `OnInbound`. -/
def processByProtocol (id : Nat) (frame : Bytes) (timestampNs : Nat) :
    Method (Worker σ) ProtocolEvent := do
  let decoded ← decodeFor id frame
  handToProtocol id frame decoded timestampNs

def notifyIf (condition : Bool) (id timestampNs : Nat) : Method (Worker σ) Unit :=
  if condition then notify rt id timestampNs else pure ()

/-- `HandleInboundFrame` up to the event: bind, decode, the protocol and the notifications. -/
def receiveFrame (id : Nat) (frame : Bytes) (header : SessionHeaderView) (timestampNs : Nat) :
    Method (Worker σ) ProtocolEvent := do
  ensureBound rt id header timestampNs
  let event ← processByProtocol id frame timestampNs
  notifyIf rt (isAdminMessage header.msgType) id timestampNs
  notifyIf rt event.sessionActive id timestampNs
  pure event

def handleInboundFrame (id : Nat) (frame : Bytes) (header : SessionHeaderView)
    (timestampNs : Nat) : Method (Worker σ) Unit := do
  let event ← receiveFrame rt id frame header timestampNs
  handleProtocolEvent rt id event timestampNs

/-- The header of a frame; an unbound connection checks the checksum. -/
def peekFor (c : ConnectionState σ) (frame : Bytes) : Except Status SessionHeaderView :=
  peekSessionHeaderView soh
    (c.session.all fun s => s.env.config.validationPolicy.verifyChecksum) frame

/-- Peek and process one frame of the connection `c`, which is `id`. -/
def processFrameBytes (id : Nat) (c : ConnectionState σ) (frame : Bytes) (timestampNs : Nat) :
    Method (Worker σ) Unit := do
  let header ← Fallible.ofExcept (peekFor c frame)
  handleInboundFrame rt id frame header timestampNs

/-! ## Reading a connection -/

/-- Take a frame from the inbox, where it leaves `rest`, and go on with `m`; a failure closes the
connection. -/
def takeFrame (id : Nat) (rest : List Bytes) (m : Method (Worker σ) Unit) :
    Method (Worker σ) Unit := do
  onConnection id fun c => c.setInbox rest
  orClose id m

/-- The loop of `ProcessConnection`. Every round takes a frame, so the number of frames is enough
`fuel`. -/
def readLoop : Nat → Method (Worker σ) Unit
  | 0 => pure ()
  | fuel + 1 => fun w =>
    match w.find id with
    | none => (.ok (), w)
    | some c =>
      if c.closeRequested ∨ c.pendingAppEvent.isSome then (.ok (), w)
      else
        match c.inbox with
        | [] => (.ok (), w)
        | frame :: rest => (do
            takeFrame id rest (processFrameBytes rt id c frame timestampNs)
            readLoop fuel : Method (Worker σ) Unit) w

/-- The loop of an acceptor while a message is postponed: administrative frames are processed, the
first application frame is put aside and ends it. -/
def drainAdminFrames : Nat → Method (Worker σ) Unit
  | 0 => pure ()
  | fuel + 1 => fun w =>
    match w.find id with
    | none => (.ok (), w)
    | some c =>
      if c.closeRequested then (.ok (), w)
      else
        match c.inbox with
        | [] => (.ok (), w)
        | frame :: rest =>
          match peekFor c frame with
          | .error e => takeFrame id rest (Fallible.fail e) w
          | .ok header =>
            if isAdminMessage header.msgType then (do
              takeFrame id rest (handleInboundFrame rt id frame header timestampNs)
              drainAdminFrames fuel : Method (Worker σ) Unit) w
            else takeFrame id rest (onConnection id fun c => c.stash frame) w

/-- What the answer to a message that is offered again leads to. -/
def settleRetry (id : Nat) (message : DecodedMessageView) (timestampNs : Nat)
    (status : Except Status Unit) : Method (Worker σ) Unit :=
  match status with
  | .error e => if e.code = .busy then pure () else Fallible.fail e
  | .ok () => do
    onConnection id fun c => c.accept message
    drainInline rt id timestampNs
    onConnection id fun c => c.setPending none

/-- Offer the postponed message to the application again. -/
def retryPendingAppEvent : Method (Worker σ) Unit := fun w =>
  match (w.find id).bind fun c => c.pendingAppEvent with
  | none => (.ok (), w)
  | some message => (do
      let status ← callback rt
      settleRetry rt id message timestampNs status : Method (Worker σ) Unit) w

/-- Take the frame that was put aside and go on with `m`. -/
def takeStashed (id : Nat) (m : Method (Worker σ) Unit) : Method (Worker σ) Unit := do
  onConnection id fun c => c.stash []
  orClose id m

/-- Reprocess the frame that was put aside. -/
def processStashed : Method (Worker σ) Unit := fun w =>
  match w.find id with
  | none => (.ok (), w)
  | some c =>
    if c.stashedAppFrame = [] then (.ok (), w)
    else takeStashed id (processFrameBytes rt id c c.stashedAppFrame timestampNs) w

/-- The frames in the inbox of the connection. -/
def inboxLength (w : Worker σ) (id : Nat) : Nat :=
  match w.find id with
  | some c => c.inbox.length
  | none => 0

def readInbox : Method (Worker σ) Unit := fun w =>
  readLoop rt id timestampNs (inboxLength w id) w

def readConnection : Method (Worker σ) Unit := do
  processStashed rt id timestampNs
  readInbox rt id timestampNs

/-- While a message stays postponed an acceptor reads administrative frames only, an initiator
nothing. -/
def readUnlessPending : Method (Worker σ) Unit := fun w =>
  if (w.find id).any fun c => c.pendingAppEvent.isSome then
    if rt.isAcceptor then drainAdminFrames rt id timestampNs (inboxLength w id) w else (.ok (), w)
  else readConnection rt id timestampNs w

/-- The part of `ProcessConnection` before it closes. -/
def processReadable : Method (Worker σ) Unit := do
  orClose id (retryPendingAppEvent rt id timestampNs)
  readUnlessPending rt id timestampNs

/-- The application is told that a bound connection closes; its answer is ignored. -/
def notifyClosed (id : Nat) : Method (Worker σ) Unit := fun w =>
  if ((w.find id).bind fun c => c.session).isSome then
    (.ok (), (callback rt w).2)
  else (.ok (), w)

/-- `CloseConnection`, if it was asked for. -/
def closeIfRequested (id : Nat) : Method (Worker σ) Unit := fun w =>
  if (w.find id).any fun c => c.closeRequested then (do
    notifyClosed rt id
    Fallible.modify fun w =>
      { w with connections := w.connections.filter fun c => c.connectionId ≠ id } :
        Method (Worker σ) Unit) w
  else (.ok (), w)

/-- `ProcessConnection` for a connection that is ready to be read. -/
def processConnection : Method (Worker σ) Unit := do
  processReadable rt id timestampNs
  closeIfRequested rt id

/-! ## A round of the worker -/

def forEach {α : Type} (f : α → Method (Worker σ) Unit) : List α → Method (Worker σ) Unit
  | [] => pure ()
  | x :: xs => do
    f x
    forEach f xs

/-- `RetryPendingAppEvents` of an acceptor. -/
def retryPendingAppEvents (timestampNs : Nat) : Method (Worker σ) Unit := fun w =>
  if rt.isAcceptor then
    forEach (fun id => orClose id (retryPendingAppEvent rt id timestampNs))
      ((w.connections.filter fun c => !c.closeRequested && c.pendingAppEvent.isSome).map
        fun c => c.connectionId) w
  else (.ok (), w)

/-- `PollApplicationSessions`: the sessions with inline dispatch that are active. -/
def pollApplicationSessions : Method (Worker σ) Unit := fun w =>
  forEach (fun _ => do
      let status ← callback rt
      Fallible.ofExcept status)
    (w.connections.filter fun c => !c.closeRequested && c.session.any fun s =>
      s.dispatchMode == .inline && s.protocol.session.state == .active) w

/-- `ServiceTimer`; `inWindow` says whether the wall clock is in the session window. -/
def serviceTimer (id : Nat) (inWindow : Bool) (timestampNs : Nat) : Method (Worker σ) Unit :=
  fun w =>
    if inWindow then (do
      let event ← onProtocol id fun env => onTimer env timestampNs
      handleProtocolEvent rt id event timestampNs : Method (Worker σ) Unit) w
    else if ((w.find id).bind fun c => c.session).any fun s =>
        s.protocol.session.state == .active || s.protocol.session.state == .resendProcessing then (do
      let frame ← onProtocol id fun env =>
        beginLogout env (ascii "session window closed") timestampNs
      sendFrame rt id frame : Method (Worker σ) Unit) w
    else markConnectionForClose id w

/-- `ProcessDueTimers` for one connection that is due. -/
def processDueTimer (timestampNs : Nat) (due : Nat × Bool) : Method (Worker σ) Unit := fun w =>
  if (w.find due.1).any fun c => c.session.isSome && !c.closeRequested then (do
    orClose due.1 (serviceTimer rt due.1 due.2 timestampNs)
    closeIfRequested rt due.1 : Method (Worker σ) Unit) w
  else (.ok (), w)

/-- The inputs of a round: the clocks, the connections that can be read and those whose timer is
due, each with whether the wall clock is in its session window. -/
structure Poll where
  nowNs : Nat
  timersNs : Nat
  finalNs : Nat
  wallNs : Nat
  ready : List Nat
  due : List (Nat × Bool)

/-- The round up to its first drain. -/
def serveReady (poll : Poll) : Method (Worker σ) Unit := do
  Fallible.modify fun w => { w with wallNs := poll.wallNs }
  forEach (fun id => processConnection rt id poll.nowNs) poll.ready
  retryPendingAppEvents rt poll.nowNs
  pollApplicationSessions rt

/-- The round between its two drains. -/
def serveTimers (poll : Poll) : Method (Worker σ) Unit := do
  forEach (processDueTimer rt poll.timersNs) poll.due
  retryPendingAppEvents rt poll.timersNs
  pollApplicationSessions rt

def pollWorkerOnce (poll : Poll) : Method (Worker σ) Unit := do
  serveReady rt poll
  drainWorkerCommands rt poll.nowNs
  serveTimers rt poll
  drainWorkerCommands rt poll.finalNs

end

/-! ## Runs of a worker -/

/-- What happens to a worker. -/
inductive WorkerInput (σ : Type)
  /-- A new connection joins: of an acceptor unbound, of an initiator with its session. -/
  | adopt (connectionId : Nat) (session : Option (ActiveSession σ))
  | arrive (connectionId : Nat) (frames : List Bytes)
  | enqueue (command : OutboundCommand)
  | poll (p : Poll)

/-- A worker and the status its loop has ended with. -/
structure WorkerLoop (σ : Type) where
  worker : Worker σ
  terminal : Option Status := none

section

variable {σ : Type} [SessionStore σ] (rt : LiveRuntime σ)

/-- One step of the worker's life. The loop ends when a round fails; a connection id is used only
once. -/
def workerStep : WorkerInput σ → WorkerLoop σ → WorkerLoop σ
  | .adopt id session, l =>
    if (l.worker.find id).isSome then l
    else { l with worker := { l.worker with
      connections := l.worker.connections ++ [{ connectionId := id, session }] } }
  | .arrive id frames, l =>
    { l with worker := l.worker.modify id fun c => c.arrive frames }
  | .enqueue command, l =>
    { l with worker := { l.worker with commands := l.worker.commands ++ [command] } }
  | .poll p, l =>
    match l.terminal with
    | some _ => l
    | none =>
      match pollWorkerOnce rt p l.worker with
      | (.ok (), w) => { l with worker := w }
      | (.error e, w) => { worker := w, terminal := some e }

def runWorker (inputs : List (WorkerInput σ)) (l : WorkerLoop σ) : WorkerLoop σ :=
  inputs.foldl (fun l input => workerStep rt input l) l

end

end NimbleFix
