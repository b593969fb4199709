import NimbleFix.Runtime.Worker
import NimbleFix.Session.Sample

/-!
# A sample worker

Connections of an acceptor with the sample sessions, and an application that answers by a table.
-/

namespace NimbleFix.Sample

/-- The sample acceptor with another session id. -/
def acceptorOf (sessionId : Nat) : ProtocolEnv :=
  { acceptor with config := { acceptor.config with
      session := { acceptor.config.session with sessionId } } }

/-- A live session of the acceptor that has performed the commands. -/
def live (sessionId : Nat) (dispatchMode : AppDispatchMode) (commands : List Command) :
    ActiveSession MemorySessionStore :=
  ⟨acceptorOf sessionId, dispatchMode, after (acceptorOf sessionId) commands⟩

def logOn : List Command := [.connect 1, .inbound (logonFrame 1) 2]

def busy : AppAnswer := { status := .error (.Busy "application queue is full") }

/-- An acceptor whose application answers `Busy` to the callbacks of the list, and whose writes
succeed. -/
def runtime (busyAt : List Nat) : LiveRuntime MemorySessionStore where
  isAcceptor := true
  callback := fun n => if busyAt.contains n then busy else { status := .ok () }
  write := fun _ => .ok ()
  resolve := fun _ _ => .error (.NotFound "no session")

/-- A round at `now` in which the connections of the list can be read. -/
def round (now : Nat) (ready : List Nat) : Poll where
  nowNs := now
  timersNs := now
  finalNs := now
  wallNs := now
  ready := ready
  due := []

end NimbleFix.Sample
