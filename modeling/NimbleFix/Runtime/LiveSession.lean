import NimbleFix.Session.Operations

/-!
# Sessions of the live runtimes (`runtime/ha.cpp`, `MakeActiveSession`)

A live session is an `AdminProtocol` that is made when a transport is bound to it and that starts
with `openSession`: the counters come from the store, then from the last high-availability snapshot
the engine has applied, and the transport is reported as connected. An initiator that reconnects
goes on with the object it has.
-/

namespace NimbleFix

structure SessionSequenceState where
  sessionId : Nat
  nextInboundSeq : Nat
  nextOutboundSeq : Nat
  lastActivityNs : Nat
  deriving DecidableEq, Repr

structure HaStateSnapshot where
  sessions : List SessionSequenceState
  snapshotTimestampNs : Nat := 0
  generation : Nat := 0
  deriving DecidableEq, Repr

/-- `HaController::TakeSnapshot`: the live sessions, then `(1, 1)` for every other configured
one. -/
def takeSnapshot (live : List SessionSnapshot) (configured : List Nat) (nowNs generation : Nat) :
    HaStateSnapshot :=
  let states := live.map fun s : SessionSnapshot =>
    ({ sessionId := s.sessionId
       nextInboundSeq := s.nextInSeq
       nextOutboundSeq := s.nextOutSeq
       lastActivityNs := max s.lastInboundNs s.lastOutboundNs } : SessionSequenceState)
  let addMissing := fun (states : List SessionSequenceState) (id : Nat) =>
    if states.any fun s => s.sessionId == id then states
    else states ++ [⟨id, 1, 1, 0⟩]
  { sessions := configured.foldl addMissing states
    snapshotTimestampNs := nowNs
    generation }

def findAppliedSequenceState (applied : Option HaStateSnapshot) (sessionId : Nat) :
    Option SessionSequenceState :=
  applied.bind fun snapshot => snapshot.sessions.find? fun s => s.sessionId == sessionId

section

variable (env : ProtocolEnv) {σ : Type} [SessionStore σ]

def restoreAppliedSequenceState (applied : Option HaStateSnapshot) :
    Method (AdminProtocol σ) Unit :=
  match findAppliedSequenceState applied env.config.session.sessionId with
  | none => pure ()
  | some s => onSession (SessionCore.restoreSequenceState s.nextInboundSeq s.nextOutboundSeq)

/-- The common start of `BindConnectionFromLogon` and `OpenSession`: a new object over the store,
the applied snapshot, the transport. -/
def openSession (applied : Option HaStateSnapshot) (store : Option σ) (timestampNs : Nat) :
    Except Status ProtocolEvent × AdminProtocol σ :=
  (do
    restoreAppliedSequenceState env applied
    onTransportConnected env timestampNs : Method (AdminProtocol σ) ProtocolEvent)
    (AdminProtocol.create env store)

end

end NimbleFix
