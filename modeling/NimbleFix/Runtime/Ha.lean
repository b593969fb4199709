import NimbleFix.Runtime.LiveSession

/-!
# The HA controller (`runtime/ha.cpp`)

The clock is read where an argument is zero; `nowNs` is what it gives. The callback on a role change
and the copy of the applied snapshot that the engine keeps are left out.
-/

namespace NimbleFix

inductive HaRole
  | solo
  | primary
  | standby
  deriving DecidableEq, Repr

inductive HaPeerState
  | unknown
  | alive
  | suspect
  | dead
  deriving DecidableEq, Repr

/-- The intervals are in milliseconds. -/
structure HaConfig where
  initialRole : HaRole := .solo
  heartbeatInterval : Int := 1000
  suspectThreshold : Nat := 3
  deadThreshold : Nat := 5
  replicationInterval : Int := 500
  autoFailover : Bool := false
  deriving DecidableEq, Repr

structure HaController where
  config : HaConfig := {}
  role : HaRole := .solo
  peerState : HaPeerState := .unknown
  generation : Nat := 0
  lastPeerHeartbeatNs : Nat := 0
  running : Bool := false
  configured : Bool := false
  lastAppliedSnapshot : Option HaStateSnapshot := none
  lastAppliedGeneration : Nat := 0
  deriving DecidableEq, Repr

namespace HaController

def changeRole (expected desired : HaRole) (c : HaController) : Except Status HaController :=
  if c.role ≠ expected then
    .error (.InvalidArgument "HA role transition is not valid from the current role")
  else .ok { c with role := desired, generation := wrap64 (c.generation + 1) }

def configure (config : HaConfig) (c : HaController) : Except Status HaController :=
  if c.running then .error (.Busy "cannot configure HA controller while running")
  else if config.heartbeatInterval ≤ 0 then
    .error (.InvalidArgument "HA heartbeat_interval must be positive")
  else if config.replicationInterval ≤ 0 then
    .error (.InvalidArgument "HA replication_interval must be positive")
  else if config.suspectThreshold = 0 then
    .error (.InvalidArgument "HA suspect_threshold must be positive")
  else if config.deadThreshold < config.suspectThreshold then
    .error (.InvalidArgument
      "HA dead_threshold must be greater than or equal to suspect_threshold")
  else
    .ok { c with
      config
      role := config.initialRole
      peerState := .unknown
      generation := 0
      lastPeerHeartbeatNs := 0
      configured := true }

def start (c : HaController) : Except Status HaController :=
  if c.configured then .ok { c with running := true }
  else .error (.InvalidArgument "HA controller must be configured before Start")

def stop (c : HaController) : HaController := { c with running := false }

def promoteToPrimary : HaController → Except Status HaController := changeRole .standby .primary

def demoteToStandby : HaController → Except Status HaController := changeRole .primary .standby

/-- The time a call means by its argument. -/
def resolveTime (timestampNs nowNs : Nat) : Nat := if timestampNs = 0 then nowNs else timestampNs

def recordPeerHeartbeat (timestampNs nowNs : Nat) (c : HaController) : HaController :=
  { c with lastPeerHeartbeatNs := resolveTime timestampNs nowNs, peerState := .alive }

/-- `booted` says whether the engine has a configuration. -/
def applySnapshot (booted : Bool) (snapshot : HaStateSnapshot) (c : HaController) :
    Except Status HaController :=
  if !booted then .error (.InvalidArgument "engine must be booted before applying HA snapshot")
  else .ok { c with
    lastAppliedSnapshot := some snapshot
    lastAppliedGeneration := snapshot.generation }

/-- The interval cast to nanoseconds, in 64 bits. -/
def heartbeatNs (config : HaConfig) : Nat := wrap64 (config.heartbeatInterval.toNat * 1000000)

def checkHealth (currentTimeNs nowNs : Nat) (c : HaController) : HaController :=
  if !c.running then c
  else if c.lastPeerHeartbeatNs = 0 then c
  else
    let now := resolveTime currentTimeNs nowNs
    if now ≤ c.lastPeerHeartbeatNs then { c with peerState := .alive }
    else if heartbeatNs c.config = 0 then c
    else
      let missed := (now - c.lastPeerHeartbeatNs) / heartbeatNs c.config
      if c.config.deadThreshold ≤ missed then
        let c := { c with peerState := .dead }
        if c.config.autoFailover ∧ c.role = .standby then
          match c.promoteToPrimary with
          | .ok c => c
          | .error _ => c
        else c
      else if c.config.suspectThreshold ≤ missed then { c with peerState := .suspect }
      else { c with peerState := .alive }

end HaController

/-! ## Deliveries -/

/-- What reaches a controller. -/
inductive HaStep
  | heartbeat (timestampNs nowNs : Nat)
  | checkHealth (currentTimeNs nowNs : Nat)
  | promote
  | demote
  | applySnapshot (booted : Bool) (snapshot : HaStateSnapshot)
  | start
  | stop
  deriving DecidableEq, Repr

/-- A controller and the timestamps of all heartbeats it was given. -/
structure HaRun where
  controller : HaController
  heartbeats : List Nat := []
  deriving DecidableEq, Repr

/-- A call that fails changes nothing. -/
def HaRun.attempt (s : HaRun) (call : HaController → Except Status HaController) : HaRun :=
  match call s.controller with
  | .ok controller => { s with controller }
  | .error _ => s

def HaStep.run : HaStep → HaRun → HaRun
  | .heartbeat timestampNs nowNs, s =>
    { controller := s.controller.recordPeerHeartbeat timestampNs nowNs
      heartbeats := HaController.resolveTime timestampNs nowNs :: s.heartbeats }
  | .checkHealth currentTimeNs nowNs, s =>
    { s with controller := s.controller.checkHealth currentTimeNs nowNs }
  | .promote, s => s.attempt HaController.promoteToPrimary
  | .demote, s => s.attempt HaController.demoteToStandby
  | .applySnapshot booted snapshot, s => s.attempt (HaController.applySnapshot booted snapshot)
  | .start, s => s.attempt HaController.start
  | .stop, s => { s with controller := s.controller.stop }

end NimbleFix
