import NimbleFix.Base.Status
import NimbleFix.Base.Bytes

/-!
# The persistence interface (`store/session_store.h`)

`SessionStore σ` is the abstract class the session protocol writes to: `σ` is the state of a
concrete store and every operation is a `Method` on it. The combined saves have the default
bodies of the source. Loads are methods too, since a store may flush pending writes on a load.
-/

namespace NimbleFix

/-- A persisted frame. `bodyStartOffset` is the offset of the application body in `payload`,
`0` meaning unknown. -/
structure MessageRecord where
  sessionId : Nat
  seqNum : Nat
  timestampNs : Nat
  flags : Nat
  payload : Bytes
  bodyStartOffset : Nat
  deriving DecidableEq, Repr

namespace MessageRecord

def adminFlag : Nat := 1
def possDupFlag : Nat := 2
def gapFillFlag : Nat := 4

def isAdmin (r : MessageRecord) : Bool := r.flags &&& adminFlag ≠ 0

end MessageRecord

structure SessionRecoveryState where
  sessionId : Nat
  nextInSeq : Nat
  nextOutSeq : Nat
  lastInboundNs : Nat
  lastOutboundNs : Nat
  active : Bool
  deriving DecidableEq, Repr

class SessionStore (σ : Type) where
  refresh : Method σ Unit := pure ()
  resetSession (sessionId : Nat) : Method σ Unit
  saveOutboundView (record : MessageRecord) : Method σ Unit
  saveInboundView (record : MessageRecord) : Method σ Unit
  saveRecoveryState (state : SessionRecoveryState) : Method σ Unit
  saveInboundViewAndRecoveryState (record : MessageRecord) (state : SessionRecoveryState) :
      Method σ Unit := do
    saveInboundView record
    saveRecoveryState state
  saveOutboundViewAndRecoveryState (record : MessageRecord) (state : SessionRecoveryState) :
      Method σ Unit := do
    saveOutboundView record
    saveRecoveryState state
  loadOutboundRange (sessionId beginSeq endSeq : Nat) : Method σ (List MessageRecord)
  loadRecoveryState (sessionId : Nat) : Method σ SessionRecoveryState

end NimbleFix
