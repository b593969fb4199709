import NimbleFix.Proof.Traversal
import NimbleFix.Spec.InboundEffect

/-!
# Operations that leave the inbound core alone

Building, numbering and saving frames, and all bookkeeping of times, preserve `inboundCore`, so
the proofs about inbound processing only look at the few operations that do not.
-/

namespace NimbleFix

open Fallible AdminProtocol

section

variable (env : ProtocolEnv) {σ : Type} {α : Type}

/-! ## Parts -/

theorem onStore_core (absent : α) (m : SessionCore → Method σ α) :
    Preserves inboundCore (onStore absent m) := by
  intro p
  unfold onStore
  split <;> rfl

theorem ensureInitialized_core :
    Preserves inboundCore (ensureInitialized (σ := σ)) := by
  intro p
  unfold ensureInitialized
  split <;> rfl

theorem settleTestRequest_core :
    Preserves inboundCore (settleTestRequest (σ := σ)) := fun _ => rfl

theorem recordInbound_core (ts : Nat) :
    Preserves inboundCore (recordInbound (σ := σ) ts) := fun _ => rfl

theorem allocateOutboundSeq_core :
    Preserves inboundCore (onSession (σ := σ) SessionCore.allocateOutboundSeq) := by
  intro p
  simp only [onSession, zoom_apply, SessionCore.allocateOutboundSeq]
  split
  · rfl
  · split <;> rfl

/-! ## Saving and building frames -/

variable [SessionStore σ]

theorem persistRecoveryState_core :
    Preserves inboundCore (persistRecoveryState (σ := σ)) := onStore_core _ _

theorem commitInboundPersistence_core (decoded : DecodedMessageView) (ts : Nat) :
    Preserves inboundCore (commitInboundPersistence (σ := σ) decoded ts) :=
  .bind (recordInbound_core ts) fun _ => onStore_core _ _

/-- What follows the commit of a frame starts from the same core. -/
theorem ensures_commit {d : DecodedMessageView} {ts : Nat} {p : AdminProtocol σ} {α : Type}
    {k : Method (AdminProtocol σ) α} {Q : α → AdminProtocol σ → Prop}
    (hk : ∀ q, q.inboundCore = p.inboundCore → Ensures k q Q) :
    Ensures (do commitInboundPersistence d ts; k) p Q :=
  .bind ((commitInboundPersistence_core d ts).ensures p) fun _ q hq => hk q hq

theorem building_core (c : InboundCore) :
    BuildingKeeps env fun p : AdminProtocol σ => p.inboundCore = c where
  allocate p hp := (allocateOutboundSeq_core p).trans hp
  clock _ hp := hp
  outbound _ _ hp := hp
  save _ _ _ _ p hp :=
    (Preserves.ite (onStore_core _ _) persistRecoveryState_core p).trans hp
  persist p hp := (persistRecoveryState_core p).trans hp
  load _ _ p hp := (onStore_core _ _ p).trans hp

theorem encodeFrameWith_core (msgType : Bytes) (encode : EncodeOptions → Except Status Bytes)
    (params : FrameParams) (ts : Nat) : Preserves inboundCore
      (encodeFrameWith (σ := σ) env msgType encode params ts) :=
  fun p => (building_core env p.inboundCore).encodeFrameWith msgType encode params ts p rfl

theorem buildAdminFrame_core (m : MessageData) (ts : Nat) :
    Preserves inboundCore (buildAdminFrame (σ := σ) env m ts) :=
  encodeFrameWith_core env _ _ _ ts

theorem buildLogonFrame_core (ts : Nat) (reset : Bool) :
    Preserves inboundCore (buildLogonFrame (σ := σ) env ts reset) :=
  .bind .get fun _ => buildAdminFrame_core env _ ts

theorem replayOutbound_core (beginSeq endSeq ts : Nat) :
    Preserves inboundCore (replayOutbound (σ := σ) env beginSeq endSeq ts) :=
  fun p => (building_core env p.inboundCore).replayOutbound beginSeq endSeq ts p rfl

theorem replayCounterpartyExpectedRange_core (expected preLogonNextOut ts : Nat) :
    Preserves inboundCore
      (replayCounterpartyExpectedRange (σ := σ) env expected preLogonNextOut ts) :=
  .ite (.pure _) (replayOutbound_core env _ _ ts)

end

end NimbleFix
