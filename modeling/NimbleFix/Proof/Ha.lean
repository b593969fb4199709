import NimbleFix.Lib.Transition
import NimbleFix.Runtime.Ha

/-!
# Late heartbeats and snapshots

The controller keeps the heartbeat and the snapshot it was given last, not the newest ones. `InOrder`
says that a delivery is none that is older than the one before it; then the last heartbeat is the
newest of all, and a promotion comes only after `dead_threshold` silent intervals.
-/

namespace NimbleFix

open HaController

/-- The heartbeat interval in nanoseconds. -/
def HaConfig.intervalNs (config : HaConfig) : Nat := config.heartbeatInterval.toNat * 1000000

namespace HaRun

/-- The step does not take the controller to a snapshot of a lower generation. -/
def KeepsGeneration (l : HaStep) (s : HaRun) : Prop :=
  ∀ old ∈ s.controller.lastAppliedSnapshot, ∃ new ∈ (l.run s).controller.lastAppliedSnapshot,
    old.generation ≤ new.generation

/-- A health check that promotes a standby finds no heartbeat recorded in the time in which the peer
still counts as alive. -/
def PromotesAfterSilence (l : HaStep) (s : HaRun) : Prop :=
  ∀ currentTimeNs nowNs, l = .checkHealth currentTimeNs nowNs →
    s.controller.role = .standby → (l.run s).controller.role = .primary →
    let t := resolveTime currentTimeNs nowNs
    let config := s.controller.config
    ∀ h ∈ s.heartbeats, ¬(h ≤ t ∧ t < h + config.deadThreshold * config.intervalNs)

/-- The delivery is not older than the last one of its kind. A snapshot that an engine without a
configuration refuses does not count. -/
def InOrder (l : HaStep) (s : HaRun) : Prop :=
  match l with
  | .heartbeat timestampNs nowNs =>
    s.controller.lastPeerHeartbeatNs ≤ resolveTime timestampNs nowNs
  | .applySnapshot booted snapshot =>
    booted → ∀ old ∈ s.controller.lastAppliedSnapshot, old.generation ≤ snapshot.generation
  | _ => True

/-- The heartbeat kept is the newest of those recorded. -/
def KeepsNewest (s : HaRun) : Prop := ∀ h ∈ s.heartbeats, h ≤ s.controller.lastPeerHeartbeatNs

variable {s : HaRun} {l : HaStep}

/-! ## Steps -/

/-- A health check changes the peer's state, or it promotes a standby whose last heartbeat is
`dead_threshold` intervals old. -/
theorem checkHealth_cases (currentTimeNs nowNs : Nat) (c : HaController) :
    (∃ peerState, c.checkHealth currentTimeNs nowNs = { c with peerState }) ∨
      c.lastPeerHeartbeatNs < resolveTime currentTimeNs nowNs ∧ 0 < heartbeatNs c.config ∧
        c.config.deadThreshold ≤
          (resolveTime currentTimeNs nowNs - c.lastPeerHeartbeatNs) / heartbeatNs c.config ∧
        c.checkHealth currentTimeNs nowNs = { c with
          peerState := .dead
          role := .primary
          generation := wrap64 (c.generation + 1) } := by
  unfold HaController.checkHealth
  dsimp only
  split
  · exact .inl ⟨_, rfl⟩
  split
  · exact .inl ⟨_, rfl⟩
  split
  · exact .inl ⟨_, rfl⟩
  split
  · exact .inl ⟨_, rfl⟩
  split
  · split
    · rename_i hlate hpos hdead hstandby
      refine .inr ⟨by omega, by omega, hdead, ?_⟩
      simp [promoteToPrimary, changeRole, hstandby.2]
    · exact .inl ⟨_, rfl⟩
  split
  · exact .inl ⟨_, rfl⟩
  · exact .inl ⟨_, rfl⟩

/-- Only a heartbeat changes what is kept of heartbeats, and only a snapshot the applied one. -/
theorem run_cases (l : HaStep) (s : HaRun) :
    (l.run s).controller.config = s.controller.config ∧
      ((∃ t now, l = .heartbeat t now) ∨ (l.run s).heartbeats = s.heartbeats ∧
        (l.run s).controller.lastPeerHeartbeatNs = s.controller.lastPeerHeartbeatNs) ∧
      ((l.run s).controller.lastAppliedSnapshot = s.controller.lastAppliedSnapshot ∨
        ∃ snapshot, l = .applySnapshot true snapshot ∧
          (l.run s).controller.lastAppliedSnapshot = some snapshot) := by
  cases l with
  | heartbeat t now => exact ⟨rfl, .inl ⟨t, now, rfl⟩, .inl rfl⟩
  | checkHealth t now =>
    rcases checkHealth_cases t now s.controller with ⟨peerState, heq⟩ | ⟨-, -, -, heq⟩
    · simp [HaStep.run, heq]
    · simp [HaStep.run, heq]
  | promote =>
    simp only [HaStep.run, attempt, promoteToPrimary, changeRole]
    by_cases h : s.controller.role = .standby <;> simp [h]
  | demote =>
    simp only [HaStep.run, attempt, demoteToStandby, changeRole]
    by_cases h : s.controller.role = .primary <;> simp [h]
  | applySnapshot booted snapshot =>
    cases booted
    · exact ⟨rfl, .inr ⟨rfl, rfl⟩, .inl rfl⟩
    · exact ⟨rfl, .inr ⟨rfl, rfl⟩, .inr ⟨snapshot, rfl, rfl⟩⟩
  | start =>
    simp only [HaStep.run, attempt, HaController.start]
    cases s.controller.configured <;> simp
  | stop => exact ⟨rfl, .inr ⟨rfl, rfl⟩, .inl rfl⟩

theorem step_keepsNewest (h : s.KeepsNewest) (hl : InOrder l s) : (l.run s).KeepsNewest := by
  obtain ⟨-, ⟨t, now, rfl⟩ | ⟨hbeats, hlast⟩, -⟩ := run_cases l s
  · intro beat hbeat
    rcases List.mem_cons.1 hbeat with rfl | hbeat
    · exact Nat.le_refl _
    · exact (h beat hbeat).trans hl
  · unfold KeepsNewest
    rw [hbeats, hlast]
    exact h

theorem step_keepsGeneration (hl : InOrder l s) : KeepsGeneration l s := by
  intro old hold
  obtain ⟨-, -, hkept | ⟨snapshot, rfl, hnew⟩⟩ := run_cases l s
  · exact ⟨old, hkept ▸ hold, Nat.le_refl _⟩
  · exact ⟨snapshot, hnew, hl rfl old hold⟩

theorem promotesAfterSilence (h : s.KeepsNewest) (hfits : s.controller.config.intervalNs < 2 ^ 63) :
    PromotesAfterSilence l s := by
  rintro currentTimeNs nowNs rfl hstandby hprimary t config beat hbeat ⟨-, hrecent⟩
  rcases checkHealth_cases currentTimeNs nowNs s.controller with
    ⟨peerState, heq⟩ | ⟨hlate, hpos, hdead, -⟩
  · simp only [HaStep.run, heq] at hprimary
    rw [hstandby] at hprimary
    cases hprimary
  · have hns : heartbeatNs s.controller.config = config.intervalNs :=
      Nat.mod_eq_of_lt (hfits.trans (by decide))
    rw [hns] at hpos hdead
    have hsilent : config.deadThreshold * config.intervalNs ≤ t - s.controller.lastPeerHeartbeatNs :=
      (Nat.le_div_iff_mul_le hpos).1 hdead
    have := h beat hbeat
    omega

/-! ## Runs -/

/-- While no delivery is older than the last one of its kind, the applied generation never
decreases and a standby is promoted only after `dead_threshold` silent intervals. -/
theorem ha_laws_in_order {config : HaConfig} {c c₀ : HaController}
    (hconfig : c.configure config = .ok c₀) (hfits : config.intervalNs < 2 ^ 63)
    (hrun : Reaches HaStep.run InOrder { controller := c₀ } s) (hl : InOrder l s) :
    KeepsGeneration l s ∧ PromotesAfterSilence l s := by
  have hstart : c₀.config = config := by
    unfold HaController.configure at hconfig
    repeat' split at hconfig
    all_goals cases hconfig
    rfl
  obtain ⟨hsame, hnewest⟩ := hrun.invariant
    (I := fun s => s.controller.config = config ∧ s.KeepsNewest) ⟨hstart, nofun⟩
    fun l s h hok => ⟨(run_cases l s).1.trans h.1, step_keepsNewest h.2 hok⟩
  exact ⟨step_keepsGeneration hl, promotesAfterSilence hnewest (hsame ▸ hfits)⟩

/-- A started standby that promotes itself. -/
def sampleStandby : HaController :=
  { config := { initialRole := .standby, autoFailover := true }
    role := .standby
    configured := true }

theorem ha_laws_in_order_sample :
    PromotesAfterSilence (.checkHealth 15000000000 0)
      (HaStep.run (.heartbeat 10000000000 0) (HaStep.run .start { controller := sampleStandby })) :=
  have started : Reaches HaStep.run InOrder { controller := sampleStandby }
      (HaStep.run .start { controller := sampleStandby }) := Reaches.start.step HaStep.start trivial
  have configured : HaController.configure sampleStandby.config {} = .ok sampleStandby := rfl
  (ha_laws_in_order configured (by decide)
    (started.step (HaStep.heartbeat 10000000000 0) (Nat.zero_le _))
    (l := .checkHealth 15000000000 0) trivial).2

/-- The heartbeat of second 4 arrives after the one of second 10, and the check in second 10 promotes
the standby; a snapshot of generation 1 replaces one of generation 2. -/
theorem late_deliveries_break_laws :
    ¬PromotesAfterSilence (.checkHealth 10000000000 0)
        ([HaStep.start, .heartbeat 10000000000 0, .heartbeat 4000000000 0].foldl (fun s l => l.run s)
          { controller := sampleStandby }) ∧
      ¬KeepsGeneration (.applySnapshot true { sessions := [], generation := 1 })
        (HaStep.run (.applySnapshot true { sessions := [], generation := 2 })
          { controller := sampleStandby }) := by
  constructor
  · intro h
    exact h _ _ rfl (by decide) (by decide) 10000000000 (by decide) ⟨by decide, by decide⟩
  · intro h
    obtain ⟨new, hnew, hle⟩ := h _ rfl
    cases hnew
    exact absurd hle (by decide)

end HaRun

end NimbleFix
