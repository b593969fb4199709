import NimbleFix.Proof.ReplayPartition
import NimbleFix.Proof.StoreRun

/-!
# The day cut

`CheckDayCut` compares the number of the last cut before the time of the check with the one it has
recorded, resets the counters when there was a cut in between, and records the new number whether
or not the state of the session allowed the reset.

* Where every check that finds a cut is made in a state that allows the reset, the counters are
  reset by these checks and by no other (`Watched.Recorded.check`).
* The store keeps the records from before the cut. As long as every number taken since is saved
  with its frame, they are out of reach of a replay (`OnlyRecent`).
-/

namespace NimbleFix

open Fallible SessionCore
open MemorySessionStore (upsertBySequence)

/-! ## The cuts -/

namespace DayCutConfig

/-- Seconds since the epoch on the clock of the configuration. -/
def clock (cfg : DayCutConfig) (nowNs : Nat) : Int :=
  if cfg.mode = .fixedLocalTime then (nowNs / 1000000000 : Nat) + cfg.utcOffsetSeconds
  else (nowNs / 1000000000 : Nat)

/-- The number of the last cut at or before the time: the cuts are a day apart, and cut `0` is in
the first day of the epoch. -/
def lastCut (cfg : DayCutConfig) (nowNs : Nat) : Int :=
  (cfg.clock nowNs - (3600 * cfg.resetHour + 60 * cfg.resetMinute)) / 86400

/-- A time of day at which the counters are reset. -/
structure Timed (cfg : DayCutConfig) : Prop where
  mode : cfg.mode = .fixedLocalTime ∨ cfg.mode = .fixedUtcTime
  hour : 0 ≤ cfg.resetHour ∧ cfg.resetHour < 24
  minute : 0 ≤ cfg.resetMinute ∧ cfg.resetMinute < 60

end DayCutConfig

variable {cfg : DayCutConfig}

theorem effectiveDate_eq_lastCut (h : cfg.Timed) {nowNs : Nat} (hcut : 0 ≤ cfg.lastCut nowNs) :
    effectiveDate cfg nowNs = cfg.lastCut nowNs := by
  obtain ⟨-, ⟨hhour, hhour'⟩, ⟨hmin, hmin'⟩⟩ := h
  unfold DayCutConfig.lastCut at hcut ⊢
  unfold effectiveDate
  dsimp only
  rw [show (if cfg.mode = .fixedLocalTime then
      ((nowNs / 1000000000 : Nat) : Int) + cfg.utcOffsetSeconds
    else ((nowNs / 1000000000 : Nat) : Int)) = cfg.clock nowNs from rfl]
  generalize cfg.clock nowNs = t at hcut ⊢
  generalize cfg.resetHour = h at *
  generalize cfg.resetMinute = m at *
  have ht : 0 ≤ t := by omega
  rw [Int.tdiv_eq_ediv_of_nonneg ht, Int.tmod_eq_emod_of_nonneg ht,
    Int.tdiv_eq_ediv_of_nonneg (by omega), Int.tmod_eq_emod_of_nonneg (by omega),
    Int.tdiv_eq_ediv_of_nonneg (by omega)]
  split <;> omega

theorem lastCut_mono {last nowNs : Nat} (h : last ≤ nowNs) :
    cfg.lastCut last ≤ cfg.lastCut nowNs := by
  have hseconds : last / 1000000000 ≤ nowNs / 1000000000 := Nat.div_le_div_right h
  unfold DayCutConfig.lastCut DayCutConfig.clock
  split <;> omega

/-! ## Runs of session operations -/

/-- A session with the time of its last check. -/
structure Watched where
  core : SessionCore
  lastCheck : Option Nat := none

namespace Watched

def step (op : SessionCore.Op) (w : Watched) : Watched where
  core := (op.run w.core).2
  lastCheck := match op with
    | .checkDayCut nowNs => some nowNs.toNat
    | _ => w.lastCheck

/-- There was a cut since the last check. -/
def Crossed (cfg : DayCutConfig) (w : Watched) (nowNs : Nat) : Prop :=
  ∃ last ∈ w.lastCheck, cfg.lastCut last < cfg.lastCut nowNs

/-- The times of the checks do not decrease and the configuration stays. A check that finds a cut is
made in a state that allows the reset, and none is made before the first cut of the epoch, when the
number to record cannot be told from that of a session that was never checked. -/
def Allowed (cfg : DayCutConfig) (op : SessionCore.Op) (w : Watched) : Prop :=
  match op with
  | .checkDayCut nowNs => (∀ last ∈ w.lastCheck, last ≤ nowNs.toNat) ∧ 0 ≤ cfg.lastCut nowNs.toNat ∧
      (w.Crossed cfg nowNs.toNat → w.core.state = .disconnected ∨ w.core.state = .active)
  | .setDayCutConfig config => config = cfg
  | _ => True

/-- The session has recorded the last cut before its last check. -/
structure Recorded (cfg : DayCutConfig) (w : Watched) : Prop where
  config : w.core.dayCutConfig = cfg
  unchecked : w.lastCheck = none → w.core.lastDayCutDate < 0
  checked : ∀ last ∈ w.lastCheck,
    w.core.lastDayCutDate = cfg.lastCut last ∧ 0 ≤ cfg.lastCut last

end Watched

/-- What a check does, in terms of the cuts. -/
theorem Watched.Recorded.check {w : Watched} (h : w.Recorded cfg) (hcfg : cfg.Timed) {nowNs : Nat}
    (hcut : 0 ≤ cfg.lastCut nowNs)
    (hstate : w.Crossed cfg nowNs → w.core.state = .disconnected ∨ w.core.state = .active) :
    (w.Crossed cfg nowNs → w.core.checkDayCut nowNs = { w.core with
      lastDayCutDate := cfg.lastCut nowNs, nextInSeq := 1, nextOutSeq := 1,
      pendingResend := none }) ∧
    (¬w.Crossed cfg nowNs → ∃ date,
      w.core.checkDayCut nowNs = { w.core with lastDayCutDate := date } ∧
      (w.lastCheck = none → date = cfg.lastCut nowNs) ∧
      ∀ last ∈ w.lastCheck, date = cfg.lastCut last) := by
  obtain ⟨rfl, hunchecked, hchecked⟩ := h
  unfold SessionCore.checkDayCut
  rw [if_neg (by rcases hcfg.mode with hm | hm <;> simp [hm])]
  simp only [effectiveDate_eq_lastCut hcfg hcut]
  cases hlast : w.lastCheck with
  | none =>
    have hno : ¬w.Crossed w.core.dayCutConfig nowNs := by
      rintro ⟨last, hl, -⟩
      rw [hlast] at hl
      cases hl
    rw [if_pos (hunchecked hlast)]
    exact ⟨fun hc => absurd hc hno, fun _ => ⟨_, rfl, fun _ => rfl, by simp⟩⟩
  | some last =>
    obtain ⟨hdate, hpos⟩ := hchecked last hlast
    rw [hdate, if_neg (by omega)]
    have hiff : w.Crossed w.core.dayCutConfig nowNs ↔
        w.core.dayCutConfig.lastCut last < w.core.dayCutConfig.lastCut nowNs := by
      unfold Crossed
      simp [hlast]
    split
    · refine ⟨fun hc => absurd (hiff.1 hc) (by omega), fun _ => ⟨_, rfl, by simp, ?_⟩⟩
      rintro _ ⟨⟩
      exact hdate
    · refine ⟨fun hc => ?_, fun hno => absurd (hiff.2 (by omega)) hno⟩
      unfold triggerDayCut
      rw [if_neg (by rcases hstate hc with hs | hs <;> simp [hs])]

/-- The record of the cuts. -/
def SessionCore.dayCut (s : SessionCore) : DayCutConfig × Int := (s.dayCutConfig, s.lastDayCutDate)

theorem settleResend_dayCut (s : SessionCore) : s.settleResend.dayCut = s.dayCut := by
  unfold settleResend
  split
  · split <;> rfl
  · rfl

theorem noteGap_dayCut (n : Nat) (s : SessionCore) : (s.noteGap n).dayCut = s.dayCut := by
  unfold noteGap
  split <;> rfl

/-- Only a check and a new configuration touch the record of the cuts. -/
theorem run_dayCut (op : SessionCore.Op) (s : SessionCore)
    (hcheck : ∀ nowNs, op ≠ .checkDayCut nowNs)
    (hset : ∀ config, op ≠ .setDayCutConfig config) : (op.run s).2.dayCut = s.dayCut := by
  cases op with
  | checkDayCut nowNs => exact absurd rfl (hcheck nowNs)
  | setDayCutConfig config => exact absurd rfl (hset config)
  | _ =>
    simp only [SessionCore.Op.run, beginConnect, SessionCore.onTransportConnected,
      SessionCore.close, beginRecovery, finishRecovery,
      beginLogon, restoreSequenceState,
      advanceInboundExpectedSeq, onLogonAccepted, SessionCore.beginLogout,
      SessionCore.onTransportClosed, allocateOutboundSeq, observeInboundSeq,
      beginResend, completeResend, consumeResendCompleted,
      consumeWarmupMessage, triggerDayCut]
    repeat' split
    all_goals first | rfl | exact noteGap_dayCut _ s | exact settleResend_dayCut _

theorem Watched.Recorded.step {w : Watched} (h : w.Recorded cfg) (hcfg : cfg.Timed)
    {op : SessionCore.Op} (hok : w.Allowed cfg op) : (w.step op).Recorded cfg := by
  have hkeep : (∀ nowNs, op ≠ .checkDayCut nowNs) → (w.step op).lastCheck = w.lastCheck →
      (∀ config, op ≠ .setDayCutConfig config) → (w.step op).Recorded cfg := by
    intro hcheck hlast hset
    have hsame := run_dayCut op w.core hcheck hset
    obtain ⟨hconfig, hdate⟩ : (w.step op).core.dayCutConfig = w.core.dayCutConfig ∧
        (w.step op).core.lastDayCutDate = w.core.lastDayCutDate := Prod.mk.inj hsame
    exact ⟨hconfig.trans h.config, by rw [hlast, hdate]; exact h.unchecked,
      by rw [hlast, hdate]; exact h.checked⟩
  cases op with
  | checkDayCut nowNs =>
    obtain ⟨hlater, hcut, hstate⟩ := hok
    obtain ⟨hcrossed, hno⟩ := h.check hcfg hcut hstate
    change Recorded cfg ⟨w.core.checkDayCut nowNs.toNat, some nowNs.toNat⟩
    by_cases hc : w.Crossed cfg nowNs.toNat
    · rw [hcrossed hc]
      exact ⟨h.config, by simp, by simpa using hcut⟩
    · obtain ⟨date, hrun, hfirst, hlast⟩ := hno hc
      rw [hrun]
      refine ⟨h.config, by simp, ?_⟩
      rintro _ ⟨⟩
      refine ⟨?_, hcut⟩
      cases hl : w.lastCheck with
      | none => exact hfirst hl
      | some last =>
        have hle : cfg.lastCut last ≤ _ := lastCut_mono (hlater last hl)
        have hge : ¬cfg.lastCut last < cfg.lastCut nowNs.toNat := fun hlt => hc ⟨last, hl, hlt⟩
        exact (hlast last hl).trans (by omega)
  | setDayCutConfig config =>
    subst hok
    exact ⟨rfl, h.unchecked, h.checked⟩
  | _ => exact hkeep (by simp) rfl (by simp)

/-! ## The store after a cut -/

section

variable {σ : Type} {env : ProtocolEnv} {content : StoreContent σ} {bound : Bool}
  {sent : List EncodedFrame} {p p' : AdminProtocol σ}

variable (env content) in
/-- Under the numbers that were taken, the store has only records of the frames `sent`. -/
def OnlyRecent (sent : List EncodedFrame) (p : AdminProtocol σ) : Prop :=
  ∀ st, p.store = some st → ∀ r ∈ content.outbound env.config.session.sessionId st,
    r.seqNum < p.session.nextOutSeq →
      ∃ f ∈ sent, f.fresh ∧ ∃ ts, r = f.record env.config.session.sessionId ts

variable (env content bound) in
/-- The store mirrors the session, and nothing older is within its numbers. -/
def MirrorsRecent (sent : List EncodedFrame) (p : AdminProtocol σ) : Prop :=
  Mirrors env content bound sent p ∧ OnlyRecent env content sent p

theorem OnlyRecent.append (h : OnlyRecent env content sent p) (frames : List EncodedFrame) :
    OnlyRecent env content (sent ++ frames) p := by
  intro st hst r hr hlt
  obtain ⟨f, hf, hrecord⟩ := h st hst r hr hlt
  exact ⟨f, List.mem_append_left _ hf, hrecord⟩

theorem OnlyRecent.of_ledger (h : OnlyRecent env content sent p) (hl : p'.ledger = p.ledger) :
    OnlyRecent env content sent p' := by
  have hout : p'.session.nextOutSeq = p.session.nextOutSeq := congrArg (fun l => l.2.1) hl
  have hstore : p'.store = p.store := congrArg (fun l => l.2.2.1) hl
  unfold OnlyRecent
  rw [hout, hstore]
  exact h

theorem MirrorsRecent.of_ledger (h : MirrorsRecent env content bound sent p)
    (hl : p'.ledger = p.ledger) : MirrorsRecent env content bound sent p' :=
  ⟨h.1.of_ledger hl, h.2.of_ledger hl⟩

theorem OnlyRecent.send {f : EncodedFrame} {ts : Nat} (h : MirrorsRecent env content bound sent p)
    (e : SendEffect env content ts f p p') : OnlyRecent env content (sent ++ [f]) p' := by
  intro st' hst' r hr hlt
  obtain ⟨⟨st, hst, hout⟩, -⟩ := e.stored st' hst'
  rw [hout] at hr
  rcases (mem_upsertBySequence (h.1.ascending st hst)).1 hr with rfl | ⟨hold, hne⟩
  · exact ⟨f, by simp, e.fresh, ts, rfl⟩
  · have hne : r.seqNum ≠ f.seqNum := hne
    have hseq := e.seqNum
    have hnext := e.next
    exact h.2.append [f] st hst r hold (by omega)

theorem OnlyRecent.onStore {α : Type} {absent : α} {m : SessionCore → Method σ α}
    (h : OnlyRecent env content sent p) (hm : ∀ st a st', m p.session st = (.ok a, st') →
      content.outbound env.config.session.sessionId st' =
        content.outbound env.config.session.sessionId st) :
    Ensures (onStore absent m) p fun _ p' => OnlyRecent env content sent p' := by
  intro a p' hp'
  rcases onStore_ok hp' with ⟨-, rfl⟩ | ⟨st, st', hst, hrun, rfl⟩
  · exact h
  · rintro _ ⟨⟩ r hr
    rw [hm st a st' hrun] at hr
    exact h st hst r hr

variable [SessionStore σ] (laws : Persists content env.config.session.sessionId)

include laws

theorem OnlyRecent.persist (h : OnlyRecent env content sent p)
    (hid : p.session.config.sessionId = env.config.session.sessionId) :
    Ensures persistRecoveryState p fun _ p' => OnlyRecent env content sent p' :=
  h.onStore fun _ _ _ hm => (laws.saveRecovery hid hm).1

theorem OnlyRecent.resetSessionState {nextIn nextOut : Nat} {reset : Bool}
    (h : OnlyRecent env content sent p)
    (hid : p.session.config.sessionId = env.config.session.sessionId)
    (hout : reset = false → nextOut = p.session.nextOutSeq) :
    Ensures (resetSessionState nextIn nextOut reset) p fun _ p' =>
      OnlyRecent env content sent p' := by
  refine .bind (P := fun _ p₁ => p₁.session = p.session ∧
    (reset = false ∧ p₁ = p ∨ ∀ st, p₁.store = some st →
      content.outbound env.config.session.sessionId st = [])) ?_ fun _ p₁ ⟨hs, hstore⟩ => ?_
  · cases reset with
    | false => exact .pure ⟨rfl, .inl ⟨rfl, rfl⟩⟩
    | true =>
      intro _ p₁ hp₁
      obtain ⟨_, p₂, hrun, ⟨⟩⟩ := bind_ok hp₁
      rcases onStore_ok hrun with ⟨hnone, rfl⟩ | ⟨st, st', -, hm, rfl⟩
      · exact ⟨rfl, .inr fun st hst => by rw [hnone] at hst; cases hst⟩
      · refine ⟨rfl, .inr ?_⟩
        rintro _ ⟨⟩
        rw [hid] at hm
        exact (laws.reset hm).1
  · intro a p' hp'
    obtain ⟨_, p₂, hrestore, hp'⟩ := bind_ok hp'
    obtain ⟨-, rfl⟩ := restoreSequenceState_ok hrestore
    refine OnlyRecent.persist laws ?_ (by rw [hs]; exact hid) a p' hp'
    rcases hstore with ⟨hno, rfl⟩ | hempty
    · rw [hout hno]
      exact h
    · intro st hst r hr
      rw [hempty st hst] at hr
      cases hr

theorem OnlyRecent.commit (h : OnlyRecent env content sent p)
    (hid : p.session.config.sessionId = env.config.session.sessionId) (d : DecodedMessageView)
    (ts : Nat) :
    Ensures (commitInboundPersistence d ts) p fun _ p' => OnlyRecent env content sent p' := by
  refine .bind ((recordInbound_books ts).ensures p) fun _ p₁ hp₁ => ?_
  have hl : p₁.ledger = p.ledger := congrArg Prod.fst hp₁
  have hid₁ := (congrArg Prod.fst hl).trans hid
  exact (h.of_ledger hl).onStore fun _ _ _ hm => (laws.saveInbound hid₁ hid₁ hm).1

/-- Without a refresh on Logon, calls that succeed keep the older records out of reach. -/
theorem mirrorRules_recent (hoff : env.config.refreshOnLogon = false) :
    MirrorRules env (MirrorsRecent env content bound) (MirrorsRecent env content bound) where
  mid h := h
  of_ledger := MirrorsRecent.of_ledger
  of_books h hb := h.of_ledger (congrArg Prod.fst hb)
  append_stale h hfresh hepoch :=
    ⟨h.1.append_stale (by simpa using hfresh) (by simp [hepoch]), h.2.append _⟩
  persist h _ p' hp' :=
    ⟨(h.1.persist laws _ p' hp').toMirrors, h.2.persist laws h.1.session _ p' hp'⟩
  commit h d ts _ p' hp' :=
    ⟨(h.1.commit laws d ts _ p' hp').toMirrors, h.2.commit laws h.1.session d ts _ p' hp'⟩
  send h henc hadmin ts f p' hf :=
    ⟨(h.1.send laws henc hadmin ts f p' hf).toMirrors,
      OnlyRecent.send h (encodeFrameWith_sends laws henc hadmin h.1.session ts f p' hf)⟩
  gapFill h beginSeq ts f p' hf := by
    refine ⟨(h.1.gapFill laws beginSeq ts f p' hf).toMirrors, ?_⟩
    obtain ⟨p₁, p₂, time, hseq, -, hbooks, hsave, -⟩ := encodeFrameWith_saved hf
    obtain rfl : _ = p₁ := congrArg Prod.snd hseq
    have h₂ := h.of_ledger (congrArg Prod.fst hbooks)
    exact (h₂.2.persist laws h₂.1.session _ p' hsave).append [f]
  load h beginSeq endSeq records p' hp' := by
    rcases onStore_ok hp' with ⟨-, rfl⟩ | ⟨st, st', hst, hm, rfl⟩
    · exact h
    · rw [h.1.session] at hm
      have hsame := (laws.loadOutbound_same beginSeq endSeq st).1
      rw [hm] at hsame
      refine ⟨h.1.of_outbound hst hsame, ?_⟩
      rintro _ ⟨⟩ r hr
      rw [hsame] at hr
      exact h.2 st hst r hr
  resetSessionState h hout a p' hp' := by
    have hstays : ∀ hr, _ := fun hr => (hout hr).resolve_right fun hrefresh => by
      simp [hoff] at hrefresh
    obtain ⟨hsynced, hnext⟩ := h.1.resetSessionState laws (fun hr => .inl (hstays hr)) a p' hp'
    exact ⟨⟨hsynced.toMirrors, h.2.resetSessionState laws h.1.session hstays a p' hp'⟩, hnext⟩
  refresh _ hr := by simp [hoff] at hr

omit laws in
/-- Every application frame of a replay is made from a record ahead of the cursor. -/
theorem replayLoop_frames (o : ReplayOptions) (boundedEnd ts : Nat) : ∀ (fuel : Nat)
    (c : ReplayCursor) {p : AdminProtocol σ},
    Ensures (replayLoop env o boundedEnd ts fuel c) p fun out _ =>
      ∀ f ∈ out.1, f.admin = false → ∃ r ∈ c.records, replayFrame o r = .ok f
  | 0, _, _ => .pure (by simp)
  | fuel + 1, c, p => by
    unfold replayLoop
    refine .ite (fun _ => .pure (by simp)) fun _ => ?_
    split
    · refine .bind (P := fun f _ => f.admin = true) (fun f q hf => ?_) fun gapFill p₁ hadmin => ?_
      · obtain ⟨_, _, _, _, _, hadmin, _⟩ := encodeFrameWith_ok hf
        exact hadmin
      · refine .bind (replayLoop_frames o boundedEnd ts fuel _) fun out _ hout => .pure ?_
        intro f hf hno
        rcases List.mem_cons.1 hf with rfl | hf
        · rw [hadmin] at hno
          cases hno
        · obtain ⟨r, hr, hframe⟩ := hout f hf hno
          exact ⟨r, c.skipGap_records _ _ hr, hframe⟩
    · rename_i record hrecord
      refine .bind (.ofExcept (P := fun f _ => replayFrame o record = .ok f) fun _ hf => hf)
        fun frame p₁ hframe => ?_
      refine .bind (replayLoop_frames o boundedEnd ts fuel _) fun out _ hout => .pure ?_
      intro f hf hno
      rcases List.mem_cons.1 hf with rfl | hf
      · exact ⟨record, (ReplayCursor.replayable_mem hrecord).1, hframe⟩
      · obtain ⟨r, hr, hframe⟩ := hout f hf hno
        exact ⟨r, List.mem_of_mem_tail hr, hframe⟩

theorem MirrorsRecent.replay (h : MirrorsRecent env content bound sent p) {beginSeq : Nat}
    (hbegin : 0 < beginSeq) (endSeq ts : Nat) :
    Ensures (replayOutbound env beginSeq endSeq ts) p fun frames _ =>
      ∀ f ∈ frames, f.admin = false → ∃ g ∈ sent, g.fresh ∧
        ∃ ts' o, replayFrame o (g.record env.config.session.sessionId ts') = .ok f := by
  intro frames p' hp'
  unfold replayOutbound at hp'
  cases hst : p.store with
  | none =>
    rw [hst] at hp'
    cases hp'
    simp
  | some st =>
    rw [hst] at hp'
    dsimp only at hp'
    split at hp'
    · cases hp'
      simp
    · rename_i hrange
      obtain ⟨records, p₁, hload, hp'⟩ := bind_ok hp'
      obtain ⟨time, p₂, -, hp'⟩ := bind_ok hp'
      obtain ⟨out, p₃, hloop, ⟨⟩⟩ := bind_ok hp'
      intro f hf hno
      obtain ⟨r, hr, hframe⟩ := replayLoop_frames _ _ ts _ _ _ _ hloop f hf hno
      have hle : beginSeq ≤ replayEnd p.session.nextOutSeq endSeq := by omega
      have hrecords := laws.loadOutbound (h.1.ascending st hst) hbegin hle
      rw [onStore, hst, h.1.session] at hload
      rw [Except.ok.inj ((congrArg Prod.fst hload).symm.trans hrecords)] at hr
      obtain ⟨hmem, hin⟩ := List.mem_filter.1 hr
      have hlt : r.seqNum < p.session.nextOutSeq := by
        have hpos := h.1.positive
        simp only [MessageRecord.inRange, Bool.and_eq_true, decide_eq_true_eq] at hin
        unfold replayEnd at hin hrange
        split at hin <;> omega
      obtain ⟨g, hg, hfresh, ts', rfl⟩ := h.2 st hst r hmem hlt
      exact ⟨g, hg, hfresh, ts', _, hframe⟩

end

section

variable {σ : Type} [SessionStore σ] (env : ProtocolEnv)

/-- In a run whose checks are all allowed, a check resets the counters exactly if it finds a cut.
And from counters that were reset on, as long as no call fails with a number taken and there is no
refresh on Logon, every application message that is replayed was sent since. -/
theorem day_cut_resets_once {content : StoreContent σ} (hcfg : cfg.Timed)
    (laws : Persists content env.config.session.sessionId)
    (hoff : env.config.refreshOnLogon = false) :
    (∀ (core : SessionCore) (w : Watched), core.dayCutConfig = cfg → core.lastDayCutDate < 0 →
      Reaches Watched.step (Watched.Allowed cfg) ⟨core, none⟩ w → ∀ nowNs : UInt64,
      w.Allowed cfg (.checkDayCut nowNs) →
      (w.Crossed cfg nowNs.toNat → (w.core.checkDayCut nowNs.toNat).nextInSeq = 1 ∧
        (w.core.checkDayCut nowNs.toNat).nextOutSeq = 1) ∧
      (¬w.Crossed cfg nowNs.toNat →
        (w.core.checkDayCut nowNs.toNat).nextInSeq = w.core.nextInSeq ∧
          (w.core.checkDayCut nowNs.toNat).nextOutSeq = w.core.nextOutSeq)) ∧
    (∀ (p : AdminProtocol σ) (st : σ) (commands : List Command), p.store = some st →
      p.session.config.sessionId = env.config.session.sessionId → p.session.nextOutSeq = 1 →
      Ascending (content.outbound env.config.session.sessionId st) →
      (∀ r ∈ content.outbound env.config.session.sessionId st, 0 < r.seqNum) →
      StepsOk (fun c p => (perform env c p).2) (CallKept env) commands p →
      ∀ beginSeq endSeq ts : Nat, 0 < beginSeq →
      Ensures (replayOutbound env beginSeq endSeq ts) (runCommands env commands p).2 fun frames _ =>
        ∀ f ∈ frames, f.admin = false →
          ∃ g ∈ emittedFrames (runCommands env commands p).1, g.fresh ∧
            ∃ ts' o, replayFrame o (g.record env.config.session.sessionId ts') = .ok f) := by
  constructor
  · intro core w hconfig hdate hrun nowNs ⟨_, hcut, hstate⟩
    have h : w.Recorded cfg := hrun.invariant
      ⟨hconfig, fun _ => hdate, fun _ hlast => by cases hlast⟩ fun op w h hok => h.step hcfg hok
    obtain ⟨hcrossed, hno⟩ := h.check hcfg hcut hstate
    refine ⟨fun hc => ?_, fun hc => ?_⟩
    · rw [hcrossed hc]
      exact ⟨rfl, rfl⟩
    · obtain ⟨date, hsame, -⟩ := hno hc
      rw [hsame]
      exact ⟨rfl, rfl⟩
  · intro p st commands hst hid hout hasc hpos hok beginSeq endSeq ts hbegin
    have h₀ : MirrorsRecent env content true [] p := by
      refine ⟨⟨by rw [hst]; rfl, hid, by omega, by simp, by simp, ⟨1, by decide, hout.symm, rfl⟩,
        ?_, ?_⟩, ?_⟩
      · intro st' hst'
        rw [hst] at hst'
        cases hst'
        exact hasc
      · intro _ _ f hf
        cases hf
      · intro st' hst' r hr hlt
        rw [hst] at hst'
        cases hst'
        have := hpos r hr
        omega
    have h := (mirrorRules_recent laws hoff).run_kept commands h₀ hok
    rw [List.nil_append] at h
    exact h.replay laws hbegin endSeq ts

end

namespace Sample

/-- A cut at 17:00 UTC. -/
def evening : DayCutConfig := { mode := .fixedUtcTime, resetHour := 17 }

/-- So many hours after the epoch. -/
def hours (n : Nat) : UInt64 := .ofNat (n * 3600000000000)

/-- A session with the cut. -/
def watched (state : SessionState) : SessionCore :=
  { config := acceptor.config.session, state, nextInSeq := 4, nextOutSeq := 7
    dayCutConfig := evening }

/-- The sample acceptor after its orders and a reset. -/
def cut : AdminProtocol MemorySessionStore :=
  { sentOrders with session := (triggerDayCut sentOrders.session).2 }

end Sample

open Sample

theorem day_cut_resets_once_sample :
    let w : Watched := .step (.checkDayCut (hours 20)) ⟨watched .active, none⟩
    let order := .send (.mk (ascii "D") [⟨11, .string (ascii "order")⟩] []) {} 6
    let out := runCommands acceptor [order] cut
    (w.core.checkDayCut (hours 44).toNat).nextInSeq = 1 ∧
      (w.core.checkDayCut (hours 44).toNat).nextOutSeq = 1 ∧
      Ensures (replayOutbound acceptor 1 0 7) out.2 fun frames _ =>
        ∀ f ∈ frames, f.admin = false → ∃ g ∈ emittedFrames out.1, g.fresh ∧
          ∃ ts' o, replayFrame o (g.record 1 ts') = .ok f := by
  intro w order out
  have laws : Persists MemorySessionStore.content acceptor.config.session.sessionId :=
    MemorySessionStore.persists 1
  have hcfg : evening.Timed := ⟨.inr rfl, by decide, by decide⟩
  obtain ⟨hchecks, hreplay⟩ := day_cut_resets_once acceptor hcfg laws rfl
  have hfirst : Reaches Watched.step (Watched.Allowed evening)
      ⟨watched .active, none⟩ w :=
    .step _ .start ⟨by simp, by decide, fun ⟨_, h, _⟩ => by cases h⟩
  have hcrossed : w.Crossed evening (hours 44).toNat := ⟨_, rfl, by decide⟩
  obtain ⟨hin, hout⟩ := (hchecks (watched .active) w rfl (by decide) hfirst (hours 44)
    ⟨by decide, by decide, fun _ => .inr rfl⟩).1 hcrossed
  refine ⟨hin, hout, ?_⟩
  obtain ⟨st, hst⟩ := Option.isSome_iff_exists.1
    (show cut.store.isSome = true by decide +kernel)
  have hrecords : ∀ r ∈ MemorySessionStore.content.outbound 1 (cut.store.getD {}),
      0 < r.seqNum := by decide +kernel
  have hasc : Ascending (MemorySessionStore.content.outbound 1 (cut.store.getD {})) := by
    unfold Ascending
    decide +kernel
  rw [hst] at hrecords hasc
  exact hreplay cut st [order] hst (by decide +kernel) (by decide +kernel) hasc hrecords
    ⟨.inl (by decide +kernel), trivial⟩ 1 0 7 (by decide)

/-- The transport of a logged on session is lost, and the cut passes before the next Logon: the
check on the new connection records the cut without a reset, and no later check makes up for it.
After a reset, two encoded messages without a type take the numbers 1 and 2 and fail before they
are saved, so that a replay finds the order that was sent under number 2 before the reset. -/
theorem day_cut_missed_and_stale_replay :
    let checks : List SessionCore.Op := [.onTransportConnected, .beginLogon, .onLogonAccepted,
      .allocateOutboundSeq, .checkDayCut (hours 20), .onTransportClosed,
      .onTransportConnected, .checkDayCut (hours 44), .beginLogon, .onLogonAccepted,
      .checkDayCut (hours 45)]
    let core := checks.foldl (fun s op => (op.run s).2)
      { config := acceptor.config.session, dayCutConfig := evening }
    let invalid := { msgType := [], body := [] }
    let out := runCommands acceptor
      [.sendEncoded invalid {} {} 6, .sendEncoded invalid {} {} 7] cut
    core.state = .active ∧ core.nextOutSeq = 2 ∧ emittedFrames out.1 = [] ∧
      (replayOutbound acceptor 1 0 8 out.2).1.toOption.map (List.any · (!·.admin)) =
        some true := by
  refine ⟨?_, ?_, ?_, ?_⟩ <;> decide +kernel

end NimbleFix
