import Mathlib.Data.List.Chain
import NimbleFix.Lib.Path
import NimbleFix.Session.ResendRecovery

/-!
# The chunks of a resend plan

The loop meets the records of the range in step with its numbers (`filter_inRange_append`), and the
chunks together with the open one are always a plan of the numbers passed (`Planned`): a round adds
a chunk of one number (`Planned.snoc`) or makes the open one longer (`Planned.extend`).
-/

namespace NimbleFix

open Fallible MessageRecord

theorem filter_inRange_append {a m e : Nat} (ham : a ≤ m + 1) (hme : m ≤ e) :
    ∀ {records : List MessageRecord}, Ascending records →
      records.filter (·.inRange a e) =
        records.filter (·.inRange a m) ++ records.filter (·.inRange (m + 1) e)
  | [], _ => rfl
  | r :: rs, h => by
    obtain ⟨hr, hrs⟩ := List.pairwise_cons.1 h
    have ih := filter_inRange_append ham hme hrs
    by_cases hm : r.seqNum ≤ m
    · have hpast : ¬r.inRange (m + 1) e := by
        simp only [inRange, Bool.and_eq_true, decide_eq_true_eq]
        omega
      have hsame : r.inRange a e = r.inRange a m := by
        rw [Bool.eq_iff_iff]
        simp only [inRange, Bool.and_eq_true, decide_eq_true_eq]
        omega
      rw [List.filter_cons, List.filter_cons, List.filter_cons_of_neg hpast, ih, hsame]
      split <;> simp
    · -- the later records are past the cut as well
      have hnone : (r :: rs).filter (·.inRange a m) = [] := by
        rw [List.filter_eq_nil_iff]
        intro r' hr'
        have hlt : m < r'.seqNum := by
          rcases List.mem_cons.1 hr' with rfl | hr'
          · omega
          · have := hr r' hr'
            omega
        simp [inRange]
        omega
      rw [hnone, List.nil_append]
      refine List.filter_congr fun r' hr' => ?_
      have hlt : m < r'.seqNum := by
        rcases List.mem_cons.1 hr' with rfl | hr'
        · omega
        · have := hr r' hr'
          omega
      have hiff : a ≤ r'.seqNum ↔ m + 1 ≤ r'.seqNum := by omega
      simp [inRange, hiff]

theorem filter_number (n : Nat) {records : List MessageRecord} (h : Ascending records) :
    records.filter (·.inRange n n) = [] ∨
      ∃ r, records.filter (·.inRange n n) = [r] ∧ r.seqNum = n := by
  have hall : ∀ r ∈ records.filter (·.inRange n n), r.seqNum = n := by
    intro r hr
    simp [inRange] at hr
    omega
  have hasc : Ascending (records.filter (·.inRange n n)) := h.filter _
  rcases hrecords : records.filter (·.inRange n n) with _ | ⟨r, _ | ⟨r', rs⟩⟩
  · exact .inl hrecords
  · exact .inr ⟨r, hrecords, hall r (by simp [hrecords])⟩
  · rw [hrecords] at hasc hall
    have hlt := (List.pairwise_cons.1 hasc).1 r' (by simp)
    have hr := hall r (by simp)
    have hr' := hall r' (by simp)
    omega

namespace ResendRecovery

/-- The record is replayed: it is neither administrative nor a gap fill. -/
def Replayed (content : List MessageRecord) (n : Nat) : Prop :=
  ∃ r ∈ content, r.seqNum = n ∧ r.isAdmin = false ∧ r.isGapFill = false

variable {content : List MessageRecord}

/-- What a chunk says about its numbers. -/
structure ReplayChunk.Right (content : List MessageRecord) (c : ReplayChunk) : Prop where
  ordered : c.beginSeq ≤ c.endSeq
  kind : ∀ n, c.beginSeq ≤ n → n ≤ c.endSeq → (c.kind = .replay ↔ Replayed content n)
  messages : c.messages =
    if c.kind = .replay then content.filter (·.inRange c.beginSeq c.endSeq) else []

/-- The chunks are consecutive, of alternating kinds, and cover the numbers from `start` up to
`stop`, which is left out. -/
structure Planned (content : List MessageRecord) (start stop : Nat) (chunks : List ReplayChunk) :
    Prop where
  path : EdgePath ReplayChunk.beginSeq (·.endSeq + 1) start chunks stop
  alternating : chunks.IsChain fun c c' => c.kind ≠ c'.kind
  right : ∀ c ∈ chunks, c.Right content

namespace Planned

variable {start n : Nat} {chunks : List ReplayChunk} {c : ReplayChunk}

theorem nil (content : List MessageRecord) (start : Nat) : Planned content start start [] :=
  ⟨rfl, .nil, by simp⟩

theorem snoc (h : Planned content start n chunks) (hc : c.Right content) (hbegin : c.beginSeq = n)
    (hkind : ∀ last ∈ chunks.getLast?, last.kind ≠ c.kind) :
    Planned content start (c.endSeq + 1) (chunks ++ [c]) where
  path := h.path.append ⟨hbegin, rfl⟩
  alternating := by
    rw [List.isChain_append]
    exact ⟨h.alternating, .singleton _, fun last hlast d hd => by
      cases hd
      exact hkind last hlast⟩
  right := by
    intro d hd
    rcases List.mem_append.1 hd with hd | hd
    · exact h.right d hd
    · rw [List.mem_singleton.1 hd]
      exact hc

/-- The last chunk may be replaced by one of the same kind from the same number on. -/
theorem replaceLast (h : Planned content start n (chunks ++ [c])) {c' : ReplayChunk}
    (hc : c'.Right content) (hbegin : c'.beginSeq = c.beginSeq) (hkind : c'.kind = c.kind) :
    Planned content start (c'.endSeq + 1) (chunks ++ [c']) := by
  obtain ⟨m, hpath, hlast, -⟩ := EdgePath.append_iff.1 h.path
  obtain ⟨halt, -, hne⟩ := List.isChain_append.1 h.alternating
  refine snoc ⟨hpath, halt, fun d hd => h.right d (by simp [hd])⟩ hc (hbegin.trans hlast) ?_
  intro last hd
  rw [hkind]
  exact hne last hd c rfl

end Planned

/-! ## One round -/

variable {start n : Nat}

/-- The plan of the numbers from `start` up to `n` is ready but for its last chunk. -/
inductive Planning.Upto (content : List MessageRecord) (start : Nat) : Nat → Planning → Prop
  | none : Upto content start start {}
  | some {n : Nat} {p : Planning} (hbegin : p.current.beginSeq ≠ 0) (hend : p.current.endSeq = n)
      (h : Planned content start (n + 1) (p.chunks ++ [p.current])) : Upto content start (n + 1) p

/-- The record as it is replayed, if it is. -/
def replayable (record : Option MessageRecord) : Option MessageRecord :=
  record.filter fun r => !(r.isAdmin || r.isGapFill)

/-- The kind of chunk the number belongs to. -/
def kindOf (record : Option MessageRecord) : ReplayActionKind :=
  if (replayable record).isSome then .replay else .gapFill

section Round

variable {record : Option MessageRecord} (hrecord : content.filter (·.inRange n n) = record.toList)

include hrecord

theorem kindOf_iff : kindOf record = .replay ↔ Replayed content n := by
  have hmem : ∀ r, (r ∈ content ∧ r.seqNum = n) ↔ record = some r := by
    intro r
    have hr : r ∈ content.filter (·.inRange n n) ↔ r ∈ content ∧ r.seqNum = n := by
      simp [inRange]
      omega
    rw [← hr, hrecord, Option.mem_toList]
  have hkind : kindOf record = .replay ↔ (replayable record).isSome := by
    unfold kindOf
    split <;> simp_all
  rw [hkind, Option.isSome_iff_exists]
  simp only [replayable, Option.filter_eq_some_iff, ← hmem, Replayed]
  simp [and_assoc]

theorem messages_of_kind :
    (replayable record).toList =
      if kindOf record = .replay then content.filter (·.inRange n n) else [] := by
  unfold kindOf
  cases hreplayed : replayable record with
  | none => simp
  | some r =>
    obtain ⟨rfl, -⟩ := Option.filter_eq_some_iff.1 hreplayed
    simp [hrecord]

theorem right_single :
    ReplayChunk.Right content ⟨kindOf record, n, n, (replayable record).toList⟩ where
  ordered := le_rfl
  kind := by
    intro m hm hm'
    obtain rfl : m = n := by dsimp only at hm hm'; omega
    exact kindOf_iff hrecord
  messages := messages_of_kind hrecord

theorem ReplayChunk.Right.extend (hasc : Ascending content) {c : ReplayChunk}
    (hc : c.Right content) (hend : c.endSeq + 1 = n) (hkind : c.kind = kindOf record) :
    ReplayChunk.Right content
      { c with endSeq := n, messages := c.messages ++ (replayable record).toList } where
  ordered := by
    have := hc.ordered
    dsimp only
    omega
  kind := by
    intro m hm hm'
    dsimp only at hm hm' ⊢
    by_cases hlast : m ≤ c.endSeq
    · exact hc.kind m hm hlast
    · obtain rfl : m = n := by omega
      rw [hkind]
      exact kindOf_iff hrecord
  messages := by
    have hordered := hc.ordered
    dsimp only
    rw [hc.messages, messages_of_kind hrecord, ← hkind]
    split
    · subst hend
      exact (filter_inRange_append (by omega) (by omega) hasc).symm
    · rfl

theorem Planning.Upto.visit (hasc : Ascending content) (hn : n ≠ 0) {p : Planning}
    (h : p.Upto content start n) : (p.visit n record).Upto content start (n + 1) := by
  cases h with
  | none => exact .some hn rfl ((Planned.nil content _).snoc (right_single hrecord) rfl (by simp))
  | @some m p hbegin hend h =>
    have hright := h.right p.current (by simp)
    have hordered := hright.ordered
    have hvisit : p.visit (m + 1) record =
        { p.reach (kindOf record) (m + 1) with
          current := { (p.reach (kindOf record) (m + 1)).current with
            messages := (p.reach (kindOf record) (m + 1)).current.messages ++
              (replayable record).toList } } := rfl
    rw [hvisit]
    unfold reach
    rw [if_neg hbegin]
    by_cases hkind : p.current.kind = kindOf record
    · rw [if_neg (by simpa using hkind)]
      exact .some hbegin rfl
        (h.replaceLast (hright.extend hrecord hasc (by omega) hkind) rfl rfl)
    · have hflush : p.flushChunk = ⟨p.chunks ++ [p.current], {}⟩ := by
        unfold flushChunk
        rw [if_neg (by omega)]
      rw [if_pos hkind, hflush]
      refine .some hn rfl (h.snoc (right_single hrecord) rfl fun last hlast => ?_)
      obtain rfl : p.current = last := by simpa using hlast
      exact hkind

end Round

/-! ## The loop -/

/-- With the records of the rest of the range, the loop ends with a plan of the whole range, and
rounds that are left over change nothing. -/
theorem planLoop_upto (hasc : Ascending content) {endSeq : Nat} (hword : endSeq + 1 < 2 ^ 32) :
    ∀ {fuel n : Nat} {p : Planning}, n ≠ 0 → n ≤ endSeq + 1 → endSeq + 1 - n < fuel →
      p.Upto content start n →
      ∃ q, planLoop endSeq fuel n (content.filter (·.inRange n endSeq)) p = some q ∧
        q.Upto content start (endSeq + 1)
  | 0, _, _, _, _, hfuel, _ => absurd hfuel (Nat.not_lt_zero _)
  | fuel + 1, n, p, hn, hle, hfuel, h => by
    unfold planLoop
    by_cases hdone : endSeq < n
    · rw [if_pos hdone]
      obtain rfl : n = endSeq + 1 := by omega
      exact ⟨p, rfl, h⟩
    · rw [if_neg hdone, wrap32_of_lt (by omega)]
      have hsplit := filter_inRange_append (a := n) (m := n) (by omega) (by omega : n ≤ endSeq) hasc
      have hrest : ∀ record : Option MessageRecord,
          content.filter (·.inRange n n) = record.toList →
          ∃ q, planLoop endSeq fuel (n + 1) (content.filter (·.inRange (n + 1) endSeq))
              (p.visit n record) = some q ∧ q.Upto content start (endSeq + 1) := fun record hrec =>
        planLoop_upto hasc hword (by omega) (by omega) (by omega) (h.visit hrec hasc hn)
      rcases filter_number n hasc with hnone | ⟨r, hr, hseq⟩
      · have hhead : (content.filter (·.inRange n endSeq)).head?.filter (·.seqNum == n) = none := by
          rw [hsplit, hnone, List.nil_append, Option.filter_eq_none_iff]
          intro r hr
          have hin := List.mem_of_mem_head? hr
          simp [inRange] at hin ⊢
          omega
        rw [hhead]
        simpa [hsplit, hnone] using hrest none (by simp [hnone])
      · have hhead : (content.filter (·.inRange n endSeq)).head?.filter (·.seqNum == n) = some r := by
          simp [hsplit, hr, hseq]
        rw [hhead]
        simpa [hsplit, hr] using hrest (some r) (by simp [hr])

theorem Planning.Upto.planned {p : Planning} (h : p.Upto content start n) (hlt : start < n) :
    Planned content start n p.flushChunk.chunks := by
  cases h with
  | none => omega
  | some hbegin hend h =>
    have hordered := (h.right p.current (by simp)).ordered
    unfold flushChunk
    rw [if_neg (by omega)]
    exact h

/-! ## The plan -/

/-- The last number of the effective range, `0` if nothing was sent. -/
def rangeEnd (recovery : Option SessionRecoveryState) (endSeq : Nat) : Nat :=
  if endSeq ≠ 0 then endSeq else (recovery.map fun r => r.nextOutSeq - 1).getD 0

section

variable {σ : Type} [SessionStore σ] {store : StoreContent σ} {sessionId : Nat}

theorem planRange_planned (laws : Persists store sessionId) {s : σ}
    (hasc : Ascending (store.outbound sessionId s)) {beginSeq last : Nat} (hbegin : 1 ≤ beginSeq)
    (hlast : last < uint32Max) {fuel : Nat} (hfuel : last + 2 ≤ fuel) {r : Option ReplayPlan}
    (hr : (planRange fuel sessionId beginSeq last s).1 = .ok r) :
    ∃ plan, r = some plan ∧ beginSeq ≤ last ∧
      Planned (store.outbound sessionId s) beginSeq (last + 1) plan.chunks := by
  unfold planRange at hr
  by_cases hempty : last < beginSeq
  · rw [if_pos hempty] at hr
    cases hr
  · have hload := laws.loadOutbound hasc hbegin (not_lt.1 hempty)
    rw [if_neg hempty, bind_apply] at hr
    have hstart : Planning.Upto (store.outbound sessionId s) beginSeq beginSeq {} := .none
    obtain ⟨q, hq, hupto⟩ := planLoop_upto hasc
      (by unfold uint32Max at hlast; omega) (by omega) (by omega)
      (by omega : last + 1 - beginSeq < fuel) hstart
    revert hload hr
    generalize SessionStore.loadOutboundRange sessionId beginSeq last s = loaded
    obtain ⟨_ | records, s'⟩ := loaded
    · rintro ⟨⟩
    · rintro hr hload
      cases hload
      simp only [hq, Option.map_some, pure_apply] at hr
      cases hr
      exact ⟨_, rfl, not_lt.1 hempty, hupto.planned (by omega)⟩

/-- A plan is ready after as many rounds as the range has numbers, and it is one of the effective
range. -/
theorem buildReplayPlan_planned (laws : Persists store sessionId) {s : σ}
    (hasc : Ascending (store.outbound sessionId s)) {beginSeq endSeq : Nat} (hbegin : 1 ≤ beginSeq)
    (hend : endSeq < uint32Max)
    (hword : ∀ r ∈ store.recovery sessionId s, r.nextOutSeq ≤ uint32Max) {fuel : Nat}
    (hfuel : rangeEnd (store.recovery sessionId s) endSeq + 2 ≤ fuel) {r : Option ReplayPlan}
    (hr : (buildReplayPlan fuel sessionId beginSeq endSeq s).1 = .ok r) :
    let last := rangeEnd (store.recovery sessionId s) endSeq
    ∃ plan, r = some plan ∧ (last = 0 → plan.chunks = []) ∧
      (last ≠ 0 → beginSeq ≤ last ∧
        Planned (store.outbound sessionId s) beginSeq (last + 1) plan.chunks) := by
  intro last
  unfold buildReplayPlan at hr
  by_cases hid : sessionId = 0
  · rw [if_pos hid] at hr
    cases hr
  rw [if_neg hid, if_neg (by omega), bind_apply] at hr
  unfold effectiveEndSeq at hr
  by_cases hzero : endSeq = 0
  · rw [if_neg (by simpa using hzero), bind_apply] at hr
    have hsame := laws.loadRecovery_same s
    have hok := @laws.loadRecovery_ok s
    revert hr hsame hok
    generalize SessionStore.loadRecoveryState sessionId s = loaded
    obtain ⟨_ | recovery, s'⟩ := loaded
    · rintro ⟨⟩
    · intro hr hsame hok
      have hrecovery := hok rfl
      have hlast : last = recovery.nextOutSeq - 1 := by
        simp [last, rangeEnd, hzero, hrecovery]
      have hmax := hword recovery hrecovery
      simp only [pure_apply] at hr
      by_cases hnone : recovery.nextOutSeq ≤ 1
      · rw [if_pos hnone] at hr
        cases hr
        exact ⟨_, rfl, fun _ => rfl, fun h => by omega⟩
      · rw [if_neg hnone] at hr
        rw [← hsame.1] at hasc ⊢
        rw [← hlast] at hr
        obtain ⟨plan, rfl, hplan⟩ := planRange_planned laws hasc hbegin
          (by unfold uint32Max at *; omega) hfuel hr
        exact ⟨plan, rfl, fun h => by omega, fun _ => hplan⟩
  · rw [if_pos hzero, pure_apply] at hr
    have hlast : last = endSeq := by simp [last, rangeEnd, hzero]
    rw [← hlast] at hr
    obtain ⟨plan, rfl, hplan⟩ := planRange_planned laws hasc hbegin (by omega) hfuel hr
    exact ⟨plan, rfl, fun h => by omega, fun _ => hplan⟩

end

namespace Sample

def record (seqNum flags : Nat) : MessageRecord := ⟨1, seqNum, 0, flags, [], 0⟩

/-- A Logon, an order, a number that was not stored and another order. -/
def store : MemorySessionStore :=
  MemorySessionStore.modifySession 1 (fun d =>
    { d with
      outbound := [record 1 MessageRecord.adminFlag, record 2 0, record 4 0]
      recovery := some ⟨1, 1, 5, 0, 0, true⟩ }) {}

def plan : ReplayPlan where
  sessionId := 1
  requestBeginSeq := 1
  requestEndSeq := 4
  chunks := [⟨.gapFill, 1, 1, []⟩, ⟨.replay, 2, 2, [record 2 0]⟩, ⟨.gapFill, 3, 3, []⟩,
    ⟨.replay, 4, 4, [record 4 0]⟩]

end Sample

open ResendRecovery.Sample in
theorem buildReplayPlan_planned_orders :
    (buildReplayPlan 6 1 1 0 store).1 = .ok (some plan) ∧
      Planned (MemorySessionStore.content.outbound 1 store) 1 5 plan.chunks := by
  have hrun : (buildReplayPlan 6 1 1 0 store).1 = .ok (some plan) := by decide +kernel
  obtain ⟨p, hp, -, h⟩ := buildReplayPlan_planned (MemorySessionStore.persists 1) (s := store)
    (by unfold Ascending; decide +kernel) le_rfl (by decide) (by decide +kernel) (by decide +kernel)
    hrun
  cases hp
  exact ⟨hrun, (h (by decide +kernel)).2⟩

end ResendRecovery

end NimbleFix
