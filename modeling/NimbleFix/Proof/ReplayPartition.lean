import NimbleFix.Proof.Frames
import NimbleFix.Session.Sample
import NimbleFix.Spec.ReplayPlan

/-!
# The resend reply partitions the requested range

The cursor of `replayLoop` keeps the records from its number on (`ReplayCursor.Fits`). The inner
loop stops at the next application record or past the end, so the frames of the outer loop are a
`ReplayPlan`. Both loops move the cursor in every round, so their fuel is never used up.
-/

namespace NimbleFix

open Fallible

theorem Ascending.eq_of_seqNum_eq {content : List MessageRecord} (h : Ascending content)
    {r r' : MessageRecord} (hr : r ∈ content) (hr' : r' ∈ content) (heq : r.seqNum = r'.seqNum) :
    r = r' := by
  have hnodup : (content.map (·.seqNum)).Nodup :=
    List.pairwise_map.2 (h.imp fun hlt => Nat.ne_of_lt hlt)
  exact List.inj_on_of_nodup_map hnodup hr hr' heq

namespace ReplayCursor

/-! ## Progress -/

theorem nextSeq_eq {c : ReplayCursor} (h : c.seq + 1 < 2 ^ 32) : c.nextSeq = c.seq + 1 :=
  wrap32_of_lt h

theorem passed_seq (c : ReplayCursor) : c.passed.seq = c.nextSeq := by
  unfold passed
  split
  · split <;> rfl
  · rfl

variable {boundedEnd : Nat} (hbound : boundedEnd + 1 < 2 ^ 32)

include hbound in
theorem skipGap_stops : ∀ (fuel : Nat) (c : ReplayCursor), c.seq ≤ boundedEnd + 1 →
    boundedEnd + 1 - c.seq ≤ fuel →
      c.seq ≤ (skipGap boundedEnd fuel c).seq ∧ (skipGap boundedEnd fuel c).seq ≤ boundedEnd + 1 ∧
        ((skipGap boundedEnd fuel c).seq = boundedEnd + 1 ∨
          (skipGap boundedEnd fuel c).replayable.isSome)
  | 0, c, hle, hfuel => ⟨le_rfl, hle, .inl (by simp only [skipGap]; omega)⟩
  | fuel + 1, c, hle, hfuel => by
    unfold skipGap
    split
    · rename_i hstop
      exact ⟨le_rfl, hle, hstop.imp_left fun h => by omega⟩
    · rename_i hgo
      have hpass : c.passed.seq = c.seq + 1 := by
        rw [passed_seq, nextSeq_eq]
        omega
      obtain ⟨h₁, h₂, h₃⟩ := skipGap_stops fuel c.passed (by omega) (by omega)
      exact ⟨by omega, h₂, h₃⟩

include hbound in
theorem skipGap_moves {c : ReplayCursor} (hle : c.seq ≤ boundedEnd) (hnone : c.replayable = none) :
    c.seq < (skipGap boundedEnd (boundedEnd + 1) c).seq := by
  have hpass : c.passed.seq = c.seq + 1 := by
    rw [passed_seq, nextSeq_eq]
    omega
  unfold skipGap
  rw [if_neg (by simp [hnone]; omega)]
  have := (skipGap_stops hbound boundedEnd c.passed (by omega) (by omega)).1
  omega

include hbound in
theorem skipGap_fuel : ∀ (fuel extra : Nat) (c : ReplayCursor), boundedEnd + 1 - c.seq ≤ fuel →
    skipGap boundedEnd (fuel + extra) c = skipGap boundedEnd fuel c
  | 0, 0, _, _ => rfl
  | 0, extra + 1, c, hfuel => by
    simp only [skipGap]
    rw [if_pos (.inl (by omega))]
  | fuel + 1, extra, c, hfuel => by
    rw [Nat.add_right_comm, skipGap, skipGap]
    split
    · rfl
    · rename_i hgo
      have hpass : c.passed.seq = c.seq + 1 := by
        rw [passed_seq, nextSeq_eq]
        omega
      exact skipGap_fuel fuel extra c.passed (by omega)

/-! ## The records ahead -/

/-- The records of the cursor are those of `content` from its number up to the end. -/
structure Fits (content : List MessageRecord) (boundedEnd : Nat) (c : ReplayCursor) : Prop where
  ascending : Ascending c.records
  sound : ∀ r ∈ c.records, r ∈ content ∧ c.seq ≤ r.seqNum
  complete : ∀ r ∈ content, c.seq ≤ r.seqNum → r.seqNum ≤ boundedEnd → r ∈ c.records

namespace Fits

variable {content : List MessageRecord} {c : ReplayCursor}

theorem of_range (h : Ascending content) (beginSeq : Nat) :
    Fits content boundedEnd ⟨beginSeq, content.filter (·.inRange beginSeq boundedEnd)⟩ := by
  refine ⟨h.filter _, fun r hr => ?_, fun r hr hle hend => ?_⟩
  · simp only [List.mem_filter, MessageRecord.inRange, Bool.and_eq_true, decide_eq_true_eq] at hr
    exact ⟨hr.1, hr.2.1⟩
  · simp only [List.mem_filter, MessageRecord.inRange, Bool.and_eq_true, decide_eq_true_eq]
    exact ⟨hr, hle, hend⟩

theorem isReplayable (h : Fits content boundedEnd c) {r : MessageRecord}
    (hr : c.replayable = some r) :
    IsReplayable content c.seq r ∧ c.records = r :: c.records.tail := by
  obtain ⟨seq, records⟩ := c
  unfold replayable at hr
  cases records with
  | nil => cases hr
  | cons r' rs =>
    dsimp only at hr
    split at hr
    · rename_i hthis
      cases hr
      exact ⟨⟨(h.sound r (by simp)).1, hthis.1, by simpa using hthis.2⟩, rfl⟩
    · cases hr

theorem not_isReplayable (h : Fits content boundedEnd c) (hle : c.seq ≤ boundedEnd)
    (hnone : c.replayable = none) (r : MessageRecord) : ¬IsReplayable content c.seq r := by
  rintro ⟨hmem, hseq, hadmin⟩
  obtain ⟨seq, records⟩ := c
  dsimp only at hseq hle
  have hin := h.complete r hmem (by dsimp only; omega) (by omega)
  unfold replayable at hnone
  cases records with
  | nil => cases hin
  | cons r' rs =>
    rcases List.mem_cons.1 hin with rfl | hrest
    · simp [hseq, hadmin] at hnone
    · have hlt := (List.pairwise_cons.1 h.ascending).1 r hrest
      have hle' := (h.sound r' (by simp)).2
      dsimp only at hle'
      omega

theorem tail (h : Fits content boundedEnd c) {r : MessageRecord} {rs : List MessageRecord}
    (hrec : c.records = r :: rs) (hseq : r.seqNum = c.seq) :
    Fits content boundedEnd ⟨c.seq + 1, rs⟩ := by
  have hasc := h.ascending
  rw [hrec] at hasc
  obtain ⟨hr, hrs⟩ := List.pairwise_cons.1 hasc
  refine ⟨hrs, fun r' hr' => ?_, fun r' hr' hle hend => ?_⟩
  · have hlt := hr r' hr'
    exact ⟨(h.sound r' (by rw [hrec]; simp [hr'])).1, by dsimp only; omega⟩
  · dsimp only at hle
    have hin := h.complete r' hr' (by omega) hend
    rw [hrec] at hin
    rcases List.mem_cons.1 hin with rfl | hin
    · omega
    · exact hin

theorem passed (h : Fits content boundedEnd c) (hseq : c.seq + 1 < 2 ^ 32) :
    Fits content boundedEnd c.passed := by
  have hkeep : (∀ r ∈ c.records, c.seq + 1 ≤ r.seqNum) →
      Fits content boundedEnd ⟨c.nextSeq, c.records⟩ := fun hgt => by
    rw [nextSeq_eq hseq]
    exact ⟨h.ascending, fun r hr => ⟨(h.sound r hr).1, hgt r hr⟩,
      fun r hr hle hend => h.complete r hr (Nat.le_of_succ_le hle) hend⟩
  unfold ReplayCursor.passed
  cases hrec : c.records with
  | nil =>
    rw [hrec] at hkeep
    exact hkeep (by simp)
  | cons r rs =>
    dsimp only
    split
    · rw [nextSeq_eq hseq]
      exact h.tail hrec ‹_›
    · rename_i hne
      have hasc := h.ascending
      have hle := (h.sound r (by rw [hrec]; simp)).2
      rw [hrec] at hkeep hasc
      refine hkeep fun r' hr' => ?_
      rcases List.mem_cons.1 hr' with rfl | hin
      · omega
      · have := (List.pairwise_cons.1 hasc).1 r' hin
        omega

include hbound in
theorem skipGap : ∀ (fuel : Nat) {c : ReplayCursor}, Fits content boundedEnd c →
    c.seq ≤ boundedEnd + 1 →
      Fits content boundedEnd (c.skipGap boundedEnd fuel) ∧
        ∀ n r, c.seq ≤ n → n < (c.skipGap boundedEnd fuel).seq → ¬IsReplayable content n r
  | 0, c, h, _ => ⟨h, fun n r h₁ h₂ => by simp only [ReplayCursor.skipGap] at h₂; omega⟩
  | fuel + 1, c, h, hle => by
    unfold ReplayCursor.skipGap
    split
    · exact ⟨h, fun n r h₁ h₂ => by omega⟩
    · rename_i hgo
      rw [not_or, Option.not_isSome_iff_eq_none] at hgo
      have hpass : c.passed.seq = c.seq + 1 := by
        rw [passed_seq, nextSeq_eq]
        omega
      obtain ⟨hfits, hskip⟩ := skipGap fuel (h.passed (by omega)) (by omega)
      refine ⟨hfits, fun n r h₁ h₂ => ?_⟩
      rcases Nat.eq_or_lt_of_le h₁ with rfl | hlt
      · exact h.not_isReplayable (by omega) hgo.2 r
      · exact hskip n r (by omega) h₂

end Fits

end ReplayCursor

/-! ## Plans -/

namespace ReplayPlan

variable {content : List MessageRecord} {boundedEnd : Nat} {items : List ReplayItem}

theorem nil (content : List MessageRecord) (boundedEnd : Nat) :
    ReplayPlan content (boundedEnd + 1) boundedEnd [] where
  path := rfl
  message := by simp
  replayed := fun n r h₁ h₂ => by omega
  gapFill := by simp
  maximal := by simp

theorem first_le_next {n : Nat} (h : ReplayPlan content n boundedEnd items) :
    ∀ item ∈ items, item.first ≤ item.next := by
  rintro (r | ⟨first, next⟩) hitem
  · exact Nat.le_succ _
  · exact (h.gapFill first next hitem).1.le

theorem cons_message (hasc : Ascending content) {n : Nat} {r : MessageRecord}
    (hr : IsReplayable content n r) (h : ReplayPlan content (n + 1) boundedEnd items) :
    ReplayPlan content n boundedEnd (.message r :: items) where
  path := .cons hr.2.1 (congrArg (· + 1) hr.2.1) h.path
  message := by
    intro r' hr'
    rcases List.mem_cons.1 hr' with heq | hmem
    · cases heq
      exact ⟨hr.1, rfl, hr.2.2⟩
    · exact h.message r' hmem
  replayed := by
    intro m r' hle hend hr'
    rcases Nat.eq_or_lt_of_le hle with rfl | hlt
    · rw [hasc.eq_of_seqNum_eq hr'.1 hr.1 (hr'.2.1.trans hr.2.1.symm)]
      exact List.mem_cons_self
    · exact List.mem_cons_of_mem _ (h.replayed m r' hlt hend hr')
  gapFill := by
    intro first next hmem
    exact h.gapFill first next (by simpa using hmem)
  maximal := by
    intro first next hmem
    obtain ⟨hfirst, hnext⟩ := h.maximal first next (by simpa using hmem)
    refine ⟨.inr ?_, hnext⟩
    rcases hfirst with rfl | hprev
    · exact ⟨r, by simpa using hr⟩
    · exact hprev

theorem cons_gapFill {first next : Nat} (hlt : first < next)
    (hnone : ∀ n r, first ≤ n → n < next → ¬IsReplayable content n r)
    (hstop : next = boundedEnd + 1 ∨ ∃ r, IsReplayable content next r)
    (h : ReplayPlan content next boundedEnd items) :
    ReplayPlan content first boundedEnd (.gapFill first next :: items) where
  path := .cons rfl rfl h.path
  message := fun r hr => h.message r (by simpa using hr)
  replayed := by
    intro m r hle hend hr
    by_cases hm : m < next
    · exact absurd hr (hnone m r hle hm)
    · exact List.mem_cons_of_mem _ (h.replayed m r (by omega) hend hr)
  gapFill := by
    intro first' next' hmem
    rcases List.mem_cons.1 hmem with heq | hmem
    · cases heq
      exact ⟨hlt, hnone⟩
    · exact h.gapFill first' next' hmem
  maximal := by
    intro first' next' hmem
    rcases List.mem_cons.1 hmem with heq | hin
    · cases heq
      exact ⟨.inl rfl, hstop⟩
    · obtain ⟨hfirst, hnext⟩ := h.maximal first' next' hin
      refine ⟨.inr ?_, hnext⟩
      obtain ⟨hlt', hnone'⟩ := h.gapFill first' next' hin
      rcases hfirst with rfl | hprev
      · rcases hstop with hend | ⟨r, hr⟩
        · have := (h.path.mem_le h.first_le_next hin).2
          change next' ≤ _ at this
          omega
        · exact absurd hr (hnone' _ r le_rfl hlt')
      · exact hprev

end ReplayPlan

/-! ## The loop -/

section

variable (env : ProtocolEnv) {σ : Type} [SessionStore σ]

theorem buildGapFillFrame_encodedAs (hfields : GapFillFields env.dictionary) {first next ts : Nat}
    (hfirst : first ≠ 0) (time : Bytes) {p p' : AdminProtocol σ} {frame : EncodedFrame}
    (h : buildGapFillFrame env first next ts p = (.ok frame, p')) :
    ReplayItem.EncodedAs env time (.gapFill first next) frame := by
  obtain ⟨seqNum, sendingTime, hseq, hbytes, -, -, -, -⟩ := encodeFrameWith_ok h
  cases hseq
  refine ⟨?_, sendingTime, hbytes⟩
  have hframe := hasFields_encodeMessage (m := AdminMessage.gapFill next)
    [⟨Tag.gapFillFlag, .boolean true⟩, ⟨Tag.newSeqNo, .int next⟩] rfl
    (show MsgType.sequenceReset ≠ [] by decide) rfl ?_ hbytes
  · have hnumber : (frameOptions env (gapFillParams first) (gapFillParams first).seqOverride
        sendingTime).msgSeqNum = first := rfl
    rw [hnumber, if_neg hfirst] at hframe
    rw [← formatInt_natCast next]
    exact hframe
  · simp only [List.mem_cons, List.not_mem_nil, or_false, forall_eq_or_imp, forall_eq]
    exact ⟨⟨rfl, by decide, hfields.1⟩, rfl, by decide, hfields.2⟩

theorem replayFrame_encodedAs {time : Bytes} {r : MessageRecord} {frame : EncodedFrame}
    (h : replayFrame (replayOptions env time) r = .ok frame) :
    ReplayItem.EncodedAs env time (.message r) frame := by
  unfold replayFrame at h
  cases hp : decodeRawPassThrough soh false
      (if r.bodyStartOffset = 0 then none else some r.bodyStartOffset) r.payload with
  | error e => rw [hp] at h; cases h
  | ok parsed =>
    rw [hp] at h
    cases h
    exact ⟨hasHeader_encodeReplayInto parsed rfl, parsed, hp, rfl, rfl⟩

variable {content : List MessageRecord} {boundedEnd : Nat}

theorem replayLoop_plan (hfields : GapFillFields env.dictionary) (hasc : Ascending content)
    (hbound : boundedEnd + 1 < 2 ^ 32) (time : Bytes) (ts : Nat) :
    ∀ (fuel : Nat) {c : ReplayCursor} {p p' : AdminProtocol σ}
      {frames : List EncodedFrame} {last : ReplayCursor}, c.Fits content boundedEnd → c.seq ≠ 0 →
      c.seq ≤ boundedEnd + 1 → boundedEnd + 1 - c.seq ≤ fuel →
      replayLoop env (replayOptions env time) boundedEnd ts fuel c p = (.ok (frames, last), p') →
      ∃ items, ReplayPlan content c.seq boundedEnd items ∧
        List.Forall₂ (ReplayItem.EncodedAs env time) items frames
  | 0, c, p, p', frames, last, _, _, hle, hfuel, h => by
    cases h
    rw [show c.seq = boundedEnd + 1 by omega]
    exact ⟨[], .nil content boundedEnd, .nil⟩
  | fuel + 1, c, p, p', frames, last, hfits, hpos, hle, hfuel, h => by
    unfold replayLoop at h
    by_cases hend : boundedEnd < c.seq
    · rw [if_pos hend] at h
      cases h
      rw [show c.seq = boundedEnd + 1 by omega]
      exact ⟨[], .nil content boundedEnd, .nil⟩
    · rw [if_neg hend] at h
      cases hrep : c.replayable with
      | none =>
        rw [hrep] at h
        obtain ⟨gapFill, p₁, hgap, h⟩ := bind_ok h
        obtain ⟨⟨frames', last'⟩, p₂, hloop, h⟩ := bind_ok h
        cases h
        obtain ⟨hge, hstop, hwhy⟩ :=
          ReplayCursor.skipGap_stops hbound (boundedEnd + 1) c hle (by omega)
        have hmoves := ReplayCursor.skipGap_moves hbound (by omega) hrep
        obtain ⟨hfits', hnone⟩ := ReplayCursor.Fits.skipGap hbound (boundedEnd + 1) hfits hle
        obtain ⟨items, hplan, hframes⟩ := replayLoop_plan hfields hasc hbound time ts fuel hfits'
          (by omega) hstop (by omega) hloop
        refine ⟨_, .cons_gapFill hmoves hnone (hwhy.imp_right fun hsome => ?_) hplan,
          .cons (buildGapFillFrame_encodedAs env hfields hpos time hgap) hframes⟩
        obtain ⟨r, hr⟩ := Option.isSome_iff_exists.1 hsome
        exact ⟨r, (hfits'.isReplayable hr).1⟩
      | some r =>
        rw [hrep] at h
        obtain ⟨frame, p₁, hframe, h⟩ := bind_ok h
        obtain ⟨⟨frames', last'⟩, p₂, hloop, h⟩ := bind_ok h
        cases h
        obtain ⟨hr, hrec⟩ := hfits.isReplayable hrep
        have hfits' := hfits.tail hrec hr.2.1
        rw [ReplayCursor.nextSeq_eq (by omega)] at hloop
        obtain ⟨items, hplan, hframes⟩ := replayLoop_plan hfields hasc hbound time ts fuel hfits'
          (by simp) (by dsimp only; omega) (by dsimp only; omega) hloop
        exact ⟨_, .cons_message hasc hr hplan,
          .cons (replayFrame_encodedAs env (congrArg Prod.fst hframe)) hframes⟩

theorem replayLoop_fuel (hbound : boundedEnd + 1 < 2 ^ 32) (o : ReplayOptions) (ts : Nat) :
    ∀ (fuel extra : Nat) (c : ReplayCursor) (p : AdminProtocol σ), boundedEnd + 1 - c.seq ≤ fuel →
      replayLoop env o boundedEnd ts (fuel + extra) c p = replayLoop env o boundedEnd ts fuel c p
  | 0, 0, _, _, _ => rfl
  | 0, extra + 1, c, p, hfuel => by
    simp only [replayLoop]
    rw [if_pos (by omega)]
  | fuel + 1, extra, c, p, hfuel => by
    rw [Nat.add_right_comm, replayLoop, replayLoop]
    by_cases hend : boundedEnd < c.seq
    · rw [if_pos hend, if_pos hend]
    · rw [if_neg hend, if_neg hend]
      cases hrep : c.replayable with
      | none =>
        have hmoves := ReplayCursor.skipGap_moves hbound (by omega) hrep
        dsimp only
        rw [bind_apply, bind_apply]
        generalize buildGapFillFrame env c.seq
          (c.skipGap boundedEnd (boundedEnd + 1)).seq ts p = x
        obtain ⟨_ | gapFill, q⟩ := x
        · rfl
        · dsimp only
          rw [bind_apply, bind_apply, replayLoop_fuel hbound o ts fuel extra _ q (by omega)]
      | some r =>
        dsimp only
        rw [bind_apply, bind_apply]
        generalize (ofExcept (replayFrame o r) : Method (AdminProtocol σ) EncodedFrame) p = x
        obtain ⟨_ | frame, q⟩ := x
        · rfl
        · dsimp only
          rw [bind_apply, bind_apply, replayLoop_fuel hbound o ts fuel extra _ q (by
            dsimp only
            rw [ReplayCursor.nextSeq_eq (by omega)]
            omega)]

/-! ## The reply -/

theorem replayEnd_eq (nextOutSeq endSeq : Nat) :
    replayEnd nextOutSeq endSeq =
      if endSeq = 0 then nextOutSeq - 1 else min endSeq (nextOutSeq - 1) := by
  unfold replayEnd
  by_cases h : endSeq = 0
  · simp [h]
  · simp only [h, false_or, if_false]
    split <;> omega

theorem replayEnd_lt {nextOutSeq : Nat} (h : nextOutSeq < 2 ^ 32) (endSeq : Nat) :
    replayEnd nextOutSeq endSeq + 1 < 2 ^ 32 := by
  unfold replayEnd
  split <;> omega

/-- The frames of a reply are those of a plan for the range. -/
theorem replayOutbound_plan [LawfulSessionStore σ] (hfields : GapFillFields env.dictionary)
    {beginSeq endSeq ts : Nat} {p p' : AdminProtocol σ} {s : σ} (hstore : p.store = some s)
    (hasc : Ascending (LawfulSessionStore.outbound p.session.config.sessionId s))
    (hbegin : 1 ≤ beginSeq) (hout : p.session.nextOutSeq < 2 ^ 32) {frames : List EncodedFrame}
    (h : replayOutbound env beginSeq endSeq ts p = (.ok frames, p')) :
    (replayEnd p.session.nextOutSeq endSeq < beginSeq → frames = []) ∧
    (beginSeq ≤ replayEnd p.session.nextOutSeq endSeq → ∃ items time,
      ReplayPlan (LawfulSessionStore.outbound p.session.config.sessionId s) beginSeq
        (replayEnd p.session.nextOutSeq endSeq) items ∧
      List.Forall₂ (ReplayItem.EncodedAs env time) items frames) := by
  have hbound := replayEnd_lt hout endSeq
  simp only [replayOutbound, hstore] at h
  revert h hbound
  generalize replayEnd p.session.nextOutSeq endSeq = boundedEnd
  intro hbound h
  by_cases hempty : boundedEnd < beginSeq ∨ boundedEnd = 0
  · rw [if_pos hempty] at h
    cases h
    exact ⟨fun _ => rfl, fun hle => by omega⟩
  · rw [if_neg hempty] at h
    refine ⟨fun hlt => absurd (.inl hlt) hempty, fun hle => ?_⟩
    obtain ⟨records, p₁, hload, h⟩ := bind_ok h
    obtain ⟨time, p₂, _, h⟩ := bind_ok h
    obtain ⟨⟨frames', last⟩, p₃, hloop, h⟩ := bind_ok h
    cases h
    have hrecords : records =
        (LawfulSessionStore.outbound p.session.config.sessionId s).filter
          (·.inRange beginSeq boundedEnd) := by
      refine LawfulSessionStore.loadOutboundRange_eq hasc ?_
      simp only [onStore, hstore] at hload
      exact congrArg Prod.fst hload
    rw [hrecords] at hloop
    obtain ⟨items, hplan, hframes⟩ := replayLoop_plan env hfields hasc hbound time ts _
      (ReplayCursor.Fits.of_range hasc beginSeq) (by dsimp only; omega) (by dsimp only; omega)
      (by dsimp only; omega) hloop
    exact ⟨items, time, hplan, hframes⟩

end

/-- The sample acceptor after its Logon, an order, a heartbeat and another order. -/
def Sample.sentOrders : AdminProtocol MemorySessionStore :=
  let order := (MessageData.mk (ascii "D") [] []).set 11 (.string (ascii "order"))
  after acceptor
    [.connect 1, .inbound (logonFrame 1) 2, .send order {} 3, .timer 40000000000, .send order {} 5]

open Sample

end NimbleFix
