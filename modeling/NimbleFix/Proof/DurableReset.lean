import Mathlib.Algebra.Order.BigOperators.Group.List
import NimbleFix.Proof.DurableRun

/-!
# Resetting a session of a durable store

`ResetSession` saves the records of the other sessions again, into a store of its own. Each segment
of the copy ends where the day changes, and the records of the original are of one day in each
segment, so the copy has no more segments than the original and none of them is deleted. The
payloads of the copy are those of the original as long as no batch of it reaches 4 GiB.
-/

namespace NimbleFix

namespace DurableBatchSessionStore

variable {o : DurableBatchStoreOptions}

/-! ## The batches of the copy -/

theorem rolloverBefore_queue (record : LogRecord) (s : DurableBatchSessionStore o) :
    (s.rolloverBefore record).pending = s.pending ∧ (s.rolloverBefore record).arena = s.arena ∨
      (s.rolloverBefore record).pending = [] ∧ (s.rolloverBefore record).arena = [] := by
  unfold rolloverBefore
  split
  · rw [rolloverFor_eq]
    dsimp only
    unfold rolled
    split
    · right
      unfold rollover archiveActive prune
      split
      · exact ⟨rfl, rfl⟩
      · split <;> exact ⟨rfl, rfl⟩
    · exact .inl ⟨rfl, rfl⟩
  · exact .inl ⟨rfl, rfl⟩

section

variable {s : DurableBatchSessionStore o} {record : LogRecord}

theorem queuedIn_rolloverBefore (h : s.arena.length < 2 ^ 32) (record : LogRecord) :
    record.queuedIn (s.rolloverBefore record).arena = record := by
  refine LogRecord.queuedIn_of_lt ?_ record
  rcases rolloverBefore_queue record s with ⟨-, heq⟩ | ⟨-, heq⟩
  · rw [heq]
    exact h
  · rw [heq]
    exact Nat.two_pow_pos 32

/-- A save adds the record to the log if the queue holds less than 4 GiB. -/
theorem append_log (harena : s.arena.length < 2 ^ 32)
    (hroom : ∀ day, recordDay o record.record.timestampNs = some day → s.RollsFor day → s.Room) :
    (s.append record).logged = s.logged ++ [record] ∧
      ∀ sessionId, (s.append record).recovered sessionId = s.recovered sessionId := by
  have hsame := rolloverBefore_sameLog hroom
  unfold append
  dsimp only
  rw [queuedIn_rolloverBefore harena]
  obtain ⟨hlog, hstates⟩ := enqueue_message_log record (s.rolloverBefore record)
    ((s.rolloverBefore record).arena ++ record.record.payload)
  exact ⟨hlog.trans (by rw [hsame.1]), fun sessionId => (hstates sessionId).trans (hsame.2 sessionId)⟩

end

def payloadBytes (records : List LogRecord) : Nat :=
  (records.map fun r => r.record.payload.length).sum

variable (o) in
/-- Records in a row that can be queued together have less than 4 GiB of payload. -/
def Fitting (records : List LogRecord) : Prop :=
  ∀ batch, batch <:+: records → batch.length < max 1 o.flushThreshold → payloadBytes batch < 2 ^ 32

theorem Fitting.of_lt {records : List LogRecord} (h : payloadBytes records < 2 ^ 32) :
    Fitting o records := fun batch hbatch _ =>
  have hle : payloadBytes batch ≤ payloadBytes records :=
    (hbatch.sublist.map _).sum_le_sum fun _ _ => Nat.zero_le _
  hle.trans_lt h

/-- The records can be saved one after the other, each at an offset below 4 GiB. -/
def Appendable (s : DurableBatchSessionStore o) : List LogRecord → Prop
  | [] => True
  | record :: records => s.arena.length < 2 ^ 32 ∧ Appendable (s.append record) records

/-- The queue holds the last of the records that were saved and is not full. -/
structure Batch (saved : List LogRecord) (s : DurableBatchSessionStore o) : Prop where
  records : s.pending.filterMap (·.message?) <:+ saved
  arena : s.arena.length = payloadBytes (s.pending.filterMap (·.message?))
  short : s.pending.length < max 1 o.flushThreshold

namespace Batch

variable {s : DurableBatchSessionStore o} {saved records : List LogRecord}

theorem of_empty (hpending : s.pending = []) (harena : s.arena = []) : s.Batch saved := by
  refine ⟨?_, ?_, ?_⟩
  · rw [hpending]
    exact List.nil_suffix
  · rw [hpending, harena]
    rfl
  · rw [hpending]
    exact Nat.lt_of_lt_of_le Nat.one_pos (Nat.le_max_left ..)

theorem arena_lt (h : s.Batch saved) (hstart : saved <+: records) (hfits : Fitting o records) :
    s.arena.length < 2 ^ 32 := by
  rw [h.arena]
  exact hfits _ (h.records.isInfix.trans hstart.isInfix)
    ((List.length_filterMap_le ..).trans_lt h.short)

theorem enqueue {entry : PendingEntry}
    (hrecords : (s.pending ++ [entry]).filterMap (·.message?) <:+ saved)
    (harena : s.arena.length = payloadBytes ((s.pending ++ [entry]).filterMap (·.message?))) :
    (s.enqueue entry).Batch saved := by
  unfold DurableBatchSessionStore.enqueue
  dsimp only
  split
  · exact of_empty rfl rfl
  · rename_i hshort
    exact ⟨hrecords, harena, Nat.lt_of_not_le hshort⟩

theorem queue (h : s.Batch saved) (state : SessionRecoveryState) :
    (s.enqueue (.recovery state)).Batch saved := by
  have hsame : (s.pending ++ [PendingEntry.recovery state]).filterMap (·.message?) =
      s.pending.filterMap (·.message?) := by
    simp [PendingEntry.message?]
  exact enqueue (hsame ▸ h.records) (hsame ▸ h.arena)

theorem rolloverBefore (h : s.Batch saved) (record : LogRecord) :
    (s.rolloverBefore record).Batch saved := by
  rcases rolloverBefore_queue record s with ⟨hpending, harena⟩ | ⟨hpending, harena⟩
  · exact ⟨hpending ▸ h.records, by rw [hpending, harena]; exact h.arena, hpending ▸ h.short⟩
  · exact of_empty hpending harena

theorem append (h : s.Batch saved) (harena : s.arena.length < 2 ^ 32) (record : LogRecord) :
    (s.append record).Batch (saved ++ [record]) := by
  have hbefore := h.rolloverBefore record
  unfold DurableBatchSessionStore.append
  dsimp only
  rw [queuedIn_rolloverBefore harena]
  refine enqueue ?_ ?_
  · rw [List.filterMap_append]
    exact (List.suffix_append_inj_of_length_eq rfl).2 ⟨hbefore.records, rfl⟩
  · rw [List.filterMap_append, List.length_append, hbefore.arena]
    simp [payloadBytes, PendingEntry.message?]

theorem appendable {all : List LogRecord} (hfits : Fitting o all) :
    ∀ {records saved : List LogRecord} {s : DurableBatchSessionStore o},
      s.Batch saved → saved ++ records = all → s.Appendable records
  | [], _, _, _, _ => trivial
  | record :: _, saved, _, h, hall => by
    have harena := h.arena_lt ⟨_, hall⟩ hfits
    refine ⟨harena, appendable hfits (h.append harena record) ?_⟩
    rw [List.append_assoc, List.singleton_append]
    exact hall

end Batch

theorem Fitting.appendable {records : List LogRecord} (h : Fitting o records) :
    ({} : DurableBatchSessionStore o).Appendable records :=
  (Batch.of_empty rfl rfl).appendable h (List.nil_append _)

/-! ## The segments of the copy -/

/-- There is a day for each segment, in the order of the log and each another than the one before
it; the last is that of the active segment. -/
def SpreadOver (days : List (Option Int)) (s : DurableBatchSessionStore o) : Prop :=
  days.IsChain (· ≠ ·) ∧ days.Sublist (s.logged.map (LogRecord.day o)) ∧
    days.length = s.archived.length + 1 ∧ s.activeDay.isSome ∧ days.getLast? = some s.activeDay

/-- The segments are those the days ask for. -/
def Spread (s : DurableBatchSessionStore o) : Prop :=
  s.archived = [] ∨ ∃ days, s.SpreadOver days

theorem enqueue_archived (entry : PendingEntry) (s : DurableBatchSessionStore o) :
    (s.enqueue entry).archived = s.archived := by
  unfold enqueue
  dsimp only
  split
  · exact flush_archived _
  · rfl

theorem enqueue_activeDay (entry : PendingEntry) (s : DurableBatchSessionStore o) :
    (s.enqueue entry).activeDay = s.activeDay := by
  unfold enqueue
  dsimp only
  split
  · exact flush_activeDay _
  · rfl

theorem append_archived (record : LogRecord) (s : DurableBatchSessionStore o) :
    (s.append record).archived = (s.rolloverBefore record).archived := enqueue_archived ..

theorem append_activeDay (record : LogRecord) (s : DurableBatchSessionStore o) :
    (s.append record).activeDay = (s.rolloverBefore record).activeDay := enqueue_activeDay ..

variable {s s' : DurableBatchSessionStore o} {sessionId : Nat}

theorem Spread.of_rolls (h : s.Spread) (hs : s.Orderly) (record : LogRecord) {day : Int}
    (hday : record.day o = some day) (hrolls : s.RollsFor day) : ∃ days, s.SpreadOver days := by
  rcases h with harchived | h
  · obtain ⟨r, rest, hcurrent⟩ := List.exists_cons_of_ne_nil (hasMessages_iff.1 hrolls.1)
    have hr : r ∈ s.current := by simp [hcurrent]
    have hsome := LogRecord.day_isSome (o := o) r record
    rw [hday] at hsome
    obtain ⟨day', hday'⟩ := Option.isSome_iff_exists.1 hsome
    have hactive := hs.active_day r hr day' hday'
    refine ⟨[some day'], .singleton _, ?_, by simp [harchived], by simp [hactive], by simp [hactive]⟩
    rw [List.singleton_sublist, ← hday', logged_eq]
    exact List.mem_map_of_mem (List.mem_append_right _ hr)
  · exact h

/-- The days of the copy and the day of one more record. -/
theorem SpreadOver.isChain_append {days : List (Option Int)} (h : s.SpreadOver days) {day : Int}
    (hrolls : s.RollsFor day) : (days ++ [some day]).IsChain (· ≠ ·) := by
  rw [List.isChain_append]
  refine ⟨h.1, .singleton _, fun last hlast first hfirst => ?_⟩
  rw [h.2.2.2.2] at hlast
  cases hlast
  cases hfirst
  exact hrolls.2.2

/-- The days of a log in order, each another than the one before it, are no more than its
segments. -/
theorem Orderly.length_days_le (h : s.Orderly) {days : List (Option Int)}
    (hchain : days.IsChain (· ≠ ·)) (hsub : days.Sublist (s.logged.map (LogRecord.day o))) :
    days.length ≤ s.archived.length + 1 := by
  have hflatten : s.logged.map (LogRecord.day o) =
      ((s.archived ++ [s.current]).map (List.map (LogRecord.day o))).flatten := by
    rw [logged_eq, ← List.map_flatten, List.flatten_append, List.flatten_singleton]
  rw [hflatten] at hsub
  have hle := Segments.length_le_of_isChain ?_ hchain hsub
  · simpa using hle
  · intro segment hsegment a ha b hb
    obtain ⟨records, hrecords, rfl⟩ := List.mem_map.1 hsegment
    obtain ⟨day, hday⟩ : ∃ day, ∀ r ∈ records, r.day o = day := by
      rcases List.mem_append.1 hrecords with hrecords | hrecords
      · exact h.archived_day records hrecords
      · obtain rfl := List.mem_singleton.1 hrecords
        exact current_day h.active_day
    obtain ⟨r, hr, rfl⟩ := List.mem_map.1 ha
    obtain ⟨r', hr', rfl⟩ := List.mem_map.1 hb
    rw [hday r hr, hday r' hr']

section

variable {s t : DurableBatchSessionStore o} {record : LogRecord}

/-- There is room for one more segment of the copy: its days are days of the original. -/
theorem room_of_rolls (hs : s.Orderly) (hlimit : s.WithinLimit) (ht : t.Orderly)
    (hspread : t.Spread)
    (hsub : (t.logged ++ [record]).Sublist s.logged) (day : Int)
    (hday : recordDay o record.record.timestampNs = some day) (hrolls : t.RollsFor day) :
    t.Room := by
  obtain ⟨days, hdays⟩ := hspread.of_rolls ht record hday hrolls
  have hle : (days ++ [some day]).length ≤ s.archived.length + 1 := by
    refine hs.length_days_le (hdays.isChain_append hrolls) (List.Sublist.trans ?_ (hsub.map _))
    rw [List.map_append]
    refine hdays.2.1.append ?_
    rw [← hday]
    exact List.Sublist.refl _
  rw [List.length_append, hdays.2.2.1, List.length_singleton] at hle
  exact hlimit.imp_right fun h => by omega

theorem Spread.append (hs : s.Orderly) (hlimit : s.WithinLimit) (ht : t.Orderly)
    (hspread : t.Spread)
    (harena : t.arena.length < 2 ^ 32) (hsub : (t.logged ++ [record]).Sublist s.logged) :
    (t.append record).Spread := by
  have hroom := room_of_rolls hs hlimit ht hspread hsub
  have hlog := (append_log harena hroom).1
  unfold Spread SpreadOver
  rw [hlog, append_archived, append_activeDay, List.map_append]
  unfold rolloverBefore
  cases hday : recordDay o record.record.timestampNs with
  | none =>
    refine hspread.imp_right fun ⟨days, hchain, hdays, hrest⟩ => ⟨days, hchain, ?_, hrest⟩
    exact hdays.trans (List.sublist_append_left ..)
  | some day =>
    dsimp only
    rw [rolloverFor_eq, ht.rolled_activeDay]
    dsimp only
    unfold rolled
    split
    · rename_i hrolls
      obtain ⟨days, hdays⟩ := hspread.of_rolls ht record hday hrolls
      right
      refine ⟨days ++ [some day], hdays.isChain_append hrolls, ?_, ?_, rfl, by simp⟩
      · refine hdays.2.1.append ?_
        rw [← hday]
        exact List.Sublist.refl _
      · have hactive : t.flush.active ≠ [] := by
          rw [flush_active]
          exact hasMessages_iff.1 hrolls.1
        have hroll : t.rollover.archived = t.archived ++ [t.flush.active] := by
          unfold rollover archiveActive
          rw [if_neg (by simpa using hactive), prune_eq, flush_archived]
          refine (hroom day hday hrolls).imp_right fun h => ?_
          rw [flush_archived, List.length_append, List.length_singleton]
          exact h
        rw [hroll]
        simp [hdays.2.2.1]
    · rename_i hstays
      refine hspread.imp_right fun ⟨days, hchain, hdays, hlength, hsome, hlast⟩ => ?_
      obtain ⟨day', hday'⟩ := Option.isSome_iff_exists.1 hsome
      have hsame := ht.rolled_activeDay day
      unfold rolled at hsame
      rw [if_neg hstays, hday', Option.getD_some] at hsame
      refine ⟨days, hchain, hdays.trans (List.sublist_append_left ..), hlength, rfl, ?_⟩
      rw [hlast, hday', hsame]

theorem appendAll_log (hs : s.Orderly) (hlimit : s.WithinLimit) {records : List LogRecord} :
    ∀ {t : DurableBatchSessionStore o}, t.Orderly → t.Spread → t.Appendable records →
      (t.logged ++ records).Sublist s.logged →
      (t.appendAll records).logged = t.logged ++ records := by
  induction records with
  | nil => exact fun _ _ _ _ => (List.append_nil _).symm
  | cons record records ih =>
    rintro t ht hspread ⟨harena, hrecords⟩ hsub
    have hone : (t.logged ++ [record]).Sublist s.logged := by
      rw [List.append_cons] at hsub
      exact (List.sublist_append_left ..).trans hsub
    have hlog := (append_log harena (room_of_rolls hs hlimit ht hspread hone)).1
    have hrest := ih (ht.append record) (Spread.append hs hlimit ht hspread harena hone) hrecords
      (by rw [hlog, ← List.append_cons]; exact hsub)
    rw [hlog, ← List.append_cons] at hrest
    exact hrest

end

/-! ## The effect of a reset -/

theorem outboundIndex_filter {other : Nat} (hne : other ≠ sessionId) (records : List LogRecord) :
    outboundIndex other (records.filter (·.isOther sessionId)) = outboundIndex other records := by
  unfold outboundIndex
  generalize ([] : List MessageRecord) = index
  induction records generalizing index with
  | nil => rfl
  | cons r records ih =>
    by_cases hid : r.record.sessionId = sessionId
    · have hindex : indexRecord other index r = index := by
        cases r with
        | outbound record => exact if_neg fun h => hne (h.symm.trans hid)
        | inbound record => rfl
      rw [List.filter_cons_of_neg (by simpa [LogRecord.isOther] using hid), List.foldl_cons, hindex,
        ih]
    · rw [List.filter_cons_of_pos (by simpa [LogRecord.isOther] using hid), List.foldl_cons,
        List.foldl_cons, ih]

theorem inboundOf_filter {other : Nat} (hne : other ≠ sessionId) (records : List LogRecord) :
    inboundOf other (records.filter (·.isOther sessionId)) = inboundOf other records := by
  unfold inboundOf
  rw [List.filterMap_filter]
  refine List.filterMap_congr fun r _ => ?_
  cases r with
  | outbound record => simp
  | inbound record =>
    simp only [LogRecord.isOther, LogRecord.record]
    grind

theorem inboundOf_other {records : List LogRecord}
    (h : ∀ r ∈ records, r.record.sessionId ≠ sessionId) : inboundOf sessionId records = [] := by
  refine List.filterMap_eq_nil_iff.2 fun r hr => ?_
  cases r with
  | outbound record => rfl
  | inbound record => exact if_neg (h _ hr)

theorem appendAll_withinLimit {records : List LogRecord} (h : s.WithinLimit) :
    (s.appendAll records).WithinLimit := by
  induction records generalizing s with
  | nil => exact h
  | cons record records ih => exact ih (append_withinLimit h)

theorem resetSession_log {ok : Nat → Prop} (h : s.Orderly) (hsaved : s.Saved ok)
    (hlimit : s.WithinLimit) (hfits : Fitting o (s.logged.filter (·.isOther sessionId)))
    (hid : sessionId ≠ 0) :
    (resetSession sessionId s).2.logged = s.logged.filter (·.isOther sessionId) ∧
      ∀ other, (resetSession sessionId s).2.recovered other =
        Function.update s.recovered sessionId none other := by
  have hcopy : (s.copyWithout sessionId).logged = s.logged.filter (·.isOther sessionId) :=
    ((flush_sameLog _).1).trans
      (appendAll_log h hlimit Orderly.start (.inl rfl) hfits.appendable (List.filter_sublist ..))
  have hwithin : (s.copyWithout sessionId).WithinLimit :=
    flush_withinLimit (appendAll_withinLimit (.inr (Nat.zero_le _)))
  rw [hsaved.resetSession_eq hid, resetTo, prune_eq (by exact hwithin)]
  refine ⟨hcopy, fun other => ?_⟩
  change Function.update s.flush.recoveryStates sessionId none other = _
  rw [funext (flush_recoveryStates s)]

/-! ## What is loaded -/

theorem loadOutboundRange_fst (sessionId beginSeq endSeq : Nat) (s : DurableBatchSessionStore o) :
    (loadOutboundRange sessionId beginSeq endSeq s).1 =
      if beginSeq = 0 ∨ endSeq = 0 ∨ endSeq < beginSeq then
        .error (.InvalidArgument "invalid outbound load range")
      else .ok (MemorySessionStore.scanRange beginSeq endSeq (outboundIndex sessionId s.logged)) := by
  unfold loadOutboundRange
  rw [flush_log]
  split <;> rfl

theorem loadInboundRange_fst (sessionId beginSeq endSeq : Nat) (s : DurableBatchSessionStore o) :
    (loadInboundRange sessionId beginSeq endSeq s).1 =
      if beginSeq = 0 ∨ endSeq = 0 ∨ endSeq < beginSeq then
        .error (.InvalidArgument "invalid inbound load range")
      else .ok (MemorySessionStore.inboundRange beginSeq endSeq (inboundOf sessionId s.logged)) := by
  unfold loadInboundRange
  rw [flush_log]
  split <;> rfl

theorem loadRecoveryState_fst (sessionId : Nat) (s : DurableBatchSessionStore o) :
    (loadRecoveryState sessionId s).1 =
      match s.recovered sessionId with
      | none => .error (.NotFound "recovery state not found")
      | some state => .ok state := by
  unfold loadRecoveryState
  rw [flush_recoveryStates]
  split <;> simp [*]

/-- Every load for the session gives the same. -/
def SameLoads (sessionId : Nat) (s s' : DurableBatchSessionStore o) : Prop :=
  (∀ beginSeq endSeq, (loadOutboundRange sessionId beginSeq endSeq s').1 =
    (loadOutboundRange sessionId beginSeq endSeq s).1) ∧
  (∀ beginSeq endSeq, (loadInboundRange sessionId beginSeq endSeq s').1 =
    (loadInboundRange sessionId beginSeq endSeq s).1) ∧
  (loadRecoveryState sessionId s').1 = (loadRecoveryState sessionId s).1

theorem SameLoads.of_content
    (hout : outboundIndex sessionId s'.logged = outboundIndex sessionId s.logged)
    (hin : inboundOf sessionId s'.logged = inboundOf sessionId s.logged)
    (hstate : s'.recovered sessionId = s.recovered sessionId) : SameLoads sessionId s s' := by
  refine ⟨fun beginSeq endSeq => ?_, fun beginSeq endSeq => ?_, ?_⟩
  · rw [loadOutboundRange_fst, loadOutboundRange_fst, hout]
  · rw [loadInboundRange_fst, loadInboundRange_fst, hin]
  · rw [loadRecoveryState_fst, loadRecoveryState_fst, hstate]

theorem SameLog.sameLoads (h : SameLog s s') (sessionId : Nat) :
    SameLoads sessionId s s' := .of_content (by rw [h.1]) (by rw [h.1]) (h.2 sessionId)

theorem SameLoads.trans {s₁ s₂ s₃ : DurableBatchSessionStore o} (h : SameLoads sessionId s₁ s₂)
    (h' : SameLoads sessionId s₂ s₃) : SameLoads sessionId s₁ s₃ :=
  ⟨fun b e => (h'.1 b e).trans (h.1 b e), fun b e => (h'.2.1 b e).trans (h.2.1 b e),
    h'.2.2.trans h.2.2⟩

/-- Nothing is loaded for the session. -/
def Cleared (sessionId : Nat) (s : DurableBatchSessionStore o) : Prop :=
  (∀ beginSeq endSeq, 0 < beginSeq → beginSeq ≤ endSeq →
    (loadOutboundRange sessionId beginSeq endSeq s).1 = .ok []) ∧
  (∀ beginSeq endSeq, 0 < beginSeq → beginSeq ≤ endSeq →
    (loadInboundRange sessionId beginSeq endSeq s).1 = .ok []) ∧
  (loadRecoveryState sessionId s).1 = .error (.NotFound "recovery state not found")

theorem Cleared.of_content (h : ∀ r ∈ s.logged, r.record.sessionId ≠ sessionId)
    (hstate : s.recovered sessionId = none) : Cleared sessionId s := by
  refine ⟨fun beginSeq endSeq hb he => ?_, fun beginSeq endSeq hb he => ?_, ?_⟩
  · rw [loadOutboundRange_fst, if_neg (by omega), outboundIndex_other h]
    rfl
  · rw [loadInboundRange_fst, if_neg (by omega), inboundOf_other h]
    rfl
  · rw [loadRecoveryState_fst, hstate]

theorem Cleared.of_sameLoads (h : Cleared sessionId s) (hsame : SameLoads sessionId s s') :
    Cleared sessionId s' :=
  ⟨fun b e hb he => (hsame.1 b e).trans (h.1 b e hb he),
    fun b e hb he => (hsame.2.1 b e).trans (h.2.1 b e hb he), hsame.2.2.trans h.2.2⟩

theorem reopen_sameLog (hlimit : s.WithinLimit) : SameLog s (reopen s).2 := by
  refine (flush_sameLog s).trans ?_
  change SameLog s.flush (prune _)
  rw [prune_eq (by exact flush_withinLimit hlimit)]
  exact ⟨rfl, fun _ => rfl⟩

/-- The session has nothing left and the others have what they had. -/
def ResetOf (sessionId : Nat) (s s' : DurableBatchSessionStore o) : Prop :=
  Cleared sessionId s' ∧ ∀ other, other ≠ sessionId → SameLoads other s s'

theorem resetSession_resets {ok : Nat → Prop} (h : s.Orderly) (hsaved : s.Saved ok)
    (hlimit : s.WithinLimit) (hfits : Fitting o (s.logged.filter (·.isOther sessionId))) :
    ResetOf sessionId s (resetSession sessionId s).2 := by
  by_cases hid : sessionId = 0
  · have hreset : (resetSession sessionId s).2 = s := by
      unfold resetSession
      rw [if_pos hid]
    rw [hreset, hid]
    refine ⟨.of_content (fun r hr => ?_) hsaved.recovered_zero,
      fun _ _ => SameLog.sameLoads ⟨rfl, fun _ => rfl⟩ _⟩
    intro hzero
    have hvalid := (hsaved.records r hr).1
    unfold validateRecordView at hvalid
    rw [if_pos hzero] at hvalid
    cases hvalid
  · obtain ⟨hlog, hstates⟩ := resetSession_log h hsaved hlimit hfits hid
    refine ⟨.of_content (fun r hr => ?_) ?_, fun other hne => .of_content ?_ ?_ ?_⟩
    · rw [hlog] at hr
      simpa [LogRecord.isOther] using (List.mem_filter.1 hr).2
    · rw [hstates, Function.update_self]
    · rw [hlog, outboundIndex_filter hne]
    · rw [hlog, inboundOf_filter hne]
    · rw [hstates, Function.update_of_ne hne]

/-- A reset in any state of a run removes the session and nothing else, at once and after the store
is opened again, if no batch of the copy reaches 4 GiB. -/
theorem reset_removes_only_session {s : DurableBatchSessionStore o}
    (h : Reaches DurableOp.act (fun op _ => TimesInRange op) {} s) (sessionId : Nat)
    (hfits : Fitting o (s.logged.filter (·.isOther sessionId))) :
    (sessionId ≠ 0 → (resetSession sessionId s).1 = .ok ()) ∧
      ResetOf sessionId s (resetSession sessionId s).2 ∧
      ResetOf sessionId s (reopen (resetSession sessionId s).2).2 := by
  obtain ⟨hsaved, horderly⟩ := reaches_orderly h
  have hlimit := reaches_withinLimit h
  have hreset := resetSession_resets horderly hsaved hlimit hfits
  have hafter := Reaches.step (DurableOp.reset sessionId) h
    (by simp [TimesInRange, DurableOp.records])
  have hreopen := reopen_sameLog (reaches_withinLimit hafter)
  refine ⟨fun hid => by rw [hsaved.resetSession_eq hid], hreset, ?_, fun other hne => ?_⟩
  · exact hreset.1.of_sameLoads (hreopen.sameLoads sessionId)
  · exact (hreset.2 other hne).trans (hreopen.sameLoads other)

/-- Records of two sessions on two days, with at most one archived segment. -/
def sampleDays : List DurableOp :=
  [.saveOutbound ⟨1, 1, 1, 0, [], 0⟩, .saveInbound ⟨2, 1, kNanosPerDay, 0, [], 0⟩,
    .saveOutboundAndRecovery ⟨2, 1, kNanosPerDay, 0, [], 0⟩ ⟨2, 2, 2, 0, 0, true⟩]

theorem reset_removes_only_session_sampleDays :
    ResetOf 1 (sampleDays.foldl (fun s op => op.act s)
        ({} : DurableBatchSessionStore { maxArchivedSegments := 1 }))
      (resetSession 1 (sampleDays.foldl (fun s op => op.act s) {})).2 :=
  (reset_removes_only_session (.of_stepsOk sampleDays .start (by decide)) 1
    (.of_lt (by decide))).2.1

/-! ## A copy beyond 4 GiB -/

section

variable {s : DurableBatchSessionStore o} {record : LogRecord}

theorem append_of_short (hmode : o.rolloverMode = .disabled)
    (hshort : s.pending.length + 1 < max 1 o.flushThreshold) (record : LogRecord) :
    s.append record = { s with
      pending := s.pending ++ [.message (record.queuedIn s.arena)]
      arena := s.arena ++ record.record.payload } := by
  have hday : recordDay o record.record.timestampNs = none := by
    unfold recordDay
    rw [hmode]
  unfold append rolloverBefore enqueue
  rw [hday]
  dsimp only
  rw [List.length_append, List.length_singleton, if_neg (Nat.not_le.2 hshort)]

theorem append_flush_log (hkeep : o.maxArchivedSegments = 0) (harena : s.arena = []) :
    (s.append record).flush.logged = s.logged ++ [record] := by
  rw [(flush_sameLog _).1]
  exact (append_log (by rw [harena]; exact Nat.two_pow_pos 32) fun _ _ _ => .inl hkeep).1

end

/-- Records of session 2: one with the payload and two short ones. -/
def wideRecords (payload : Bytes) : List MessageRecord :=
  [⟨2, 1, 1, 0, payload, 0⟩, ⟨2, 2, 1, 0, [66], 0⟩, ⟨2, 3, 1, 0, [67], 0⟩]

/-- Each record is flushed on its own. -/
def wideStore (payload : Bytes) : DurableBatchSessionStore { rolloverMode := .disabled } :=
  ((wideRecords payload).flatMap fun r => [DurableOp.saveOutbound r, .flush]).foldl
    (fun s op => op.act s) {}

section

variable {payload rest : Bytes}

theorem validateRecordView_wide (h : payload.length ≤ uint32Max) :
    ∀ r ∈ wideRecords payload, validateRecordView r = .ok () := by
  intro r hr
  simp only [wideRecords, List.mem_cons, List.not_mem_nil, or_false] at hr
  rcases hr with rfl | rfl | rfl
  · unfold validateRecordView
    simp only [if_neg (Nat.not_lt.2 h)]
    rfl
  · rfl
  · rfl

theorem wideStore_logged (h : payload.length ≤ uint32Max) :
    (wideStore payload).logged = (wideRecords payload).map .outbound := by
  have hsave : ∀ {r : MessageRecord} {s : DurableBatchSessionStore { rolloverMode := .disabled }},
      r ∈ wideRecords payload → s.arena = [] →
      (DurableOp.flush.act (DurableOp.act (.saveOutbound r) s)).logged =
        s.logged ++ [.outbound r] := by
    intro r s hr harena
    change ((appendMessageView (.outbound r) s).2).flush.logged = _
    have hvalid : validateRecordView (LogRecord.outbound r).record = .ok () :=
      validateRecordView_wide h r hr
    rw [appendMessageView_of_valid hvalid]
    exact append_flush_log rfl harena
  unfold wideStore
  change logged (DurableOp.flush.act (DurableOp.act (.saveOutbound _) (DurableOp.flush.act
    (DurableOp.act (.saveOutbound _) (DurableOp.flush.act (DurableOp.act (.saveOutbound _) _)))))) = _
  rw [hsave (by simp [wideRecords]) rfl, hsave (by simp [wideRecords]) rfl,
    hsave (by simp [wideRecords]) rfl]
  rfl

/-- The copy reads the third payload at the start of the first: its offset is 4 GiB. -/
theorem appendAll_wide (h : (65 :: rest).length = uint32Max) :
    (appendAll ({} : DurableBatchSessionStore { rolloverMode := .disabled })
      ((wideRecords (65 :: rest)).map .outbound)).logged =
    [.outbound ⟨2, 1, 1, 0, 65 :: rest, 0⟩, .outbound ⟨2, 2, 1, 0, [66], 0⟩,
      .outbound ⟨2, 3, 1, 0, [65], 0⟩] := by
  have hthird : LogRecord.queuedIn (65 :: rest ++ [66]) (.outbound ⟨2, 3, 1, 0, [67], 0⟩) =
      .outbound ⟨2, 3, 1, 0, [65], 0⟩ := by
    unfold LogRecord.queuedIn
    rw [List.length_append, h]
    rfl
  have hone := LogRecord.queuedIn_of_lt (show ([] : Bytes).length < 2 ^ 32 from Nat.two_pow_pos 32)
    (.outbound ⟨2, 1, 1, 0, 65 :: rest, 0⟩)
  have htwo := LogRecord.queuedIn_of_lt (show (65 :: rest).length < 2 ^ 32 by rw [h]; decide)
    (.outbound ⟨2, 2, 1, 0, [66], 0⟩)
  have hfirst : append (.outbound ⟨2, 1, 1, 0, 65 :: rest, 0⟩)
      ({} : DurableBatchSessionStore { rolloverMode := .disabled }) =
        { pending := [.message (.outbound ⟨2, 1, 1, 0, 65 :: rest, 0⟩)], arena := 65 :: rest } := by
    rw [append_of_short rfl (by decide), hone]
    rfl
  have hsecond : append (.outbound ⟨2, 2, 1, 0, [66], 0⟩)
      ({ pending := [.message (.outbound ⟨2, 1, 1, 0, 65 :: rest, 0⟩)], arena := 65 :: rest } :
        DurableBatchSessionStore { rolloverMode := .disabled }) =
        { pending := [.message (.outbound ⟨2, 1, 1, 0, 65 :: rest, 0⟩),
            .message (.outbound ⟨2, 2, 1, 0, [66], 0⟩)], arena := 65 :: rest ++ [66] } := by
    rw [append_of_short rfl (by simp), htwo]
    rfl
  unfold wideRecords appendAll
  rw [List.map_cons, List.map_cons, List.map_cons, List.map_nil, List.foldl_cons, List.foldl_cons,
    List.foldl_cons, List.foldl_nil, hfirst, hsecond, append_of_short rfl (by simp), hthird]
  rfl

theorem reset_wide (h : (65 :: rest).length = uint32Max) :
    Reaches DurableOp.act (fun op _ => TimesInRange op) {} (wideStore (65 :: rest)) ∧
      (loadOutboundRange 2 3 3 (wideStore (65 :: rest))).1 = .ok [⟨2, 3, 1, 0, [67], 0⟩] ∧
      (resetSession 1 (wideStore (65 :: rest))).1 = .ok () ∧
      (loadOutboundRange 2 3 3 (resetSession 1 (wideStore (65 :: rest))).2).1 =
        .ok [⟨2, 3, 1, 0, [65], 0⟩] := by
  have hlogged := wideStore_logged h.le
  have hvalid : ∀ r ∈ (wideStore (65 :: rest)).logged, validateRecordView r.record = .ok () := by
    rw [hlogged]
    intro r hr
    obtain ⟨record, hrecord, rfl⟩ := List.mem_map.1 hr
    exact validateRecordView_wide h.le record hrecord
  have hreset := resetSession_of_valid hvalid Nat.one_ne_zero
  have hcopy : (resetTo (wideStore (65 :: rest)) 1).logged = [.outbound ⟨2, 1, 1, 0, 65 :: rest, 0⟩,
      .outbound ⟨2, 2, 1, 0, [66], 0⟩, .outbound ⟨2, 3, 1, 0, [65], 0⟩] := by
    unfold resetTo
    rw [prune_eq (.inl rfl), ← appendAll_wide h, ← (flush_sameLog _).1]
    unfold copyWithout
    rw [hlogged]
    rfl
  refine ⟨.of_stepsOk _ .start ?_, ?_, ?_, ?_⟩
  · simp [StepsOk, TimesInRange, TimeInRange, DurableOp.records, wideRecords]
  · rw [loadOutboundRange_fst, hlogged]
    rfl
  · rw [hreset]
  · rw [hreset, loadOutboundRange_fst, hcopy]
    rfl

end

/-- With a first payload as long as the store accepts, a reset of session 1 changes what session 2
loads. -/
theorem reset_copies_other_payload :
    let s := wideStore (65 :: List.replicate (uint32Max - 1) 65)
    Reaches DurableOp.act (fun op _ => TimesInRange op) {} s ∧
      (loadOutboundRange 2 3 3 s).1 = .ok [⟨2, 3, 1, 0, [67], 0⟩] ∧
      (resetSession 1 s).1 = .ok () ∧
      (loadOutboundRange 2 3 3 (resetSession 1 s).2).1 = .ok [⟨2, 3, 1, 0, [65], 0⟩] :=
  reset_wide (by rw [List.length_cons, List.length_replicate]; rfl)

end DurableBatchSessionStore

end NimbleFix
