import NimbleFix.Lib.Segments
import NimbleFix.Lib.Transition
import NimbleFix.Store.DurableContent

/-!
# The runs of a durable store

The operations of an open store, and what holds in every state they lead to: the archived segments
are within the limit and, with times that the code reads as it wrote them, each segment holds the
records of one day.
-/

namespace NimbleFix

/-! ## Operations -/

/-- An operation on an open durable store; `reopen` closes and opens it. -/
inductive DurableOp
  | saveOutbound (record : MessageRecord)
  | saveInbound (record : MessageRecord)
  | saveRecovery (state : SessionRecoveryState)
  | saveOutboundAndRecovery (record : MessageRecord) (state : SessionRecoveryState)
  | saveInboundAndRecovery (record : MessageRecord) (state : SessionRecoveryState)
  | flush
  | rollover
  | reset (sessionId : Nat)
  | refresh
  | reopen
  | loadOutbound (sessionId beginSeq endSeq : Nat)
  | loadInbound (sessionId beginSeq endSeq : Nat)
  | loadRecovery (sessionId : Nat)

namespace DurableOp

variable {o : DurableBatchStoreOptions}

open DurableBatchSessionStore

/-- The state an operation leaves, whether it succeeds or not. -/
def act : DurableOp → DurableBatchSessionStore o → DurableBatchSessionStore o
  | saveOutbound record, s => (appendMessageView (.outbound record) s).2
  | saveInbound record, s => (appendMessageView (.inbound record) s).2
  | saveRecovery state, s => (queueRecoveryState state s).2
  | saveOutboundAndRecovery record state, s =>
    (SessionStore.saveOutboundViewAndRecoveryState record state s).2
  | saveInboundAndRecovery record state, s =>
    (SessionStore.saveInboundViewAndRecoveryState record state s).2
  | flush, s => s.flush
  | rollover, s => s.rollover
  | reset sessionId, s => (resetSession sessionId s).2
  | refresh, s => (DurableBatchSessionStore.refresh s).2
  | reopen, s => (DurableBatchSessionStore.reopen s).2
  | loadOutbound sessionId beginSeq endSeq, s => (loadOutboundRange sessionId beginSeq endSeq s).2
  | loadInbound sessionId beginSeq endSeq, s => (loadInboundRange sessionId beginSeq endSeq s).2
  | loadRecovery sessionId, s => (loadRecoveryState sessionId s).2

/-- The records an operation saves. -/
def records : DurableOp → List MessageRecord
  | saveOutbound record => [record]
  | saveInbound record => [record]
  | saveOutboundAndRecovery record _ => [record]
  | saveInboundAndRecovery record _ => [record]
  | _ => []

end DurableOp

namespace DurableBatchSessionStore

variable {o : DurableBatchStoreOptions}

/-! ## What an operation can do -/

/-- The steps operations are made of, with records whose times are `ok`. A failed operation makes
none or stops after its first save. -/
inductive Step (ok : Nat → Prop) :
    DurableBatchSessionStore o → DurableBatchSessionStore o → Prop
  | append (record : LogRecord) (s : DurableBatchSessionStore o) :
      validateRecordView record.record = .ok () → ok record.record.timestampNs →
      Step ok s (s.append record)
  | queue (state : SessionRecoveryState) (s : DurableBatchSessionStore o) :
      state.sessionId ≠ 0 → Step ok s (s.enqueue (.recovery state))
  | flush (s : DurableBatchSessionStore o) : Step ok s s.flush
  | rollover (s : DurableBatchSessionStore o) : Step ok s s.rollover
  | reset (sessionId : Nat) (s : DurableBatchSessionStore o) :
      Step ok s (resetSession sessionId s).2
  | refresh (s : DurableBatchSessionStore o) : Step ok s (refresh s).2

open Relation (ReflTransGen)

variable {ok : Nat → Prop} {s s' : DurableBatchSessionStore o} {sessionId : Nat}

theorem appendMessageView_steps (record : LogRecord) (hok : ok record.record.timestampNs)
    (s : DurableBatchSessionStore o) : ReflTransGen (Step ok) s (appendMessageView record s).2 := by
  cases hvalid : validateRecordView record.record with
  | ok _ =>
    rw [appendMessageView_of_valid hvalid]
    exact .single (.append record s hvalid hok)
  | error e =>
    have happend : appendMessageView record s = (.error e, s) := by
      unfold appendMessageView
      rw [hvalid]
      rfl
    rw [happend]

theorem queueRecoveryState_steps (state : SessionRecoveryState) (s : DurableBatchSessionStore o) :
    ReflTransGen (Step ok) s (queueRecoveryState state s).2 := by
  unfold queueRecoveryState
  split
  · exact .refl
  · rename_i hid
    exact .single (.queue state s hid)

theorem saveBoth_steps (record : LogRecord) (hok : ok record.record.timestampNs)
    (state : SessionRecoveryState) (s : DurableBatchSessionStore o) :
    ReflTransGen (Step ok) s
      ((do appendMessageView record; queueRecoveryState state :
        Method (DurableBatchSessionStore o) Unit) s).2 := by
  have hfirst := appendMessageView_steps record hok s
  match happend : appendMessageView record s with
  | (.ok _, s₁) =>
    rw [happend] at hfirst
    rw [Fallible.bind_of_ok happend]
    exact hfirst.trans (queueRecoveryState_steps state s₁)
  | (.error e, s₁) =>
    rw [happend] at hfirst
    rw [Fallible.bind_of_error happend]
    exact hfirst

theorem act_steps {op : DurableOp} (hok : ∀ r ∈ op.records, ok r.timestampNs)
    (s : DurableBatchSessionStore o) : ReflTransGen (Step ok) s (op.act s) := by
  cases op with
  | saveOutbound record =>
    exact appendMessageView_steps (.outbound record) (hok record (List.mem_singleton_self _)) s
  | saveInbound record =>
    exact appendMessageView_steps (.inbound record) (hok record (List.mem_singleton_self _)) s
  | saveRecovery state => exact queueRecoveryState_steps state s
  | saveOutboundAndRecovery record state =>
    exact saveBoth_steps (.outbound record) (hok record (List.mem_singleton_self _)) state s
  | saveInboundAndRecovery record state =>
    exact saveBoth_steps (.inbound record) (hok record (List.mem_singleton_self _)) state s
  | flush => exact .single (.flush s)
  | rollover => exact .single (.rollover s)
  | reset sessionId => exact .single (.reset sessionId s)
  | refresh => exact .single (.refresh s)
  | reopen => exact .tail (.single (.flush s)) (.refresh s.flush)
  | loadOutbound sessionId beginSeq endSeq =>
    change ReflTransGen _ s (loadOutboundRange sessionId beginSeq endSeq s).2
    unfold loadOutboundRange
    split
    · exact .refl
    · exact .single (.flush s)
  | loadInbound sessionId beginSeq endSeq =>
    change ReflTransGen _ s (loadInboundRange sessionId beginSeq endSeq s).2
    unfold loadInboundRange
    split
    · exact .refl
    · exact .single (.flush s)
  | loadRecovery sessionId =>
    change ReflTransGen _ s (loadRecoveryState sessionId s).2
    unfold loadRecoveryState
    split <;> exact .single (.flush s)

theorem act_keeps {I : DurableBatchSessionStore o → Prop}
    (hstep : ∀ s s', Step ok s s' → I s → I s') {op : DurableOp}
    (hok : ∀ r ∈ op.records, ok r.timestampNs) (hs : I s) : I (op.act s) := by
  have hsteps := act_steps hok s
  generalize op.act s = s' at hsteps
  induction hsteps with
  | refl => exact hs
  | tail _ hlast ih => exact hstep _ _ hlast ih

/-! ## The limit on archived segments -/

theorem flush_withinLimit (h : s.WithinLimit) : s.flush.WithinLimit := by
  unfold WithinLimit
  rw [flush_archived]
  exact h

theorem archiveActive_withinLimit (h : s.WithinLimit) : (archiveActive s).WithinLimit := by
  unfold archiveActive
  split
  · exact h
  · exact prune_withinLimit _

theorem rollover_withinLimit (h : s.WithinLimit) :
    s.rollover.WithinLimit := archiveActive_withinLimit (flush_withinLimit h)

theorem rolloverBefore_withinLimit {record : LogRecord} (h : s.WithinLimit) :
    (s.rolloverBefore record).WithinLimit := by
  have hday : ∀ (day : Int) {s' : DurableBatchSessionStore o}, s'.WithinLimit →
      WithinLimit (if s'.activeDay.isNone then { s' with activeDay := some day } else s') := by
    intro day s' h'
    split <;> exact h'
  unfold rolloverBefore
  split
  · unfold rolloverFor
    refine hday _ ?_
    split
    · exact rollover_withinLimit h
    · exact h
  · exact h

theorem enqueue_withinLimit {entry : PendingEntry} (h : s.WithinLimit) :
    (s.enqueue entry).WithinLimit := by
  unfold enqueue
  dsimp only
  split
  · exact flush_withinLimit h
  · exact h

theorem append_withinLimit {record : LogRecord} (h : s.WithinLimit) :
    (s.append record).WithinLimit :=
  enqueue_withinLimit (s := { s.rolloverBefore record with arena := _ })
    (rolloverBefore_withinLimit h)

theorem Step.withinLimit (h : Step ok s s') (hs : s.WithinLimit) : s'.WithinLimit := by
  cases h with
  | append record s _ _ => exact append_withinLimit hs
  | queue state s _ => exact enqueue_withinLimit hs
  | flush s => exact flush_withinLimit hs
  | rollover s => exact rollover_withinLimit hs
  | reset sessionId s =>
    unfold resetSession
    split
    · exact hs
    · split
      · exact flush_withinLimit hs
      · exact prune_withinLimit _
  | refresh s => exact prune_withinLimit _

theorem reaches_withinLimit {ok : DurableOp → DurableBatchSessionStore o → Prop}
    (h : Reaches DurableOp.act ok {} s) : s.WithinLimit :=
  h.invariant (.inr (Nat.zero_le _)) fun _ _ hs _ =>
    act_keeps (fun _ _ (hstep : Step (fun _ => True) _ _) => hstep.withinLimit)
      (fun _ _ => trivial) hs

/-! ## The records of the log -/

/-- The records of the active segment, written and queued. -/
def current (s : DurableBatchSessionStore o) : List LogRecord :=
  s.active ++ s.pending.filterMap (·.message?)

theorem logged_eq (s : DurableBatchSessionStore o) :
    s.logged = s.archived.flatten ++ s.current := List.append_assoc ..

theorem flush_current (s : DurableBatchSessionStore o) : s.flush.current = s.current := by
  unfold current
  rw [flush_pending, flush_active, List.filterMap_nil, List.append_nil]

theorem hasMessages_iff : s.hasMessages ↔ s.current ≠ [] := by
  unfold hasMessages current
  cases s.active with
  | nil =>
    rw [List.nil_append, Ne, List.filterMap_eq_nil_iff]
    simp [Option.isSome_iff_ne_none]
  | cons r rs => simp

/-- The state before the day of the record is noted: archived if the record is of another day. -/
def rolled (day : Int) (s : DurableBatchSessionStore o) : DurableBatchSessionStore o :=
  if s.RollsFor day then s.rollover else s

theorem rolloverFor_eq (day : Int) (s : DurableBatchSessionStore o) :
    s.rolloverFor day =
      { s.rolled day with activeDay := some ((s.rolled day).activeDay.getD day) } := by
  change (if (s.rolled day).activeDay.isNone then { s.rolled day with activeDay := some day }
    else s.rolled day) = _
  generalize s.rolled day = s'
  obtain ⟨archived, active, states, pending, arena, activeDay⟩ := s'
  cases activeDay <;> rfl

/-- Save the records one after the other. -/
def appendAll (s : DurableBatchSessionStore o) (records : List LogRecord) :
    DurableBatchSessionStore o :=
  records.foldl (fun s r => s.append r) s

/-- The record is not the session's. -/
def LogRecord.isOther (sessionId : Nat) (r : LogRecord) : Bool := r.record.sessionId ≠ sessionId

/-- The store that holds the records of the other sessions, all written. -/
def copyWithout (s : DurableBatchSessionStore o) (sessionId : Nat) : DurableBatchSessionStore o :=
  (appendAll {} (s.logged.filter (·.isOther sessionId))).flush

theorem rebuild_of_valid {records : List LogRecord}
    (hvalid : ∀ r ∈ records, validateRecordView r.record = .ok ()) :
    rebuild sessionId records s = (.ok (), s.appendAll (records.filter (·.isOther sessionId))) := by
  induction records generalizing s with
  | nil => rfl
  | cons record records ih =>
    have hrest : ∀ r ∈ records, validateRecordView r.record = .ok () :=
      fun r hr => hvalid r (List.mem_cons_of_mem _ hr)
    by_cases hid : record.record.sessionId = sessionId
    · have hcopy : copyRecord sessionId record s = (.ok (), s) := by
        unfold copyRecord
        rw [if_pos hid]
        rfl
      rw [List.filter_cons_of_neg (by simpa [LogRecord.isOther] using hid)]
      exact (Fallible.bind_of_ok hcopy).trans (ih hrest)
    · have hcopy : copyRecord sessionId record s = (.ok (), s.append record) := by
        unfold copyRecord
        rw [if_neg hid]
        exact appendMessageView_of_valid (hvalid record List.mem_cons_self) s
      rw [List.filter_cons_of_pos (by simpa [LogRecord.isOther] using hid)]
      exact (Fallible.bind_of_ok hcopy).trans (ih hrest)

/-- The store after a reset: the copy, and the states of the other sessions. -/
def resetTo (s : DurableBatchSessionStore o) (sessionId : Nat) : DurableBatchSessionStore o :=
  prune ⟨(s.copyWithout sessionId).archived, (s.copyWithout sessionId).active,
    Function.update s.flush.recoveryStates sessionId none, [], [],
    detectActiveDay o (s.copyWithout sessionId).active⟩

theorem resetSession_of_valid (hvalid : ∀ r ∈ s.logged, validateRecordView r.record = .ok ())
    (hid : sessionId ≠ 0) : resetSession sessionId s = (.ok (), s.resetTo sessionId) := by
  unfold resetSession
  rw [if_neg hid, flush_log, rebuild_of_valid hvalid]
  rfl

theorem recoveryStates_none (h : s.recovered sessionId = none) :
    s.recoveryStates sessionId = none := by
  unfold recovered at h
  generalize s.recoveryStates sessionId = state at h ⊢
  generalize s.pending = entries at h
  induction entries generalizing state with
  | nil => exact h
  | cons entry entries ih =>
    have hentry := ih _ h
    cases entry with
    | message r => exact hentry
    | recovery state' =>
      change (if state'.sessionId = sessionId then some state' else state) = none at hentry
      split at hentry
      · cases hentry
      · exact hentry

/-- The log holds records whose times are `ok` and that can be saved again, and no state without a
session. -/
structure Saved (ok : Nat → Prop) (s : DurableBatchSessionStore o) : Prop where
  records : ∀ r ∈ s.logged, validateRecordView r.record = .ok () ∧ ok r.record.timestampNs
  recovered_zero : s.recovered 0 = none

namespace Saved

theorem start : Saved ok ({} : DurableBatchSessionStore o) := ⟨by simp [logged], rfl⟩

theorem flush (h : s.Saved ok) : s.flush.Saved ok := by
  obtain ⟨hlog, hstates⟩ := flush_sameLog s
  refine ⟨?_, (hstates 0).trans h.recovered_zero⟩
  rw [hlog]
  exact h.records

theorem prune (h : s.Saved ok) : (prune s).Saved ok := by
  unfold DurableBatchSessionStore.prune
  split
  · exact h
  · refine ⟨fun r hr => h.records r ?_, h.recovered_zero⟩
    rw [logged_eq, List.mem_append] at hr ⊢
    refine hr.imp_left fun hr => ?_
    obtain ⟨segment, hsegment, hr⟩ := List.mem_flatten.1 hr
    exact List.mem_flatten.2 ⟨segment, List.mem_of_mem_drop hsegment, hr⟩

theorem archiveActive (h : s.Saved ok) (hpending : s.pending = []) :
    (archiveActive s).Saved ok := by
  unfold DurableBatchSessionStore.archiveActive
  split
  · exact h
  · refine prune ⟨fun r hr => h.records r ?_, h.recovered_zero⟩
    simpa [logged, hpending] using hr

theorem rollover (h : s.Saved ok) : s.rollover.Saved ok := h.flush.archiveActive (flush_pending s)

theorem rolled (h : s.Saved ok) (day : Int) : (s.rolled day).Saved ok := by
  unfold DurableBatchSessionStore.rolled
  split
  · exact h.rollover
  · exact h

theorem enqueue {entry : PendingEntry}
    (h : Saved (o := o) ok { s with pending := s.pending ++ [entry] }) :
    (s.enqueue entry).Saved ok := by
  unfold DurableBatchSessionStore.enqueue
  dsimp only
  split
  · exact h.flush
  · exact h

theorem queued_state (h : s.Saved ok) {state : SessionRecoveryState} (hid : state.sessionId ≠ 0) :
    Saved (o := o) ok { s with pending := s.pending ++ [.recovery state] } := by
  refine ⟨?_, ?_⟩
  · simpa [logged, PendingEntry.message?] using h.records
  · have hzero := h.recovered_zero
    unfold recovered at hzero ⊢
    simp [recoverEntry, hzero, hid]

variable {record : LogRecord}

theorem queued_message (h : s.Saved ok) (hvalid : validateRecordView record.record = .ok ())
    (hok : ok record.record.timestampNs) (arena : Bytes) :
    Saved (o := o) ok { s with arena, pending := s.pending ++ [.message record] } := by
  refine ⟨fun r hr => ?_, ?_⟩
  · have hlog : logged (o := o) { s with arena, pending := s.pending ++ [.message record] } =
        s.logged ++ [record] := by
      simp [logged, PendingEntry.message?]
    rw [hlog, List.mem_append, List.mem_singleton] at hr
    rcases hr with hr | rfl
    · exact h.records r hr
    · exact ⟨hvalid, hok⟩
  · have hzero := h.recovered_zero
    unfold recovered at hzero ⊢
    simp [recoverEntry, hzero]

theorem queue (h : s.Saved ok) {state : SessionRecoveryState} (hid : state.sessionId ≠ 0) :
    (s.enqueue (.recovery state)).Saved ok := enqueue (h.queued_state hid)

theorem rolloverBefore (h : s.Saved ok) (record : LogRecord) :
    (s.rolloverBefore record).Saved ok := by
  unfold DurableBatchSessionStore.rolloverBefore
  split
  · rename_i day _
    rw [rolloverFor_eq]
    have hrolled := h.rolled day
    exact ⟨hrolled.records, hrolled.recovered_zero⟩
  · exact h

theorem append (h : s.Saved ok) (hvalid : validateRecordView record.record = .ok ())
    (hok : ok record.record.timestampNs) : (s.append record).Saved ok := by
  refine enqueue ((h.rolloverBefore record).queued_message ?_ ?_ _)
  · rw [validateRecordView_queuedIn]
    exact hvalid
  · rw [timestampNs_queuedIn]
    exact hok

theorem appendAll {records : List LogRecord}
    (hsaved : ∀ r ∈ records, validateRecordView r.record = .ok () ∧ ok r.record.timestampNs)
    (h : s.Saved ok) : (s.appendAll records).Saved ok := by
  induction records generalizing s with
  | nil => exact h
  | cons record records ih =>
    obtain ⟨hvalid, hok⟩ := hsaved record List.mem_cons_self
    exact ih (fun r hr => hsaved r (List.mem_cons_of_mem _ hr)) (h.append hvalid hok)

theorem refresh (h : s.Saved ok) : (refresh s).2.Saved ok := by
  have hzero := recoveryStates_none h.recovered_zero
  refine prune ⟨fun r hr => h.records r ?_, hzero⟩
  unfold logged at hr ⊢
  rw [List.filterMap_nil, List.append_nil] at hr
  exact List.mem_append_left _ hr

theorem resetSession_eq (h : s.Saved ok) (hid : sessionId ≠ 0) :
    resetSession sessionId s = (.ok (), s.resetTo sessionId) :=
  resetSession_of_valid (fun r hr => (h.records r hr).1) hid

theorem copyWithout (h : s.Saved ok) (sessionId : Nat) : (s.copyWithout sessionId).Saved ok :=
  (start.appendAll fun r hr => h.records r (List.mem_of_mem_filter hr)).flush

theorem reset (h : s.Saved ok) (sessionId : Nat) : (resetSession sessionId s).2.Saved ok := by
  by_cases hid : sessionId = 0
  · unfold resetSession
    rw [if_pos hid]
    exact h
  · rw [h.resetSession_eq hid]
    refine prune ⟨(h.copyWithout sessionId).records, ?_⟩
    change Function.update s.flush.recoveryStates sessionId none 0 = none
    rw [Function.update_of_ne (Ne.symm hid), flush_recoveryStates]
    exact h.recovered_zero

end Saved

theorem Step.saved (h : Step ok s s') (hs : s.Saved ok) : s'.Saved ok := by
  cases h with
  | append record _ hvalid hok => exact hs.append hvalid hok
  | queue state _ hid => exact hs.queue hid
  | flush => exact hs.flush
  | rollover => exact hs.rollover
  | reset sessionId => exact hs.reset sessionId
  | refresh => exact hs.refresh

/-- In every state reached the records are those that were accepted. -/
theorem reaches_saved
    (h : Reaches DurableOp.act (fun op _ => ∀ r ∈ op.records, ok r.timestampNs) {} s) : s.Saved ok :=
  h.invariant Saved.start fun _ _ hs hok => act_keeps (fun _ _ hstep => hstep.saved) hok hs

/-! ## The days of the segments -/

variable (o) in
def LogRecord.day (r : LogRecord) : Option Int := recordDay o r.record.timestampNs

/-- A time that is set and that the cast to a signed number keeps. -/
def TimeInRange (timestampNs : Nat) : Prop := 0 < timestampNs ∧ timestampNs < 2 ^ 63

instance (timestampNs : Nat) : Decidable (TimeInRange timestampNs) :=
  inferInstanceAs (Decidable (_ ∧ _))

/-- The segments go by days: each archived one holds records of one day, and `activeDay` is the day
of the active one. -/
structure Orderly (s : DurableBatchSessionStore o) : Prop where
  archived_day : ∀ segment ∈ s.archived, ∃ day, ∀ r ∈ segment, r.day o = day
  active_day : ∀ r ∈ s.current, ∀ day, r.day o = some day → s.activeDay = some day
  active_empty : s.current = [] → s.activeDay = none

theorem Orderly.start : Orderly ({} : DurableBatchSessionStore o) where
  archived_day := by simp
  active_day := by simp [current]
  active_empty _ := rfl

/-- Either every record has a day or none has. -/
theorem LogRecord.day_isSome (r r' : LogRecord) : (r.day o).isSome = (r'.day o).isSome := by
  unfold LogRecord.day recordDay
  cases o.rolloverMode <;> simp

theorem current_day (h : ∀ r ∈ s.current, ∀ day, r.day o = some day → s.activeDay = some day) :
    ∃ day, ∀ r ∈ s.current, r.day o = day := by
  cases hcurrent : s.current with
  | nil => exact ⟨none, by simp⟩
  | cons first rest =>
    refine ⟨first.day o, fun r hr => ?_⟩
    rw [← hcurrent] at hr
    have hfirst : first ∈ s.current := by simp [hcurrent]
    cases hday : first.day o with
    | none =>
      have := LogRecord.day_isSome (o := o) r first
      rw [hday] at this
      simpa using this
    | some day =>
      have hsome := LogRecord.day_isSome (o := o) r first
      rw [hday] at hsome
      obtain ⟨day', hday'⟩ := Option.isSome_iff_exists.1 hsome
      rw [hday', ← h r hr day' hday', h first hfirst day hday]

theorem asInt64_of_lt {n : Nat} (h : n < 2 ^ 63) : asInt64 n = n := by
  unfold asInt64
  rw [Int.bmod_eq_of_le] <;> omega

theorem detectActiveDay_append (active : List LogRecord) {r : LogRecord}
    (hr : TimeInRange r.record.timestampNs) {day : Int} (hday : r.day o = some day) :
    detectActiveDay o (active ++ [r]) = some day := by
  unfold detectActiveDay
  dsimp only
  rw [List.foldl_append, List.foldl_cons, List.foldl_nil, if_pos (Nat.ne_of_gt hr.1)]
  unfold LogRecord.day recordDay at hday
  rw [asInt64_of_lt hr.2] at hday ⊢
  cases hmode : o.rolloverMode with
  | utcDay =>
    rw [hmode] at hday
    rw [← hday]
    simp
  | localTime =>
    rw [hmode] at hday
    rw [← hday]
    rfl
  | disabled => rw [hmode] at hday; cases hday
  | external => rw [hmode] at hday; cases hday

theorem detectActiveDay_day {active : List LogRecord}
    (hsaved : ∀ r ∈ active, TimeInRange r.record.timestampNs)
    (hone : ∃ day, ∀ r ∈ active, r.day o = day) :
    ∀ r ∈ active, ∀ day, r.day o = some day → detectActiveDay o active = some day := by
  intro r hr day hday
  obtain ⟨day', hone⟩ := hone
  obtain rfl : some day = day' := hday ▸ hone r hr
  obtain ⟨front, last, rfl⟩ := (List.eq_nil_or_concat active).resolve_left (List.ne_nil_of_mem hr)
  rw [List.concat_eq_append] at hsaved hone ⊢
  exact detectActiveDay_append front (hsaved last (by simp)) (hone last (by simp))

theorem flush_activeDay (s : DurableBatchSessionStore o) : s.flush.activeDay = s.activeDay := by
  have hfold : ∀ (entries : List PendingEntry) (s : DurableBatchSessionStore o),
      (entries.foldl writeEntry s).activeDay = s.activeDay := by
    intro entries
    induction entries with
    | nil => exact fun _ => rfl
    | cons entry entries ih =>
      intro s
      rw [List.foldl_cons, ih]
      cases entry <;> rfl
  exact hfold s.pending s

namespace Orderly

theorem flush (h : s.Orderly) : s.flush.Orderly where
  archived_day := by
    rw [flush_archived]
    exact h.archived_day
  active_day := by
    rw [flush_current, flush_activeDay]
    exact h.active_day
  active_empty := by
    rw [flush_current, flush_activeDay]
    exact h.active_empty

theorem prune (h : s.Orderly) : (prune s).Orderly := by
  refine ⟨?_, ?_, ?_⟩ <;> unfold DurableBatchSessionStore.prune <;> split
  · exact h.archived_day
  · exact fun segment hsegment => h.archived_day segment (List.mem_of_mem_drop hsegment)
  · exact h.active_day
  · exact h.active_day
  · exact h.active_empty
  · exact h.active_empty

theorem archiveActive (h : s.Orderly) (hpending : s.pending = []) :
    (archiveActive s).Orderly := by
  have hcurrent : s.current = s.active := by
    unfold current
    rw [hpending, List.filterMap_nil, List.append_nil]
  unfold DurableBatchSessionStore.archiveActive
  split
  · exact h
  · refine Orderly.prune ⟨?_, ?_, fun _ => rfl⟩
    · intro segment hsegment
      rcases List.mem_append.1 hsegment with hsegment | hsegment
      · exact h.archived_day segment hsegment
      · obtain rfl := List.mem_singleton.1 hsegment
        rw [← hcurrent]
        exact current_day h.active_day
    · simp [current, hpending]

theorem rollover (h : s.Orderly) : s.rollover.Orderly := h.flush.archiveActive (flush_pending s)

theorem enqueue {entry : PendingEntry}
    (h : Orderly (o := o) { s with pending := s.pending ++ [entry] }) : (s.enqueue entry).Orderly := by
  unfold DurableBatchSessionStore.enqueue
  dsimp only
  split
  · exact h.flush
  · exact h

theorem queue (h : s.Orderly) (state : SessionRecoveryState) :
    (s.enqueue (.recovery state)).Orderly := by
  have hcurrent : current (o := o) { s with pending := s.pending ++ [.recovery state] } =
      s.current := by
    simp [current, PendingEntry.message?]
  refine enqueue ⟨h.archived_day, ?_, ?_⟩
  · rw [hcurrent]
    exact h.active_day
  · rw [hcurrent]
    exact h.active_empty

theorem message (h : s.Orderly) {record : LogRecord} (activeDay : Option Int) (arena : Bytes)
    (hcurrent : ∀ r ∈ s.current, ∀ day, r.day o = some day → activeDay = some day)
    (hday : ∀ day, record.day o = some day → activeDay = some day) :
    (DurableBatchSessionStore.enqueue (o := o) (.message record)
      { s with activeDay, arena }).Orderly := by
  have hnew : current (o := o)
      { s with activeDay, arena, pending := s.pending ++ [.message record] } =
        s.current ++ [record] := by
    simp [current, PendingEntry.message?]
  refine enqueue ⟨h.archived_day, ?_, ?_⟩
  · intro r hr
    rw [hnew, List.mem_append, List.mem_singleton] at hr
    rcases hr with hr | rfl
    · exact hcurrent r hr
    · exact hday
  · intro hempty
    rw [hnew] at hempty
    simp at hempty

theorem rolled (h : s.Orderly) (day : Int) : (s.rolled day).Orderly := by
  unfold DurableBatchSessionStore.rolled
  split
  · exact h.rollover
  · exact h

theorem rolled_activeDay (h : s.Orderly) (day : Int) :
    (s.rolled day).activeDay.getD day = day := by
  unfold DurableBatchSessionStore.rolled
  split
  · rename_i hrolls
    have hactive : s.flush.active ≠ [] := by
      rw [flush_active]
      exact hasMessages_iff.1 hrolls.1
    unfold DurableBatchSessionStore.rollover DurableBatchSessionStore.archiveActive
    rw [if_neg (by simpa using hactive)]
    unfold DurableBatchSessionStore.prune
    split <;> rfl
  · rename_i hstays
    cases hday : s.activeDay with
    | none => rfl
    | some day' =>
      by_contra hne
      refine hstays ⟨hasMessages_iff.2 fun hempty => ?_, by simp [hday], ?_⟩
      · rw [h.active_empty hempty] at hday
        cases hday
      · rw [hday]
        exact fun heq => hne (Option.some.inj heq)

theorem append (h : s.Orderly) (record : LogRecord) : (s.append record).Orderly := by
  have hqueued : ∀ arena, (record.queuedIn arena).day o = record.day o := fun arena => by
    unfold LogRecord.day
    rw [timestampNs_queuedIn]
  unfold DurableBatchSessionStore.append rolloverBefore
  cases hday : recordDay o record.record.timestampNs with
  | none =>
    refine message h s.activeDay _ h.active_day fun day hrecord => ?_
    rw [hqueued, LogRecord.day, hday] at hrecord
    cases hrecord
  | some day =>
    have hrolled := h.rolled day
    dsimp only
    rw [rolloverFor_eq, h.rolled_activeDay day]
    refine message hrolled (some day) _ (fun r hr day' hr' => ?_) fun day' hrecord => ?_
    · have hactive := hrolled.active_day r hr day' hr'
      have hsame := h.rolled_activeDay day
      rw [hactive, Option.getD_some] at hsame
      rw [hsame]
    · rw [hqueued, LogRecord.day, hday] at hrecord
      exact hrecord

theorem appendAll (h : s.Orderly) (records : List LogRecord) : (s.appendAll records).Orderly := by
  induction records generalizing s with
  | nil => exact h
  | cons record records ih => exact ih (h.append record)

theorem detected {archived : List (List LogRecord)} {active : List LogRecord}
    {states : Nat → Option SessionRecoveryState}
    (harchived : ∀ segment ∈ archived, ∃ day, ∀ r ∈ segment, r.day o = day)
    (hactive : ∃ day, ∀ r ∈ active, r.day o = day)
    (htimes : ∀ r ∈ active, TimeInRange r.record.timestampNs) :
    Orderly (o := o) ⟨archived, active, states, [], [], detectActiveDay o active⟩ := by
  have hcurrent : current (o := o) ⟨archived, active, states, [], [], detectActiveDay o active⟩ =
      active := List.append_nil active
  refine ⟨harchived, ?_, ?_⟩
  · rw [hcurrent]
    exact detectActiveDay_day htimes hactive
  · rw [hcurrent]
    rintro rfl
    rfl

theorem refresh (h : s.Orderly) (hsaved : s.Saved TimeInRange) : (refresh s).2.Orderly := by
  have hactive : ∀ r ∈ s.active, r ∈ s.current := fun r hr => List.mem_append_left _ hr
  obtain ⟨day, hday⟩ := current_day h.active_day
  refine (detected h.archived_day ⟨day, fun r hr => hday r (hactive r hr)⟩ fun r hr => ?_).prune
  refine (hsaved.records r ?_).2
  rw [logged_eq]
  exact List.mem_append_right _ (hactive r hr)

theorem reset (h : s.Orderly) (hsaved : s.Saved TimeInRange) (sessionId : Nat) :
    (resetSession sessionId s).2.Orderly := by
  by_cases hid : sessionId = 0
  · unfold resetSession
    rw [if_pos hid]
    exact h
  · rw [hsaved.resetSession_eq hid]
    have hcopy : (s.copyWithout sessionId).Orderly := (Orderly.start.appendAll _).flush
    have hcurrent : (s.copyWithout sessionId).current = (s.copyWithout sessionId).active :=
      List.append_nil _
    obtain ⟨day, hday⟩ := current_day hcopy.active_day
    refine (detected hcopy.archived_day ⟨day, fun r hr => hday r (hcurrent ▸ hr)⟩
      fun r hr => ?_).prune
    refine ((hsaved.copyWithout sessionId).records r ?_).2
    rw [logged_eq, hcurrent]
    exact List.mem_append_right _ hr

end Orderly

theorem Step.orderly (h : Step TimeInRange s s') (hs : s.Saved TimeInRange ∧ s.Orderly) :
    s'.Saved TimeInRange ∧ s'.Orderly := by
  refine ⟨h.saved hs.1, ?_⟩
  cases h with
  | append record => exact hs.2.append record
  | queue state => exact hs.2.queue state
  | flush => exact hs.2.flush
  | rollover => exact hs.2.rollover
  | reset sessionId => exact hs.2.reset hs.1 sessionId
  | refresh => exact hs.2.refresh hs.1

/-- The times of the records an operation saves are in range. -/
def TimesInRange (op : DurableOp) : Prop := ∀ r ∈ op.records, TimeInRange r.timestampNs

instance (op : DurableOp) : Decidable (TimesInRange op) :=
  inferInstanceAs (Decidable (∀ r ∈ op.records, TimeInRange r.timestampNs))

theorem reaches_orderly (h : Reaches DurableOp.act (fun op _ => TimesInRange op) {} s) :
    s.Saved TimeInRange ∧ s.Orderly := by
  refine h.invariant (I := fun s => s.Saved TimeInRange ∧ s.Orderly) ⟨Saved.start, Orderly.start⟩
    fun _ _ hs hok => ?_
  exact act_keeps (fun _ _ hstep => hstep.orderly) hok hs

end DurableBatchSessionStore

end NimbleFix
