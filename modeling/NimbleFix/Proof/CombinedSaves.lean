import NimbleFix.Proof.RolloverStop

/-!
# Combined saves and stops of the process

A frame is saved together with the recovery state that goes with it, and the process stops between
two file operations. A frame that is recovered without its state comes from a batch that ends
between the two, from a flush that has written the header of the index and not yet that of the
recovery log, or from a rollover that is writing the recovery log again. At every other stop at
which the files open, the recovered numbers are ahead of the recovered frames.
-/

namespace NimbleFix

namespace DurableBatchSessionStore

variable {o : DurableBatchStoreOptions}

/-! ## Histories -/

/-- A frame and the recovery state saved with it, which the store accepts. -/
structure CombinedSave where
  record : LogRecord
  state : SessionRecoveryState
  valid : validateRecordView record.record = .ok ()
  session : state.sessionId = record.record.sessionId

namespace CombinedSave

/-- `SaveOutboundViewAndRecoveryState` or `SaveInboundViewAndRecoveryState`. -/
def entries (c : CombinedSave) : List PendingEntry := [.message c.record, .recovery c.state]

/-- The state is ahead of the frame, if that is a sent one or a received one in order. -/
def CoveredBy (state : SessionRecoveryState) (c : CombinedSave) : Prop :=
  match c.record with
  | .outbound r => r.seqNum < state.nextOutSeq
  | .inbound r => r.seqNum < c.state.nextInSeq → r.seqNum < state.nextInSeq

end CombinedSave

/-- The entries a history of combined saves enqueues. -/
def entriesOf (history : List CombinedSave) : List PendingEntry :=
  history.flatMap CombinedSave.entries

/-- Each state is ahead of the frames its session has saved up to it. -/
structure Consistent (history : List CombinedSave) : Prop where
  own : ∀ c ∈ history, c.CoveredBy c.state
  later : history.Pairwise fun c c' => c.state.sessionId = c'.state.sessionId →
    c.CoveredBy c'.state

/-- The recovered states are ahead of the recovered frames: of all sent ones, and of the received
ones that were in order when they were saved. -/
def Recovered (history : List CombinedSave) (d : Disk) : Prop :=
  ∀ sessionId,
    (∀ r ∈ d.outbound sessionId, ∃ state, d.recoveryState sessionId = some state ∧
      r.seqNum < state.nextOutSeq) ∧
    ∀ r ∈ d.inbound sessionId,
      (∀ c ∈ history, c.record = .inbound r → r.seqNum < c.state.nextInSeq) →
        ∃ state, d.recoveryState sessionId = some state ∧ r.seqNum < state.nextInSeq

variable {history : List CombinedSave}

/-- The last state of a session is ahead of each of its frames. -/
theorem Consistent.lastState (h : Consistent history) {c : CombinedSave} (hc : c ∈ history) :
    ∃ state, Disk.lastState c.state.sessionId (history.map CombinedSave.state) = some state ∧
      c.CoveredBy state := by
  obtain ⟨hown, hlater⟩ := h
  -- from the end: the last save of the session decides
  induction history using List.reverseRecOn with
  | nil => cases hc
  | append_singleton history last ih =>
    obtain ⟨hpairs, -, hlast⟩ := List.pairwise_append.1 hlater
    rw [List.map_append, lastState_append]
    by_cases hid : last.state.sessionId = c.state.sessionId
    · refine ⟨last.state, by simp [Disk.lastState, hid], ?_⟩
      rcases List.mem_append.1 hc with hc | hc
      · exact hlast c hc last (List.mem_singleton_self _) hid.symm
      · obtain rfl := List.mem_singleton.1 hc
        exact hown c (by simp)
    · rcases List.mem_append.1 hc with hc | hc
      · obtain ⟨state, hstate, hcovered⟩ :=
          ih hc (fun c' hc' => hown c' (List.mem_append_left _ hc')) hpairs
        exact ⟨state, by simpa [Disk.lastState, hid] using hstate, hcovered⟩
      · obtain rfl := List.mem_singleton.1 hc
        exact absurd rfl hid

theorem Consistent.take (h : Consistent history) (n : Nat) : Consistent (history.take n) :=
  ⟨fun c hc => h.own c (List.mem_of_mem_take hc), h.later.sublist (List.take_sublist ..)⟩

theorem take_entriesOf (history : List CombinedSave) (n : Nat) :
    (entriesOf history).take (2 * n) = entriesOf (history.take n) := by
  induction history generalizing n with
  | nil => simp [entriesOf]
  | cons c history ih =>
    cases n with
    | zero => rfl
    | succ n =>
      rw [show 2 * (n + 1) = 2 * n + 1 + 1 by omega]
      exact congrArg (fun rest => PendingEntry.message c.record :: .recovery c.state :: rest) (ih n)

theorem statesOf_entriesOf (history : List CombinedSave) :
    statesOf (entriesOf history) = history.map CombinedSave.state := by
  induction history with
  | nil => rfl
  | cons c history ih => exact congrArg (c.state :: ·) ih

theorem messagesOf_entriesOf (history : List CombinedSave) :
    messagesOf (entriesOf history) = history.map CombinedSave.record := by
  induction history with
  | nil => rfl
  | cons c history ih => exact congrArg (c.record :: ·) ih

theorem messagesOf_combined (saved : List PendingEntry) (c : CombinedSave) :
    messagesOf (saved ++ [.message c.record] ++ [.recovery c.state]) =
      messagesOf saved ++ [c.record] := by
  simp [messagesOf, PendingEntry.message?]

theorem message_mem_entriesOf {r : LogRecord} (h : .message r ∈ entriesOf history) :
    ∃ c ∈ history, c.record = r := by
  obtain ⟨c, hc, hr⟩ := List.mem_flatMap.1 h
  simp only [CombinedSave.entries, List.mem_cons, List.not_mem_nil, or_false,
    PendingEntry.message.injEq, reduceCtorEq] at hr
  exact ⟨c, hc, hr.symm⟩

/-- What is read comes from the first `n` saves, all of them whole. -/
theorem Consistent.recovered (h : Consistent history) {n : Nat} {d : Disk}
    {written : List PendingEntry} (hwritten : written = (entriesOf history).take (2 * n))
    (houtbound : ∀ sessionId, ∀ r ∈ d.outbound sessionId,
      .message (.outbound r) ∈ written ∧ r.sessionId = sessionId)
    (hinbound : ∀ sessionId, ∀ r ∈ d.inbound sessionId,
      .message (.inbound r) ∈ written ∧ r.sessionId = sessionId)
    (hstates : ∀ sessionId,
      d.recoveryState sessionId = Disk.lastState sessionId (statesOf written)) :
    Recovered history d := by
  rw [hwritten, take_entriesOf] at houtbound hinbound hstates
  have hstate : ∀ r sessionId, .message r ∈ entriesOf (history.take n) →
      r.record.sessionId = sessionId → ∃ c ∈ history, c.record = r ∧
        ∃ state, d.recoveryState sessionId = some state ∧ c.CoveredBy state := by
    intro r sessionId hr hid
    obtain ⟨c, hc, rfl⟩ := message_mem_entriesOf hr
    obtain ⟨state, hlast, hcovered⟩ := (h.take n).lastState hc
    refine ⟨c, List.mem_of_mem_take hc, rfl, state, ?_, hcovered⟩
    rw [hstates, statesOf_entriesOf, ← hid, ← c.session]
    exact hlast
  intro sessionId
  refine ⟨fun r hr => ?_, fun r hr horder => ?_⟩
  · obtain ⟨hmem, hid⟩ := houtbound sessionId r hr
    obtain ⟨c, -, hrecord, state, hfound, hcovered⟩ := hstate _ sessionId hmem hid
    unfold CombinedSave.CoveredBy at hcovered
    rw [hrecord] at hcovered
    exact ⟨state, hfound, hcovered⟩
  · obtain ⟨hmem, hid⟩ := hinbound sessionId r hr
    obtain ⟨c, hc, hrecord, state, hfound, hcovered⟩ := hstate _ sessionId hmem hid
    unfold CombinedSave.CoveredBy at hcovered
    rw [hrecord] at hcovered
    exact ⟨state, hfound, hcovered (horder c hc hrecord)⟩

/-! ## What is written of a history -/

/-- Of the entries saved so far, `written` are in the files and the rest is queued. -/
structure Wrote (s : DurableBatchSessionStore o) (saved written : List PendingEntry) : Prop where
  saved_eq : saved = written ++ s.pending
  records : ∀ r ∈ s.written, .message r ∈ written
  states : ∀ sessionId, s.recoveryStates sessionId = Disk.lastState sessionId (statesOf written)

theorem mem_flatten_kept {archived : List (List LogRecord)} {active : List LogRecord}
    {r : LogRecord} (h : r ∈ (kept o (archived ++ [active])).flatten) :
    r ∈ archived.flatten ++ active := by
  rw [kept_eq_drop] at h
  obtain ⟨segment, hsegment, hr⟩ := List.mem_flatten.1 h
  have hmem := List.mem_flatten.2 ⟨segment, List.mem_of_mem_drop hsegment, hr⟩
  rwa [List.flatten_append, List.flatten_singleton] at hmem

theorem statesOf_append (entries entries' : List PendingEntry) :
    statesOf (entries ++ entries') = statesOf entries ++ statesOf entries' :=
  List.filterMap_append ..

namespace Wrote

variable {s : DurableBatchSessionStore o} {saved written : List PendingEntry}

theorem start : ({} : DurableBatchSessionStore o).Wrote [] [] :=
  ⟨rfl, fun _ h => absurd h List.not_mem_nil, fun _ => rfl⟩

theorem logged (h : s.Wrote saved written) : ∀ r ∈ s.logged, .message r ∈ saved := by
  intro r hr
  rw [h.saved_eq]
  rcases List.mem_append.1 hr with hr | hr
  · exact List.mem_append_left _ (h.records r hr)
  · exact List.mem_append_right _ (mem_messagesOf hr)

theorem queued (h : s.Wrote saved written) (entry : PendingEntry) :
    Wrote (o := o) { s with pending := s.pending ++ [entry] } (saved ++ [entry]) written :=
  ⟨by rw [h.saved_eq, List.append_assoc], h.records, h.states⟩

theorem with_memory (h : s.Wrote saved written) (arena : Bytes) (activeDay : Option Int) :
    Wrote (o := o) { s with arena, activeDay } saved written := ⟨h.saved_eq, h.records, h.states⟩

theorem flush (h : s.Wrote saved written) : s.flush.Wrote saved saved where
  saved_eq := (List.append_nil _).symm
  records r hr := h.logged r ((flush_log s) ▸ hr)
  states sessionId := by
    rw [flush_recoveryStates, h.saved_eq, statesOf_append, lastState_statesOf, ← h.states]
    rfl

theorem archiveActive (h : s.Wrote saved written) : (archiveActive s).Wrote saved written := by
  unfold DurableBatchSessionStore.archiveActive
  split
  · exact h
  · refine ⟨?_, fun r hr => h.records r ?_, fun sessionId => ?_⟩
    · rw [h.saved_eq]
      unfold prune
      split <;> rfl
    · unfold DurableBatchSessionStore.written at hr ⊢
      rw [prune_archived, prune_active, List.append_nil] at hr
      exact mem_flatten_kept hr
    · rw [prune_recoveryStates]
      exact h.states sessionId

theorem enqueue (h : s.Wrote saved written) (entry : PendingEntry) :
    ∃ written', (s.enqueue entry).Wrote (saved ++ [entry]) written' := by
  unfold DurableBatchSessionStore.enqueue
  dsimp only
  split
  · exact ⟨_, (h.queued entry).flush⟩
  · exact ⟨_, h.queued entry⟩

theorem rolloverBefore (h : s.Wrote saved written) (record : LogRecord) :
    ∃ written', (s.rolloverBefore record).Wrote saved written' := by
  unfold DurableBatchSessionStore.rolloverBefore
  split
  · rw [rolloverFor_eq]
    unfold rolled
    split
    · exact ⟨_, h.flush.archiveActive.with_memory _ _⟩
    · exact ⟨_, h.with_memory _ _⟩
  · exact ⟨_, h⟩

end Wrote

/-! ## What a stop recovers -/

theorem mem_outboundIndex_imp {sessionId : Nat} {records : List LogRecord} {r : MessageRecord}
    (h : r ∈ outboundIndex sessionId records) :
    .outbound r ∈ records ∧ r.sessionId = sessionId := by
  have hr := mem_outboundIndex.1 h
  obtain ⟨r', heq, hid, -⟩ := outboundAt_eq_some hr
  cases heq
  exact ⟨(List.mem_filter.1 (List.mem_of_getLast? hr)).1, hid⟩

theorem mem_inboundOf {sessionId : Nat} {records : List LogRecord} {r : MessageRecord}
    (h : r ∈ inboundOf sessionId records) : .inbound r ∈ records ∧ r.sessionId = sessionId := by
  obtain ⟨x, hx, heq⟩ := List.mem_filterMap.1 h
  cases x with
  | outbound record => cases heq
  | inbound record =>
    dsimp only at heq
    split at heq
    · rename_i hid
      cases heq
      exact ⟨hx, hid⟩
    · cases heq

section

variable {written : List PendingEntry} {d : Disk} {indexed all : List LogRecord}
  {states : List SessionRecoveryState}

/-- The files open to frames of whole saves at the start of the history, and to their states. -/
theorem Consistent.opensWith (h : Consistent history) (hstart : written <+: entriesOf history)
    (hwhole : written.length % 2 = 0) (hopens : OpensTo o indexed all states d)
    (hindexed : ∀ r, .outbound r ∈ indexed → .message (.outbound r) ∈ written)
    (hall : ∀ r, .inbound r ∈ all → .message (.inbound r) ∈ written)
    (hstates : ∀ sessionId, Disk.lastState sessionId states =
      Disk.lastState sessionId (statesOf written)) : OpensWith o (Recovered history) d := by
  obtain ⟨opened, hopen, hreads⟩ := hopens
  have hwritten : written = (entriesOf history).take (2 * (written.length / 2)) := by
    rw [Nat.mul_div_cancel' (Nat.dvd_of_mod_eq_zero hwhole)]
    exact List.prefix_iff_eq_take.1 hstart
  refine ⟨opened, hopen, h.recovered hwritten (fun sessionId r hr => ?_)
    (fun sessionId r hr => ?_) fun sessionId =>
      (hreads.recovery sessionId).trans (hstates sessionId)⟩
  · rw [hreads.outbound] at hr
    obtain ⟨hmem, hid⟩ := mem_outboundIndex_imp hr
    exact ⟨hindexed r hmem, hid⟩
  · rw [hreads.inbound] at hr
    obtain ⟨hmem, hid⟩ := mem_inboundOf hr
    exact ⟨hall r hmem, hid⟩

end

end DurableBatchSessionStore

namespace DurableFiles

open DurableBatchSessionStore

variable {o : DurableBatchStoreOptions}

/-! ## The stops of a history -/

/-- What has been written of `n` entries ends behind a state and not between a frame and its
state. -/
def Whole (n : Nat) (s : DurableBatchSessionStore o) : Prop := (n + s.pending.length) % 2 = 0

/-- The flags of a flush: once the header of the log is written the received frames of the batch
count, once that of the index is written the sent ones do, and their states only at the end. -/
def batchStops (whole : Prop) (s : DurableBatchSessionStore o) : List (DiskOp × Prop) :=
  flushStops whole (whole ∧ ¬s.pending.any (·.isInbound)) (whole ∧ ¬s.pending.any (·.isMessage))
    s.active.length s.pending

/-- The flags of the rollover before a record, with `n` entries saved: not while one of a pair of
files is missing, nor while the recovery log is written again. -/
def rolloverBeforeStops (n : Nat) (record : LogRecord) (f : DurableFiles o) :
    List (DiskOp × Prop) :=
  match recordDay o record.record.timestampNs with
  | some day =>
    if f.store.RollsFor day then
      batchStops (Whole n f.store) f.store ++
        if f.flush.store.active.isEmpty then [] else rollStops o False f.flush.disk
    else []
  | none => []

def enqueueStops (n : Nat) (entry : PendingEntry) (s : DurableBatchSessionStore o) :
    List (DiskOp × Prop) :=
  if max 1 o.flushThreshold ≤ s.pending.length + 1 then
    batchStops (o := o) (Whole n s) { s with pending := s.pending ++ [entry] }
  else []

def saveStops (n : Nat) : PendingEntry → DurableFiles o → List (DiskOp × Prop)
  | .message record, f =>
    match validateRecordView record.record with
    | .error _ => []
    | .ok _ =>
      let s := f.store.rolloverBefore record
      f.rolloverBeforeStops n record ++ enqueueStops n (.message (record.queuedIn s.arena)) s
  | .recovery state, f =>
    if state.sessionId = 0 then [] else enqueueStops n (.recovery state) f.store

def saveAllStops : Nat → List PendingEntry → DurableFiles o → List (DiskOp × Prop)
  | _, [], _ => []
  | n, entry :: entries, f => f.saveStops n entry ++ saveAllStops (n + 1) entries (f.save entry)

/-- The flags of the first `Open`. -/
def openStops : List (DiskOp × Prop) :=
  createStops 1 ++ [(.recovery .create, True), (.recovery .resize, True),
    (.recovery (.writeHeader 0), False)]

/-- The file operations of a history on an empty directory. -/
def historyOps (o : DurableBatchStoreOptions) (history : List CombinedSave) : List DiskOp :=
  openOps ++ saveAllOps (entriesOf history) (fresh : DurableFiles o)

/-- The operations of a history, each with whether the process may stop before it. -/
def historyStops (o : DurableBatchStoreOptions) (history : List CombinedSave) :
    List (DiskOp × Prop) :=
  openStops ++ saveAllStops 0 (entriesOf history) (fresh : DurableFiles o)

/-- The process may stop after `k` operations of the history. -/
def MayStop (o : DurableBatchStoreOptions) (history : List CombinedSave) (k : Nat) : Prop :=
  flagAt (historyStops o history)
    (Whole (entriesOf history).length
      (saveAll (entriesOf history) (fresh : DurableFiles o)).store) k

theorem map_fst_batchStops (whole : Prop) (s : DurableBatchSessionStore o) :
    (batchStops whole s).map Prod.fst = flushOps s := map_fst_flushStops ..

theorem map_fst_rolloverBeforeStops (n : Nat) (record : LogRecord) (f : DurableFiles o) :
    (f.rolloverBeforeStops n record).map Prod.fst = f.rolloverBeforeOps record := by
  unfold rolloverBeforeStops rolloverBeforeOps
  cases recordDay o record.record.timestampNs with
  | none => rfl
  | some day =>
    dsimp only
    split
    · unfold rolloverOps
      rw [List.map_append, map_fst_batchStops]
      split
      · rfl
      · rw [map_fst_rollStops]
    · rfl

theorem map_fst_enqueueStops (n : Nat) (entry : PendingEntry) (s : DurableBatchSessionStore o) :
    (enqueueStops n entry s).map Prod.fst = enqueueOps entry s := by
  unfold enqueueStops enqueueOps
  split
  · exact map_fst_batchStops ..
  · rfl

theorem map_fst_saveStops (n : Nat) (entry : PendingEntry) (f : DurableFiles o) :
    (f.saveStops n entry).map Prod.fst = f.saveOps entry := by
  cases entry with
  | message record =>
    unfold saveStops saveOps
    dsimp only
    cases validateRecordView record.record with
    | error e => rfl
    | ok _ =>
      dsimp only
      rw [List.map_append, map_fst_rolloverBeforeStops, map_fst_enqueueStops]
  | recovery state =>
    unfold saveStops saveOps
    dsimp only
    split
    · rfl
    · exact map_fst_enqueueStops ..

theorem map_fst_saveAllStops (n : Nat) (entries : List PendingEntry) (f : DurableFiles o) :
    (f.saveAllStops n entries).map Prod.fst = saveAllOps entries f := by
  induction entries generalizing n f with
  | nil => rfl
  | cons entry entries ih =>
    unfold saveAllStops saveAllOps
    rw [List.map_append, map_fst_saveStops, ih]

theorem map_fst_historyStops (history : List CombinedSave) :
    (historyStops o history).map Prod.fst = historyOps o history := by
  unfold historyStops historyOps
  rw [List.map_append, map_fst_saveAllStops]
  rfl

/-! ## Every stop of a history -/

section

variable {history : List CombinedSave} {saved written : List PendingEntry}

/-- What a stop with the flag set comes to. -/
def Recovers (o : DurableBatchStoreOptions) (history : List CombinedSave) (flag : Prop)
    (d : Disk) : Prop := flag → OpensWith o (Recovered history) d

variable {s : DurableBatchSessionStore o} {d : Disk} {f : DurableFiles o}

theorem whole_written (h : s.Wrote saved written) :
    Whole saved.length s ↔ written.length % 2 = 0 := by
  unfold Whole
  rw [h.saved_eq, List.length_append]
  omega

/-- Files that hold what the store has written, with some frames of the queue as well or not. -/
theorem opensWith_written {d' : Disk} {first : Nat} {states : List SessionRecoveryState}
    {indexed all : List LogRecord} (hhistory : Consistent history) (hdisk : s.OnDisk d first states)
    (hwrote : s.Wrote saved written) (hstart : saved <+: entriesOf history)
    (hwhole : written.length % 2 = 0)
    (hindexed : ∀ r, .outbound r ∈ indexed → .outbound r ∈ s.written)
    (hall : ∀ r, .inbound r ∈ all → .inbound r ∈ s.written)
    (hopens : OpensTo o indexed all states d') : OpensWith o (Recovered history) d' := by
  have hprefix : written <+: entriesOf history := by
    refine List.IsPrefix.trans ?_ hstart
    rw [hwrote.saved_eq]
    exact List.prefix_append ..
  exact hhistory.opensWith hprefix hwhole hopens (fun r hr => hwrote.records _ (hindexed r hr))
    (fun r hr => hwrote.records _ (hall r hr)) fun sessionId =>
      (hdisk.recovered sessionId).trans (hwrote.states sessionId)

theorem mem_logged_of_none {r : LogRecord} {kind : PendingEntry → Bool}
    (hkind : kind (.message r) = true) (hnone : ¬s.pending.any kind) (hr : r ∈ s.logged) :
    r ∈ s.written := by
  rcases List.mem_append.1 hr with hr | hr
  · exact hr
  · exact absurd (List.any_eq_true.2 ⟨_, mem_messagesOf hr, hkind⟩) hnone

theorem batch_atStops {first : Nat} {states : List SessionRecoveryState} {ok : Nat → Prop}
    {whole : Prop} (hhistory : Consistent history) (hdisk : s.OnDisk d first states)
    (hsaved : s.Saved ok) (hlimit : s.WithinLimit) (hwrote : s.Wrote saved written)
    (hstart : saved <+: entriesOf history) (hwhole : whole → written.length % 2 = 0) :
    AtStops DiskOp.apply (Recovers o history) (batchStops whole s) d := by
  refine hdisk.flush_atStops hsaved hlimit (fun d' hd hflag => ?_) (fun _ d' hd hflag => ?_)
    fun _ d' hd hflag => ?_
  · exact opensWith_written hhistory hdisk hwrote hstart (hwhole hflag) (fun _ => id) (fun _ => id)
      hd
  · exact opensWith_written hhistory hdisk hwrote hstart (hwhole hflag.1) (fun _ => id)
      (fun _ => mem_logged_of_none rfl hflag.2) hd
  · exact opensWith_written hhistory hdisk hwrote hstart (hwhole hflag.1)
      (fun _ => mem_logged_of_none rfl hflag.2) (fun _ => mem_logged_of_none rfl hflag.2) hd

theorem rolloverBefore_atStops (hhistory : Consistent history) (hf : f.Sound)
    (hwrote : f.store.Wrote saved written) (hstart : saved <+: entriesOf history)
    (heven : saved.length % 2 = 0) (record : LogRecord) :
    AtStops DiskOp.apply (Recovers o history) (f.rolloverBeforeStops saved.length record)
      f.disk := by
  obtain ⟨first, states, hdisk⟩ := hf.mirrored
  unfold rolloverBeforeStops
  split
  · split
    · refine AtStops.append (batch_atStops hhistory hdisk hf.saved hf.limit hwrote hstart
        (whole_written hwrote).1) ?_
      rw [map_fst_batchStops]
      split
      · trivial
      · have hopens : ∀ {records : List LogRecord} {d' : Disk},
            (∀ r ∈ records, r ∈ f.store.flush.written) →
            OpensTo o records records (states ++ statesOf f.store.pending) d' →
            OpensWith o (Recovered history) d' := fun hrecords =>
          opensWith_written hhistory hdisk.flush hwrote.flush hstart heven
            (fun _ => hrecords _) (fun _ => hrecords _)
        exact hdisk.flush.roll_atStops hf.saved.flush (flush_withinLimit hf.limit)
          (fun d' hd _ => hopens (fun _ => id) hd) (fun _ _ => False.elim)
          (fun d' hd _ => hopens (fun _ => mem_flatten_kept) hd) fun _ _ => False.elim
    · trivial
  · trivial

theorem enqueue_atStops {entry : PendingEntry} (hhistory : Consistent history)
    (hmirrored : f.Mirrored) (hlimit : f.store.WithinLimit)
    (hsaved : DurableBatchSessionStore.Saved (o := o) (fun _ => True)
      { f.store with pending := f.store.pending ++ [entry] }) (hwrote : f.store.Wrote saved written)
    (hstart : saved ++ [entry] <+: entriesOf history) :
    AtStops DiskOp.apply (Recovers o history) (enqueueStops saved.length entry f.store) f.disk := by
  obtain ⟨first, states, hdisk⟩ :=
    hmirrored.with_memory (f.store.pending ++ [entry]) f.store.arena f.store.activeDay
  unfold enqueueStops
  split
  · exact batch_atStops hhistory hdisk hsaved hlimit (hwrote.queued entry) hstart
      (whole_written hwrote).1
  · trivial

theorem save_message {record : LogRecord} (hhistory : Consistent history) (hf : f.Sound)
    (hvalid : validateRecordView record.record = .ok ()) (harena : f.store.arena.length < 2 ^ 32)
    (hwrote : f.store.Wrote saved written)
    (hstart : saved ++ [.message record] <+: entriesOf history) (heven : saved.length % 2 = 0) :
    AtStops DiskOp.apply (Recovers o history) (f.saveStops saved.length (.message record)) f.disk ∧
      ∃ written', (f.save (.message record)).store.Wrote (saved ++ [.message record]) written' := by
  obtain ⟨before, hbefore⟩ := hwrote.rolloverBefore record
  have hrolled := hf.saved.rolloverBefore record
  constructor
  · unfold saveStops
    dsimp only
    rw [hvalid, queuedIn_rolloverBefore harena]
    refine (rolloverBefore_atStops hhistory hf hwrote
      ((List.prefix_append ..).trans hstart) heven record).append ?_
    rw [map_fst_rolloverBeforeStops]
    exact enqueue_atStops (f := f.write (f.rolloverBeforeOps record) (f.store.rolloverBefore record))
      hhistory (hf.mirrored.rolloverBefore record) (rolloverBefore_withinLimit hf.limit)
      (hrolled.queued_message hvalid trivial _) hbefore hstart
  · change ∃ written', (appendMessageView record f.store).2.Wrote _ written'
    rw [appendMessageView_of_valid hvalid, append, queuedIn_rolloverBefore harena]
    exact (hbefore.with_memory _ _).enqueue _

theorem save_recovery {state : SessionRecoveryState} (hhistory : Consistent history) (hf : f.Sound)
    (hid : state.sessionId ≠ 0) (hwrote : f.store.Wrote saved written)
    (hstart : saved ++ [.recovery state] <+: entriesOf history) :
    AtStops DiskOp.apply (Recovers o history) (f.saveStops saved.length (.recovery state)) f.disk ∧
      ∃ written', (f.save (.recovery state)).store.Wrote (saved ++ [.recovery state]) written' := by
  constructor
  · unfold saveStops
    dsimp only
    rw [if_neg hid]
    exact enqueue_atStops hhistory hf.mirrored hf.limit (hf.saved.queued_state hid) hwrote hstart
  · change ∃ written', (queueRecoveryState state f.store).2.Wrote _ written'
    unfold queueRecoveryState
    rw [if_neg hid]
    exact hwrote.enqueue _

/-- Every stop of the saves that are left, with whole saves behind. -/
theorem saveAll_atStops (hhistory : Consistent history)
    (hfits : Fitting o (history.map CombinedSave.record)) :
    ∀ (rest : List CombinedSave) {f : DurableFiles o} {saved written : List PendingEntry},
      f.Sound → f.store.Wrote saved written → f.store.Batch (messagesOf saved) →
      saved ++ entriesOf rest = entriesOf history → saved.length % 2 = 0 →
        AtStops DiskOp.apply (Recovers o history) (f.saveAllStops saved.length (entriesOf rest))
            f.disk ∧
          (saveAll (entriesOf rest) f).Sound ∧
          ∃ written', (saveAll (entriesOf rest) f).store.Wrote (entriesOf history) written'
  | [], f, saved, written, hf, hwrote, _, hrest, heven => by
    rw [show entriesOf [] = [] from rfl, List.append_nil] at hrest
    exact ⟨trivial, hf, written, hrest ▸ hwrote⟩
  | c :: rest, f, saved, written, hf, hwrote, hbatch, hrest, heven => by
    have hentries : saved ++ [.message c.record] ++ [.recovery c.state] ++ entriesOf rest =
        entriesOf history := by
      rw [← hrest]
      simp [entriesOf, CombinedSave.entries]
    have hstart : saved ++ [.message c.record] ++ [.recovery c.state] <+: entriesOf history :=
      ⟨_, hentries⟩
    have hid : c.state.sessionId ≠ 0 := by
      rw [c.session]
      intro hzero
      have hvalid := c.valid
      unfold validateRecordView at hvalid
      rw [if_pos hzero] at hvalid
      cases hvalid
    -- the frame
    have harena : f.store.arena.length < 2 ^ 32 := by
      refine hbatch.arena_lt ?_ hfits
      rw [← messagesOf_entriesOf, ← hrest]
      exact (List.prefix_append ..).filterMap _
    obtain ⟨hframe, written₁, hwrote₁⟩ := save_message hhistory hf c.valid harena hwrote
      ((List.prefix_append ..).trans hstart) heven
    have hf₁ := hf.act (.save (.message c.record))
    -- its state
    obtain ⟨hstate, written₂, hwrote₂⟩ := save_recovery hhistory hf₁ hid hwrote₁ hstart
    have hf₂ := hf₁.act (.save (.recovery c.state))
    have hbatch₂ : ((f.save (.message c.record)).save (.recovery c.state)).store.Batch
        (messagesOf (saved ++ [.message c.record] ++ [.recovery c.state])) := by
      rw [messagesOf_combined]
      change (queueRecoveryState c.state (appendMessageView c.record f.store).2).2.Batch _
      unfold queueRecoveryState
      rw [if_neg hid, appendMessageView_of_valid c.valid]
      exact (hbatch.append harena c.record).queue c.state
    have heven₂ : (saved ++ [.message c.record] ++ [.recovery c.state] :
        List PendingEntry).length % 2 = 0 := by
      simp only [List.length_append, List.length_singleton]
      omega
    obtain ⟨hlater, hdone⟩ :=
      saveAll_atStops hhistory hfits rest hf₂ hwrote₂ hbatch₂ hentries heven₂
    simp only [List.length_append, List.length_singleton] at hstate hlater
    refine ⟨?_, hdone⟩
    change AtStops _ _ (f.saveStops _ _ ++ (saveStops _ _ _ ++ saveAllStops _ _ _)) _
    refine hframe.append ?_
    rw [map_fst_saveStops]
    refine hstate.append ?_
    rw [map_fst_saveStops]
    exact hlater

/-- A directory without archived segments, with an active one that has no records and a recovery
log without states, or with those still to be made. -/
theorem opensWith_nothing (hhistory : Consistent history) (hlogs : d.archivedLogs = [])
    (hpair : d.log.isSome = d.index.isSome)
    (hactive : openSegment 1 (if d.log.isSome then none else some 1) d.log d.index =
      .ok (wholeSegment 1 [])) (hrecovery : openStoreFile 0 (some 0) d.recovery = .ok (0, [])) :
    OpensWith o (Recovered history) d := by
  have hopens : Opens o d (kept o (segmentsFrom 1 [])) (wholeSegment 1 []) [] := by
    refine opens_of_parts hlogs (fun _ h => absurd h List.not_mem_nil) List.nodup_nil hpair ?_
      hrecovery
    intro nextId hnext
    rw [hlogs] at hnext
    rw [hnext]
    exact hactive
  rw [kept_segmentsFrom, show kept o ([] : List (List LogRecord)) = [] by simp [kept]] at hopens
  have hreads : OpensTo o [] [] [] d := hopens.opensTo fun opened hholds => hholds.reads_whole
  exact hhistory.opensWith (List.nil_prefix ..) rfl hreads (fun _ h => absurd h List.not_mem_nil)
    (fun _ h => absurd h List.not_mem_nil) fun _ => rfl

theorem open_atStops (hhistory : Consistent history) :
    AtStops DiskOp.apply (Recovers o history) openStops {} :=
  ⟨fun _ => opensWith_nothing hhistory rfl rfl rfl rfl, False.elim, False.elim, False.elim,
    fun _ => opensWith_nothing hhistory rfl rfl rfl rfl, False.elim,
    fun _ => opensWith_nothing hhistory rfl rfl rfl rfl,
    fun _ => opensWith_nothing hhistory rfl rfl rfl rfl, False.elim, trivial⟩

theorem history_atStops (hhistory : Consistent history)
    (hfits : Fitting o (history.map CombinedSave.record)) :
    AtStops DiskOp.apply (Recovers o history) (historyStops o history) {} ∧
      Recovers o history (Whole (entriesOf history).length
        (saveAll (entriesOf history) (fresh : DurableFiles o)).store)
        (Disk.run (historyOps o history) {}) := by
  obtain ⟨hsaves, hsound, written, hwrote⟩ := saveAll_atStops hhistory hfits history
    (f := (fresh : DurableFiles o)) Sound.fresh Wrote.start (.of_empty rfl rfl)
    (List.nil_append _) rfl
  refine ⟨(open_atStops hhistory).append hsaves, fun hwhole => ?_⟩
  obtain ⟨first, states, hdisk⟩ := hsound.mirrored
  have hopens := hdisk.opensTo hsound.saved hsound.limit
  have hrun : (saveAll (entriesOf history) (fresh : DurableFiles o)).disk =
      Disk.run (historyOps o history) {} := by
    unfold historyOps Disk.run
    rw [runOps_append]
    exact (run_saveAllOps _ _).symm
  rw [hrun] at hopens
  exact opensWith_written hhistory hdisk hwrote (List.prefix_refl _)
    ((whole_written hwrote).1 hwhole) (fun _ => id) (fun _ => id) hopens

end

/-- At every stop the process may make, `Open` succeeds and the recovered numbers are ahead of the
recovered frames. -/
theorem combined_saves_recovered {history : List CombinedSave} (hhistory : Consistent history)
    (hfits : Fitting o (history.map CombinedSave.record)) {k : Nat} (hk : MayStop o history k) :
    OpensWith o (Recovered history) (Disk.run ((historyOps o history).take k) {}) := by
  obtain ⟨hstops, hdone⟩ := history_atStops hhistory hfits
  rw [← map_fst_historyStops] at hdone ⊢
  exact hstops.stopped _ hdone k hk

/-- The sent frame with number `n + 1` of session 1 and the state after it. -/
def sampleSave (n : Nat) : CombinedSave where
  record := .outbound ⟨1, n + 1, 1, 0, [], 0⟩
  state := ⟨1, 1, n + 2, 0, 0, true⟩
  valid := rfl
  session := rfl

/-- Four saves fill a batch of the default size. -/
def sampleHistory : List CombinedSave := [sampleSave 0, sampleSave 1, sampleSave 2, sampleSave 3]

theorem consistent_sampleHistory : Consistent sampleHistory := by
  constructor
  · simp [sampleHistory, sampleSave, CombinedSave.CoveredBy]
  · simp [sampleHistory, sampleSave, CombinedSave.CoveredBy]

/-- Before the header of the log is written nothing of the batch counts. -/
theorem combined_saves_recovered_data_written :
    OpensWith { flushThreshold := 2 } (Recovered [sampleSave 0])
      (Disk.run ((historyOps { flushThreshold := 2 } [sampleSave 0]).take 12) {}) :=
  have hhistory : Consistent [sampleSave 0] := consistent_sampleHistory.take 1
  combined_saves_recovered hhistory (.of_lt (by decide)) (k := 12) rfl

/-- With the headers of the log and the index written and that of the recovery log not yet, the
frames are recovered without their states. -/
theorem combined_save_split :
    Consistent sampleHistory ∧
      OpensWith {} (fun opened =>
          (opened.outbound 1).map (·.seqNum) = [1, 2, 3, 4] ∧ opened.recoveryState 1 = none)
        (Disk.run ((historyOps {} sampleHistory).take 23) {}) :=
  ⟨consistent_sampleHistory, _, rfl, rfl, rfl⟩

end DurableFiles

end NimbleFix
