import NimbleFix.Proof.RolloverStop

/-!
# Stops within `ResetSession`

The process stops between two file operations of `ResetSession`. The copy is made beside the files
of the store, so nothing is lost until the first of them is removed, and once the copy has taken
their place everything of the other sessions is there, if no batch of it reached 4 GiB. In between
the files of the store are removed one by one, and `Open` does not know of the copy.
-/

namespace NimbleFix

namespace DurableBatchSessionStore

variable {o : DurableBatchStoreOptions}

/-! ## The records a reset keeps -/

theorem prune_logged_suffix (s : DurableBatchSessionStore o) : (prune s).logged <:+ s.logged := by
  unfold prune
  split
  · exact List.suffix_refl _
  · refine ⟨(s.archived.take (s.archived.length - o.maxArchivedSegments)).flatten, ?_⟩
    unfold logged
    rw [← List.append_assoc, ← List.append_assoc, ← List.flatten_append, List.take_append_drop]

theorem rollover_logged_suffix (s : DurableBatchSessionStore o) :
    s.rollover.logged <:+ s.logged := by
  have hflush : s.flush.logged = s.logged := (flush_sameLog s).1
  unfold rollover archiveActive
  split
  · exact hflush ▸ List.suffix_refl _
  · refine (prune_logged_suffix _).trans ?_
    rw [← hflush]
    simp [logged, flush_pending]

theorem rolloverBefore_logged_suffix (record : LogRecord) (s : DurableBatchSessionStore o) :
    (s.rolloverBefore record).logged <:+ s.logged := by
  unfold rolloverBefore
  split
  · rw [rolloverFor_eq]
    change (s.rolled _).logged <:+ s.logged
    unfold rolled
    split
    · exact rollover_logged_suffix s
    · exact List.suffix_refl _
  · exact List.suffix_refl _

/-- Saving records drops nothing but what the limit deletes, the oldest first. -/
theorem appendAll_logged_suffix {records : List LogRecord} :
    ∀ {s : DurableBatchSessionStore o}, s.Appendable records →
      (s.appendAll records).logged <:+ s.logged ++ records := by
  induction records with
  | nil =>
    intro s _
    rw [List.append_nil]
    exact List.suffix_refl _
  | cons record records ih =>
    rintro s ⟨harena, hrecords⟩
    refine (ih hrecords).trans ?_
    have hone : (s.append record).logged = (s.rolloverBefore record).logged ++ [record] := by
      unfold append
      dsimp only
      rw [queuedIn_rolloverBefore harena]
      exact (enqueue_message_log ..).1
    rw [hone, List.append_assoc, List.singleton_append]
    obtain ⟨front, hfront⟩ := rolloverBefore_logged_suffix record s
    exact ⟨front, by rw [← hfront, List.append_assoc]⟩

/-- How many records of the other sessions the limit deletes from the copy. -/
def droppedFromCopy (sessionId : Nat) (s : DurableBatchSessionStore o) : Nat :=
  (s.logged.filter (·.isOther sessionId)).length - (s.copyWithout sessionId).logged.length

/-- The records of the other sessions in the files before a reset, without those of archived
segments that the limit deletes from the copy. -/
def resetKept (sessionId : Nat) (s : DurableBatchSessionStore o) : List LogRecord :=
  (s.written.filter (·.isOther sessionId)).drop (droppedFromCopy sessionId s)

theorem copyWithout_logged {sessionId : Nat} {s : DurableBatchSessionStore o}
    (hfits : Fitting o (s.logged.filter (·.isOther sessionId))) :
    (s.copyWithout sessionId).logged =
      (s.logged.filter (·.isOther sessionId)).drop (droppedFromCopy sessionId s) := by
  have hsuffix : (s.copyWithout sessionId).logged <:+ s.logged.filter (·.isOther sessionId) := by
    unfold copyWithout
    rw [(flush_sameLog _).1]
    exact appendAll_logged_suffix hfits.appendable
  exact List.suffix_iff_eq_drop.1 hsuffix

/-- Records among those that are left out of a list stay in it. -/
theorem extends_drop_filter {s : DurableBatchSessionStore o} (sessionId n : Nat) :
    Extends s.pending ((s.written.filter (·.isOther sessionId)).drop n)
      ((s.logged.filter (·.isOther sessionId)).drop n) := by
  refine ⟨[], ((messagesOf s.pending).filter (·.isOther sessionId)).drop
    (n - (s.written.filter (·.isOther sessionId)).length), ?_, fun r hr =>
      mem_messagesOf (List.mem_of_mem_filter (List.mem_of_mem_drop hr))⟩
  rw [logged_eq_written, List.filter_append, List.drop_append, List.nil_append]
  rfl

theorem extends_filter_written {s : DurableBatchSessionStore o} (sessionId : Nat) :
    Extends s.pending (resetKept sessionId s) (s.written.filter (·.isOther sessionId)) :=
  ⟨(s.written.filter (·.isOther sessionId)).take (droppedFromCopy sessionId s), [], by
    rw [resetKept, List.take_append_drop, List.append_nil], fun _ h => absurd h List.not_mem_nil⟩

theorem extends_filter_logged {s : DurableBatchSessionStore o} (sessionId : Nat) :
    Extends s.pending (resetKept sessionId s) (s.logged.filter (·.isOther sessionId)) := by
  refine ⟨(s.written.filter (·.isOther sessionId)).take (droppedFromCopy sessionId s),
    (messagesOf s.pending).filter (·.isOther sessionId), ?_, fun r hr =>
      mem_messagesOf (List.mem_of_mem_filter hr)⟩
  rw [resetKept, List.take_append_drop, logged_eq_written, List.filter_append]
  rfl

end DurableBatchSessionStore

namespace DurableFiles

open DurableBatchSessionStore

variable {o : DurableBatchStoreOptions}

/-! ## The stops of a reset -/

/-- What the other sessions had flushed before a reset can be loaded. -/
def ResetKeeps (sessionId : Nat) (f : DurableFiles o) : Disk → Prop :=
  Keeps (· ≠ sessionId) (resetKept sessionId f.store) f.store.recoveryStates f.store.pending

section

variable {f : DurableFiles o} {first sessionId : Nat} {states : List SessionRecoveryState}

theorem opensWith_resetKeeps {d : Disk} {indexed all : List LogRecord}
    {states' : List SessionRecoveryState} (h : f.store.OnDisk f.disk first states)
    (hindexed : Extends f.store.pending (resetKept sessionId f.store)
      (indexed.filter (·.isOther sessionId)))
    (hall : Extends f.store.pending (resetKept sessionId f.store)
      (all.filter (·.isOther sessionId)))
    (hstates : ExtendsStates f.store.pending states states')
    (hopens : OpensTo o indexed all states' d) : OpensWith o (f.ResetKeeps sessionId) d := by
  obtain ⟨opened, hopen, hreads⟩ := hopens
  refine ⟨opened, hopen, Keeps.of_reads (fun other hne => ?_) (fun other hne => ?_)
    (fun other _ => hreads.recovery other) hindexed hall hstates h.recovered⟩
  · rw [hreads.outbound, outboundIndex_filter hne]
  · rw [hreads.inbound, inboundOf_filter hne]

theorem run_copyOps (sessionId : Nat) (f : DurableFiles o) :
    Disk.run (f.copyOps sessionId) {} = (f.copyWithout sessionId).disk := by
  have hsave := run_saveAllOps (othersOf sessionId f.flush.disk) (fresh : DurableFiles o)
  unfold copyOps Disk.run at *
  rw [runOps_append, runOps_append]
  exact congrArg (runOps DiskOp.apply _) hsave

theorem runOps_root (ops : List DiskOp) (r : Roots) :
    runOps RootOp.apply (ops.map .root) r = ⟨r.root.run ops, r.copy⟩ := by
  induction ops generalizing r with
  | nil => rfl
  | cons op ops ih => exact ih _

theorem runOps_copy (ops : List DiskOp) (r : Roots) :
    runOps RootOp.apply (ops.map .copy) r = ⟨r.root, r.copy.run ops⟩ := by
  induction ops generalizing r with
  | nil => rfl
  | cons op ops ih => exact ih _

/-- Until the first file is removed, a stop leaves what a stop of the flush leaves. -/
theorem root_before_removal (sessionId : Nat) (removals : List DiskOp) {done : Nat}
    (hdone : done ≤ (flushOps f.store).length + (f.copyOps sessionId).length) :
    ∃ k, (runOps RootOp.apply ((f.resetOps sessionId removals).take done) ⟨f.disk, {}⟩).root =
      f.disk.run ((flushOps f.store).take k) := by
  unfold resetOps
  split
  · exact ⟨0, by rw [List.take_nil]; rfl⟩
  · refine ⟨done, ?_⟩
    have hlength : done ≤
        ((flushOps f.store).map RootOp.root ++ (f.copyOps sessionId).map RootOp.copy).length := by
      rwa [List.length_append, List.length_map, List.length_map]
    rw [List.append_assoc, List.take_append_of_le_length hlength, List.take_append, ← List.map_take,
      ← List.map_take, runOps_append, runOps_root, runOps_copy]

theorem flush_stop_keeps (hf : f.Sound) (sessionId k : Nat) :
    OpensWith o (f.ResetKeeps sessionId) (f.disk.run ((flushOps f.store).take k)) := by
  obtain ⟨first, states, h⟩ := hf.mirrored
  have hwritten := extends_filter_written (s := f.store) sessionId
  have hlogged := extends_filter_logged (s := f.store) sessionId
  have hsame := ExtendsStates.refl f.store.pending states
  have hstops : AtStops DiskOp.apply (fun _ d => OpensWith o (f.ResetKeeps sessionId) d)
      (flushStops True True True f.store.active.length f.store.pending) f.disk :=
    h.flush_atStops hf.saved hf.limit
      (fun _ => opensWith_resetKeeps h hwritten hwritten hsame)
      (fun _ _ => opensWith_resetKeeps h hwritten hlogged hsame)
      fun _ _ => opensWith_resetKeeps h hlogged hlogged hsame
  have hopens := h.flush.opensTo hf.saved.flush (flush_withinLimit hf.limit)
  rw [show f.store.flush.written = f.store.logged from flush_log f.store] at hopens
  have hdone := opensWith_resetKeeps h hlogged hlogged (ExtendsStates.flushed ..) hopens
  rw [← map_fst_flushStops True True True]
  exact hstops.stopped True (by rw [map_fst_flushStops]; exact hdone) k

theorem reset_done (hf : f.Sound) {sessionId : Nat} (removals : List DiskOp)
    (hfits : Fitting o (f.store.logged.filter (·.isOther sessionId))) :
    OpensWith o (f.ResetKeeps sessionId)
      (runOps RootOp.apply (f.resetOps sessionId removals) ⟨f.disk, {}⟩).root := by
  obtain ⟨first, states, h⟩ := hf.mirrored
  unfold resetOps
  split
  · have hopens := h.opensTo hf.saved hf.limit
    have hwritten := extends_filter_written (s := f.store) sessionId
    exact opensWith_resetKeeps h hwritten hwritten (ExtendsStates.refl ..) hopens
  · rename_i hid
    rw [runOps_append, runOps_append, runOps_append, runOps_root, runOps_copy, runOps_root]
    change OpensWith o _ (Disk.run (f.copyOps sessionId) {})
    rw [run_copyOps]
    obtain ⟨opened, hopen, first', states', hdisk⟩ :=
      opens_copyWithout hf.mirrored hf.saved hid
    have hreads := hdisk.holds.reads_whole
    have hcopy : (resetSession sessionId f.store).2.archived.flatten ++
        (resetSession sessionId f.store).2.active = (f.store.copyWithout sessionId).logged := by
      have hlimit : (f.store.copyWithout sessionId).WithinLimit :=
        flush_withinLimit (appendAll_withinLimit (.inr (Nat.zero_le _)))
      rw [hf.saved.resetSession_eq hid, resetTo, prune_eq (by exact hlimit)]
      exact (List.append_nil _).symm
    rw [hcopy, copyWithout_logged hfits] at hreads
    have hkept := extends_drop_filter (s := f.store) sessionId (droppedFromCopy sessionId f.store)
    refine ⟨opened, hopen, Keeps.of_reads (fun other _ => hreads.outbound other)
      (fun other _ => hreads.inbound other) (fun other hne => ?_) hkept hkept
      (ExtendsStates.flushed ..) h.recovered⟩
    rw [hreads.recovery, hdisk.recovered, h.flush.recovered, hf.saved.resetSession_eq hid, resetTo,
      prune_recoveryStates]
    exact Function.update_of_ne hne ..

end

/-! ## All stops -/

/-- A stop of the process, after `done` file operations of a rollover or of a reset that removes
the files in the order `removals`. -/
inductive Stop
  | rollover (done : Nat)
  | reset (sessionId : Nat) (removals : List DiskOp) (done : Nat)

namespace Stop

/-- The files the process leaves. -/
def disk (f : DurableFiles o) : Stop → Disk
  | rollover done => f.disk.run (f.rolloverOps.take done)
  | reset sessionId removals done =>
    (runOps RootOp.apply ((f.resetOps sessionId removals).take done) ⟨f.disk, {}⟩).root

/-- What was flushed before can be loaded, for a reset that of the other sessions. -/
def Keeps (f : DurableFiles o) : Stop → Disk → Prop
  | rollover _ => f.RolloverKeeps
  | reset sessionId _ _ => f.ResetKeeps sessionId

/-- The stop is none of those at which something is lost. In a reset it comes before the first file
is removed or after the copy is renamed, and then no batch of the copy reached 4 GiB. -/
def Calm (f : DurableFiles o) : Stop → Prop
  | rollover done => flagAt f.rolloverStops True done
  | reset sessionId removals done =>
    done ≤ (flushOps f.store).length + (f.copyOps sessionId).length ∨
      (f.resetOps sessionId removals).length ≤ done ∧
        Fitting o (f.store.logged.filter (·.isOther sessionId))

end Stop

theorem rollover_stop_keeps_iff {f : DurableFiles o} (hf : f.Sound) (done : Nat) :
    OpensWith o f.RolloverKeeps (f.disk.run (f.rolloverOps.take done)) ↔
      flagAt f.rolloverStops True done := by
  have hdone := rollover_done hf
  rw [← map_fst_rolloverStops] at hdone ⊢
  exact (rollover_atStops hf).stopped _ hdone done

/-- After a calm stop the store opens with everything that was flushed before. -/
theorem stop_keeps_flushed {f : DurableFiles o} (h : Reaches Call.act (fun _ _ => True) fresh f)
    (stop : Stop) (hcalm : stop.Calm f) : OpensWith o (stop.Keeps f) (stop.disk f) := by
  have hf := reaches_sound h
  cases stop with
  | rollover done => exact (rollover_stop_keeps_iff hf done).2 hcalm
  | reset sessionId removals done =>
    rcases hcalm with hbefore | ⟨hafter, hfits⟩
    · obtain ⟨k, hroot⟩ := root_before_removal sessionId removals hbefore
      have hkeeps := flush_stop_keeps hf sessionId k
      rw [← hroot] at hkeeps
      exact hkeeps
    · have hkeeps := reset_done hf removals hfits
      rw [← List.take_of_length_le hafter] at hkeeps
      exact hkeeps

/-- A store that has flushed a frame and the recovery state of its session. -/
def sampleFlushed : DurableFiles { flushThreshold := 1 } :=
  [Call.save (.message (.outbound ⟨1, 1, 1, 0, [], 0⟩)),
    Call.save (.recovery ⟨1, 1, 2, 0, 0, true⟩)].foldl (fun f call => call.act f) fresh

theorem reaches_sampleFlushed : Reaches Call.act (fun _ _ => True) fresh sampleFlushed :=
  .of_stepsOk _ .start ⟨trivial, trivial, trivial⟩

/-- A stop after both files of the segment are renamed keeps what was flushed. -/
theorem stop_keeps_flushed_renamed :
    OpensWith { flushThreshold := 1 } ((Stop.rollover 2).Keeps sampleFlushed)
      ((Stop.rollover 2).disk sampleFlushed) :=
  stop_keeps_flushed reaches_sampleFlushed (.rollover 2) trivial

/-- After the log of the segment is renamed and before its index is, the store does not open; while
the recovery log is written again, the state that was flushed is gone; nor does the store open once
a reset of another session has removed the log. -/
theorem stop_loses_flushed :
    Reaches Call.act (fun _ _ => True) fresh sampleFlushed ∧
      openDisk { flushThreshold := 1 } ((Stop.rollover 1).disk sampleFlushed) =
        .error (.FormatError "durable batch store active segment is missing a companion file") ∧
      sampleFlushed.store.recoveryStates 1 = some ⟨1, 1, 2, 0, 0, true⟩ ∧
      OpensWith { flushThreshold := 1 } (fun opened => opened.recoveryState 1 = none)
        ((Stop.rollover 9).disk sampleFlushed) ∧
      openDisk { flushThreshold := 1 } ((Stop.reset 2 (removalOps sampleFlushed.disk)
          ((sampleFlushed.copyOps 2).length + 1)).disk sampleFlushed) =
        .error (.FormatError "durable batch store active segment is missing a companion file") :=
  ⟨reaches_sampleFlushed, rfl, rfl, ⟨_, rfl, rfl⟩, rfl⟩

end DurableFiles

end NimbleFix
