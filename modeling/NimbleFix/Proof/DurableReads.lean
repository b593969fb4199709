import NimbleFix.Proof.DurableFiles

/-!
# What is read after a stop

What `Open` finds when the process has stopped within a flush or a rollover, in the terms of the
store: the records that are indexed, those in the logs, and the recovery log.
-/

namespace NimbleFix

namespace DurableBatchSessionStore

variable {o : DurableBatchStoreOptions}

/-! ## Reading -/

theorem flatMap_log_segmentsFrom (first : Nat) (archived : List (List LogRecord)) :
    (segmentsFrom first archived).flatMap Segment.log = archived.flatten := by
  induction archived generalizing first with
  | nil => rfl
  | cons segment archived ih => exact congrArg (segment ++ ·) (ih (first + 1))

theorem flatMap_indexed_segmentsFrom (first : Nat) (archived : List (List LogRecord)) :
    (segmentsFrom first archived).flatMap Segment.indexed =
      archived.flatten.filter (·.isOutbound) := by
  induction archived generalizing first with
  | nil => rfl
  | cons segment archived ih =>
    have hsegment : (wholeSegment first segment).indexed = segment.filter (·.isOutbound) := by
      have := resolve_indexOf segment []
      rwa [List.append_nil] at this
    rw [List.flatten_cons, List.filter_append, ← ih (first + 1), ← hsegment]
    rfl

section

variable {d : Disk} {first segmentId : Nat} {archived : List (List LogRecord)}
  {log more : List LogRecord} {states : List SessionRecoveryState}

theorem Holds.outbound_eq
    (h : Holds d (segmentsFrom first archived) ⟨segmentId, log ++ more, indexOf log⟩ states)
    (sessionId : Nat) : d.outbound sessionId = outboundIndex sessionId (archived.flatten ++ log) := by
  have hactive : (⟨segmentId, log ++ more, indexOf log⟩ : Segment).indexed =
      log.filter (·.isOutbound) := resolve_indexOf log more
  unfold Disk.outbound
  rw [h.indexed, flatMap_indexed_segmentsFrom, hactive, ← List.filter_append,
    outboundIndex_isOutbound]

theorem Holds.inbound_eq
    (h : Holds d (segmentsFrom first archived) ⟨segmentId, log ++ more, indexOf log⟩ states)
    (sessionId : Nat) :
    d.inbound sessionId = inboundOf sessionId (archived.flatten ++ (log ++ more)) := by
  unfold Disk.inbound
  rw [h.records, flatMap_log_segmentsFrom]

end

/-- What the files are read to. -/
structure Reads (d : Disk) (indexed records : List LogRecord)
    (states : List SessionRecoveryState) : Prop where
  outbound : ∀ sessionId, d.outbound sessionId = outboundIndex sessionId indexed
  inbound : ∀ sessionId, d.inbound sessionId = inboundOf sessionId records
  recovery : ∀ sessionId, d.recoveryState sessionId = Disk.lastState sessionId states

variable {d : Disk} {states : List SessionRecoveryState}

theorem Holds.reads {first segmentId : Nat} {archived : List (List LogRecord)}
    {log more : List LogRecord}
    (h : Holds d (segmentsFrom first archived) ⟨segmentId, log ++ more, indexOf log⟩ states) :
    Reads d (archived.flatten ++ log) (archived.flatten ++ (log ++ more)) states :=
  ⟨h.outbound_eq, h.inbound_eq, h.recoveryState⟩

theorem Holds.reads_whole {first segmentId : Nat} {archived : List (List LogRecord)}
    {log : List LogRecord}
    (h : Holds d (segmentsFrom first archived) (wholeSegment segmentId log) states) :
    Reads d (archived.flatten ++ log) (archived.flatten ++ log) states := by
  have hnil : Holds d (segmentsFrom first archived) ⟨segmentId, log ++ [], indexOf log⟩ states := by
    rw [List.append_nil]
    exact h
  have hreads := hnil.reads
  rwa [List.append_nil] at hreads

variable (o) in
/-- `Open` succeeds, and the files then have the property. -/
def OpensWith (P : Disk → Prop) (d : Disk) : Prop :=
  ∃ opened, openDisk o d = .ok opened ∧ P opened

variable (o) in
/-- `Open` succeeds, and reads this. -/
def OpensTo (indexed records : List LogRecord) (states : List SessionRecoveryState) :
    Disk → Prop := OpensWith o fun opened => Reads opened indexed records states

theorem Opens.opensTo {segments : List Segment} {active : Segment}
    {indexed records : List LogRecord} (h : Opens o d segments active states)
    (hreads : ∀ opened, Holds opened segments active states → Reads opened indexed records states) :
    OpensTo o indexed records states d := by
  obtain ⟨opened, hopen, hholds⟩ := h
  exact ⟨opened, hopen, hreads opened hholds⟩

theorem OpensTo.of_states {indexed records : List LogRecord} {states' : List SessionRecoveryState}
    (h : OpensTo o indexed records states d)
    (hsame : ∀ sessionId, Disk.lastState sessionId states' = Disk.lastState sessionId states) :
    OpensTo o indexed records states' d := by
  obtain ⟨opened, hopen, hreads⟩ := h
  exact ⟨opened, hopen, hreads.outbound, hreads.inbound, fun sessionId =>
    (hreads.recovery sessionId).trans (hsame sessionId).symm⟩

theorem kept_eq_of_le {α : Type} {xs : List α}
    (h : o.maxArchivedSegments = 0 ∨ xs.length ≤ o.maxArchivedSegments) : kept o xs = xs := by
  unfold kept
  split
  · rfl
  · rw [Nat.sub_eq_zero_of_le (h.resolve_left ‹_›), List.drop_zero]

namespace OnDisk

variable {s : DurableBatchSessionStore o} {first : Nat}

variable {ok : Nat → Prop}

theorem opensTo_behind (hsaved : s.Saved ok) (hlimit : s.WithinLimit) {d' : Disk} {segmentId : Nat}
    {log : List LogRecord} (hlog : RecordsOk log) (more : List LogRecord)
    (h : HoldsSomeBehind d' (segmentsFrom first s.archived) ⟨segmentId, log ++ more, indexOf log⟩
      states) :
    OpensTo o (s.archived.flatten ++ log) (s.archived.flatten ++ (log ++ more)) states d' := by
  obtain ⟨behind, h⟩ := h
  have hopens := h.opens (o := o) (segmentsOk_segmentsFrom hsaved.recordsOk.1 hlog ..)
  rw [kept_eq_of_le (by rw [length_segmentsFrom]; exact hlimit)] at hopens
  exact hopens.opensTo fun opened hholds => hholds.reads

theorem opensTo (h : s.OnDisk d first states) (hsaved : s.Saved ok) (hlimit : s.WithinLimit) :
    OpensTo o s.written s.written states d := by
  have hsome : HoldsSomeBehind d (segmentsFrom first s.archived)
      ⟨first + s.archived.length, s.active ++ [], indexOf s.active⟩ states := by
    rw [List.append_nil]
    exact ⟨_, h.holds.behind⟩
  have hself := opensTo_behind hsaved hlimit hsaved.recordsOk.2.1 [] hsome
  rwa [List.append_nil] at hself

theorem flush_atStops {Q : Prop → Disk → Prop} {before logged indexed : Prop}
    (h : s.OnDisk d first states) (hsaved : s.Saved ok) (hlimit : s.WithinLimit)
    (hbefore : ∀ d', OpensTo o s.written s.written states d' → Q before d')
    (hlogged : s.pending.any (·.isOutbound) →
      ∀ d', OpensTo o s.written s.logged states d' → Q logged d')
    (hindexed : s.pending.any (·.isRecovery) →
      ∀ d', OpensTo o s.logged s.logged states d' → Q indexed d') :
    AtStops DiskOp.apply Q (flushStops before logged indexed s.active.length s.pending) d := by
  obtain ⟨-, hactive, hpending⟩ := hsaved.recordsOk
  have hall : RecordsOk (s.active ++ messagesOf s.pending) := by
    intro r hr
    rcases List.mem_append.1 hr with hr | hr
    · exact hactive r hr
    · exact hpending r hr
  have hlog : s.archived.flatten ++ (s.active ++ messagesOf s.pending) = s.logged :=
    (List.append_assoc ..).symm
  refine h.holds.flush_atStops (fun d' hd => hbefore d' ?_) (fun hout d' hd => hlogged hout d' ?_)
    fun hrec d' hd => hindexed hrec d' ?_
  · have hopens := opensTo_behind hsaved hlimit hactive []
      (by rw [List.append_nil]; exact hd)
    rwa [List.append_nil] at hopens
  · have hopens := opensTo_behind hsaved hlimit hactive _ hd
    rwa [hlog] at hopens
  · have hopens := opensTo_behind hsaved hlimit hall []
      (by rw [List.append_nil]; exact hd)
    rwa [List.append_nil, hlog] at hopens

theorem roll_atStops {Q : Prop → Disk → Prop} {lost : Prop} (h : s.OnDisk d first states)
    (hsaved : s.Saved ok) (hlimit : s.WithinLimit)
    (hstart : ∀ d', OpensTo o s.written s.written states d' → Q True d')
    (hclosed : ∀ d', Closed o d' → Q False d')
    (hopens : ∀ d', OpensTo o (kept o (s.archived ++ [s.active])).flatten
      (kept o (s.archived ++ [s.active])).flatten states d' → Q True d')
    (hlost : ∀ d', OpensTo o (kept o (s.archived ++ [s.active])).flatten
      (kept o (s.archived ++ [s.active])).flatten [] d' → Q lost d') :
    AtStops DiskOp.apply Q (rollStops o lost d) d := by
  obtain ⟨harchived, hactive, -⟩ := hsaved.recordsOk
  have hbelow : ∀ segment ∈ segmentsFrom first s.archived,
      segment.segmentId < first + s.archived.length := fun _ hs => (mem_segmentsFrom hs).1
  have hok : SegmentsOk (segmentsFrom first (s.archived ++ [s.active]))
      (wholeSegment (first + s.archived.length + 1) []) := by
    have hempty : RecordsOk [] := fun r hr => absurd hr List.not_mem_nil
    refine segmentsOk_segmentsFrom (fun segment hsegment => ?_) hempty first _ []
    rcases List.mem_append.1 hsegment with hsegment | hlast
    · exact harchived segment hsegment
    · obtain rfl := List.mem_singleton.1 hlast
      exact hactive
  have hread : ∀ {states' : List SessionRecoveryState} {d' : Disk},
      Opens o d' (kept o (segmentsFrom first (s.archived ++ [s.active])))
        (wholeSegment (first + s.archived.length + 1) []) states' →
      OpensTo o (kept o (s.archived ++ [s.active])).flatten
        (kept o (s.archived ++ [s.active])).flatten states' d' := by
    intro states' d' hd
    rw [kept_segmentsFrom] at hd
    refine hd.opensTo fun opened hholds => ?_
    have hreads := hholds.reads_whole
    rwa [List.append_nil] at hreads
  rw [segmentsFrom_append] at hok hread
  exact h.holds.roll_atStops hbelow hok (hstart d (h.opensTo hsaved hlimit)) hclosed
    (fun d' hd => hopens d' (hread hd)) fun d' hd => hlost d' (hread hd)

end OnDisk

end DurableBatchSessionStore

end NimbleFix
