import NimbleFix.Proof.MmapFile

/-!
# Appends to the memory-mapped store and stops between their writes

A store with a well formed file appends as its log does. If the process stops between two writes of
an append, opening the file gives the log before the append or the one after it, and from there the
store goes on as from that log.
-/

namespace NimbleFix

namespace MmapSessionStore

/-! ## Appends to the log -/

/-- What an append does to the log. -/
def Log.append (entry : StoreEntry) (log : Log) : Except Status Unit × Log :=
  match validateEntry entry with
  | .error e => (.error e, log)
  | .ok () =>
    if 2 ^ 63 ≤ (log.add entry).size then (.error (.IoError "unable to extend mmap store"), log)
    else (.ok (), log.add entry)

/-- The file holds the log, and an open store knows what is in it. -/
structure Has (s : MmapSessionStore) (log : Log) : Prop where
  holds : Holds s.file log
  index : ∀ index, s.impl = some index → index = indexOf log.entries

section

variable {s : MmapSessionStore} {log : Log}

theorem Has.openStore (h : s.Has log) :
    openStore s = (.ok (), ⟨s.file, some (indexOf log.entries)⟩) := by
  obtain ⟨s', hopen, -, hindex, hfile⟩ := h.holds.openStore [] s.impl
  rw [List.append_nil] at hopen
  refine hopen.trans ?_
  rw [← hfile rfl, ← hindex]

theorem indexOf_append (entries : List StoreEntry) (entry : StoreEntry) :
    indexOf (entries ++ [entry]) = (indexOf entries).add entry := by
  simp [indexOf]

theorem Has.append_eq (h : s.Has log) {entry : StoreEntry} (hvalid : validateEntry entry = .ok ()) :
    append entry s =
      if 2 ^ 63 ≤ (log.add entry).size then
        (.error (.IoError "unable to extend mmap store"), ⟨s.file, some (indexOf log.entries)⟩)
      else
        (.ok (), ⟨File.writeAll (appendWrites entry s.file) s.file,
          some (indexOf (log.add entry).entries)⟩) := by
  unfold MmapSessionStore.append
  rw [hvalid, Fallible.bind_of_ok (Fallible.ofExcept_apply _ s), Fallible.bind_of_ok h.openStore,
    writeEntry, h.holds.sizeAfter_add, Log.add, indexOf_append]
  rfl

theorem Has.append (h : s.Has log) {entry : StoreEntry} (htyped : entry.Typed) :
    (append entry s).1 = (log.append entry).1 ∧ (append entry s).2.Has (log.append entry).2 := by
  cases hvalid : validateEntry entry with
  | error e =>
    have happend : MmapSessionStore.append entry s = (.error e, s) := by
      unfold MmapSessionStore.append
      simp only [Fallible.bind_apply, Fallible.ofExcept_apply, hvalid]
    rw [happend, Log.append, hvalid]
    exact ⟨rfl, h⟩
  | ok _ =>
    rw [h.append_eq hvalid, Log.append, hvalid]
    dsimp only
    split
    · exact ⟨rfl, h.holds, fun index hindex => (Option.some.inj hindex).symm⟩
    · rename_i hlt
      rw [← h.holds.sizeAfter_add] at hlt
      exact ⟨rfl, h.holds.appended htyped hvalid (Nat.lt_of_not_le hlt),
        fun index hindex => (Option.some.inj hindex).symm⟩

/-- Appends one after the other, with their results. -/
def appendAll : List StoreEntry → MmapSessionStore → List (Except Status Unit) × MmapSessionStore
  | [], s => ([], s)
  | entry :: entries, s =>
    ((append entry s).1 :: (appendAll entries (append entry s).2).1,
      (appendAll entries (append entry s).2).2)

def Log.appendAll : List StoreEntry → Log → List (Except Status Unit) × Log
  | [], log => ([], log)
  | entry :: entries, log =>
    ((log.append entry).1 :: (Log.appendAll entries (log.append entry).2).1,
      (Log.appendAll entries (log.append entry).2).2)

theorem Has.appendAll {entries : List StoreEntry} (htyped : ∀ entry ∈ entries, entry.Typed) :
    ∀ {s : MmapSessionStore} {log : Log}, s.Has log →
      (appendAll entries s).1 = (log.appendAll entries).1 ∧
        (appendAll entries s).2.Has (log.appendAll entries).2 := by
  induction entries with
  | nil => exact fun h => ⟨rfl, h⟩
  | cons entry entries ih =>
    intro s log h
    obtain ⟨hstatus, hhas⟩ := h.append (htyped entry List.mem_cons_self)
    obtain ⟨hrest, hlast⟩ := ih (fun e he => htyped e (List.mem_cons_of_mem _ he)) hhas
    refine ⟨?_, hlast⟩
    rw [MmapSessionStore.appendAll, Log.appendAll, hstatus, hrest]

end

/-! ## Stops between the writes -/

/-- The writes an append makes to a well formed file: none if it is refused. -/
def writesOf (entry : StoreEntry) (file : Bytes) : List File.Write :=
  match validateEntry entry with
  | .error _ => []
  | .ok () => if 2 ^ 63 ≤ sizeAfter entry file then [] else appendWrites entry file

theorem Holds.stopped_before {file : Bytes} {log : Log} (h : Holds file log) {entry : StoreEntry}
    {stop : Nat} (hstop : stop ≤ (writesBefore entry file).length) :
    ∃ tail, File.writeAll ((appendWrites entry file).take stop) file = file ++ tail := by
  have hbehind : ∀ w ∈ (writesBefore entry file).take stop, w.Behind file.length :=
    fun w hw => h.writesBefore_behind entry w (List.mem_of_mem_take hw)
  obtain ⟨htake, -⟩ := File.writeAll_take hbehind (Nat.le_refl _)
  rw [List.take_length] at htake
  rw [appendWrites_eq, List.take_append_of_le_length hstop]
  refine ⟨(File.writeAll ((writesBefore entry file).take stop) file).drop file.length, ?_⟩
  conv_lhs => rw [← List.take_append_drop file.length (File.writeAll _ file), htake]

theorem Holds.stopped {file : Bytes} {log : Log} (h : Holds file log) {entry : StoreEntry}
    (htyped : entry.Typed) (stop : Nat) :
    ∃ front tail log', File.writeAll ((writesOf entry file).take stop) file = front ++ tail ∧
      Holds front log' ∧ (log' = log ∨ log' = (log.append entry).2) ∧
      ((writesOf entry file).length ≤ stop → log' = (log.append entry).2) := by
  unfold writesOf Log.append
  cases hvalid : validateEntry entry with
  | error e => exact ⟨file, [], log, by simp [File.writeAll], h, .inl rfl, fun _ => rfl⟩
  | ok _ =>
    dsimp only
    rw [h.sizeAfter_add]
    split
    · exact ⟨file, [], log, by simp [File.writeAll], h, .inl rfl, fun _ => rfl⟩
    · rename_i hlt
      rcases Nat.lt_or_ge (writesBefore entry file).length stop with hstop | hstop
      · refine ⟨_, [], log.add entry, (List.append_nil _).symm, ?_, .inr rfl, fun _ => rfl⟩
        have hlen : (appendWrites entry file).length ≤ stop := by
          rw [appendWrites_eq, List.length_append, List.length_singleton]
          exact hstop
        rw [List.take_of_length_le hlen]
        rw [← h.sizeAfter_add] at hlt
        exact h.appended htyped hvalid (Nat.lt_of_not_le hlt)
      · obtain ⟨tail, htail⟩ := h.stopped_before hstop
        refine ⟨file, tail, log, htail, h, .inl rfl, fun hlen => ?_⟩
        rw [appendWrites_eq, List.length_append, List.length_singleton] at hlen
        omega

/-- However many of the writes of an append are made, opening the file succeeds, and the store holds
the log before the append or the one after it and goes on from there. -/
theorem append_stop_atomic {file : Bytes} {log : Log} (h : Holds file log) (entry : StoreEntry)
    (htyped : entry.Typed) (stop : Nat) :
    ∃ s log', openStore { file := File.writeAll ((writesOf entry file).take stop) file } =
        (.ok (), s) ∧
      (log' = log ∨ log' = (log.append entry).2) ∧
      ((writesOf entry file).length ≤ stop → log' = (log.append entry).2) ∧ s.Has log' ∧
      ∀ later : List StoreEntry, (∀ e ∈ later, e.Typed) →
        (appendAll later s).1 = (log'.appendAll later).1 ∧
          (appendAll later s).2.Has (log'.appendAll later).2 := by
  obtain ⟨front, tail, log', hfile, hfront, hlog, hall⟩ := h.stopped htyped stop
  rw [hfile]
  obtain ⟨s, hopen, hholds, hindex, -⟩ := hfront.openStore tail none
  have hhas : s.Has log' := by
    refine ⟨hholds, fun index h' => ?_⟩
    rw [hindex] at h'
    exact (Option.some.inj h').symm
  exact ⟨s, log', hopen, hlog, hall, hhas, fun later hlater => hhas.appendAll hlater⟩

/-- A frame appended to a new file, with a stop before the size is committed. -/
theorem append_stop_atomic_new : ∃ s log',
    openStore { file := File.writeAll ((writesOf (.outbound ⟨1, 1, 1, 0, [65], 0⟩)
      (initialized [])).take 3) (initialized []) } = (.ok (), s) ∧ s.Has log' := by
  obtain ⟨s, log', hopen, -, -, hhas, -⟩ :=
    append_stop_atomic holds_new (.outbound ⟨1, 1, 1, 0, [65], 0⟩) (by decide) 3
  exact ⟨s, log', hopen, hhas⟩

end MmapSessionStore

end NimbleFix
