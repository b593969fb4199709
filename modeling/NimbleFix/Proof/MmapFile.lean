import NimbleFix.Store.Lawful
import NimbleFix.Store.Mmap

/-!
# The file of the memory-mapped store

`Holds file log`: the file is well formed and its records are those of the log. A record that is
appended is read back, and opening a file whose front is well formed gives back that front,
whatever is behind it.
-/

namespace NimbleFix

/-! ## Entries the format has room for -/

/-- The values fit the types of the fields. -/
def MessageRecord.Typed (r : MessageRecord) : Prop :=
  r.sessionId < 2 ^ 64 ∧ r.seqNum < 2 ^ 32 ∧ r.timestampNs < 2 ^ 64 ∧ r.flags < 2 ^ 16 ∧
    r.bodyStartOffset < 2 ^ 32

def SessionRecoveryState.Typed (s : SessionRecoveryState) : Prop :=
  s.sessionId < 2 ^ 64 ∧ s.nextInSeq < 2 ^ 32 ∧ s.nextOutSeq < 2 ^ 32 ∧
    s.lastInboundNs < 2 ^ 64 ∧ s.lastOutboundNs < 2 ^ 64

instance (r : MessageRecord) : Decidable r.Typed := inferInstanceAs (Decidable (_ ∧ _))

instance (s : SessionRecoveryState) : Decidable s.Typed := inferInstanceAs (Decidable (_ ∧ _))

def StoreEntry.Typed : StoreEntry → Prop
  | outbound record => record.Typed
  | inbound record => record.Typed
  | recovery state => state.Typed

instance : (entry : StoreEntry) → Decidable entry.Typed
  | .outbound record => inferInstanceAs (Decidable record.Typed)
  | .inbound record => inferInstanceAs (Decidable record.Typed)
  | .recovery state => inferInstanceAs (Decidable state.Typed)

namespace MmapSessionStore

/-! ## Headers are read as they were written -/

variable {h : StoreFileHeader} {bytes rest : Bytes} {entry : StoreEntry} {entries : List StoreEntry}

theorem fileHeader_bytes (hmagic : h.magic.length = 8) (hversion : h.version < 2 ^ 32)
    (hheader : h.headerSize < 2 ^ 32) (hsize : h.fileSize < 2 ^ 64)
    (hreserved : h.reserved0 < 2 ^ 64) (rest : Bytes) : fileHeader (h.bytes ++ rest) = h := by
  have htyped : ∀ f ∈ h.fields, f.2 < 256 ^ f.1 := by
    simpa [StoreFileHeader.fields] using ⟨hversion, hheader, hsize, hreserved⟩
  have hvalues : Packed.unpack [4, 4, 8, 8] (Packed.pack h.fields ++ rest) =
      h.fields.map Prod.snd := Packed.unpack_pack htyped rest
  unfold fileHeader StoreFileHeader.bytes
  rw [List.append_assoc, List.drop_left' hmagic, List.take_left' hmagic, hvalues]
  rfl

theorem fileHeader_append {file : Bytes} (h : kStoreFileHeaderSize ≤ file.length) (rest : Bytes) :
    fileHeader (file ++ rest) = fileHeader file := by
  have hsize : kStoreFileHeaderSize = 32 := rfl
  unfold fileHeader
  rw [List.take_append_of_le_length (by omega), List.drop_append_of_le_length (by omega),
    Packed.unpack_append (by rw [List.length_drop]; simp only [List.sum_cons, List.sum_nil]; omega)]

theorem fileHeader_reserved0_lt (file : Bytes) : (fileHeader file).reserved0 < 2 ^ 64 :=
  Packed.ofLE_take_lt 8 _

theorem length_fileHeaderBytes (hmagic : h.magic.length = 8) :
    h.bytes.length = kStoreFileHeaderSize := by
  rw [StoreFileHeader.bytes, List.length_append, hmagic, Packed.length_pack]
  rfl

/-- Every field has a value of its width. -/
def StoreRecordHeader.Typed (h : StoreRecordHeader) : Prop := ∀ f ∈ h.fields, f.2 < 256 ^ f.1

theorem recordHeader_bytes {h : StoreRecordHeader} (htyped : h.Typed) (rest : Bytes) :
    recordHeader (h.bytes ++ rest) = h := by
  have hvalues : Packed.unpack [4, 2, 2, 8, 4, 4, 8, 4, 4, 8, 8, 1, 3, 4] (h.bytes ++ rest) =
      h.fields.map Prod.snd := Packed.unpack_pack htyped rest
  unfold recordHeader
  rw [hvalues]
  rfl

theorem length_recordHeaderBytes (h : StoreRecordHeader) :
    h.bytes.length = kStoreRecordHeaderSize := Packed.length_pack h.fields

theorem recordHeader_append (h : kStoreRecordHeaderSize ≤ bytes.length) (rest : Bytes) :
    recordHeader (bytes ++ rest) = recordHeader bytes := by
  have hwidths : [4, 2, 2, 8, 4, 4, 8, 4, 4, 8, 8, 1, 3, 4].sum ≤ bytes.length := h
  unfold recordHeader
  rw [Packed.unpack_append hwidths]

theorem validateRecordView_ok {record : MessageRecord} (h : validateRecordView record = .ok ()) :
    record.sessionId ≠ 0 ∧ record.seqNum ≠ 0 ∧ record.payload.length ≤ uint32Max ∧
      record.bodyStartOffset ≤ record.payload.length := by
  unfold validateRecordView at h
  obtain ⟨hid, h⟩ := except_guard_ok h
  obtain ⟨hseq, h⟩ := except_guard_ok h
  obtain ⟨hlen, h⟩ := except_guard_ok h
  obtain ⟨hbody, -⟩ := except_guard_ok h
  exact ⟨hid, hseq, Nat.le_of_not_lt hlen, Nat.le_of_not_lt hbody⟩

theorem validateState_ok {state : SessionRecoveryState}
    (h : validateEntry (.recovery state) = .ok ()) : state.sessionId ≠ 0 := by
  obtain ⟨-, h⟩ | ⟨hid, -⟩ := except_ite_ok h
  · cases h
  · exact hid

theorem ofMessage_typed {record : MessageRecord} (htyped : record.Typed)
    (hvalid : validateRecordView record = .ok ()) {recordType : Nat} (htype : recordType < 2 ^ 32) :
    (StoreRecordHeader.ofMessage recordType record).Typed := by
  obtain ⟨hid, hseq, htime, hflags, hbody⟩ := htyped
  obtain ⟨-, -, hlen, -⟩ := validateRecordView_ok hvalid
  have hlen' : record.payload.length < 2 ^ 32 := Nat.lt_succ_of_le hlen
  simpa [StoreRecordHeader.Typed, StoreRecordHeader.fields, StoreRecordHeader.ofMessage,
    kStoreRecordHeaderSize] using ⟨htype, hflags, hid, hseq, hlen', htime, hbody⟩

theorem ofState_typed {state : SessionRecoveryState} (htyped : state.Typed) :
    (StoreRecordHeader.ofState state).Typed := by
  obtain ⟨hid, hin, hout, hlastIn, hlastOut⟩ := htyped
  have hactive : (if state.active then 1 else 0) < 256 := by split <;> decide
  simpa [StoreRecordHeader.Typed, StoreRecordHeader.fields, StoreRecordHeader.ofState,
    kStoreRecordHeaderSize] using ⟨hid, hin, hout, hlastIn, hlastOut, hactive⟩

theorem entryHeader_typed (htyped : entry.Typed) (hvalid : validateEntry entry = .ok ()) :
    (entryHeader entry).Typed := by
  cases entry with
  | outbound record => exact ofMessage_typed htyped hvalid (by decide)
  | inbound record => exact ofMessage_typed htyped hvalid (by decide)
  | recovery state => exact ofState_typed htyped

/-! ## Records -/

/-- The bytes an append adds. -/
def entryBytes (entry : StoreEntry) : Bytes := (entryHeader entry).bytes ++ entryPayload entry

theorem length_entryBytes (entry : StoreEntry) :
    (entryBytes entry).length = kStoreRecordHeaderSize + (entryPayload entry).length := by
  rw [entryBytes, List.length_append, length_recordHeaderBytes]

/-- The bytes start with a record that can be read. -/
structure StartsWith (bytes : Bytes) (entry : StoreEntry) (rest : Bytes) : Prop where
  header_le : kStoreRecordHeaderSize ≤ bytes.length
  headerSize : (recordHeader bytes).headerSize = kStoreRecordHeaderSize
  bodyStartOffset_le : (recordHeader bytes).bodyStartOffset ≤ (recordHeader bytes).payloadSize
  payload_le : kStoreRecordHeaderSize + (recordHeader bytes).payloadSize ≤ bytes.length
  entry_eq : (recordHeader bytes).readEntry
    ((bytes.drop kStoreRecordHeaderSize).take (recordHeader bytes).payloadSize) = some entry
  rest_eq : rest = bytes.drop (kStoreRecordHeaderSize + (recordHeader bytes).payloadSize)

theorem nextRecord_ok_iff : nextRecord bytes = .ok (entry, rest) ↔ StartsWith bytes entry rest := by
  constructor
  · intro h
    unfold nextRecord at h
    obtain ⟨hheader, h⟩ := except_guard_ok h
    obtain ⟨hsize, h⟩ := except_guard_ok h
    obtain ⟨hbody, h⟩ := except_guard_ok h
    obtain ⟨hpayload, h⟩ := except_guard_ok h
    split at h
    · rename_i entry' hentry
      cases h
      exact ⟨Nat.le_of_not_lt hheader, not_not.1 hsize, Nat.le_of_not_lt hbody,
        Nat.le_of_not_lt hpayload, hentry, rfl⟩
    · cases h
  · intro h
    unfold nextRecord
    rw [if_neg (Nat.not_lt.2 h.header_le)]
    dsimp only
    rw [if_neg (not_not.2 h.headerSize), if_neg (Nat.not_lt.2 h.bodyStartOffset_le),
      if_neg (Nat.not_lt.2 h.payload_le), h.entry_eq, h.rest_eq]

theorem readEntry_entryHeader (entry : StoreEntry) :
    (entryHeader entry).readEntry (entryPayload entry) = some entry := by
  cases entry with
  | outbound record => rfl
  | inbound record => rfl
  | recovery state =>
    obtain ⟨sessionId, nextIn, nextOut, lastIn, lastOut, active⟩ := state
    cases active <;> rfl

theorem entryHeader_payloadSize (entry : StoreEntry) :
    (entryHeader entry).payloadSize = (entryPayload entry).length := by
  cases entry <;> rfl

theorem entryHeader_bodyStartOffset_le (hvalid : validateEntry entry = .ok ()) :
    (entryHeader entry).bodyStartOffset ≤ (entryPayload entry).length := by
  cases entry with
  | outbound record => exact (validateRecordView_ok hvalid).2.2.2
  | inbound record => exact (validateRecordView_ok hvalid).2.2.2
  | recovery state => exact Nat.zero_le _

theorem nextRecord_entryBytes (htyped : entry.Typed) (hvalid : validateEntry entry = .ok ())
    (rest : Bytes) : nextRecord (entryBytes entry ++ rest) = .ok (entry, rest) := by
  have hbytes : entryBytes entry ++ rest =
      (entryHeader entry).bytes ++ (entryPayload entry ++ rest) := List.append_assoc ..
  have hheader : recordHeader (entryBytes entry ++ rest) = entryHeader entry := by
    rw [hbytes]
    exact recordHeader_bytes (entryHeader_typed htyped hvalid) _
  have hlen := length_entryBytes entry
  refine nextRecord_ok_iff.2 ⟨?_, ?_, ?_, ?_, ?_, ?_⟩
  · rw [List.length_append]
    omega
  · rw [hheader]
    cases entry <;> rfl
  · rw [hheader, entryHeader_payloadSize]
    exact entryHeader_bodyStartOffset_le hvalid
  · rw [hheader, entryHeader_payloadSize, List.length_append]
    omega
  · rw [hheader, entryHeader_payloadSize, hbytes, List.drop_left' (length_recordHeaderBytes _),
      List.take_left, readEntry_entryHeader]
  · rw [hheader, entryHeader_payloadSize, ← hlen, List.drop_left]

theorem StartsWith.append (h : StartsWith bytes entry rest) (more : Bytes) :
    StartsWith (bytes ++ more) entry (rest ++ more) := by
  have hheader := recordHeader_append h.header_le more
  have hpayload := h.payload_le
  refine ⟨?_, ?_, ?_, ?_, ?_, ?_⟩
  · rw [List.length_append]
    exact Nat.le_add_right_of_le h.header_le
  · rw [hheader]
    exact h.headerSize
  · rw [hheader]
    exact h.bodyStartOffset_le
  · rw [hheader, List.length_append]
    exact Nat.le_add_right_of_le h.payload_le
  · rw [hheader, List.drop_append_of_le_length h.header_le,
      List.take_append_of_le_length (by rw [List.length_drop]; omega)]
    exact h.entry_eq
  · rw [hheader, List.drop_append_of_le_length h.payload_le, h.rest_eq]

theorem StartsWith.length_lt (h : StartsWith bytes entry rest) : rest.length < bytes.length := by
  have hsize : kStoreRecordHeaderSize = 64 := rfl
  have hle := h.header_le
  rw [h.rest_eq, List.length_drop]
  omega

/-! ## Scanning -/

/-- The bytes are the records of the entries, one after the other. -/
inductive Scans : Bytes → List StoreEntry → Prop
  | nil : Scans [] []
  | cons {bytes rest : Bytes} {entry : StoreEntry} {entries : List StoreEntry} :
      StartsWith bytes entry rest → Scans rest entries → Scans bytes (entry :: entries)

theorem Scans.append {more : Bytes} {entries' : List StoreEntry} (h : Scans bytes entries)
    (hmore : Scans more entries') : Scans (bytes ++ more) (entries ++ entries') := by
  induction h with
  | nil => exact hmore
  | cons hstart _ ih => exact .cons (hstart.append more) ih

theorem scans_entryBytes (htyped : entry.Typed) (hvalid : validateEntry entry = .ok ()) :
    Scans (entryBytes entry) [entry] := by
  have hnext := nextRecord_entryBytes htyped hvalid []
  rw [List.append_nil] at hnext
  exact .cons (nextRecord_ok_iff.1 hnext) .nil

theorem Scans.scanRecords (h : Scans bytes entries) :
    ∀ {fuel : Nat}, bytes.length ≤ fuel → scanRecords fuel bytes = (entries, []) := by
  induction h with
  | nil =>
    intro fuel _
    cases fuel <;> rfl
  | @cons bytes rest entry entries hstart _ ih =>
    intro fuel hfuel
    have hlt := hstart.length_lt
    cases fuel with
    | zero => omega
    | succ fuel =>
      have hne : bytes ≠ [] := fun h => by simp [h] at hlt
      unfold MmapSessionStore.scanRecords
      rw [if_neg hne, nextRecord_ok_iff.2 hstart]
      dsimp only
      rw [ih (by omega)]

/-- The records the session received in the range, in the order of the log. -/
def StoreEntry.inboundIn? (sessionId beginSeq endSeq : Nat) : StoreEntry → Option MessageRecord
  | .outbound _ => none
  | .inbound r =>
    if r.sessionId = sessionId ∧ beginSeq ≤ r.seqNum ∧ r.seqNum ≤ endSeq then some r else none
  | .recovery _ => none

theorem Scans.inboundRecords (h : Scans bytes entries) (sessionId beginSeq endSeq : Nat) :
    ∀ {fuel : Nat}, bytes.length ≤ fuel →
      inboundRecords sessionId beginSeq endSeq fuel bytes =
        .ok (entries.filterMap (StoreEntry.inboundIn? sessionId beginSeq endSeq)) := by
  induction h with
  | nil =>
    intro fuel _
    cases fuel <;> rfl
  | @cons bytes rest entry entries hstart _ ih =>
    intro fuel hfuel
    have hlt := hstart.length_lt
    cases fuel with
    | zero => omega
    | succ fuel =>
      have hne : bytes ≠ [] := fun h => by simp [h] at hlt
      unfold MmapSessionStore.inboundRecords
      rw [if_neg hne, nextRecord_ok_iff.2 hstart]
      change (MmapSessionStore.inboundRecords sessionId beginSeq endSeq fuel rest >>= _) = _
      rw [ih (by omega)]
      cases entry with
      | outbound r => rfl
      | recovery state => rfl
      | inbound r =>
        rw [List.filterMap_cons]
        dsimp only [StoreEntry.inboundIn?]
        split <;> rfl

/-! ## Well formed files -/

/-- The entries of a file and its size. -/
structure Log where
  entries : List StoreEntry
  size : Nat

/-- The file is well formed and holds the log. -/
structure Holds (file : Bytes) (log : Log) : Prop where
  magic : (fileHeader file).magic = kStoreMagic
  version : (fileHeader file).version = kStoreVersion
  headerSize : (fileHeader file).headerSize = kStoreFileHeaderSize
  fileSize : (fileHeader file).fileSize = file.length
  header_le : kStoreFileHeaderSize ≤ file.length
  size : log.size = file.length
  scans : Scans (file.drop kStoreFileHeaderSize) log.entries

def indexOf (entries : List StoreEntry) : Index := entries.foldl Index.add {}

theorem Holds.of_header {records : Bytes} (hmagic : h.magic = kStoreMagic)
    (hversion : h.version = kStoreVersion) (hheader : h.headerSize = kStoreFileHeaderSize)
    (hreserved : h.reserved0 < 2 ^ 64) (hsize : h.fileSize = kStoreFileHeaderSize + records.length)
    (hlt : h.fileSize < 2 ^ 64) (hscans : Scans records entries) :
    Holds (h.bytes ++ records) ⟨entries, h.fileSize⟩ := by
  have hlen := length_fileHeaderBytes (h := h) (by rw [hmagic]; rfl)
  have hread := fileHeader_bytes (h := h) (by rw [hmagic]; rfl) (by rw [hversion]; decide)
    (by rw [hheader]; decide) hlt hreserved records
  have hlength : (h.bytes ++ records).length = h.fileSize := by
    rw [List.length_append, hlen, hsize]
  refine ⟨?_, ?_, ?_, ?_, ?_, hlength.symm, ?_⟩
  · rw [hread, hmagic]
  · rw [hread, hversion]
  · rw [hread, hheader]
  · rw [hread, hlength]
  · rw [hlength, hsize]
    exact Nat.le_add_right ..
  · rw [List.drop_left' hlen]
    exact hscans

theorem Holds.length_lt {file : Bytes} {log : Log} (h : Holds file log) : file.length < 2 ^ 64 := by
  rw [← h.fileSize]
  exact Packed.ofLE_take_lt 8 _

theorem holds_new : Holds (initialized []) ⟨[], kStoreFileHeaderSize⟩ :=
  .of_header (h := buildFileHeader kStoreFileHeaderSize) rfl rfl rfl (by decide) rfl (by decide) .nil

section

variable {file : Bytes} {log : Log}

theorem Holds.scanMapping (h : Holds file log) (tail : Bytes) :
    scanMapping (file ++ tail) file.length = ⟨log.entries, file.length, false⟩ := by
  have hscan := h.scans.scanRecords (Nat.le_refl _)
  have hle := h.header_le
  unfold MmapSessionStore.scanMapping
  rw [List.take_left]
  dsimp only
  rw [hscan, List.length_drop]
  dsimp only [List.length_nil]
  rw [Nat.sub_zero, Nat.add_sub_cancel' hle]
  rfl

theorem Holds.fileHeader_append (h : Holds file log) (tail : Bytes) :
    fileHeader (file ++ tail) = fileHeader file := MmapSessionStore.fileHeader_append h.header_le tail

theorem Holds.ne_nil (h : Holds file log) (tail : Bytes) : file ++ tail ≠ [] := by
  have hsize : kStoreFileHeaderSize = 32 := rfl
  have hle := h.header_le
  intro hnil
  rw [(List.append_eq_nil_iff.1 hnil).1, List.length_nil] at hle
  omega

theorem Holds.desiredSize (h : Holds file log) (tail : Bytes) :
    desiredSize (file ++ tail) = file.length := by
  have hmin : min file.length (file ++ tail).length = file.length := by
    rw [List.length_append]
    omega
  unfold MmapSessionStore.desiredSize
  dsimp only
  rw [h.fileHeader_append, h.fileSize, hmin, h.scanMapping]
  simp

theorem pwrite_header {header : Bytes} (hheader : header.length = kStoreFileHeaderSize)
    (hle : kStoreFileHeaderSize ≤ file.length) :
    File.pwrite 0 header file = header ++ file.drop kStoreFileHeaderSize := by
  have hsame : header.length = (file.take kStoreFileHeaderSize).length := by
    rw [hheader, List.length_take, Nat.min_eq_left hle]
  have hwrite := File.pwrite_replace hsame [] (file.drop kStoreFileHeaderSize)
  rw [List.take_append_drop] at hwrite
  exact hwrite

theorem Holds.rewritten (h : Holds file log) :
    Holds (File.pwrite 0 (buildFileHeader file.length).bytes file) log := by
  have hle := h.header_le
  rw [pwrite_header (length_fileHeaderBytes rfl) hle]
  have hholds : Holds ((buildFileHeader file.length).bytes ++ file.drop kStoreFileHeaderSize)
      ⟨log.entries, file.length⟩ :=
    .of_header rfl rfl rfl (Nat.two_pow_pos 64)
      (by rw [List.length_drop, Nat.add_sub_cancel' hle]; rfl) h.length_lt h.scans
  rw [← h.size] at hholds
  rw [← h.size]
  exact hholds

theorem Holds.openStore (h : Holds file log) (tail : Bytes) (impl : Option Index) :
    ∃ s, openStore ⟨file ++ tail, impl⟩ = (.ok (), s) ∧ Holds s.file log ∧
      s.impl = some (indexOf log.entries) ∧ (tail = [] → s.file = file) := by
  have hmin : min file.length (file ++ tail).length = file.length := by
    rw [List.length_append]
    omega
  have hheader := h.fileHeader_append tail
  have hvalid : ¬((fileHeader file).magic ≠ kStoreMagic ∨ (fileHeader file).version ≠ kStoreVersion ∨
      (fileHeader file).headerSize ≠ kStoreFileHeaderSize ∨
      (fileHeader file).fileSize < kStoreFileHeaderSize) := by
    have hle := h.header_le
    rw [h.magic, h.version, h.headerSize, h.fileSize]
    simp only [ne_eq, not_true_eq_false, false_or]
    omega
  unfold MmapSessionStore.openStore
  dsimp only [initialized]
  rw [if_neg (h.ne_nil tail), hheader, if_neg hvalid, h.fileSize, hmin, h.scanMapping,
    h.desiredSize]
  cases tail with
  | nil =>
    rw [List.append_nil, if_neg (by simp)]
    exact ⟨_, rfl, h, rfl, fun _ => rfl⟩
  | cons b tail =>
    rw [if_pos (by simp), File.truncate_append]
    have hholds := h.rewritten
    have hscan := hholds.scanMapping []
    rw [List.append_nil, ← hholds.size, h.size] at hscan
    refine ⟨_, rfl, hholds, ?_, fun hnil => by cases hnil⟩
    rw [hscan]
    rfl

/-! ## Appending -/

/-- The header an append writes. -/
def headerAfter (entry : StoreEntry) (file : Bytes) : StoreFileHeader :=
  { fileHeader file with fileSize := sizeAfter entry file }

/-- The writes of an append that come before the one that commits to the new size. -/
def writesBefore (entry : StoreEntry) (file : Bytes) : List File.Write :=
  .truncate (sizeAfter entry file) ::
    ((if (entryPayload entry).isEmpty then []
      else [.pwrite ((fileHeader file).fileSize + kStoreRecordHeaderSize) (entryPayload entry)]) ++
    [.pwrite (fileHeader file).fileSize (entryHeader entry).bytes])

theorem appendWrites_eq (entry : StoreEntry) (file : Bytes) :
    appendWrites entry file =
      writesBefore entry file ++ [.pwrite 0 (headerAfter entry file).bytes] := by
  rw [appendWrites, writesBefore, List.cons_append, List.append_assoc]
  rfl

theorem Holds.sizeAfter_eq (h : Holds file log) (entry : StoreEntry) :
    sizeAfter entry file =
      file.length + (kStoreRecordHeaderSize + (entryPayload entry).length) := by
  rw [sizeAfter, h.fileSize]

theorem Holds.writesBefore_behind (h : Holds file log) (entry : StoreEntry) :
    ∀ w ∈ writesBefore entry file, w.Behind file.length := by
  intro w hw
  have hsize := h.sizeAfter_eq entry
  unfold writesBefore at hw
  rw [h.fileSize] at hw
  rcases List.mem_cons.1 hw with rfl | hw
  · change file.length ≤ sizeAfter entry file
    omega
  · rcases List.mem_append.1 hw with hw | hw
    · split at hw
      · cases hw
      · obtain rfl := List.mem_singleton.1 hw
        exact Nat.le_add_right ..
    · obtain rfl := List.mem_singleton.1 hw
      exact Nat.le_refl _

/-- Before the new size is committed, the record is behind the old file. -/
theorem Holds.writeAll_writesBefore (h : Holds file log) (entry : StoreEntry) :
    File.writeAll (writesBefore entry file) file = file ++ entryBytes entry := by
  have hheader : (entryHeader entry).bytes.length =
      (List.replicate kStoreRecordHeaderSize (0 : UInt8)).length := by
    rw [length_recordHeaderBytes, List.length_replicate]
  have hpayload : (entryPayload entry).length =
      (List.replicate (entryPayload entry).length (0 : UInt8)).length := by
    rw [List.length_replicate]
  -- the payload is written behind the place of the header, then the header
  have hlast := File.pwrite_replace hheader file (entryPayload entry)
  rw [writesBefore, h.sizeAfter_eq, h.fileSize, File.writeAll, List.foldl_cons, List.foldl_append]
  change List.foldl _ (List.foldl _ (File.truncate _ file) _) _ = _
  rw [File.truncate_extend, ← List.replicate_append_replicate, entryBytes]
  by_cases hempty : (entryPayload entry).isEmpty
  · rw [if_pos hempty]
    rw [List.isEmpty_iff.1 hempty] at hlast ⊢
    exact hlast
  · rw [if_neg hempty, List.foldl_cons, List.foldl_nil]
    have hfirst := File.pwrite_replace hpayload
      (file ++ List.replicate kStoreRecordHeaderSize (0 : UInt8)) []
    rw [List.length_append, List.length_replicate, List.append_nil, List.append_nil,
      List.append_assoc, List.append_assoc] at hfirst
    change File.pwrite _ _ (File.pwrite _ _ _) = _
    rw [hfirst]
    exact hlast

theorem Holds.writeAll_appendWrites (h : Holds file log) (entry : StoreEntry) :
    File.writeAll (appendWrites entry file) file = (headerAfter entry file).bytes ++
      (file.drop kStoreFileHeaderSize ++ entryBytes entry) := by
  have hle := h.header_le
  rw [appendWrites_eq, File.writeAll, List.foldl_append]
  change File.pwrite 0 _ (File.writeAll (writesBefore entry file) file) = _
  rw [h.writeAll_writesBefore, pwrite_header, List.drop_append_of_le_length hle]
  · exact length_fileHeaderBytes (by change (fileHeader file).magic.length = 8; rw [h.magic]; rfl)
  · rw [List.length_append]
    exact Nat.le_add_right_of_le hle

/-- The log with one more entry. -/
def Log.add (log : Log) (entry : StoreEntry) : Log :=
  ⟨log.entries ++ [entry], log.size + (kStoreRecordHeaderSize + (entryPayload entry).length)⟩

theorem Holds.sizeAfter_add (h : Holds file log) (entry : StoreEntry) :
    sizeAfter entry file = (log.add entry).size := by
  rw [h.sizeAfter_eq, Log.add, h.size]

theorem Holds.appended (h : Holds file log) (htyped : entry.Typed)
    (hvalid : validateEntry entry = .ok ()) (hlt : sizeAfter entry file < 2 ^ 63) :
    Holds (File.writeAll (appendWrites entry file) file) (log.add entry) := by
  have hle := h.header_le
  have hsize := h.sizeAfter_eq entry
  have hlog : log.add entry = ⟨log.entries ++ [entry], (headerAfter entry file).fileSize⟩ :=
    congrArg (Log.mk _) (h.sizeAfter_add entry).symm
  rw [h.writeAll_appendWrites, hlog]
  refine .of_header h.magic h.version h.headerSize (fileHeader_reserved0_lt file) ?_ ?_
    (h.scans.append (scans_entryBytes htyped hvalid))
  · change sizeAfter entry file = _
    rw [hsize, List.length_append, List.length_drop, length_entryBytes]
    omega
  · change sizeAfter entry file < 2 ^ 64
    omega

end

end MmapSessionStore

end NimbleFix
