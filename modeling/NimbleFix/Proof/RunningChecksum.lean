import NimbleFix.Codec.TrackedEncode
import NimbleFix.Proof.IntFormat
import NimbleFix.Proof.SimdScan

/-!
# The running checksum is the sum of the buffer

`Summed b`: the sum kept beside the buffer is the sum of its bytes in 32-bit arithmetic. Every
append and the replacement of the placeholder keep it, and 256 divides the modulus.
-/

namespace NimbleFix

open Simd

namespace TrackedBuffer

variable {sse2 : Bool} {b : TrackedBuffer}

/-- The sum is that of the bytes, modulo 2 ^ 32. -/
def Summed (b : TrackedBuffer) : Prop := b.checksum = UInt32.ofNat (byteSum b.out)

theorem Summed.accumulate {text : Bytes} (h : b.Summed) :
    ({ b with out := b.out ++ text }.accumulateChecksum sse2 text).Summed := by
  unfold Summed accumulateChecksum
  rw [h, computeChecksumSIMD_eq, byteSum_append, UInt32.ofNat_add]

theorem Summed.append (h : b.Summed) (a : TrackedAppend) : (b.append sse2 a).Summed := by
  cases a with
  | text piece => exact h.accumulate
  | char value =>
    have hvalue : value.toUInt32 = UInt32.ofNat (byteSum [value]) := by simp [byteSum]
    simp only [Summed, TrackedBuffer.append]
    rw [h, hvalue, byteSum_append, UInt32.ofNat_add]
  | generic piece =>
    simp only [TrackedBuffer.append, accumulateAppendedRange]
    split
    · rename_i hempty
      obtain rfl : piece = [] := by simpa using hempty
      simpa using h
    · rw [List.drop_left]
      exact h.accumulate

theorem Summed.appendAll (h : b.Summed) (appends : List TrackedAppend) :
    (b.appendAll sse2 appends).Summed := by
  induction appends generalizing b with
  | nil => exact h
  | cons a appends ih => exact ih (h.append a)

theorem Summed.replace (h : b.Summed) (offset width : Nat) (value : UInt32) :
    (b.replaceUnsignedPlaceholder sse2 offset width value).Summed := by
  -- the old sum is split at the placeholder, whose part is subtracted
  have hsplit : byteSum b.out = byteSum (b.out.take offset) +
      byteSum ((b.out.drop offset).take width) + byteSum (b.out.drop (offset + width)) := by
    rw [← List.drop_drop, Nat.add_assoc, ← byteSum_append, ← byteSum_append,
      List.take_append_drop, List.take_append_drop]
  unfold Summed replaceUnsignedPlaceholder accumulateChecksum
  dsimp only
  rw [h, hsplit, sumTail_eq, computeChecksumSIMD_eq, byteSum_append, byteSum_append]
  simp only [UInt32.ofNat_add]
  grind

theorem out_append (a : TrackedAppend) : (b.append sse2 a).out = b.out ++ a.bytes := by
  cases a with
  | text piece => rfl
  | char value => rfl
  | generic piece =>
    simp only [TrackedBuffer.append, accumulateAppendedRange]
    split <;> rfl

theorem out_appendAll (appends : List TrackedAppend) :
    (b.appendAll sse2 appends).out = b.out ++ appends.flatMap TrackedAppend.bytes := by
  induction appends generalizing b with
  | nil => simp [TrackedBuffer.appendAll]
  | cons a appends ih =>
    change ((b.append sse2 a).appendAll sse2 appends).out = _
    rw [ih, out_append, List.flatMap_cons, List.append_assoc]

end TrackedBuffer

/-! ## The appends of a scope -/

section

variable (d : Dictionary) (delim : Byte)

theorem bytes_appendPrefixedFieldValue (tag : Nat) (value : ScalarValue) :
    (appendPrefixedFieldValue delim tag value).flatMap TrackedAppend.bytes =
      field delim tag value.text := by
  cases value <;> simp [appendPrefixedFieldValue, makeTagPrefix, TrackedAppend.bytes, field,
    ScalarValue.text]

theorem lookup_map_snd {β γ : Type} (f : β → γ) (tag : Nat) (l : List (Nat × β)) :
    (l.map fun p => (p.1, f p.2)).lookup tag = (l.lookup tag).map f := by
  induction l with
  | nil => rfl
  | cons p l ih =>
    rw [List.map_cons, List.lookup_cons, List.lookup_cons, ih]
    cases tag == p.1 <;> rfl

mutual

/-- The appends of `EncodeScopeTemplate` write the text of the scope. -/
theorem MessageView.bytes_scopeAppends (rules : List FieldRule) (skipHeader : Bool) :
    ∀ v : MessageView, (v.scopeAppends d delim rules skipHeader).flatMap TrackedAppend.bytes =
      v.encodeScope d delim rules skipHeader
  | .mk msgType fields find groupCount chain => by
    rw [MessageView.scopeAppends, MessageView.encodeScope, encodeViewScope,
      ← bytes_templatedAppends chain]
    simp only [List.flatMap_append]
    congr 1
    · congr 1
      · rw [List.flatMap_assoc]
        refine List.flatMap_congr fun step _ => ?_
        split
        · rw [lookup_map_snd]
          cases (templatedAppends d delim chain).lookup step.tag <;> rfl
        · cases find step.tag with
          | none => rfl
          | some f =>
            dsimp only
            split
            · rfl
            · exact bytes_appendPrefixedFieldValue delim step.tag f.value
      · rw [List.flatMap_map, encodeFields, ← List.flatMap_def]
        rfl
    · rw [List.flatMap_map, ← List.flatMap_def]
      rfl

theorem bytes_templatedAppends : ∀ gs : List GroupView,
    (templatedAppends d delim gs).map (fun g => (g.1, g.2.flatMap TrackedAppend.bytes)) =
      templatedViewTable d delim gs
  | [] => rfl
  | g :: gs => by
    rw [templatedAppends, List.map_cons, bytes_templatedAppends gs, GroupView.bytes_scopeAppends g,
      templatedViewTable]

theorem GroupView.bytes_scopeAppends : ∀ g : GroupView,
    (g.scopeAppends d delim).flatMap TrackedAppend.bytes = g.encodeTemplated d delim
  | .mk countTag size entries => by
    rw [GroupView.scopeAppends, GroupView.encodeTemplated, List.flatMap_append]
    congr 1
    · simp [appendPrefixedCountField, makeTagPrefix, TrackedAppend.bytes, field]
    · cases d.findGroup countTag with
      | none => rfl
      | some g => exact bytes_entryAppends g.rules entries

theorem bytes_entryAppends (rules : List FieldRule) : ∀ es : List MessageView,
    (entryAppends d delim rules es).flatMap TrackedAppend.bytes =
      encodeTemplatedEntryViews d delim rules es
  | [] => rfl
  | e :: es => by
    rw [entryAppends, List.flatMap_append, MessageView.bytes_scopeAppends rules false e,
      bytes_entryAppends rules es, encodeTemplatedEntryViews]

end

end

theorem toNat_mod_256 (n : Nat) : (UInt32.ofNat n).toNat % 256 = n % 256 := by
  rw [UInt32.toNat_ofNat']
  omega

/-- After any appends and the replacement of a placeholder the running checksum agrees with the sum
of the buffer modulo 256, as the block sum does for every text. The template encoder is one that
appends: what it appends for a scope is the text of the scope. -/
theorem running_checksum (sse2 : Bool) (appends : List TrackedAppend) (offset width : Nat)
    (value : UInt32) (data : Bytes) :
    let final := (({} : TrackedBuffer).appendAll sse2 appends).replaceUnsignedPlaceholder sse2
      offset width value
    final.checksum.toNat % 256 = byteSum final.out % 256 ∧
      (computeChecksumSIMD sse2 data).toNat % 256 = byteSum data % 256 ∧
      ∀ (d : Dictionary) (delim : Byte) (rules : List FieldRule) (skipHeader : Bool)
        (v : MessageView) (b : TrackedBuffer),
        (b.appendAll sse2 (v.scopeAppends d delim rules skipHeader)).out =
          b.out ++ v.encodeScope d delim rules skipHeader := by
  intro final
  have hempty : ({} : TrackedBuffer).Summed := rfl
  have hfinal : final.Summed := (hempty.appendAll appends).replace offset width value
  refine ⟨?_, ?_, fun d delim rules skipHeader v b => ?_⟩
  · rw [hfinal, toNat_mod_256]
  · rw [computeChecksumSIMD_eq, toNat_mod_256]
  · rw [TrackedBuffer.out_appendAll, v.bytes_scopeAppends]

end NimbleFix
