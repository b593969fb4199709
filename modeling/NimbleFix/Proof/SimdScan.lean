import NimbleFix.Codec.SimdScan
import NimbleFix.Transport.ReadBuffer

/-!
# The block loops do what a plain scan does

`Marks mask p`: a bit of the mask of a block is set where the byte satisfies `p`. The lowest set bit
is then the first such byte, and the loop over the blocks is `List.findIdx`. The sums of the blocks
add up in 32-bit arithmetic to the sum of the bytes.
-/

namespace NimbleFix

namespace Simd

/-! ## Masks -/

/-- The mask of sixteen bytes shows which of them satisfy `p`. -/
def Marks (mask : Bytes → BitVec 32) (p : Byte → Bool) : Prop :=
  ∀ chunk : Bytes, chunk.length = 16 → ∀ i, (mask chunk).getLsbD i = chunk[i]?.any p

theorem getLsbD_movemaskEpi8 {v : Bytes} (h : v.length = 16) (i : Nat) :
    (movemaskEpi8 v).getLsbD i = v[i]?.any fun b => decide (128 ≤ b) := by
  unfold movemaskEpi8
  rw [BitVec.getLsbD_setWidth, BitVec.getLsbD_ofBoolListLE, List.getD_eq_getElem?_getD,
    List.getElem?_map]
  rcases Nat.lt_or_ge i 16 with hi | hi
  · simp [h, hi, show i < 32 by omega]
  · simp [List.getElem?_eq_none (show v.length ≤ i by omega)]

theorem zipWith_replicate_right {α β γ : Type} (f : α → β → γ) {l : List α} {n : Nat}
    (h : l.length = n) (b : β) : List.zipWith f l (List.replicate n b) = l.map (f · b) := by
  subst h
  induction l with
  | nil => rfl
  | cons a l ih => simp [List.replicate_succ, ih]

theorem marks_equal (needle : Byte) :
    Marks (fun chunk => movemaskEpi8 (cmpeqEpi8 chunk (set1Epi8 needle))) (· == needle) := by
  intro chunk h i
  simp only [cmpeqEpi8, set1Epi8, zipWith_replicate_right _ h]
  rw [getLsbD_movemaskEpi8 (by simpa using h), List.getElem?_map]
  cases chunk[i]? with
  | none => rfl
  | some b => by_cases hb : b = needle <;> simp [hb]

theorem marks_either (x y : Byte) :
    Marks (fun chunk => movemaskEpi8
      (orSi128 (cmpeqEpi8 chunk (set1Epi8 x)) (cmpeqEpi8 chunk (set1Epi8 y))))
      (fun b => b == x || b == y) := by
  intro chunk h i
  simp only [orSi128, cmpeqEpi8, set1Epi8, zipWith_replicate_right _ h]
  rw [getLsbD_movemaskEpi8 (by simpa using h), List.getElem?_zipWith, List.getElem?_map,
    List.getElem?_map]
  cases chunk[i]? with
  | none => rfl
  | some b =>
    simp only [Option.map_some, Option.any_some, Bool.beq_eq_decide_eq]
    split <;> split <;> simp [*]

/-! ## Searching -/

theorem findByteShortScalar_eq (needle : Byte) : ∀ data : Bytes,
    findByteShortScalar needle data = data.findIdx (· == needle)
  | [] => rfl
  | b :: bs => by
    rw [findByteShortScalar, findByteShortScalar_eq needle bs, List.findIdx_cons, Bool.cond_eq_ite]
    simp only [beq_iff_eq]

theorem findEitherTail_eq (x y : Byte) : ∀ data : Bytes,
    findEitherTail x y data = data.findIdx fun b => b == x || b == y
  | [] => rfl
  | b :: bs => by
    rw [findEitherTail, findEitherTail_eq x y bs, List.findIdx_cons, Bool.cond_eq_ite]
    simp only [Bool.or_eq_true, beq_iff_eq]

section

variable {mask : Bytes → BitVec 32} {p : Byte → Bool} (h : Marks mask p) {chunk : Bytes}
  (hlen : chunk.length = 16)
include h hlen

theorem Marks.findIdx_of_ne (hmask : mask chunk ≠ 0) :
    (mask chunk).ctz.toNat < chunk.length ∧ chunk.findIdx p = (mask chunk).ctz.toNat := by
  have hbit := BitVec.getLsbD_true_ctz_of_ne_zero hmask
  rw [h chunk hlen] at hbit
  have hlt : (mask chunk).ctz.toNat < chunk.length := by
    by_contra hge
    rw [List.getElem?_eq_none (Nat.le_of_not_lt hge)] at hbit
    cases hbit
  rw [List.getElem?_eq_getElem hlt] at hbit
  refine ⟨hlt, (List.findIdx_eq hlt).2 ⟨hbit, fun j hj => ?_⟩⟩
  have hlow := BitVec.getLsbD_false_of_lt_ctz hj
  rw [h chunk hlen, List.getElem?_eq_getElem (hj.trans hlt)] at hlow
  exact hlow

theorem Marks.findIdx_of_eq (hmask : mask chunk = 0) : chunk.findIdx p = chunk.length := by
  refine List.findIdx_eq_length_of_false fun b hb => ?_
  obtain ⟨i, hi, rfl⟩ := List.getElem_of_mem hb
  have hbit := h chunk hlen i
  rw [hmask, List.getElem?_eq_getElem hi] at hbit
  exact hbit.symm.trans BitVec.getLsbD_zero

end

theorem scanBlocks_eq {mask : Bytes → BitVec 32} {p : Byte → Bool} {tail : Bytes → Nat}
    (hmask : Marks mask p) (htail : ∀ data, tail data = data.findIdx p) (data : Bytes) :
    scanBlocks mask tail data = data.findIdx p := by
  -- by induction on the blocks: the answer in the first block is the answer for all of the data
  induction data using scanBlocks.induct mask with
  | case1 data hlen m hm =>
    obtain ⟨hlt, hblock⟩ := hmask.findIdx_of_ne (List.length_take_of_le hlen) hm
    rw [scanBlocks, dif_pos hlen, if_pos hm]
    nth_rewrite 2 [← List.take_append_drop 16 data]
    rw [List.findIdx_append, hblock, if_pos hlt]
  | case2 data hlen m hm ih =>
    have hblock := hmask.findIdx_of_eq (List.length_take_of_le hlen) (not_not.1 hm)
    rw [scanBlocks, dif_pos hlen, if_neg hm, ih]
    nth_rewrite 2 [← List.take_append_drop 16 data]
    rw [List.findIdx_append, hblock, if_neg (Nat.lt_irrefl _), List.length_take_of_le hlen,
      Nat.add_comm]
  | case3 data hlen => rw [scanBlocks, dif_neg hlen, htail]

/-- The vector search is the one the model of the transports has. -/
theorem findByte_eq_findByte (sse2 : Bool) (needle : Byte) (data : Bytes) :
    findByte sse2 needle data = NimbleFix.findByte needle data := by
  unfold findByte findByteSse2 findByteScalar NimbleFix.findByte
  rw [scanBlocks_eq (marks_equal needle) (findByteShortScalar_eq needle),
    findByteShortScalar_eq, ← List.findIdx_eq_getD_findIdx?]
  split
  · split <;> rfl
  · rfl

/-- In both builds the searches give the first position of a byte that is looked for, or the
length, as the plain loop does. -/
theorem findByte_first (sse2 : Bool) (needle x y : Byte) (data : Bytes) :
    findByte sse2 needle data = data.findIdx (· == needle) ∧
      findByte sse2 needle data = findByteShortScalar needle data ∧
      findEitherByte sse2 x y data = data.findIdx (fun b => b == x || b == y) ∧
      findEitherByte sse2 x y data = findEitherTail x y data := by
  have hbyte : findByte sse2 needle data = data.findIdx (· == needle) :=
    findByte_eq_findByte sse2 needle data
  have heither : findEitherByte sse2 x y data = data.findIdx fun b => b == x || b == y := by
    unfold findEitherByte
    rw [scanBlocks_eq (marks_either x y) (findEitherTail_eq x y), findEitherTail_eq]
    split <;> rfl
  exact ⟨hbyte, hbyte.trans (findByteShortScalar_eq needle data).symm, heither,
    heither.trans (findEitherTail_eq x y data).symm⟩

/-! ## Summing -/

theorem byteSum_append (a b : Bytes) : byteSum (a ++ b) = byteSum a + byteSum b := by
  simp [byteSum]

theorem byteSum_le (data : Bytes) : byteSum data ≤ 255 * data.length := by
  induction data with
  | nil => simp [byteSum]
  | cons b bs ih =>
    have := b.toNat_lt
    simp only [byteSum, List.map_cons, List.sum_cons, List.length_cons] at ih ⊢
    omega

theorem sumTail_eq (sum : UInt32) (data : Bytes) :
    sumTail sum data = sum + UInt32.ofNat (byteSum data) := by
  induction data generalizing sum with
  | nil => simp [sumTail, byteSum]
  | cons b bs ih =>
    have hb : b.toUInt32 = UInt32.ofNat b.toNat := by simp
    rw [sumTail, List.foldl_cons, ← sumTail, ih, hb, UInt32.add_assoc, ← UInt32.ofNat_add]
    rfl

theorem sadLane_zero {a : Bytes} (h : a.length = 8) :
    (sadLane a (List.replicate 8 0)).toUInt32 = UInt32.ofNat (byteSum a) := by
  have hle := byteSum_le a
  have hlt : byteSum a < 2 ^ 16 := by omega
  unfold sadLane
  rw [zipWith_replicate_right _ h]
  have hsum : (a.map fun x => max x.toNat (0 : Byte).toNat - min x.toNat (0 : Byte).toNat).sum =
      byteSum a := by simp [byteSum]
  rw [hsum]
  apply UInt32.toNat_inj.1
  rw [UInt16.toNat_toUInt32, UInt16.toNat_ofNat_of_lt' hlt,
    UInt32.toNat_ofNat_of_lt' (hlt.trans (by decide))]

theorem sumBlocks_eq (sum : UInt32) (data : Bytes) :
    sumBlocks sum data = sum + UInt32.ofNat (byteSum data) := by
  induction sum, data using sumBlocks.induct with
  | case1 sum data hlen sad ih =>
    have hlow : extractEpi16 sad 0 = UInt32.ofNat (byteSum ((data.take 16).take 8)) :=
      sadLane_zero (by simp; omega)
    have hhigh : extractEpi16 sad 4 = UInt32.ofNat (byteSum ((data.take 16).drop 8)) :=
      sadLane_zero (by simp; omega)
    rw [sumBlocks, dif_pos hlen, ih, hlow, hhigh, ← UInt32.ofNat_add, ← byteSum_append,
      List.take_append_drop, UInt32.add_assoc, ← UInt32.ofNat_add, ← byteSum_append,
      List.take_append_drop]
  | case2 sum data hlen => rw [sumBlocks, dif_neg hlen, sumTail_eq]

theorem computeChecksumSIMD_eq (sse2 : Bool) (data : Bytes) :
    computeChecksumSIMD sse2 data = UInt32.ofNat (byteSum data) := by
  unfold computeChecksumSIMD
  split
  · rw [sumBlocks_eq, UInt32.zero_add]
  · rw [sumTail_eq, UInt32.zero_add]

end Simd

end NimbleFix
