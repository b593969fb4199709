import Mathlib.Algebra.Order.Ring.Nat
import Mathlib.Algebra.BigOperators.Group.List.Basic

/-!
# Packed records of little-endian numbers

`pack` writes numbers one after the other, each in its number of bytes, and `unpack` reads them
again. Reading past the end gives zeros.
-/

namespace Packed

/-- The low `width` bytes of a number, the least significant first. -/
def toLE : Nat → Nat → List UInt8
  | 0, _ => []
  | width + 1, n => UInt8.ofNat (n % 256) :: toLE width (n / 256)

def ofLE : List UInt8 → Nat
  | [] => 0
  | b :: bytes => b.toNat + 256 * ofLE bytes

@[simp] theorem length_toLE (width n : Nat) : (toLE width n).length = width := by
  induction width generalizing n with
  | zero => rfl
  | succ width ih => rw [toLE, List.length_cons, ih]

theorem ofLE_toLE {width n : Nat} (h : n < 256 ^ width) : ofLE (toLE width n) = n := by
  induction width generalizing n with
  | zero =>
    rw [Nat.pow_zero] at h
    rw [toLE, ofLE]
    omega
  | succ width ih =>
    have hdiv : n / 256 < 256 ^ width := by
      rw [Nat.div_lt_iff_lt_mul (by decide), ← Nat.pow_succ]
      exact h
    have hbyte : (UInt8.ofNat (n % 256)).toNat = n % 256 := by
      rw [UInt8.toNat_ofNat']
      omega
    rw [toLE, ofLE, ih hdiv, hbyte]
    omega

theorem ofLE_lt (bytes : List UInt8) : ofLE bytes < 256 ^ bytes.length := by
  induction bytes with
  | nil => exact Nat.one_pos
  | cons b bytes ih =>
    have hb := b.toNat_lt
    rw [ofLE, List.length_cons, Nat.pow_succ]
    omega

theorem ofLE_take_lt (width : Nat) (bytes : List UInt8) : ofLE (bytes.take width) < 256 ^ width :=
  Nat.lt_of_lt_of_le (ofLE_lt _)
    (Nat.pow_le_pow_right (by decide) (by rw [List.length_take]; exact Nat.min_le_left ..))

/-- Fields, each a width and a value. -/
def pack (fields : List (Nat × Nat)) : List UInt8 := fields.flatMap fun f => toLE f.1 f.2

def unpack : List Nat → List UInt8 → List Nat
  | [], _ => []
  | width :: widths, bytes => ofLE (bytes.take width) :: unpack widths (bytes.drop width)

theorem length_pack (fields : List (Nat × Nat)) :
    (pack fields).length = (fields.map Prod.fst).sum := by
  induction fields with
  | nil => rfl
  | cons f fields ih =>
    rw [pack, List.flatMap_cons, List.length_append, length_toLE, List.map_cons, List.sum_cons, ← ih]
    rfl

theorem unpack_pack {fields : List (Nat × Nat)} (h : ∀ f ∈ fields, f.2 < 256 ^ f.1)
    (rest : List UInt8) :
    unpack (fields.map Prod.fst) (pack fields ++ rest) = fields.map Prod.snd := by
  induction fields with
  | nil => rfl
  | cons f fields ih =>
    have hpack : pack (f :: fields) ++ rest = toLE f.1 f.2 ++ (pack fields ++ rest) := by
      rw [pack, List.flatMap_cons, List.append_assoc]
      rfl
    have hlen := length_toLE f.1 f.2
    rw [hpack, List.map_cons, unpack, List.take_left' hlen, List.drop_left' hlen,
      ofLE_toLE (h f List.mem_cons_self), ih fun g hg => h g (List.mem_cons_of_mem _ hg)]
    rfl

theorem unpack_append {widths : List Nat} {bytes : List UInt8} (h : widths.sum ≤ bytes.length)
    (rest : List UInt8) : unpack widths (bytes ++ rest) = unpack widths bytes := by
  induction widths generalizing bytes with
  | nil => rfl
  | cons width widths ih =>
    rw [List.sum_cons] at h
    rw [unpack, unpack, List.take_append_of_le_length (by omega),
      List.drop_append_of_le_length (by omega), ih (by rw [List.length_drop]; omega)]

end Packed
