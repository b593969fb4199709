import Mathlib.Algebra.Order.Ring.Nat
import Mathlib.Data.List.Basic

/-!
# Byte strings

Strings, spans and buffers of the engine are byte lists. `ascii` writes a literal of the source,
`decimal` is the text `std::to_chars` gives for an unsigned number.
-/

namespace NimbleFix

abbrev Byte := UInt8

abbrev Bytes := List Byte

def ascii (s : String) : Bytes := s.toList.map fun c => UInt8.ofNat c.toNat

def digitByte (d : Nat) : Byte := UInt8.ofNat (48 + d)

/-- The decimal digits of `n`, most significant first; `fuel` bounds their number. -/
def decimalAux : Nat → Nat → Bytes
  | 0, n => [digitByte (n % 10)]
  | fuel + 1, n => if n < 10 then [digitByte n] else decimalAux fuel (n / 10) ++ [digitByte (n % 10)]

def decimal (n : Nat) : Bytes := decimalAux n n

theorem decimalAux_length {k : Nat} : ∀ (fuel n : Nat), n < 10 ^ (k + 1) → n ≤ fuel →
    (decimalAux fuel n).length ≤ k + 1 := by
  induction k with
  | zero =>
    intro fuel n hn hf
    cases fuel with
    | zero => simp [decimalAux]
    | succ fuel => simp [decimalAux, show n < 10 by simpa using hn]
  | succ k ih =>
    intro fuel n hn hf
    cases fuel with
    | zero => simp [decimalAux]
    | succ fuel =>
      unfold decimalAux
      split
      · simp
      · have := ih fuel (n / 10) (by rw [Nat.pow_succ] at hn; omega) (by omega)
        simp
        omega

theorem decimal_length {k n : Nat} (h : n < 10 ^ (k + 1)) : (decimal n).length ≤ k + 1 :=
  decimalAux_length n n h (Nat.le_refl n)

end NimbleFix
