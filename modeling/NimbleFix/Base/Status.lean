import Mathlib.Algebra.Order.Ring.Nat
import NimbleFix.Lib.Fallible

/-!
# Status codes and machine words

`Status` is the error half of the engine's `base::Status` / `base::Result<T>`: the `kOk` code is
the `Except.ok` side of a result, so only the failing codes are listed. Counters are naturals that
the code keeps in 32- or 64-bit words; `wrap32` and `wrap64` stand where it lets them overflow.
-/

namespace NimbleFix

inductive ErrorCode
  | invalidArgument
  | ioError
  | busy
  | formatError
  | versionMismatch
  | notFound
  | alreadyExists
  deriving DecidableEq, Repr

structure Status where
  code : ErrorCode
  message : String
  deriving DecidableEq, Repr

namespace Status

def InvalidArgument (message : String) : Status := ⟨.invalidArgument, message⟩
def FormatError (message : String) : Status := ⟨.formatError, message⟩
def NotFound (message : String) : Status := ⟨.notFound, message⟩
def IoError (message : String) : Status := ⟨.ioError, message⟩
def Busy (message : String) : Status := ⟨.busy, message⟩

end Status

/-- `std::numeric_limits<std::uint32_t>::max()`. -/
def uint32Max : Nat := 2 ^ 32 - 1

def wrap32 (n : Nat) : Nat := n % 2 ^ 32

def wrap64 (n : Nat) : Nat := n % 2 ^ 64

theorem wrap32_of_lt {n : Nat} (h : n < 2 ^ 32) : wrap32 n = n := Nat.mod_eq_of_lt h

/-- The common method type: mutate an object, return a value or a status. -/
abbrev Method (σ α : Type) := Fallible Status σ α

theorem except_ite_ok {α : Type} {c : Prop} [Decidable c] {x y : Except Status α} {r : α}
    (h : (if c then x else y) = .ok r) : c ∧ x = .ok r ∨ ¬c ∧ y = .ok r := by
  by_cases hc : c
  · rw [if_pos hc] at h
    exact .inl ⟨hc, h⟩
  · rw [if_neg hc] at h
    exact .inr ⟨hc, h⟩

theorem except_guard_ok {α : Type} {c : Prop} [Decidable c] {e : Status} {x : Except Status α}
    {r : α} (h : (if c then .error e else x) = .ok r) : ¬c ∧ x = .ok r := by
  rcases except_ite_ok h with ⟨-, h⟩ | h
  · cases h
  · exact h

theorem exceptBind_ok {ε α β : Type} {x : Except ε α} {f : α → Except ε β} {b : β}
    (h : x >>= f = .ok b) : ∃ a, x = .ok a ∧ f a = .ok b := by
  cases x with
  | error e => cases h
  | ok a => exact ⟨a, rfl, h⟩

/-- What holds of the result if there is one. -/
def IfOk {α : Type} (x : Except Status α) (P : α → Prop) : Prop :=
  match x with
  | .ok a => P a
  | .error _ => True

instance IfOk.decidable {α : Type} (x : Except Status α) (P : α → Prop)
    [∀ a, Decidable (P a)] : Decidable (IfOk x P) :=
  match x with
  | .ok a => inferInstanceAs (Decidable (P a))
  | .error _ => .isTrue trivial

end NimbleFix
