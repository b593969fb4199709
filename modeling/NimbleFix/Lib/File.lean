import Mathlib.Data.List.Basic

/-!
# Files and the writes to them

A file is its bytes. `truncate` cuts it off or fills it up with zeros, `pwrite` writes at an offset.
A stop of the program leaves the writes made so far, so the file after it is `writeAll` of the first
writes of the list. A write behind the first `n` bytes leaves those bytes.
-/

namespace File

def truncate (size : Nat) (file : List UInt8) : List UInt8 :=
  file.take size ++ List.replicate (size - file.length) 0

def pwrite (offset : Nat) (bytes file : List UInt8) : List UInt8 :=
  truncate offset file ++ bytes ++ file.drop (offset + bytes.length)

inductive Write
  | truncate (size : Nat)
  | pwrite (offset : Nat) (bytes : List UInt8)
  deriving DecidableEq, Repr

def Write.apply (file : List UInt8) : Write → List UInt8
  | truncate size => File.truncate size file
  | pwrite offset bytes => File.pwrite offset bytes file

def writeAll (writes : List Write) (file : List UInt8) : List UInt8 :=
  writes.foldl Write.apply file

theorem truncate_append (file rest : List UInt8) : truncate file.length (file ++ rest) = file := by
  simp [truncate]

theorem truncate_extend (file : List UInt8) (n : Nat) :
    truncate (file.length + n) file = file ++ List.replicate n 0 := by
  rw [truncate, List.take_of_length_le (Nat.le_add_right ..), Nat.add_sub_cancel_left]

theorem length_truncate (size : Nat) (file : List UInt8) : (truncate size file).length = size := by
  rw [truncate, List.length_append, List.length_take, List.length_replicate]
  omega

theorem pwrite_replace {old new : List UInt8} (h : new.length = old.length)
    (front rest : List UInt8) :
    pwrite front.length new (front ++ (old ++ rest)) = front ++ (new ++ rest) := by
  rw [pwrite, truncate_append, h, ← List.length_append, ← List.append_assoc front old rest,
    List.drop_left, List.append_assoc]

/-- The write leaves the first `n` bytes and makes the file no shorter than that. -/
def Write.Behind (n : Nat) : Write → Prop
  | truncate size => n ≤ size
  | pwrite offset _ => n ≤ offset

theorem take_truncate {n size : Nat} {file : List UInt8} (h : n ≤ size) (hfile : n ≤ file.length) :
    (truncate size file).take n = file.take n := by
  rw [truncate, List.take_append_of_le_length (by rw [List.length_take]; omega), List.take_take,
    Nat.min_eq_left h]

theorem Write.Behind.take {n : Nat} {file : List UInt8} {w : Write} (h : w.Behind n)
    (hfile : n ≤ file.length) : (w.apply file).take n = file.take n ∧ n ≤ (w.apply file).length := by
  cases w with
  | truncate size =>
    refine ⟨take_truncate h hfile, ?_⟩
    change n ≤ (File.truncate size file).length
    rw [length_truncate]
    exact h
  | pwrite offset bytes =>
    have hlen := length_truncate offset file
    change n ≤ offset at h
    change (File.truncate offset file ++ bytes ++ _).take n = _ ∧
      n ≤ (File.truncate offset file ++ bytes ++ _).length
    rw [List.append_assoc]
    constructor
    · rw [List.take_append_of_le_length (by omega), take_truncate h hfile]
    · rw [List.length_append]
      omega

theorem writeAll_take {n : Nat} {writes : List Write} (h : ∀ w ∈ writes, w.Behind n)
    {file : List UInt8} (hfile : n ≤ file.length) :
    (writeAll writes file).take n = file.take n ∧ n ≤ (writeAll writes file).length := by
  induction writes generalizing file with
  | nil => exact ⟨rfl, hfile⟩
  | cons w writes ih =>
    obtain ⟨htake, hle⟩ := (h w List.mem_cons_self).take hfile
    obtain ⟨htake', hle'⟩ := ih (fun w' hw' => h w' (List.mem_cons_of_mem _ hw')) hle
    exact ⟨htake'.trans htake, hle'⟩

end File
