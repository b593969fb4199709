import Mathlib.Data.List.Basic

/-!
# Files named by numbers

A directory whose files are named by a number, as a list in ascending order of the names. Renaming
a file into it replaces the file of that name. `numbered` is the directory of files that are
numbered one after the other.
-/

abbrev Directory (α : Type) := List (Nat × α)

namespace Directory

variable {α β : Type}

def lookup (name : Nat) (dir : Directory α) : Option α :=
  (dir.find? (·.1 = name)).map Prod.snd

/-- Put a file under a name. -/
def put (name : Nat) (file : α) (dir : Directory α) : Directory α :=
  dir.filter (·.1 < name) ++ (name, file) :: dir.filter (name < ·.1)

def remove (name : Nat) (dir : Directory α) : Directory α := dir.filter (·.1 ≠ name)

/-- The files under the names from `first` on. -/
def numbered : Nat → List α → Directory α
  | _, [] => []
  | first, file :: files => (first, file) :: numbered (first + 1) files

/-! ## Looking up -/

theorem lookup_append (name : Nat) (dir dir' : Directory α) :
    lookup name (dir ++ dir') = (lookup name dir).or (lookup name dir') := by
  unfold lookup
  rw [List.find?_append]
  cases dir.find? (·.1 = name) <;> rfl

theorem lookup_cons_self (name : Nat) (file : α) (dir : Directory α) :
    lookup name ((name, file) :: dir) = some file := by
  simp [lookup]

theorem lookup_cons_of_ne {name other : Nat} (hne : other ≠ name) (file : α) (dir : Directory α) :
    lookup other ((name, file) :: dir) = lookup other dir := by
  simp [lookup, hne.symm]

theorem lookup_filter (name : Nat) (p : Nat → Bool) (dir : Directory α) :
    lookup name (dir.filter fun q => p q.1) = if p name then lookup name dir else none := by
  induction dir with
  | nil => simp [lookup]
  | cons q dir ih =>
    obtain ⟨other, file⟩ := q
    rw [List.filter_cons]
    by_cases hname : name = other
    · subst hname
      by_cases hp : p name
      · simp [hp, lookup]
      · simpa [hp] using ih
    · by_cases hp : p other
      · simpa [hp, lookup_cons_of_ne hname] using ih
      · simpa [hp, lookup_cons_of_ne hname] using ih

theorem lookup_put_self (name : Nat) (file : α) (dir : Directory α) :
    lookup name (put name file dir) = some file := by
  rw [put, lookup_append, lookup_filter name (fun other => decide (other < name)),
    lookup_cons_self]
  simp

theorem lookup_put_of_ne {name other : Nat} (hne : other ≠ name) (file : α) (dir : Directory α) :
    lookup other (put name file dir) = lookup other dir := by
  rw [put, lookup_append, lookup_cons_of_ne hne, lookup_filter other (fun n => decide (n < name)),
    lookup_filter other (fun n => decide (name < n))]
  rcases Nat.lt_or_gt_of_ne hne with hlt | hgt
  · simp [hlt, Nat.not_lt_of_gt hlt]
  · simp [hgt, Nat.not_lt_of_gt hgt]

theorem lookup_remove_of_ne {name other : Nat} (hne : other ≠ name) (dir : Directory α) :
    lookup other (remove name dir) = lookup other dir := by
  rw [remove, lookup_filter other (fun n => decide (n ≠ name)), if_pos (by simpa using hne)]

/-! ## Consecutive names -/

theorem mem_numbered {first : Nat} {files : List α} {p : Nat × α} (h : p ∈ numbered first files) :
    first ≤ p.1 ∧ p.1 < first + files.length ∧ p.2 ∈ files := by
  induction files generalizing first with
  | nil => cases h
  | cons file files ih =>
    rw [numbered, List.mem_cons] at h
    rcases h with rfl | h
    · simp
    · obtain ⟨h₁, h₂, h₃⟩ := ih h
      rw [List.length_cons]
      exact ⟨by omega, by omega, List.mem_cons_of_mem _ h₃⟩

theorem numbered_append (first : Nat) (files files' : List α) :
    numbered first (files ++ files') =
      numbered first files ++ numbered (first + files.length) files' := by
  induction files generalizing first with
  | nil => rfl
  | cons file files ih =>
    rw [List.cons_append, numbered, ih, numbered, List.length_cons, List.cons_append,
      Nat.add_assoc, Nat.add_comm 1]

theorem drop_numbered (n first : Nat) (files : List α) :
    (numbered first files).drop n = numbered (first + n) (files.drop n) := by
  induction n generalizing first files with
  | zero => rfl
  | succ n ih =>
    cases files with
    | nil => rfl
    | cons file files =>
      rw [numbered, List.drop_succ_cons, ih, List.drop_succ_cons, Nat.add_assoc, Nat.add_comm 1]

theorem map_snd_numbered (first : Nat) (files : List α) :
    (numbered first files).map Prod.snd = files := by
  induction files generalizing first with
  | nil => rfl
  | cons file files ih => simp [numbered, ih]

theorem map_fst_numbered (first : Nat) (files : List α) :
    (numbered first files).map Prod.fst = List.range' first files.length := by
  induction files generalizing first with
  | nil => rfl
  | cons file files ih => simp [numbered, ih, List.range'_succ]

end Directory
