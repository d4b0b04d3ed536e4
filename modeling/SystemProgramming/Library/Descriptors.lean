import Mathlib.Data.Set.Card
import Mathlib.Logic.Function.Basic

universe u

structure Descriptors (φ : Type u) where
  file : Nat → Option φ
  limit : Nat
  beyond : ∀ fd, limit ≤ fd → file fd = none

namespace Descriptors

variable {φ : Type u}

def close (table : Descriptors φ) (fd : Nat) : Descriptors φ where
  file := Function.update table.file fd none
  limit := table.limit
  beyond := by
    intro other far
    by_cases same : other = fd
    · rw [same, Function.update_self]
    · rw [Function.update_of_ne same]
      exact table.beyond other far

def closeBelow (table : Descriptors φ) (count : Nat) : Descriptors φ :=
  (List.range count).foldl close table

def install (table : Descriptors φ) (fd : Nat) (f : φ) : Descriptors φ where
  file := Function.update table.file fd (some f)
  limit := max table.limit (fd + 1)
  beyond := by
    intro other far
    rw [Function.update_of_ne (by omega)]
    exact table.beyond other (by omega)

def lowest (table : Descriptors φ) : Nat :=
  ((List.range table.limit).find? fun fd => (table.file fd).isNone).getD table.limit

def lowestFrom (table : Descriptors φ) (start : Nat) : Nat :=
  ((List.range' start (table.limit - start)).find? fun fd => (table.file fd).isNone).getD
    (max start table.limit)

def openSet (table : Descriptors φ) : Set Nat := {fd | table.file fd ≠ none}

def openAll (table : Descriptors φ) (files : List φ) : Descriptors φ :=
  files.foldr (fun f table => table.install table.lowest f) table

def dup2 (table : Descriptors φ) : Option Nat → Option Nat → Option Nat × Descriptors φ
  | some old, some new =>
    match table.file old with
    | some f => (some new, table.install new f)
    | none => (none, table)
  | _, _ => (none, table)

@[simp] theorem file_close_self (table : Descriptors φ) (fd : Nat) :
    (table.close fd).file fd = none := by
  simp [close]

@[simp] theorem file_close_of_ne (table : Descriptors φ) {fd other : Nat} (different : other ≠ fd) :
    (table.close fd).file other = table.file other := by
  simp [close, different]

@[simp] theorem file_install_self (table : Descriptors φ) (fd : Nat) (f : φ) :
    (table.install fd f).file fd = some f := by
  simp [install]

@[simp] theorem file_install_of_ne (table : Descriptors φ) {fd other : Nat} (f : φ)
    (different : other ≠ fd) : (table.install fd f).file other = table.file other := by
  simp [install, different]

theorem file_closeBelow (table : Descriptors φ) (count fd : Nat) :
    (table.closeBelow count).file fd = if fd < count then none else table.file fd := by
  induction count with
  | zero => rfl
  | succ count ih =>
    have unfolded : table.closeBelow (count + 1) = (table.closeBelow count).close count := by
      simp only [closeBelow, List.range_succ, List.foldl_append, List.foldl_cons, List.foldl_nil]
    rw [unfolded]
    by_cases same : fd = count
    · rw [same, file_close_self, if_pos (Nat.lt_succ_self count)]
    · rw [file_close_of_ne _ same, ih]
      have bound : fd < count ↔ fd < count + 1 := by omega
      simp only [bound]

theorem file_lowest (table : Descriptors φ) : table.file table.lowest = none := by
  unfold lowest
  cases found : (List.range table.limit).find? fun fd => (table.file fd).isNone with
  | none => exact table.beyond table.limit (Nat.le_refl _)
  | some first =>
    have free := (List.find?_range_eq_some.mp found).1
    rwa [Option.isNone_iff_eq_none] at free

theorem file_reopened (table : Descriptors φ) (f : φ) (fd : Nat) :
    ((table.install table.lowest f).close table.lowest).file fd = table.file fd := by
  by_cases same : fd = table.lowest
  · rw [same, file_close_self, file_lowest]
  · rw [file_close_of_ne _ same, file_install_of_ne _ f same]

theorem openSet_finite (table : Descriptors φ) : table.openSet.Finite := by
  apply (Set.finite_lt_nat table.limit).subset
  intro fd present
  by_contra far
  exact present (table.beyond fd (Nat.le_of_not_lt far))

theorem openSet_ne_of_file {table other : Descriptors φ} (fd : Nat) (present : other.file fd ≠ none)
    (absent : table.file fd = none) : other.openSet ≠ table.openSet := by
  intro same
  have here : fd ∈ table.openSet := same ▸ present
  exact here absent

theorem openSet_install (table : Descriptors φ) (fd : Nat) (f : φ) :
    (table.install fd f).openSet = insert fd table.openSet := by
  ext other
  by_cases same : other = fd
  · subst same
    simp [openSet]
  · simp [openSet, same]

theorem lowest_notMem_openSet (table : Descriptors φ) : table.lowest ∉ table.openSet :=
  fun present => present table.file_lowest

/-- A table that has grown by one descriptor is no longer the one it grew from. -/
theorem openSet_install_lowest_ne {start : Set Nat} (table : Descriptors φ) (f : φ)
    (grown : start ⊆ table.openSet) : (table.install table.lowest f).openSet ≠ start := by
  intro same
  rw [openSet_install] at same
  have before : table.lowest ∈ start := same ▸ Set.mem_insert _ _
  exact table.lowest_notMem_openSet (grown before)

theorem ncard_openSet_openAll (table : Descriptors φ) (files : List φ) :
    (table.openAll files).openSet.ncard = table.openSet.ncard + files.length := by
  induction files with
  | nil => rfl
  | cons f files ih =>
    have unfolded : table.openAll (f :: files) =
        (table.openAll files).install (table.openAll files).lowest f := rfl
    rw [unfolded, openSet_install, Set.ncard_insert_of_notMem (lowest_notMem_openSet _)
      (openSet_finite _), ih, List.length_cons, Nat.add_assoc]

theorem lowest_le (table : Descriptors φ) {fd : Nat} (free : table.file fd = none) :
    table.lowest ≤ fd := by
  unfold lowest
  cases found : (List.range table.limit).find? fun fd => (table.file fd).isNone with
  | none =>
    have busy := List.find?_range_eq_none.mp found
    rw [Option.getD_none]
    by_contra small
    have here := busy fd (by omega)
    simp [free] at here
  | some first =>
    have least := (List.find?_range_eq_some.mp found).2.2
    rw [Option.getD_some]
    by_contra small
    have here := least fd (by omega)
    simp [free] at here

theorem lowestFrom_of_free (table : Descriptors φ) {start : Nat} (free : table.file start = none) :
    table.lowestFrom start = start := by
  unfold lowestFrom
  cases width : table.limit - start with
  | zero =>
    rw [List.range'_zero, List.find?_nil, Option.getD_none]
    omega
  | succ rest =>
    rw [List.range'_succ, List.find?_cons_of_pos (by rw [free]; rfl), Option.getD_some]

theorem dup2_open (table : Descriptors φ) {old : Nat} {f : φ} (new : Nat)
    (present : table.file old = some f) :
    table.dup2 (some old) (some new) = (some new, table.install new f) := by
  simp only [dup2, present]

theorem dup2_closed (table : Descriptors φ) {old : Nat} (new : Option Nat)
    (absent : table.file old = none) : table.dup2 (some old) new = (none, table) := by
  cases new with
  | none => rfl
  | some new => simp only [dup2, absent]

end Descriptors
