import SystemProgramming.Kernel
import SystemProgramming.Library.Descriptors

namespace SystemProgramming.MyDup2

open Descriptors

/-- What `sysconf(_SC_OPEN_MAX)` returns, which is the limit of the process as well, and whether the
    kernel has the memory for a larger table. -/
structure Calls where
  openMax : Int
  memory : Bool

variable {φ : Type}

def IsOpen (files : Descriptors φ) (fd : Int) : Prop := 0 ≤ fd ∧ (files.file fd.toNat).isSome = true

instance (files : Descriptors φ) (fd : Int) : Decidable (IsOpen files fd) :=
  inferInstanceAs (Decidable (_ ∧ _))

def getfl (files : Descriptors φ) (fd : Int) : Outcome :=
  if IsOpen files fd then .done else .error EBADF

def isFileDescripter (files : Descriptors φ) (fd : Int) : Int :=
  if getfl files fd = .error EBADF then -1 else 0

def close (files : Descriptors φ) (fd : Int) : Descriptors φ :=
  if IsOpen files fd then files.close fd.toNat else files

def dupfd (calls : Calls) (oldFd start : Int) (files : Descriptors φ) : Int × Descriptors φ :=
  if 0 ≤ oldFd ∧ 0 ≤ start then
    match files.file oldFd.toNat with
    | some f =>
      let fd := files.lowestFrom start.toNat
      if (fd : Int) < calls.openMax ∧ calls.memory = true then (fd, files.install fd f) else (-1, files)
    | none => (-1, files)
  else (-1, files)

/-- The statements before `F_DUPFD`: an early result, or the table with which it is called. -/
def checks (calls : Calls) (oldFd newFd : Int) (files : Descriptors φ) :
    Except (Int × Descriptors φ) (Descriptors φ) :=
  if newFd < 0 ∨ newFd > calls.openMax ∨ isFileDescripter files newFd = 0 then .error (-1, files)
  else if oldFd = newFd then .error (newFd, files)
  else
    let files := if isFileDescripter files newFd ≠ 0 then close files newFd else files
    if isFileDescripter files oldFd = -1 then .error (-1, files) else .ok files

def myDup2 (calls : Calls) (oldFd newFd : Int) (files : Descriptors φ) : Int × Descriptors φ :=
  match checks calls oldFd newFd files with
  | .error result => result
  | .ok files =>
    let (fd, files) := dupfd calls oldFd newFd files
    (if fd = newFd then fd else -1, files)

theorem isFileDescripter_open {files : Descriptors φ} {fd : Int} (present : IsOpen files fd) :
    isFileDescripter files fd = 0 := by
  rw [isFileDescripter, getfl, if_pos present, if_neg (by simp)]

theorem isFileDescripter_closed {files : Descriptors φ} {fd : Int} (absent : ¬ IsOpen files fd) :
    isFileDescripter files fd = -1 := by
  rw [isFileDescripter, getfl, if_neg absent, if_pos rfl]

theorem file_of_closed {files : Descriptors φ} {fd : Int} (absent : ¬ IsOpen files fd) (lower : 0 ≤ fd) :
    files.file fd.toNat = none := by
  by_contra some_file
  exact absent ⟨lower, Option.isSome_iff_ne_none.mpr some_file⟩

/-- All that the statements before `F_DUPFD` can do: an open `newFd` is refused, and so nothing is
    ever closed. -/
theorem checks_cases (calls : Calls) (oldFd newFd : Int) (files : Descriptors φ) :
    ((newFd < 0 ∨ newFd > calls.openMax ∨ IsOpen files newFd) ∧
      checks calls oldFd newFd files = .error (-1, files)) ∨
    (0 ≤ newFd ∧ newFd ≤ calls.openMax ∧ ¬ IsOpen files newFd ∧
      ((oldFd = newFd ∧ checks calls oldFd newFd files = .error (newFd, files)) ∨
        (¬ IsOpen files oldFd ∧ oldFd ≠ newFd ∧ checks calls oldFd newFd files = .error (-1, files)) ∨
          (IsOpen files oldFd ∧ checks calls oldFd newFd files = .ok files))) := by
  unfold checks
  by_cases low : newFd < 0
  · exact .inl ⟨.inl low, if_pos (.inl low)⟩
  · by_cases high : newFd > calls.openMax
    · exact .inl ⟨.inr (.inl high), if_pos (.inr (.inl high))⟩
    · by_cases busy : IsOpen files newFd
      · exact .inl ⟨.inr (.inr busy), if_pos (.inr (.inr (isFileDescripter_open busy)))⟩
      · right
        refine ⟨by omega, by omega, busy, ?_⟩
        have closed := isFileDescripter_closed busy
        have passed : ¬ (newFd < 0 ∨ newFd > calls.openMax ∨ isFileDescripter files newFd = 0) := by
          rw [closed]
          omega
        have kept : close files newFd = files := if_neg busy
        rw [if_neg passed]
        by_cases same : oldFd = newFd
        · exact .inl ⟨same, if_pos same⟩
        · rw [if_neg same]
          simp only [closed, kept, ite_self]
          by_cases present : IsOpen files oldFd
          · rw [isFileDescripter_open present]
            exact .inr (.inr ⟨present, rfl⟩)
          · rw [isFileDescripter_closed present]
            exact .inr (.inl ⟨present, same, rfl⟩)

theorem dupfd_cases (calls : Calls) {oldFd newFd : Int} {files : Descriptors φ}
    (present : IsOpen files oldFd) (lower : 0 ≤ newFd) (free : ¬ IsOpen files newFd) :
    (¬ (newFd < calls.openMax ∧ calls.memory = true) ∧
      dupfd calls oldFd newFd files = (-1, files)) ∨
    ∃ f, files.file oldFd.toNat = some f ∧
      dupfd calls oldFd newFd files = (newFd, files.install newFd.toNat f) := by
  rcases Option.isSome_iff_exists.mp present.2 with ⟨f, here⟩
  have first := files.lowestFrom_of_free (file_of_closed free lower)
  have number : (newFd.toNat : Int) = newFd := Int.toNat_of_nonneg lower
  unfold dupfd
  rw [if_pos ⟨present.1, lower⟩]
  simp only [here, first, number]
  by_cases room : newFd < calls.openMax ∧ calls.memory = true
  · exact .inr ⟨f, rfl, if_pos room⟩
  · exact .inl ⟨room, if_neg room⟩

/-- What `dup2` promises of the results, limits of the kernel's memory aside. -/
structure Dup2 (calls : Calls) (oldFd newFd : Int) (files : Descriptors φ)
    (result : Int × Descriptors φ) : Prop where
  duplicates : calls.memory = true → IsOpen files oldFd → 0 ≤ newFd → newFd < calls.openMax →
    result.1 = newFd ∧ result.2.file newFd.toNat = files.file oldFd.toNat
  rejects : ¬ IsOpen files oldFd → result.1 < 0

/-- An open `newFd` is refused as out of range, and a closed `oldFd` is accepted as its own copy. -/
theorem myDup2_dup2_iff (calls : Calls) (oldFd newFd : Int) (files : Descriptors φ) :
    Dup2 calls oldFd newFd files (myDup2 calls oldFd newFd files) ↔
      (calls.memory = true → IsOpen files oldFd → 0 ≤ newFd → newFd < calls.openMax →
        ¬ IsOpen files newFd) ∧
      (¬ IsOpen files oldFd → ¬ (oldFd = newFd ∧ 0 ≤ newFd ∧ newFd ≤ calls.openMax)) := by
  rcases checks_cases calls oldFd newFd files with ⟨refused, checked⟩ | ⟨lower, upper, free, passed⟩
  · have result : myDup2 calls oldFd newFd files = (-1, files) := by rw [myDup2, checked]
    rw [result]
    constructor
    · intro copies
      constructor
      · intro memory present lower upper
        have negative := (copies.duplicates memory present lower upper).1
        omega
      · intro absent same
        rcases same with ⟨rfl, lower, upper⟩
        rcases refused with low | high | busy
        · omega
        · omega
        · exact absent busy
    · intro condition
      constructor
      case duplicates =>
        intro memory present lower upper
        have closed := condition.1 memory present lower upper
        rcases refused with low | high | busy
        · omega
        · omega
        · exact absurd busy closed
      case rejects =>
        intro _
        exact Int.negSucc_lt_zero 0
  · rcases passed with ⟨same, checked⟩ | ⟨absent, different, checked⟩ | ⟨present, checked⟩
    · have result : myDup2 calls oldFd newFd files = (newFd, files) := by rw [myDup2, checked]
      subst same
      rw [result]
      constructor
      · intro copies
        have negative : oldFd < 0 := copies.rejects free
        omega
      · intro condition
        exact absurd ⟨rfl, lower, upper⟩ (condition.2 free)
    · have result : myDup2 calls oldFd newFd files = (-1, files) := by rw [myDup2, checked]
      rw [result]
      refine iff_of_true ⟨fun _ present => absurd present absent, fun _ => Int.negSucc_lt_zero 0⟩
        ⟨fun _ present => absurd present absent, ?_⟩
      intro _ both
      exact different both.1
    · refine iff_of_true ?_ ⟨fun _ _ _ _ => free, fun absent => absurd present absent⟩
      refine ⟨?_, fun absent => absurd present absent⟩
      intro memory _ _ below
      rw [myDup2, checked]
      rcases dupfd_cases calls present lower free with ⟨full, -⟩ | ⟨f, here, called⟩
      · exact absurd ⟨below, memory⟩ full
      · simp only [called, if_true, here, file_install_self, and_self]

def twoFiles : Descriptors String where
  file fd := if fd = 3 then some "old" else if fd = 4 then some "new" else none
  limit := 5
  beyond := by
    intro fd far
    rw [if_neg (by omega), if_neg (by omega)]

theorem twoFiles_not_dup2 :
    ¬ ∀ (calls : Calls) (oldFd newFd : Int) (files : Descriptors String),
      Dup2 calls oldFd newFd files (myDup2 calls oldFd newFd files) := by
  intro always
  have copied := (always ⟨1024, true⟩ 3 4 twoFiles).duplicates rfl (by decide) (by decide) (by decide)
  cases copied.1

structure Framed (calls : Calls) (oldFd newFd : Int) (files : Descriptors φ)
    (result : Int × Descriptors φ) : Prop where
  failed : result.1 = -1 → result.2 = files
  succeeded : 0 ≤ result.1 → ∀ fd : Nat, (fd : Int) ≠ newFd → result.2.file fd = files.file fd
  compares : ∀ table, checks calls oldFd newFd files = .ok table →
    0 ≤ (dupfd calls oldFd newFd table).1 → (dupfd calls oldFd newFd table).1 = newFd

theorem myDup2_framed (calls : Calls) (oldFd newFd : Int) (files : Descriptors φ) :
    Framed calls oldFd newFd files (myDup2 calls oldFd newFd files) := by
  -- A call that does not get to `F_DUPFD` changes nothing.
  have early : ∀ result, checks calls oldFd newFd files = .error (result, files) →
      Framed calls oldFd newFd files (myDup2 calls oldFd newFd files) := by
    intro result checked
    rw [myDup2, checked]
    refine ⟨fun _ => rfl, fun _ _ _ => rfl, ?_⟩
    intro table passed
    cases checked.symm.trans passed
  rcases checks_cases calls oldFd newFd files with ⟨-, checked⟩ | ⟨lower, -, free, passed⟩
  · exact early _ checked
  · rcases passed with ⟨-, checked⟩ | ⟨-, -, checked⟩ | ⟨present, checked⟩
    · exact early _ checked
    · exact early _ checked
    · rw [myDup2, checked]
      rcases dupfd_cases calls present lower free with ⟨-, called⟩ | ⟨f, -, called⟩
      · simp only [called, ite_self]
        refine ⟨fun _ => rfl, fun _ _ _ => rfl, ?_⟩
        intro table passed
        cases checked.symm.trans passed
        rw [called]
        intro impossible
        cases impossible
      · simp only [called, if_true]
        constructor
        case failed =>
          intro negative
          have impossible : newFd = -1 := negative
          omega
        case succeeded =>
          intro _ fd other
          exact file_install_of_ne files f (by omega)
        case compares =>
          intro table passed
          cases checked.symm.trans passed
          rw [called]
          exact fun _ => rfl

end SystemProgramming.MyDup2
