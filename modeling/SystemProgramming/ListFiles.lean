import Mathlib.Data.List.Basic
import Mathlib.Tactic.Common
import SystemProgramming.Kernel

namespace SystemProgramming.ListFiles

def strcmp : List Byte → List Byte → Int
  | [], [] => 0
  | a :: _, [] => a.toNat
  | [], b :: _ => -b.toNat
  | a :: as, b :: bs => if a = b then strcmp as bs else a.toNat - b.toNat

def text (s : String) : List Byte := s.toList.map fun c => BitVec.ofNat 8 c.toNat

def current : CString := ⟨text ".", by decide⟩
def parent : CString := ⟨text "..", by decide⟩
def help : CString := ⟨text "--help", by decide⟩

/-- `calls` lists the arguments of `listFiles`; no statement looks at it. `streams` are the directory
    streams that have been opened and not closed, by the path they were opened with. -/
structure State where
  stdout : List Byte
  calls : List CString
  streams : List CString

inductive Ending where
  | exited (status : ExitStatus)
  | nullPointer
  deriving DecidableEq, Repr

variable (opendir : CString → Option (List CString))

def readEntries (isCurrent : BitVec 64) (dirpath : CString) : List CString → List Byte
  | [] => []
  | d_name :: entries =>
    if strcmp d_name current = 0 ∨ strcmp d_name parent = 0 then readEntries isCurrent dirpath entries
    else (if isCurrent = 0 then dirpath.1 ++ text "/" else []) ++ d_name.1 ++ text "\n" ++
      readEntries isCurrent dirpath entries

def listFiles (s : State) (dirpath : CString) : State :=
  let isCurrent := BitVec.ofInt 64 (strcmp current dirpath)
  match opendir dirpath with
  | none =>
    { s with
      stdout := s.stdout ++ (text "opendir failed on '" ++ dirpath ++ text "'")
      calls := s.calls ++ [dirpath] }
  | some entries =>
    { s with
      stdout := s.stdout ++ readEntries isCurrent dirpath entries
      calls := s.calls ++ [dirpath]
      streams := s.streams ++ [dirpath] }

/-- `while(++argv != NULL)`: the pointer is never null, only what it points to is, and `listFiles`
    compares that with a string. -/
def eachArgument (s : State) : List CString → State × Ending
  | [] => (s, .nullPointer)
  | dirpath :: argv => eachArgument (listFiles opendir s dirpath) argv

def main (name : CString) (argv : List CString) : State × Ending :=
  let s : State := ⟨[], [], []⟩
  match argv with
  | [] => (listFiles opendir s current, .exited .success)
  | first :: _ =>
    if strcmp first help = 0 then ({ s with stdout := name ++ text " [dir...]\n" }, .exited .failure)
    else eachArgument opendir s argv

def line (dirpath d_name : CString) : List Byte :=
  (if dirpath = current then [] else dirpath.1 ++ text "/") ++ d_name.1 ++ text "\n"

def Shown (d_name : CString) : Prop := d_name ≠ current ∧ d_name ≠ parent

instance (d_name : CString) : Decidable (Shown d_name) := inferInstanceAs (Decidable (_ ∧ _))

def lines (dirpath : CString) (entries : List CString) : List Byte :=
  (entries.filter (Shown ·)).flatMap (line dirpath)

def listing (dirpath : CString) : List Byte :=
  match opendir dirpath with
  | none => text "opendir failed on '" ++ dirpath ++ text "'"
  | some entries => lines dirpath entries

def directories : List CString → List CString
  | [] => [current]
  | argv => argv

structure Listed (argv : List CString) (run : State × Ending) : Prop where
  ends : run.2 = .exited .success
  calls : run.1.calls = directories argv
  stdout : run.1.stdout = (directories argv).flatMap (listing opendir)
  closed : run.1.streams = []

variable {opendir} {s : State}

theorem strcmp_bound (a b : List Byte) : -255 ≤ strcmp a b ∧ strcmp a b ≤ 255 := by
  induction a, b using strcmp.induct with
  | case1 => simp [strcmp]
  | case2 a as =>
    have byte := a.isLt
    simp only [strcmp]
    omega
  | case3 b bs =>
    have byte := b.isLt
    simp only [strcmp]
    omega
  | case4 b as bs ih => simpa [strcmp] using ih
  | case5 a as b bs other =>
    have first := a.isLt
    have second := b.isLt
    simp only [strcmp, if_neg other]
    omega

theorem strcmp_eq_zero (a b : List Byte) (plainA : 0 ∉ a) (plainB : 0 ∉ b) : strcmp a b = 0 ↔ a = b := by
  induction a, b using strcmp.induct with
  | case1 => simp [strcmp]
  | case2 a as =>
    have byte : a ≠ 0 := fun zero => plainA (zero ▸ List.mem_cons_self)
    simpa [strcmp, ← BitVec.toNat_inj] using byte
  | case3 b bs =>
    have byte : b ≠ 0 := fun zero => plainB (zero ▸ List.mem_cons_self)
    simpa [strcmp, ← BitVec.toNat_inj] using byte
  | case4 b as bs ih =>
    have shorter := ih (fun member => plainA (List.mem_cons_of_mem _ member))
      (fun member => plainB (List.mem_cons_of_mem _ member))
    simpa [strcmp] using shorter
  | case5 a as b bs other =>
    have apart : a.toNat ≠ b.toNat := fun same => other (BitVec.eq_of_toNat_eq same)
    rw [strcmp, if_neg other]
    constructor
    · intro zero
      exact absurd (by omega) apart
    · intro same
      exact absurd (List.cons.inj same).1 other

@[simp] theorem strcmp_cstring (a b : CString) : strcmp a b = 0 ↔ a = b := by
  rw [strcmp_eq_zero _ _ a.2 b.2, Subtype.ext_iff]

theorem isCurrent_eq_zero (a b : CString) : BitVec.ofInt 64 (strcmp a b) = 0 ↔ a = b := by
  have bound := strcmp_bound a b
  rw [← strcmp_cstring, ← BitVec.toInt_inj, BitVec.toInt_ofInt_eq_self (by decide) (by omega) (by omega)]
  rfl

/-- What is printed for an entry: the test of `isCurrent` is the wrong way round. -/
def printed (dirpath d_name : CString) : List Byte :=
  (if dirpath = current then dirpath.1 ++ text "/" else []) ++ d_name.1 ++ text "\n"

theorem readEntries_eq (dirpath : CString) (entries : List CString) :
    readEntries (BitVec.ofInt 64 (strcmp current dirpath)) dirpath entries =
      (entries.filter (Shown ·)).flatMap (printed dirpath) := by
  induction entries with
  | nil => rfl
  | cons d_name entries ih =>
    rw [readEntries, ih]
    simp only [strcmp_cstring, isCurrent_eq_zero]
    by_cases shown : Shown d_name
    · have other : ¬ (d_name = current ∨ d_name = parent) := by
        rw [not_or]
        exact shown
      rw [if_neg other, List.filter_cons_of_pos (by simpa using shown), List.flatMap_cons, printed]
      simp only [eq_comm]
    · have dots : d_name = current ∨ d_name = parent := by
        rw [Shown, ← not_or, not_not] at shown
        exact shown
      rw [if_pos dots, List.filter_cons_of_neg (by simpa using shown)]

theorem length_flatMap_longer {f g : CString → List Byte} {c : Nat} (longer : ∀ d, (f d).length = (g d).length + c)
    (entries : List CString) : (entries.flatMap f).length = (entries.flatMap g).length + c * entries.length := by
  induction entries with
  | nil => rfl
  | cons d entries ih =>
    simp only [List.flatMap_cons, List.length_append, List.length_cons, longer d, ih, Nat.mul_succ]
    omega

/-- A directory is listed as it should be only if it holds nothing to list. -/
theorem readEntries_eq_lines_iff (dirpath : CString) (entries : List CString) :
    readEntries (BitVec.ofInt 64 (strcmp current dirpath)) dirpath entries = lines dirpath entries ↔
      ∀ d_name ∈ entries, ¬ Shown d_name := by
  rw [readEntries_eq, lines]
  constructor
  · intro same
    have sizes := congrArg List.length same
    have none : (entries.filter (Shown ·)).length = 0 := by
      by_cases here : dirpath = current
      · have longer : ∀ d, (printed dirpath d).length = (line dirpath d).length + 2 := by
          intro d
          simp [printed, line, here, current, text]
        rw [length_flatMap_longer longer] at sizes
        omega
      · have longer : ∀ d, (line dirpath d).length = (printed dirpath d).length + (dirpath.1.length + 1) := by
          intro d
          simp [printed, line, here, text]
          omega
        rw [length_flatMap_longer longer] at sizes
        have product : (dirpath.1.length + 1) * (entries.filter (Shown ·)).length = 0 := by omega
        rcases Nat.mul_eq_zero.mp product with zero | zero
        · omega
        · exact zero
    simpa using List.length_eq_zero_iff.mp none
  · intro dots
    have none : entries.filter (Shown ·) = [] := by simpa using dots
    rw [none]
    rfl

/-- Every argument is processed once and in order, and then the null pointer behind the last one. -/
theorem eachArgument_eq (s : State) (argv : List CString) :
    (eachArgument opendir s argv).2 = .nullPointer ∧
      (eachArgument opendir s argv).1.calls = s.calls ++ argv := by
  induction argv generalizing s with
  | nil => exact ⟨rfl, (List.append_nil _).symm⟩
  | cons dirpath argv ih =>
    obtain ⟨ends, calls⟩ := ih (listFiles opendir s dirpath)
    have here : (listFiles opendir s dirpath).calls = s.calls ++ [dirpath] := by
      unfold listFiles
      dsimp only
      split <;> rfl
    rw [here, List.append_assoc] at calls
    exact ⟨ends, calls⟩

theorem listFiles_streams (s : State) (dirpath : CString) :
    (listFiles opendir s dirpath).streams = s.streams ++ if (opendir dirpath).isSome then [dirpath] else [] := by
  unfold listFiles
  dsimp only
  split
  · rename_i failed
    simp [failed]
  · rename_i entries opened
    simp [opened]

/-- The program does what it should only without arguments, and only if it cannot read the current directory. -/
theorem main_listed_iff (opendir : CString → Option (List CString)) (name : CString) (argv : List CString) :
    Listed opendir argv (main opendir name argv) ↔ argv = [] ∧ opendir current = none := by
  cases argv with
  | nil =>
    constructor
    · intro listed
      have closed := listed.closed
      rw [main] at closed
      dsimp only at closed
      rw [listFiles_streams] at closed
      refine ⟨rfl, ?_⟩
      cases opened : opendir current with
      | none => rfl
      | some entries =>
        rw [opened] at closed
        cases closed
    · rintro ⟨-, failed⟩
      have report : main opendir name [] =
          (⟨text "opendir failed on '" ++ current.1 ++ text "'", [current], []⟩, .exited .success) := by
        simp [main, listFiles, failed]
      rw [report]
      refine ⟨rfl, rfl, ?_, rfl⟩
      simp [directories, listing, failed]
  | cons first argv =>
    have fails : (main opendir name (first :: argv)).2 ≠ .exited .success := by
      rw [main]
      dsimp only
      split
      · simp
      · rw [(eachArgument_eq _ _).1]
        simp
    constructor
    · intro listed
      exact absurd listed.ends fails
    · rintro ⟨none, -⟩
      cases none

/-- An empty directory as the only argument: the program runs on to the null pointer. -/
theorem main_oneArgument_not_listed :
    ¬ ∀ opendir name argv, Listed opendir argv (main opendir name argv) := by
  intro always
  have ends := (always (fun _ => some []) current [parent]).ends
  exact absurd ends (by decide)

end SystemProgramming.ListFiles
