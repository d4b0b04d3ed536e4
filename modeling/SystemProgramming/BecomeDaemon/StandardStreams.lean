import SystemProgramming.BecomeDaemon.Model

namespace SystemProgramming.BecomeDaemon

open Descriptors

variable {φ : Type} {devNull : φ}

theorem lowest_after_close (files : Descriptors φ) : (files.close STDIN_FILENO).lowest = STDIN_FILENO :=
  Nat.le_zero.mp ((files.close STDIN_FILENO).lowest_le (files.file_close_self STDIN_FILENO))

/-- The last two calls copy descriptors 1 and 2 onto 0, and fail if there is nothing to copy. -/
def copyStandard (fd : Option Nat) (files : Descriptors φ) : Int × Descriptors φ :=
  let (copy, files) := files.dup2 (some STDOUT_FILENO) (some STDIN_FILENO)
  if fd ≠ copy then (-1, files)
  else
    let (copy, files) := files.dup2 (some STDERR_FILENO) (some STDIN_FILENO)
    if fd ≠ copy then (-1, files) else (0, files)

theorem reopen_opened (files : Descriptors φ) : reopenStandard devNull true files =
    copyStandard (some STDIN_FILENO)
      (((files.close STDIN_FILENO).install STDIN_FILENO devNull).install STDIN_FILENO devNull) := by
  have same := dup2_open ((files.close STDIN_FILENO).install STDIN_FILENO devNull) STDIN_FILENO
    (file_install_self _ _ devNull)
  simp only [reopenStandard, openDevNull, if_true, lowest_after_close, same, ne_eq, not_true_eq_false,
    if_false, copyStandard]

theorem reopen_failed (files : Descriptors φ) : reopenStandard devNull false files =
    copyStandard none (files.close STDIN_FILENO) := by
  have same := dup2_closed (files.close STDIN_FILENO) none (file_close_self files STDIN_FILENO)
  simp only [reopenStandard, openDevNull, Bool.false_eq_true, if_false, same, ne_eq, not_true_eq_false,
    copyStandard]

theorem copy_some (files : Descriptors φ) :
    (copyStandard (some STDIN_FILENO) files).1 = 0 ↔
      files.file STDOUT_FILENO ≠ none ∧ files.file STDERR_FILENO ≠ none := by
  unfold copyStandard
  cases out : files.file STDOUT_FILENO with
  | none => simp [dup2_closed files _ out]
  | some f =>
    have kept : (files.install STDIN_FILENO f).file STDERR_FILENO = files.file STDERR_FILENO :=
      file_install_of_ne files f (by decide)
    simp only [dup2_open files _ out]
    cases err : files.file STDERR_FILENO with
    | none => simp [dup2_closed _ _ (kept.trans err)]
    | some g => simp [dup2_open _ _ (kept.trans err)]

theorem copy_files (files : Descriptors φ) (copied : (copyStandard (some STDIN_FILENO) files).1 = 0) :
    (copyStandard (some STDIN_FILENO) files).2.file STDIN_FILENO = files.file STDERR_FILENO ∧
    ∀ fd, fd ≠ STDIN_FILENO → (copyStandard (some STDIN_FILENO) files).2.file fd = files.file fd := by
  rcases (copy_some files).mp copied with ⟨out, err⟩
  rcases Option.ne_none_iff_exists'.mp out with ⟨f, out⟩
  rcases Option.ne_none_iff_exists'.mp err with ⟨g, err⟩
  have kept : (files.install STDIN_FILENO f).file STDERR_FILENO = some g :=
    (file_install_of_ne files f (by decide)).trans err
  have result : copyStandard (some STDIN_FILENO) files =
      (0, (files.install STDIN_FILENO f).install STDIN_FILENO g) := by
    simp [copyStandard, dup2_open files _ out, dup2_open _ _ kept]
  rw [result]
  constructor
  · rw [err]
    exact file_install_self _ _ g
  · intro fd different
    rw [file_install_of_ne _ _ different, file_install_of_ne _ _ different]

theorem copy_none (files : Descriptors φ) :
    (copyStandard none files).1 = 0 ↔
      files.file STDOUT_FILENO = none ∧ files.file STDERR_FILENO = none := by
  unfold copyStandard
  cases out : files.file STDOUT_FILENO with
  | none =>
    simp only [dup2_closed files _ out]
    cases err : files.file STDERR_FILENO with
    | none => simp [dup2_closed files _ err]
    | some g => simp [dup2_open files _ err]
  | some f => simp [dup2_open files _ out]

def Calls.Detach (calls : Calls) : Prop :=
  calls.fork = true ∧ calls.setsid = true ∧ calls.forkAgain = true

instance (calls : Calls) : Decidable calls.Detach := inferInstanceAs (Decidable (_ ∧ _ ∧ _))

def Closes (openMax : Int) (flags : Flags) (fd : Nat) : Prop :=
  flags &&& BD_NO_CLOSE_FILES = 0 ∧ (fd : Int) < maxfd openMax

instance (openMax : Int) (flags : Flags) (fd : Nat) : Decidable (Closes openMax flags fd) :=
  inferInstanceAs (Decidable (_ ∧ _))

theorem file_closeFiles (openMax : Int) (flags : Flags) (files : Descriptors φ) (fd : Nat) :
    (closeFiles openMax flags files).file fd =
      if Closes openMax flags fd then none else files.file fd := by
  unfold closeFiles Closes
  by_cases closing : flags &&& BD_NO_CLOSE_FILES = 0
  · have below : fd < (maxfd openMax).toNat ↔ (fd : Int) < maxfd openMax := by omega
    simp only [closing, if_true, file_closeBelow, below, true_and]
  · simp only [closing, if_false, false_and]

/-- What `becomeDaemon` is for: 0 says that every call succeeded, and that the three standard
    descriptors are `/dev/null`. -/
structure Daemonised (devNull : φ) (calls : Calls) (result : Int × Process φ) : Prop where
  reports : result.1 = 0 ↔ calls.Detach ∧ calls.openNull = true
  standard : result.1 = 0 →
    ∀ fd ∈ [STDIN_FILENO, STDOUT_FILENO, STDERR_FILENO], result.2.files.file fd = some devNull

theorem becomeDaemon_stays (devNull : φ) {calls : Calls} (flags : Flags) (p : Process φ)
    (stays : ¬ calls.Detach) :
    (becomeDaemon devNull calls flags p).1 = -1 := by
  unfold becomeDaemon
  split
  · rfl
  · split
    · rfl
    · split
      · rfl
      · exact absurd (by simp_all [Calls.Detach]) stays

theorem becomeDaemon_detached (devNull : φ) {calls : Calls} {flags : Flags} (p : Process φ)
    (detached : calls.Detach) (reopens : flags &&& BD_NO_REOPEN_STD_FDS = 0) :
    ((becomeDaemon devNull calls flags p).1, (becomeDaemon devNull calls flags p).2.files) =
      reopenStandard devNull calls.openNull (closeFiles calls.openMax flags p.files) := by
  rcases detached with ⟨fork, setsid, again⟩
  unfold becomeDaemon
  simp only [fork, setsid, again, reopens, Bool.true_eq_false, if_false, if_true]
  split <;> split <;> rfl

def Fortunate (devNull : φ) (calls : Calls) (flags : Flags) (p : Process φ) : Prop :=
  calls.Detach →
    (calls.openNull = true → ∀ fd ∈ [STDOUT_FILENO, STDERR_FILENO],
      ¬ Closes calls.openMax flags fd ∧ p.files.file fd = some devNull) ∧
    (calls.openNull = false → ∃ fd ∈ [STDOUT_FILENO, STDERR_FILENO],
      ¬ Closes calls.openMax flags fd ∧ p.files.file fd ≠ none)

theorem opened_iff (files : Descriptors φ) {calls : Calls} {result : Int × Process φ}
    (detached : calls.Detach) (opened : calls.openNull = true)
    (same : (result.1, result.2.files) = reopenStandard devNull true files) :
    Daemonised devNull calls result ↔
      files.file STDOUT_FILENO = some devNull ∧ files.file STDERR_FILENO = some devNull := by
  rw [reopen_opened] at same
  have other (fd : Nat) (different : fd ≠ STDIN_FILENO) : (((files.close STDIN_FILENO).install
      STDIN_FILENO devNull).install STDIN_FILENO devNull).file fd = files.file fd := by
    rw [file_install_of_ne _ _ different, file_install_of_ne _ _ different,
      file_close_of_ne _ different]
  generalize ((files.close STDIN_FILENO).install STDIN_FILENO devNull).install STDIN_FILENO devNull =
    table at same other
  have returned := congrArg Prod.fst same
  have left := congrArg Prod.snd same
  dsimp only at returned left
  have outOther := other STDOUT_FILENO (by decide)
  have errOther := other STDERR_FILENO (by decide)
  constructor
  · intro right
    have zero := right.reports.mpr ⟨detached, opened⟩
    have kept := (copy_files table (returned ▸ zero)).2
    have out := right.standard zero STDOUT_FILENO (by decide)
    have err := right.standard zero STDERR_FILENO (by decide)
    rw [left, kept _ (by decide)] at out err
    exact ⟨outOther ▸ out, errOther ▸ err⟩
  · rintro ⟨out, err⟩
    rw [← outOther] at out
    rw [← errOther] at err
    have zero : (copyStandard (some STDIN_FILENO) table).1 = 0 := by
      rw [copy_some, out, err]
      exact ⟨Option.some_ne_none devNull, Option.some_ne_none devNull⟩
    rcases copy_files table zero with ⟨first, kept⟩
    refine ⟨iff_of_true (returned.trans zero) ⟨detached, opened⟩, ?_⟩
    intro _ fd member
    rw [left]
    simp only [List.mem_cons, List.not_mem_nil, or_false] at member
    rcases member with rfl | rfl | rfl
    · rw [first, err]
    · rw [kept _ (by decide), out]
    · rw [kept _ (by decide), err]

theorem failed_iff (files : Descriptors φ) {calls : Calls} {result : Int × Process φ}
    (failed : calls.openNull = false)
    (same : (result.1, result.2.files) = reopenStandard devNull false files) :
    Daemonised devNull calls result ↔
      files.file STDOUT_FILENO ≠ none ∨ files.file STDERR_FILENO ≠ none := by
  rw [reopen_failed] at same
  have returned : result.1 = (copyStandard none (files.close STDIN_FILENO)).1 := congrArg Prod.fst same
  have zero : result.1 = 0 ↔ files.file STDOUT_FILENO = none ∧ files.file STDERR_FILENO = none := by
    rw [returned, copy_none, file_close_of_ne _ (by decide), file_close_of_ne _ (by decide)]
  rw [← not_and_or, ← zero]
  constructor
  · intro right reported
    have opened := (right.reports.mp reported).2
    rw [failed] at opened
    cases opened
  · intro reported
    refine ⟨iff_of_false reported ?_, fun now => absurd now reported⟩
    rw [failed]
    simp

/-- 0 is returned just when everything worked, with `/dev/null` in place, only in the cases in which
    the swapped arguments of the last two `dup2` calls make no difference. -/
theorem becomeDaemon_daemonises (calls : Calls) {flags : Flags} (p : Process φ)
    (reopens : flags &&& BD_NO_REOPEN_STD_FDS = 0) :
    Daemonised devNull calls (becomeDaemon devNull calls flags p) ↔ Fortunate devNull calls flags p := by
  by_cases detached : calls.Detach
  · have same := becomeDaemon_detached devNull p detached reopens
    have kept (fd : Nat) (f : φ) : (closeFiles calls.openMax flags p.files).file fd = some f ↔
        ¬ Closes calls.openMax flags fd ∧ p.files.file fd = some f := by
      rw [file_closeFiles]
      split <;> simp_all
    have left (fd : Nat) : (closeFiles calls.openMax flags p.files).file fd ≠ none ↔
        ¬ Closes calls.openMax flags fd ∧ p.files.file fd ≠ none := by
      rw [file_closeFiles]
      split <;> simp_all
    cases opened : calls.openNull with
    | true =>
      rw [opened] at same
      rw [opened_iff _ detached opened same, kept, kept]
      simp [Fortunate, detached, opened]
    | false =>
      rw [opened] at same
      rw [failed_iff _ opened same, left, left]
      simp [Fortunate, detached, opened]
  · have stays := becomeDaemon_stays devNull flags p detached
    refine iff_of_true ?_ (fun now => absurd now detached)
    refine ⟨iff_of_false ?_ (fun both => detached both.1), ?_⟩
    · rw [stays]
      decide
    · intro reported
      rw [stays] at reported
      cases reported

def allSucceed : Calls where
  fork := true
  setsid := true
  forkAgain := true
  chdir := true
  openMax := 1024
  openNull := true

def standardOn (file : String) : Descriptors String where
  file := fun fd => if fd < 3 then some file else none
  limit := 3
  beyond := fun _ far => if_neg (Nat.not_lt.mpr far)

def started (file : String) : Process String := ⟨standardOn file, 18, "/root", false⟩

theorem becomeDaemon_daemonises_keptNull :
    Daemonised "/dev/null" allSucceed
      (becomeDaemon "/dev/null" allSucceed BD_NO_CLOSE_FILES (started "/dev/null")) :=
  (becomeDaemon_daemonises allSucceed (started "/dev/null") (by decide)).mpr
    fun _ => ⟨fun _ => by decide, fun failed => by cases failed⟩

theorem terminal_not_daemonised :
    ¬ ∀ (calls : Calls) (flags : Flags) (p : Process String), flags &&& BD_NO_REOPEN_STD_FDS = 0 →
      Daemonised "/dev/null" calls (becomeDaemon "/dev/null" calls flags p) := by
  intro always
  have right := always allSucceed 0 (started "/dev/tty") (by decide)
  have zero := right.reports.mpr ⟨by decide, rfl⟩
  have fails : (becomeDaemon "/dev/null" allSucceed 0 (started "/dev/tty")).1 = -1 := by decide +kernel
  rw [fails] at zero
  cases zero

/-- With the default flags the close loop leaves nothing to copy: a daemon starts only when
    `/dev/null` cannot be opened. -/
theorem becomeDaemon_default {calls : Calls} (p : Process φ) (detached : calls.Detach)
    (limit : 2 < maxfd calls.openMax) :
    (becomeDaemon devNull calls 0 p).1 = 0 ↔ calls.openNull = false := by
  have reopens : (0 : Flags) &&& BD_NO_REOPEN_STD_FDS = 0 := by decide
  have result := congrArg Prod.fst (becomeDaemon_detached devNull p detached reopens)
  dsimp only at result
  rw [result]
  have closed (fd : Nat) (low : fd ≤ 2) : (closeFiles calls.openMax 0 p.files).file fd = none := by
    have reached : Closes calls.openMax 0 fd := ⟨by decide, by omega⟩
    rw [file_closeFiles, if_pos reached]
  have out := closed STDOUT_FILENO (by decide)
  have err := closed STDERR_FILENO (by decide)
  cases opened : calls.openNull with
  | true =>
    rw [reopen_opened, copy_some, file_install_of_ne _ _ (by decide), file_install_of_ne _ _ (by decide),
      file_close_of_ne _ (by decide), out]
    simp
  | false =>
    rw [reopen_failed, copy_none, file_close_of_ne _ (by decide), file_close_of_ne _ (by decide)]
    exact iff_of_true ⟨out, err⟩ rfl

end SystemProgramming.BecomeDaemon
