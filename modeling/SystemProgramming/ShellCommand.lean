import Mathlib.Logic.Function.Basic
import SystemProgramming.Kernel

namespace SystemProgramming.ShellCommand

abbrev Signal := Nat

def SIGINT : Signal := 2
def SIGQUIT : Signal := 3
def SIGCHLD : Signal := 17

abbrev SigSet := Signal → Bool

def sigemptyset : SigSet := fun _ => false
def sigaddset (set : SigSet) (sig : Signal) : SigSet := Function.update set sig true

inductive Handler where
  | SIG_DFL
  | SIG_IGN
  | function (address : Nat)
  deriving DecidableEq, Repr

structure SigAction where
  sa_handler : Handler
  sa_flags : BitVec 32
  sa_mask : SigSet

structure Process where
  mask : SigSet
  actions : Signal → SigAction
  errno : Errno

namespace Process

def block (p : Process) (set : SigSet) : Process := { p with mask := fun sig => p.mask sig || set sig }
def setMask (p : Process) (mask : SigSet) : Process := { p with mask }

def sigaction (p : Process) (sig : Signal) (act : SigAction) : Process :=
  { p with actions := Function.update p.actions sig act }

end Process

inductive Fork where
  | failed (errno : Errno)
  | forked
  deriving DecidableEq, Repr

/-- What comes of waiting for the child, once no signal gets in the way: 16 bits of status, or an
    error, which is the same at every further call. -/
inductive Waited where
  | reaped (status : BitVec 16)
  | failed (errno : Errno) (other : errno ≠ .EINTR)

/-- The calls of `waitpid`: so many are interrupted before the others end as they do. -/
structure Waits where
  interruptions : Nat
  result : Waited

inductive WaitOutcome where
  | status (status : BitVec 32)
  | error (errno : Errno)

def Waits.waitpid (waits : Waits) (calls : Nat) : WaitOutcome :=
  if calls < waits.interruptions then .error .EINTR
  else
    match waits.result with
    | .reaped status => .status (status.setWidth 32)
    | .failed errno _ => .error errno

/-- `while(waitpid(childPid, &status, 0) == -1)`, with the value of `errno` behind it; without enough
    fuel there is none. -/
def waitLoop (waits : Waits) : Nat → Nat → Errno → Option (BitVec 32 × Errno)
  | 0, _, _ => none
  | fuel + 1, calls, errno =>
    match waits.waitpid calls with
    | .status status => some (status, errno)
    | .error errno => if errno = .EINTR then some (-1, errno) else waitLoop waits fuel (calls + 1) errno

def saIgnore : SigAction := ⟨.SIG_IGN, 0, sigemptyset⟩
def saDefault : SigAction := ⟨.SIG_DFL, 0, sigemptyset⟩

def prepare (p : Process) : Process :=
  ((p.block (sigaddset sigemptyset SIGCHLD)).sigaction SIGINT saIgnore).sigaction SIGQUIT saIgnore

/-- What the child has become where it calls `execl`; `orig` is the process before the call of `system`. -/
def child (orig : Process) : Process :=
  let p := prepare orig
  let p := if (orig.actions SIGINT).sa_handler ≠ .SIG_IGN then p.sigaction SIGINT saDefault else p
  let p := if (orig.actions SIGQUIT).sa_handler ≠ .SIG_IGN then p.sigaction SIGQUIT saDefault else p
  p.setMask orig.mask

structure Exec where
  process : Process
  path : String
  argv : List String

structure Return where
  status : BitVec 32
  process : Process
  exec : Option Exec

def forkAndWait (fork : Fork) (waits : Waits) (fuel : Nat) (errno : Errno) : Option (BitVec 32 × Errno) :=
  match fork with
  | .failed errno => some (-1, errno)
  | .forked => waitLoop waits fuel 0 errno

def systemCommand (command : String) (fork : Fork) (waits : Waits) (fuel : Nat) (p : Process) : Option Return :=
  let before := prepare p
  let saOrigInt := p.actions SIGINT
  let saOrigQuit := p.actions SIGQUIT
  (forkAndWait fork waits fuel before.errno).map fun (status, savedErrno) =>
    let after := ((before.setMask p.mask).sigaction SIGINT saOrigInt).sigaction SIGQUIT saOrigQuit
    let exec : Exec := ⟨child p, "bin/sh", ["sh", "-c", command]⟩
    ⟨status, { after with errno := savedErrno }, if fork = .forked then some exec else none⟩

def system (command : Option String) (fork : Fork) (waits : Waits) (fuel : Nat) (p : Process) : Option Return :=
  match command with
  | none =>
    (systemCommand ":" fork waits fuel p).map fun r => { r with status := if r.status = 0 then 1 else 0 }
  | some command => systemCommand command fork waits fuel p

def expected : Fork → Waited → BitVec 32
  | .forked, .reaped status => status.setWidth 32
  | _, _ => -1

def Proper (fork : Fork) (waits : Waits) (p : Process) (run : Nat → Option Return) : Prop :=
  ∃ fuel r, run fuel = some r ∧ r.status = expected fork waits.result ∧ r.process.mask = p.mask ∧
    r.process.actions = p.actions

def Waited.isReaped : Waited → Bool
  | .reaped _ => true
  | .failed _ _ => false

variable {waits : Waits} {p : Process} {fork : Fork} {command : String}

theorem restore_actions (p : Process) :
    Function.update (Function.update (prepare p).actions SIGINT (p.actions SIGINT)) SIGQUIT (p.actions SIGQUIT) =
      p.actions := by
  funext sig
  by_cases isQuit : sig = SIGQUIT
  · rw [isQuit, Function.update_self]
  · rw [Function.update_of_ne isQuit]
    by_cases isInt : sig = SIGINT
    · rw [isInt, Function.update_self]
    · rw [Function.update_of_ne isInt]
      simp only [prepare, Process.sigaction, Process.block]
      rw [Function.update_of_ne isQuit, Function.update_of_ne isInt]

/-- Whatever comes of the child, a call that returns has restored the mask and the dispositions. -/
theorem systemCommand_restores {fuel : Nat} {r : Return} (run : systemCommand command fork waits fuel p = some r) :
    r.process.mask = p.mask ∧ r.process.actions = p.actions := by
  unfold systemCommand at run
  obtain ⟨⟨status, savedErrno⟩, -, rfl⟩ := Option.map_eq_some_iff.mp run
  exact ⟨rfl, restore_actions p⟩

/-- The child runs its command with the mask of the caller, and ignores only the signals that the caller ignores. -/
theorem child_inherits (p : Process) :
    (child p).mask = p.mask ∧
      (((child p).actions SIGINT).sa_handler = .SIG_IGN ↔ (p.actions SIGINT).sa_handler = .SIG_IGN) ∧
      (((child p).actions SIGQUIT).sa_handler = .SIG_IGN ↔ (p.actions SIGQUIT).sa_handler = .SIG_IGN) := by
  have apart : SIGINT ≠ SIGQUIT := by decide
  refine ⟨rfl, ?_, ?_⟩
  · by_cases int : (p.actions SIGINT).sa_handler = .SIG_IGN
    · by_cases quit : (p.actions SIGQUIT).sa_handler = .SIG_IGN
      · simp [child, prepare, Process.setMask, Process.sigaction, int, quit, apart, saIgnore]
      · simp [child, prepare, Process.setMask, Process.sigaction, int, quit, apart, saIgnore]
    · by_cases quit : (p.actions SIGQUIT).sa_handler = .SIG_IGN
      · simp [child, Process.setMask, Process.sigaction, int, quit, saDefault]
      · simp [child, Process.setMask, Process.sigaction, int, quit, apart, saDefault]
  · by_cases quit : (p.actions SIGQUIT).sa_handler = .SIG_IGN
    · by_cases int : (p.actions SIGINT).sa_handler = .SIG_IGN
      · simp [child, prepare, Process.setMask, Process.sigaction, int, quit, saIgnore]
      · simp [child, prepare, Process.setMask, Process.sigaction, int, quit, apart.symm, saIgnore]
    · simp [child, Process.setMask, Process.sigaction, quit, saDefault]

theorem minusOne_ne_status (status : BitVec 16) : (-1 : BitVec 32) ≠ status.setWidth 32 := by
  intro same
  have values := congrArg BitVec.toNat same
  have bound := status.isLt
  rw [BitVec.toNat_setWidth_of_le (by decide)] at values
  have all : (-1 : BitVec 32).toNat = 4294967295 := by decide
  omega

theorem waitLoop_interrupted (interrupted : 0 < waits.interruptions) (fuel : Nat) (errno : Errno) :
    waitLoop waits (fuel + 1) 0 errno = some (-1, .EINTR) := by
  rw [waitLoop, Waits.waitpid, if_pos interrupted]
  rfl

theorem waitLoop_reaped {status : BitVec 16} (quiet : waits.interruptions = 0)
    (reaped : waits.result = .reaped status) (fuel : Nat) (errno : Errno) :
    waitLoop waits (fuel + 1) 0 errno = some (status.setWidth 32, errno) := by
  rw [waitLoop, Waits.waitpid, if_neg (by omega), reaped]

/-- An error other than `EINTR` is taken for an interruption, again and again. -/
theorem waitLoop_diverges {errno : Errno} {other : errno ≠ .EINTR} (quiet : waits.interruptions = 0)
    (failed : waits.result = .failed errno other) (fuel calls : Nat) (last : Errno) :
    waitLoop waits fuel calls last = none := by
  induction fuel generalizing calls last with
  | zero => rfl
  | succ fuel ih =>
    rw [waitLoop, Waits.waitpid, if_neg (by omega), failed]
    dsimp only
    rw [if_neg other]
    exact ih _ _

theorem proper_iff (command : String) (fork : Fork) (waits : Waits) (p : Process) :
    Proper fork waits p (fun fuel => system (some command) fork waits fuel p) ↔
      ∃ fuel errno, forkAndWait fork waits fuel p.errno = some (expected fork waits.result, errno) := by
  constructor
  · rintro ⟨fuel, r, run, status, -⟩
    obtain ⟨⟨value, savedErrno⟩, waited, rfl⟩ := Option.map_eq_some_iff.mp run
    refine ⟨fuel, savedErrno, ?_⟩
    rw [← status]
    exact waited
  · rintro ⟨fuel, errno, waited⟩
    obtain ⟨r, run, status⟩ : ∃ r, systemCommand command fork waits fuel p = some r ∧
        r.status = expected fork waits.result := by
      unfold systemCommand
      have same : (prepare p).errno = p.errno := rfl
      simp only [same, waited, Option.map_some]
      exact ⟨_, rfl, rfl⟩
    exact ⟨fuel, r, run, status, systemCommand_restores run⟩

/-- The test of `errno` is the wrong way round: the call is right where it does not wait, where the child
    is reaped without an interruption, and where an interruption comes before another error. -/
theorem system_proper_iff (command : String) (fork : Fork) (waits : Waits) (p : Process) :
    Proper fork waits p (fun fuel => system (some command) fork waits fuel p) ↔
      fork ≠ .forked ∨ (waits.interruptions = 0 ↔ waits.result.isReaped = true) := by
  rw [proper_iff]
  cases fork with
  | failed errno => simp [forkAndWait, expected]
  | forked =>
    rw [or_iff_right (by simp)]
    simp only [forkAndWait]
    by_cases quiet : waits.interruptions = 0
    · cases result : waits.result with
      | reaped status =>
        have waited := waitLoop_reaped quiet result 0 p.errno
        simp only [quiet, Waited.isReaped, iff_true]
        exact ⟨1, p.errno, waited⟩
      | failed errno other =>
        apply iff_of_false ?_ (by simp [quiet, Waited.isReaped])
        rintro ⟨fuel, last, waited⟩
        rw [waitLoop_diverges quiet result] at waited
        cases waited
    · have interrupted : 0 < waits.interruptions := by omega
      cases result : waits.result with
      | reaped status =>
        simp only [quiet, Waited.isReaped, iff_true, iff_false]
        rintro ⟨fuel, last, waited⟩
        cases fuel with
        | zero => cases waited
        | succ fuel =>
          rw [waitLoop_interrupted interrupted] at waited
          exact minusOne_ne_status status (Prod.ext_iff.mp (Option.some.inj waited)).1
      | failed errno other =>
        simp only [quiet, Waited.isReaped, Bool.false_eq_true, iff_true]
        exact ⟨1, .EINTR, waitLoop_interrupted interrupted 0 p.errno⟩

/-- A shell is there if its status is 0; a call that returns leaves the process as it was here too. -/
theorem system_null {fuel : Nat} {r : Return} (run : system none fork waits fuel p = some r) :
    (r.status = 0 ∨ r.status = 1) ∧ r.process.mask = p.mask ∧ r.process.actions = p.actions := by
  obtain ⟨inner, called, rfl⟩ := Option.map_eq_some_iff.mp run
  have restored := systemCommand_restores called
  refine ⟨?_, restored⟩
  dsimp only
  split
  · exact .inr rfl
  · exact .inl rfl

/-- The caller ignores `SIGCHLD`, so that `waitpid` ends with `ECHILD`. -/
theorem noChild_not_proper :
    ¬ ∀ command fork waits p, Proper fork waits p (fun fuel => system (some command) fork waits fuel p) := by
  intro always
  have proper := always "true" .forked ⟨0, .failed (.other 10) (by decide)⟩
    ⟨sigemptyset, fun sig => if sig = SIGCHLD then saIgnore else saDefault, .other 0⟩
  obtain ⟨fuel, errno, waited⟩ := (proper_iff _ _ _ _).mp proper
  rw [forkAndWait, waitLoop_diverges rfl rfl] at waited
  cases waited

end SystemProgramming.ShellCommand
