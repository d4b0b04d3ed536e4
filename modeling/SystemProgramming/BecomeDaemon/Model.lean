import SystemProgramming.Kernel
import SystemProgramming.Library.Descriptors

namespace SystemProgramming.BecomeDaemon

abbrev Flags := BitVec 32

def BD_NO_CHDIR : Flags := 1
def BD_NO_CLOSE_FILES : Flags := 2
def BD_NO_REOPEN_STD_FDS : Flags := 4
def BD_NO_UMASK0 : Flags := 8
def BD_MAX_CLOSE : Int := 8192

def STDIN_FILENO : Nat := 0
def STDOUT_FILENO : Nat := 1
def STDERR_FILENO : Nat := 2

structure Process (φ : Type) where
  files : Descriptors φ
  umask : Nat
  cwd : String
  sessionLeader : Bool

structure Calls where
  fork : Bool
  setsid : Bool
  forkAgain : Bool
  chdir : Bool
  openMax : Int
  openNull : Bool

def maxfd (openMax : Int) : Int :=
  let limit := Int.bmod openMax 4294967296
  if limit = -1 then BD_MAX_CLOSE else limit

variable {φ : Type} (devNull : φ)

def openDevNull (openNull : Bool) (files : Descriptors φ) : Option Nat × Descriptors φ :=
  if openNull then (some files.lowest, files.install files.lowest devNull) else (none, files)

def reopenStandard (openNull : Bool) (files : Descriptors φ) : Int × Descriptors φ :=
  let files := files.close STDIN_FILENO
  let (fd, files) := openDevNull devNull openNull files
  let (copy, files) := files.dup2 (some STDIN_FILENO) fd
  if fd ≠ copy then (-1, files)
  else
    let (copy, files) := files.dup2 (some STDOUT_FILENO) (some STDIN_FILENO)
    if fd ≠ copy then (-1, files)
    else
      let (copy, files) := files.dup2 (some STDERR_FILENO) (some STDIN_FILENO)
      if fd ≠ copy then (-1, files) else (0, files)

def closeFiles (openMax : Int) (flags : Flags) (files : Descriptors φ) : Descriptors φ :=
  if flags &&& BD_NO_CLOSE_FILES = 0 then files.closeBelow (maxfd openMax).toNat else files

/-- The result in the surviving process, which is the caller if a `fork` fails and the child if it
    does not. -/
def becomeDaemon (calls : Calls) (flags : Flags) (p : Process φ) : Int × Process φ :=
  if calls.fork = false then (-1, p)
  else
    let p := { p with sessionLeader := false }
    if calls.setsid = false then (-1, p)
    else
      let p := { p with sessionLeader := true }
      if calls.forkAgain = false then (-1, p)
      else
        let p := { p with sessionLeader := false }
        let p := if flags &&& BD_NO_UMASK0 = 0 then { p with umask := 0 } else p
        let p := if flags &&& BD_NO_CHDIR = 0 ∧ calls.chdir = true then { p with cwd := "/" } else p
        let p := { p with files := closeFiles calls.openMax flags p.files }
        if flags &&& BD_NO_REOPEN_STD_FDS = 0 then
          let (result, files) := reopenStandard devNull calls.openNull p.files
          (result, { p with files := files })
        else (0, p)

end SystemProgramming.BecomeDaemon
