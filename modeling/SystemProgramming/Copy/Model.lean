import SystemProgramming.Kernel
import SystemProgramming.Library.Buffer
import SystemProgramming.Library.FileSystem
import SystemProgramming.Library.Transition

namespace SystemProgramming.Copy

def BUF_SIZE : Nat := 1024

abbrev Files := FileSystem (List Byte) Byte

def slash : Byte := 47

def dot : Byte := 46

/-- A path that ends in a slash is to lead to a directory, as if a dot followed. -/
def parsePath (path : CString) : FileSystem.Path (List Byte) where
  absolute := path.val.head? = some slash
  names := (path.val.splitOn slash).filter (· ≠ []) ++ if path.val.getLast? = some slash then [[dot]] else []

structure OpenFile where
  inode : Nat
  offset : Nat
  deriving DecidableEq, Repr

inductive Pc where
  | openInput (oldFile newFile : CString)
  | openOutput (newFile : CString)
  | read
  | write (numRead : Nat)
  | closeInput
  | closeOutput
  | exited (status : ExitStatus)
  deriving DecidableEq

structure State where
  pc : Pc
  fs : Files
  inputFd : Option OpenFile
  outputFd : Option OpenFile
  buf : List Byte

def fail (s : State) : State := { s with pc := .exited .failure }

def openInput (s : State) (oldFile newFile : CString) : Option State :=
  match s.fs.lookup (parsePath oldFile) with
  | some (.found i) => some { s with pc := .openOutput newFile, inputFd := some ⟨i, 0⟩ }
  | _ => none

def openExisting (s : State) (newFile : CString) : Option State :=
  match s.fs.lookup (parsePath newFile) with
  | some (.found o) =>
    if (s.fs.content o).isSome then
      some { s with pc := .read, fs := s.fs.setContent o [], outputFd := some ⟨o, 0⟩ }
    else none
  | _ => none

def openMissing (s : State) (newFile : CString) (inode : Nat) : Option State :=
  match s.fs.lookup (parsePath newFile) with
  | some (.missing d name) =>
    if (s.fs.node inode).isNone then
      some { s with pc := .read, fs := s.fs.create d name inode, outputFd := some ⟨inode, 0⟩ }
    else none
  | _ => none

def rest (fs : Files) (fd : Option OpenFile) : Option (OpenFile × List Byte) :=
  fd.bind fun file => (fs.content file.inode).map fun content => (file, content.drop file.offset)

def read (s : State) (n : Nat) : Option State :=
  match rest s.fs s.inputFd with
  | some (input, bytes) =>
    if n ≤ BUF_SIZE ∧ n ≤ bytes.length ∧ (n = 0 ↔ bytes = []) then
      if 0 < n then
        some { s with
          pc := .write n
          inputFd := some { input with offset := input.offset + n }
          buf := Buffer.overwrite (bytes.take n) s.buf }
      else some { s with pc := .closeInput }
    else none
  | none => none

def write (s : State) (numRead k : Nat) : Option State :=
  match s.outputFd with
  | some output =>
    match s.fs.content output.inode with
    | some content =>
      if k ≤ numRead then
        some { s with
          pc := if numRead ≠ k then .exited .failure else .read
          fs := s.fs.setContent output.inode
            (content.take output.offset ++ s.buf.take k ++ content.drop (output.offset + k))
          outputFd := some { output with offset := output.offset + k } }
      else none
    | none => none
  | none => none

/-- The count of the second `open` stands for the inode of a new file. As it is written, the last `close`
    is one of descriptor 0. -/
def step (s : State) (outcome : Outcome) : Option State :=
  match s.pc with
  | .openInput oldFile newFile =>
    match outcome with
    | .done => openInput s oldFile newFile
    | .error _ => some (fail s)
    | .count _ => none
  | .openOutput newFile =>
    match outcome with
    | .done => openExisting s newFile
    | .count inode => openMissing s newFile inode
    | .error _ => some (fail s)
  | .read =>
    match outcome with
    | .count n => read s n
    | .error _ => some (fail s)
    | .done => none
  | .write numRead =>
    match outcome with
    | .count k => write s numRead k
    | .error _ => some (fail s)
    | .done => none
  | .closeInput =>
    match outcome with
    | .done => some { s with pc := .closeOutput, inputFd := none }
    | .error _ => some (fail s)
    | .count _ => none
  | .closeOutput =>
    match outcome with
    | .done => some { s with pc := .exited .success }
    | .error _ => some (fail s)
    | .count _ => none
  | .exited _ => none

def help : List Byte := [45, 45, 104, 101, 108, 112]

def start (args : List CString) : Pc :=
  match args with
  | [oldFile, newFile] => if oldFile.val = help then .exited .failure else .openInput oldFile newFile
  | _ => .exited .failure

def initial (args : List CString) (fs : Files) (buf : List Byte) : State :=
  ⟨start args, fs, none, none, buf⟩

end SystemProgramming.Copy
