import SystemProgramming.Kernel
import SystemProgramming.Library.Buffer
import SystemProgramming.Library.Transition

namespace SystemProgramming.Tee

def BUFSIZE : Nat := 1024

inductive Pc where
  | opening
  | read
  | writeFile (numRead : Nat)
  | writeStdout (numRead : Nat) (numWritten : Int)
  | close
  | exited (status : ExitStatus)
  deriving DecidableEq, Repr

/-- `input` is what is left of the standard input, and `offset` is the one of `fd`; there may be no
    such file yet. -/
structure State where
  pc : Pc
  append : Bool
  input : List Byte
  buf : List Byte
  file : Option (List Byte)
  offset : Nat
  stdout : List Byte

def ReadCount (input : List Byte) (n : Nat) : Prop :=
  n ≤ BUFSIZE ∧ n ≤ input.length ∧ (n = 0 ↔ input = [])

instance (input : List Byte) (n : Nat) : Decidable (ReadCount input n) :=
  inferInstanceAs (Decidable (_ ∧ _ ∧ (_ ↔ _)))

def write (s : State) (bytes : List Byte) : State :=
  let file := s.file.getD []
  let place := if s.append then file.length else s.offset
  { s with
    file := some (file.take place ++ bytes ++ file.drop (place + bytes.length))
    offset := place + bytes.length }

def checkWrites (numRead : Nat) (numWritten stdoutWrNum : Int) : Pc :=
  if numRead ≠ numWritten ∨ stdoutWrNum ≠ numWritten then .exited .failure else .read

/-- Only the plain `open` has `O_CREAT`, and none has `O_TRUNC`; what ends the loop, a `close` that
    fails too, the program returns 0. -/
def step (s : State) (outcome : Outcome) : Option State :=
  match s.pc with
  | .opening =>
    match outcome with
    | .done =>
      if s.append ∧ s.file = none then none
      else some { s with pc := .read, file := some (s.file.getD []) }
    | .error _ => some { s with pc := .exited .failure }
    | .count _ => none
  | .read =>
    match outcome with
    | .count n =>
      if ReadCount s.input n then
        if 0 < n then
          some { s with
            pc := .writeFile n
            input := s.input.drop n
            buf := Buffer.overwrite (s.input.take n) s.buf }
        else some { s with pc := .close }
      else none
    | .error _ => some { s with pc := .close }
    | .done => none
  | .writeFile numRead =>
    match outcome with
    | .count k =>
      if k ≤ numRead then
        some { write s (s.buf.take k) with pc := .writeStdout numRead k }
      else none
    | .error _ => some { s with pc := .writeStdout numRead (-1) }
    | .done => none
  | .writeStdout numRead numWritten =>
    match outcome with
    | .count k =>
      if k ≤ numRead then
        some { s with
          pc := checkWrites numRead numWritten k
          stdout := s.stdout ++ s.buf.take k }
      else none
    | .error _ => some { s with pc := checkWrites numRead numWritten (-1) }
    | .done => none
  | .close =>
    match outcome with
    | .done | .error _ => some { s with pc := .exited .success }
    | .count _ => none
  | .exited _ => none

/-- Three words on the command line stand for the append option, whatever the second one is. -/
def start (argv : Nat) : Pc := if argv = 3 ∨ argv = 2 then .opening else .exited .failure

def initial (argv : Nat) (old : Option (List Byte)) (input buf : List Byte) : State :=
  ⟨start argv, argv = 3, input, buf, old, 0, []⟩

end SystemProgramming.Tee
