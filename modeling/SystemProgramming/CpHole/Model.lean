import SystemProgramming.Kernel
import SystemProgramming.Library.Buffer
import SystemProgramming.Library.SparseFile
import SystemProgramming.Library.Transition

namespace SystemProgramming.CpHole

def BUF_SIZE : Nat := 4096

def zero : List Byte := List.replicate BUF_SIZE 0

inductive Pc where
  | read
  | lseek (numRead : Nat)
  | write (numRead : Nat)
  | tell
  | ftruncate (len : Int)
  | exited (status : ExitStatus)
  deriving DecidableEq, Repr

structure State where
  pc : Pc
  input : List Byte
  buf : List Byte
  outFile : SparseFile Byte
  offset : Nat

def ReadCount (input : List Byte) (n : Nat) : Prop :=
  n ≤ BUF_SIZE ∧ n ≤ input.length ∧ (n = 0 ↔ input = [])

instance (input : List Byte) (n : Nat) : Decidable (ReadCount input n) :=
  inferInstanceAs (Decidable (_ ∧ _ ∧ (_ ↔ _)))

def readChunk (s : State) (n : Nat) : State :=
  let buf := Buffer.overwrite (s.input.take n) s.buf
  { s with
    pc := if buf.take n = zero.take n then .lseek n else .write n
    input := s.input.drop n
    buf }

/-- Whatever ends the loop, the program goes on to `ftruncate` and returns 0. -/
def step (s : State) (outcome : Outcome) : Option State :=
  match s.pc with
  | .read =>
    match outcome with
    | .count n =>
      if ReadCount s.input n then
        some (if 0 < n then readChunk s n else { s with pc := .tell })
      else none
    | .error _ => some { s with pc := .tell }
    | .done => none
  | .lseek n =>
    match outcome with
    | .done => some { s with pc := .read, offset := s.offset + n }
    | .error _ => some { s with pc := .exited .failure }
    | .count _ => none
  | .write n =>
    match outcome with
    | .count k =>
      if k ≤ n then
        some { s with
          pc := if k ≠ n then .exited .failure else .read
          outFile := s.outFile.write s.offset (s.buf.take k)
          offset := s.offset + k }
      else none
    | .error _ => some { s with pc := .exited .failure }
    | .done => none
  | .tell =>
    match outcome with
    | .done => some { s with pc := .ftruncate s.offset }
    | .error _ => some { s with pc := .ftruncate (-1) }
    | .count _ => none
  | .ftruncate len =>
    match outcome with
    | .done =>
      if 0 ≤ len then
        some { s with pc := .exited .success, outFile := s.outFile.resize len.toNat }
      else none
    | .error _ => some { s with pc := .exited .success }
    | .count _ => none
  | .exited _ => none

def initial (source : List Byte) (old : SparseFile Byte) (buf : List Byte) : State :=
  ⟨.read, source, buf, old, 0⟩

def NoFailure (s : State) : Outcome → Prop
  | .done => True
  | .count k => ∀ n, s.pc = .write n → k = n
  | .error _ => False

instance (s : State) : (outcome : Outcome) → Decidable (NoFailure s outcome)
  | .done => isTrue trivial
  | .error _ => isFalse not_false
  | .count k =>
    match at_ : s.pc with
    | .write n => decidable_of_iff (k = n) (by simp [NoFailure, at_])
    | .read | .lseek _ | .tell | .ftruncate _ | .exited _ => isTrue (by simp [NoFailure, at_])

end SystemProgramming.CpHole
