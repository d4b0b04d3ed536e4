import SystemProgramming.BinarySems
import SystemProgramming.Library.Buffer
import SystemProgramming.Library.Transition

namespace SystemProgramming.SharedMemory

open BinarySems Transition

def WRITE_SEM : Nat := 0
def READ_SEM : Nat := 1
def BUF_SIZE : Nat := 1024

structure Shmseg where
  cnt : Int
  buf : List Byte

inductive WriterPc where
  | reserve
  | read
  | release
  | test
  | header
  | reserveLast
  | semctl
  | shmdt
  | shmctl
  | report
  | exited (status : ExitStatus)
  deriving DecidableEq, Repr

inductive ReaderPc where
  | reserve
  | test
  | write
  | release
  | header
  | shmdt
  | releaseLast
  | report
  | exited (status : ExitStatus)
  deriving DecidableEq, Repr

structure Writer where
  pc : WriterPc
  xfrs : BitVec 32
  bytes : BitVec 32

structure Reader where
  pc : ReaderPc
  xfrs : BitVec 32
  bytes : BitVec 32

/-- `reads` lists what each `read` of the writer has returned so far; no statement looks at it. -/
structure State where
  stdin : List Byte
  stdout : List Byte
  sems : SemaphoreSet
  seg : Shmseg
  marked : Bool
  writer : Writer
  reader : Reader
  reads : List (List Byte)

inductive Action where
  | writer (outcome : Outcome)
  | reader (outcome : Outcome)
  deriving DecidableEq, Repr

namespace State

@[simp] def writerAt (s : State) (pc : WriterPc) : State := { s with writer := { s.writer with pc } }
@[simp] def readerAt (s : State) (pc : ReaderPc) : State := { s with reader := { s.reader with pc } }

end State

/-- `reserveSem` at its two call sites in the writer: -1 ends the process. -/
def writerReserve (s : State) (outcome : Outcome) (next : WriterPc) : Option State :=
  (reserveSem s.sems WRITE_SEM outcome).map fun (sems, returned) =>
    match returned with
    | none => s
    | some result =>
      { s with sems }.writerAt (if result = -1 then .exited .failure else next)

def readerReserve (s : State) (outcome : Outcome) : Option State :=
  (reserveSem s.sems READ_SEM outcome).map fun (sems, returned) =>
    match returned with
    | none => s
    | some result =>
      { s with sems }.readerAt (if result = -1 then .exited .failure else .test)

def readerRelease (s : State) (outcome : Outcome) (next : ReaderPc) : Option State :=
  (releaseSem s.sems WRITE_SEM outcome).map fun (sems, result) =>
    { s with sems }.readerAt (if result = -1 then .exited .failure else next)

def checkedCall (outcome : Outcome) (success failure : State) : Option State :=
  match outcome with
  | .done => some success
  | .error _ => some failure
  | .count _ => none

def plain (outcome : Outcome) (next : State) : Option State :=
  match outcome with
  | .done => some next
  | _ => none

def ReadCount (stdin : List Byte) (n : Nat) : Prop :=
  n ≤ BUF_SIZE ∧ n ≤ stdin.length ∧ (n = 0 ↔ stdin = [])

instance (stdin : List Byte) (n : Nat) : Decidable (ReadCount stdin n) :=
  inferInstanceAs (Decidable (_ ∧ _ ∧ (_ ↔ _)))

def storeRead (s : State) (n : Nat) : State :=
  { s with
    stdin := s.stdin.drop n
    seg := ⟨n, Buffer.overwrite (s.stdin.take n) s.seg.buf⟩
    reads := s.reads ++ [s.stdin.take n] }

def writerStep (s : State) (outcome : Outcome) : Option State :=
  match s.writer.pc with
  | .reserve => writerReserve s outcome .read
  | .read =>
    match outcome with
    | .count n => if ReadCount s.stdin n then some ((storeRead s n).writerAt .release) else none
    | .error _ => some ({ s with seg := { s.seg with cnt := -1 } }.writerAt (.exited .failure))
    | .done => none
  | .release =>
    (releaseSem s.sems READ_SEM outcome).map fun (sems, result) =>
      { s with sems }.writerAt (if result = -1 then .exited .failure else .test)
  | .test => plain outcome (s.writerAt (if s.seg.cnt = 0 then .reserveLast else .header))
  | .header =>
    plain outcome { s with
      writer := ⟨.reserve, s.writer.xfrs + 1, s.writer.bytes + BitVec.ofInt 32 s.seg.cnt⟩ }
  | .reserveLast => writerReserve s outcome .semctl
  | .semctl =>
    checkedCall outcome ({ s with sems := { s.sems with removed := true } }.writerAt .shmdt)
      (s.writerAt (.exited .failure))
  | .shmdt => checkedCall outcome (s.writerAt .shmctl) (s.writerAt (.exited .failure))
  | .shmctl =>
    checkedCall outcome ({ s with marked := true }.writerAt .report) (s.writerAt (.exited .failure))
  | .report => plain outcome (s.writerAt (.exited .success))
  | .exited _ => none

def readerStep (s : State) (outcome : Outcome) : Option State :=
  match s.reader.pc with
  | .reserve => readerReserve s outcome
  | .test => plain outcome (s.readerAt (if s.seg.cnt = 0 then .shmdt else .write))
  | .write =>
    match outcome with
    | .count n =>
      if n ≤ s.seg.cnt.toNat then
        some ({ s with stdout := s.stdout ++ s.seg.buf.take n }.readerAt
          (if s.seg.cnt ≠ n then .exited .failure else .release))
      else none
    | .error _ => some (s.readerAt (.exited .failure))
    | .done => none
  | .release => readerRelease s outcome .header
  | .header =>
    plain outcome { s with
      reader := ⟨.reserve, s.reader.xfrs + 1, s.reader.bytes + BitVec.ofInt 32 s.seg.cnt⟩ }
  | .shmdt => checkedCall outcome (s.readerAt .releaseLast) (s.readerAt (.exited .failure))
  | .releaseLast => readerRelease s outcome .report
  | .report => plain outcome (s.readerAt (.exited .success))
  | .exited _ => none

def step (s : State) : Action → Option State
  | .writer outcome => writerStep s outcome
  | .reader outcome => readerStep s outcome

/-- Both processes are attached, and the writer has initialised the two semaphores; what an
    earlier use left in the segment and in the set is arbitrary. -/
def initial (stdin : List Byte) (seg : Shmseg) (value : Nat → Nat) : State where
  stdin := stdin
  stdout := []
  sems := initSemInUse (initSemAvailable ⟨value, false⟩ WRITE_SEM) READ_SEM
  seg := seg
  marked := false
  writer := ⟨.reserve, 0, 0⟩
  reader := ⟨.reserve, 0, 0⟩
  reads := []

def NoFailure (s : State) : Action → Prop
  | .writer (.error errno) =>
    errno = .EINTR ∧ (s.writer.pc = .reserve ∨ s.writer.pc = .reserveLast)
  | .reader (.error errno) => errno = .EINTR ∧ s.reader.pc = .reserve
  | _ => True

def FaultFree (s : State) : Action → Prop
  | .reader (.count n) => s.seg.cnt = n
  | action => NoFailure s action

instance (s : State) : (action : Action) → Decidable (NoFailure s action)
  | .writer (.error _) => inferInstanceAs (Decidable (_ ∧ (_ ∨ _)))
  | .reader (.error _) => inferInstanceAs (Decidable (_ ∧ _))
  | .writer .done | .writer (.count _) | .reader .done | .reader (.count _) => isTrue trivial

instance (s : State) : (action : Action) → Decidable (FaultFree s action)
  | .reader (.count n) => inferInstanceAs (Decidable (s.seg.cnt = n))
  | .writer outcome => inferInstanceAs (Decidable (NoFailure s (.writer outcome)))
  | .reader .done => isTrue trivial
  | .reader (.error errno) => inferInstanceAs (Decidable (NoFailure s (.reader (.error errno))))

theorem FaultFree.noFailure {s : State} {action : Action} (free : FaultFree s action) :
    NoFailure s action := by
  rcases action with (_ | _ | _) | (_ | _ | _)
  all_goals first | exact free | trivial

@[simp] theorem WRITE_SEM_ne : WRITE_SEM ≠ READ_SEM := by decide
@[simp] theorem READ_SEM_ne : READ_SEM ≠ WRITE_SEM := by decide

end SystemProgramming.SharedMemory
