import SystemProgramming.Kernel
import SystemProgramming.Library.Descriptors
import SystemProgramming.Library.Transition

namespace SystemProgramming.PipeLsWc

def STDIN_FILENO : Nat := 0
def STDOUT_FILENO : Nat := 1

inductive End where
  | read
  | write
  deriving DecidableEq, Repr

inductive File (φ : Type) where
  | inherited (f : φ)
  | pipe (e : End)
  deriving DecidableEq

variable {φ : Type}

def File.isEnd (e : End) : File φ → Bool
  | .pipe other => other = e
  | .inherited _ => false

inductive ChildPc where
  | close
  | dup2
  | closeOld
  | exec
  | program
  | exited (status : ExitStatus)
  deriving DecidableEq, Repr

structure Child (φ : Type) where
  pc : ChildPc
  table : Descriptors (File φ)

/-- A child between `fork` and `execlp`: it closes the end that it does not need and makes the other
    one its `standard` descriptor. -/
def childStep (unused used standard : Nat) (c : Child φ) (outcome : Outcome) : Option (Child φ) :=
  match c.pc with
  | .close =>
    match outcome with
    | .done =>
      if (c.table.file unused).isSome then
        some ⟨if used ≠ standard then .dup2 else .exec, c.table.close unused⟩
      else none
    | .error _ => some { c with pc := .exited .failure }
    | .count _ => none
  | .dup2 =>
    match outcome with
    | .done =>
      match c.table.dup2 (some used) (some standard) with
      | (some _, table) => some ⟨.closeOld, table⟩
      | (none, _) => none
    | .error _ => some { c with pc := .exited .failure }
    | .count _ => none
  | .closeOld =>
    match outcome with
    | .done => if (c.table.file used).isSome then some ⟨.exec, c.table.close used⟩ else none
    | .error _ => some { c with pc := .exited .failure }
    | .count _ => none
  | .exec =>
    match outcome with
    | .done => some { c with pc := .program }
    | .error _ => some { c with pc := .exited .failure }
    | .count _ => none
  | .program | .exited _ => none

def programEnds (status : ExitStatus) (c : Child φ) : Option (Child φ) :=
  if c.pc = .program then some { c with pc := .exited status } else none

inductive ParentPc where
  | pipe
  | forkLs
  | forkWc
  | closeRead
  | closeWrite
  | waitFirst
  | waitSecond
  | exited (status : ExitStatus)
  deriving DecidableEq, Repr

structure State (φ : Type) where
  parent : ParentPc
  table : Descriptors (File φ)
  pfd : Nat × Nat
  ls : Option (Child φ)
  wc : Option (Child φ)

/-- `pipe` takes the two lowest descriptors that are free; which of them gets the read end is open. -/
inductive Action where
  | pipe (swapped : Bool)
  | parent (outcome : Outcome)
  | ls (outcome : Outcome)
  | wc (outcome : Outcome)
  | lsEnds (status : ExitStatus)
  | wcEnds (status : ExitStatus)
  deriving DecidableEq

def lsStep (pfd : Nat × Nat) (c : Child φ) (outcome : Outcome) : Option (Child φ) :=
  childStep pfd.1 pfd.2 STDOUT_FILENO c outcome

def wcStep (pfd : Nat × Nat) (c : Child φ) (outcome : Outcome) : Option (Child φ) :=
  childStep pfd.2 pfd.1 STDIN_FILENO c outcome

def ChildPc.ended : ChildPc → Bool
  | .exited _ => true
  | _ => false

def ParentPc.ended : ParentPc → Bool
  | .exited _ => true
  | _ => false

def holds (e : End) (table : Descriptors (File φ)) : Bool :=
  (List.range table.limit).any fun fd => (table.file fd).any (File.isEnd e)

def State.open_ (s : State φ) (e : End) : Bool :=
  (!s.parent.ended && holds e s.table) || s.ls.any (fun c => !c.pc.ended && holds e c.table) ||
    s.wc.any (fun c => !c.pc.ended && holds e c.table)

def newPipe (table : Descriptors (File φ)) (swapped : Bool) : (Nat × Nat) × Descriptors (File φ) :=
  let first := table.lowest
  let second := (table.install first (.pipe .read)).lowest
  let pfd := if swapped then (second, first) else (first, second)
  (pfd, (table.install pfd.1 (.pipe .read)).install pfd.2 (.pipe .write))

def parentStep (s : State φ) (outcome : Outcome) : Option (State φ) :=
  let goto (pc : ParentPc) := some { s with parent := pc }
  match outcome with
  | .error _ => if s.parent.ended then none else goto (.exited .failure)
  | .count _ => none
  | .done =>
    match s.parent with
    | .pipe => none
    | .forkLs => some { s with parent := .forkWc, ls := some ⟨.close, s.table⟩ }
    | .forkWc => some { s with parent := .closeRead, wc := some ⟨.close, s.table⟩ }
    | .closeRead =>
      if (s.table.file s.pfd.1).isSome then
        some { s with parent := .closeWrite, table := s.table.close s.pfd.1 }
      else none
    | .closeWrite =>
      if (s.table.file s.pfd.2).isSome then
        some { s with parent := .waitFirst, table := s.table.close s.pfd.2 }
      else none
    | .waitFirst => if s.ls.any (·.pc.ended) || s.wc.any (·.pc.ended) then goto .waitSecond else none
    | .waitSecond => if s.ls.any (·.pc.ended) && s.wc.any (·.pc.ended) then goto (.exited .success) else none
    | .exited _ => none

/-- `ls` and `wc` end at any time and as they like, but `wc` with success only when its standard input is at
    end of file, that is when nobody has the write end open. -/
def step (s : State φ) : Action → Option (State φ)
  | .pipe swapped =>
    if s.parent = .pipe then
      let (pfd, table) := newPipe s.table swapped
      some { s with parent := .forkLs, table, pfd }
    else none
  | .parent outcome => parentStep s outcome
  | .ls outcome => s.ls.bind fun c => (lsStep s.pfd c outcome).map fun c => { s with ls := some c }
  | .wc outcome => s.wc.bind fun c => (wcStep s.pfd c outcome).map fun c => { s with wc := some c }
  | .lsEnds status => s.ls.bind fun c => (programEnds status c).map fun c => { s with ls := some c }
  | .wcEnds status =>
    s.wc.bind fun c =>
      if status = .success ∧ s.open_ .write then none
      else (programEnds status c).map fun c => { s with wc := some c }

def inherit (table : Descriptors φ) : Descriptors (File φ) where
  file := fun fd => (table.file fd).map .inherited
  limit := table.limit
  beyond := by
    intro fd far
    rw [table.beyond fd far]
    rfl

def initial (table : Descriptors φ) (pfd : Nat × Nat) : State φ := ⟨.pipe, inherit table, pfd, none, none⟩

end SystemProgramming.PipeLsWc
