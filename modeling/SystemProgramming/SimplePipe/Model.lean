import SystemProgramming.Kernel
import SystemProgramming.Library.Buffer
import SystemProgramming.Library.CFormat
import SystemProgramming.Library.Channel

namespace SystemProgramming.SimplePipe

open CFormat (ascii)

def BUF_SIZE : Nat := 10

inductive End where
  | read
  | write
  deriving DecidableEq, Repr

inductive ParentPc where
  | pipe
  | fork
  | closeRead
  | write
  | closeWrite
  | wait
  | exited (status : ExitStatus)
  | killed
  deriving DecidableEq, Repr

inductive ChildPc where
  | closeWrite
  | read
  | write
  | closeRead
  | newline
  | exited (status : ExitStatus)
  deriving DecidableEq, Repr

structure Child where
  pc : ChildPc
  buf : List Byte
  numRead : Nat

/-- `argument` is `argv[1]`, if there is one, `stack` what lies where the child has its buffer, and
    `capacity` the number of bytes the pipe takes; on a `terminal` no line that is printed is kept back. -/
structure Setting where
  argument : Option CString
  stack : List Byte
  capacity : Nat
  terminal : Bool

/-- `left` is what the `write` of the parent has not copied into the pipe yet, and `unflushed` what it
    has printed without its having gone out. -/
structure State where
  parent : ParentPc
  left : List Byte
  unflushed : List Byte
  pipe : Channel Byte
  child : Option Child
  stdout : List Byte

inductive Action where
  | parent (outcome : Outcome)
  | child (outcome : Outcome)
  deriving DecidableEq

def ParentPc.holds : End → ParentPc → Bool
  | .read, .fork | .read, .closeRead => true
  | .write, .fork | .write, .closeRead | .write, .write | .write, .closeWrite => true
  | _, _ => false

def ChildPc.holds : End → ChildPc → Bool
  | .read, .closeWrite | .read, .read | .read, .write | .read, .closeRead => true
  | .write, .closeWrite => true
  | _, _ => false

def State.isOpen (s : State) (e : End) : Bool := s.parent.holds e || s.child.any (·.pc.holds e)

def ParentPc.hasEnded : ParentPc → Bool
  | .exited _ | .killed => true
  | _ => false

def ChildPc.hasEnded : ChildPc → Bool
  | .exited _ => true
  | _ => false

namespace State

def parentAt (s : State) (pc : ParentPc) : State := { s with parent := pc }

def exit (s : State) (status : ExitStatus) : State :=
  { s with parent := .exited status, stdout := s.stdout ++ s.unflushed, unflushed := [] }

def printf (terminal : Bool) (text : List Byte) (s : State) : State :=
  if terminal then { s with stdout := s.stdout ++ text } else { s with unflushed := s.unflushed ++ text }

def fail (s : State) (text : String) : State := (s.printf false (ascii text)).exit .failure

def setChild (s : State) (c : Child) : State := { s with child := some c }

end State

/-- The kernel copies bytes while there is room, a count each time; the call is done when nothing is
    left, or before that once it has copied something. Without a reader there is a SIGPIPE instead. -/
def parentWrite (setting : Setting) (message : List Byte) (s : State) (outcome : Outcome) : Option State :=
  match outcome with
  | .count n =>
    if 0 < n ∧ n ≤ s.left.length ∧ s.pipe.inFlight.length + n ≤ setting.capacity ∧ s.isOpen .read then
      some { s with left := s.left.drop n, pipe := s.pipe.put (s.left.take n) }
    else none
  | .done =>
    let numRead := message.length - s.left.length
    if s.left = [] then some (s.parentAt .closeWrite)
    else if s.isOpen .read = false then some (s.parentAt .killed)
    else if 0 < numRead then some ((s.printf setting.terminal (ascii "Part write.\n")).parentAt .closeWrite)
    else none
  | .error _ => if s.left = message then some (s.fail "write\n") else none

def parentStep (setting : Setting) (s : State) (outcome : Outcome) : Option State :=
  match s.parent, outcome with
  | .pipe, .done => some (s.parentAt .fork)
  | .pipe, .error _ => some (s.fail "pipe\n")
  | .fork, .done => some { s.parentAt .closeRead with child := some ⟨.closeWrite, setting.stack, 0⟩ }
  | .fork, .error _ => some (s.fail "fork\n")
  | .closeRead, .done => some (s.parentAt .write)
  | .closeRead, .error _ => some (s.fail "close\n")
  | .write, outcome =>
    match setting.argument with
    | some message => parentWrite setting message.val s outcome
    -- `strlen` of a null pointer
    | none => if outcome = .done then some (s.parentAt .killed) else none
  | .closeWrite, .done => some (s.parentAt .wait)
  | .closeWrite, .error _ => some (s.fail "close\n")
  | .wait, .done => if s.child.any (·.pc.hasEnded) then some (s.exit .success) else none
  | .wait, .error _ => some (s.exit .success)
  | _, _ => none

def childFail (s : State) (c : Child) (text : String) : State :=
  { s.setChild { c with pc := .exited .failure } with stdout := s.stdout ++ ascii text }

def childStep (s : State) (c : Child) (outcome : Outcome) : Option State :=
  match c.pc, outcome with
  | .closeWrite, .done => some (s.setChild { c with pc := .read })
  | .closeWrite, .error _ => some (childFail s c "close\n")
  | .read, .count n =>
    if 0 < n ∧ n ≤ BUF_SIZE ∧ n ≤ s.pipe.inFlight.length then
      some { s.setChild ⟨.write, Buffer.overwrite (s.pipe.inFlight.take n) c.buf, n⟩ with pipe := s.pipe.take n }
    else if n = 0 ∧ s.pipe.inFlight = [] ∧ s.isOpen .write = false then
      some (s.setChild { c with pc := .closeRead, numRead := 0 })
    else none
  | .read, .error _ => some (childFail s c "read\n")
  | .write, .count k =>
    if k ≤ c.numRead then
      some { s.setChild { c with pc := .read } with stdout := s.stdout ++ c.buf.take k }
    else none
  | .write, .error _ => some (s.setChild { c with pc := .read })
  | .closeRead, .done => some (s.setChild { c with pc := .newline })
  | .closeRead, .error _ => some (childFail s c "close\n")
  | .newline, .count k =>
    if k ≤ 1 then
      some { s.setChild { c with pc := .exited .success } with stdout := s.stdout ++ (ascii "\n").take k }
    else none
  | .newline, .error _ => some (s.setChild { c with pc := .exited .success })
  | _, _ => none

def step (setting : Setting) (s : State) : Action → Option State
  | .parent outcome => parentStep setting s outcome
  | .child outcome => s.child.bind fun c => childStep s c outcome

def Setting.message (setting : Setting) : List Byte := setting.argument.elim [] (·.val)

def initial (setting : Setting) : State := ⟨.pipe, setting.message, [], Channel.empty, none, []⟩

end SystemProgramming.SimplePipe
