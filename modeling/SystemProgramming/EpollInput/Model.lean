import SystemProgramming.Kernel
import SystemProgramming.Library.Buffer
import SystemProgramming.Library.Descriptors
import SystemProgramming.Library.Transition

namespace SystemProgramming.EpollInput

def MAX_BUF : Nat := 1000
def MAX_EVENTS : Nat := 5

abbrev Fd := Nat

inductive Object where
  | epoll
  | file (inode : Nat)
  deriving DecidableEq, Repr

structure Stream where
  delivered : List Byte
  pending : List Byte
  hungUp : Bool
  failed : Bool
  input : List Byte
  printed : List Byte

def Stream.empty : Stream := ⟨[], [], false, false, [], []⟩

def Stream.Ended (f : Stream) : Prop := f.hungUp = true ∨ f.failed = true

instance (f : Stream) : Decidable f.Ended := inferInstanceAs (Decidable (_ ∨ _))

structure Event where
  fd : Fd
  epollin : Bool
  epollhup : Bool
  epollerr : Bool
  deriving DecidableEq, Repr

/-- `opening` is at the `open` of an argument and `adding` at the `epoll_ctl` of its descriptor, each with
    the arguments behind it. -/
inductive Pc where
  | start
  | creating
  | opening (path : CString) (paths : List CString)
  | adding (fd : Fd) (paths : List CString)
  | waiting
  | handling (events : List Event)
  | exited (status : ExitStatus)

/-- `opened` lists what `open` has returned, with the file behind it, and `closes` the events that have led to a
    `close`. -/
structure State where
  pc : Pc
  table : Descriptors Object
  monitored : List Fd
  numOpenFds : Int
  streams : Nat → Stream
  buf : List Byte
  opened : List (Fd × Nat)
  closes : List Event

inductive Action where
  | deliver (inode : Nat) (bytes : List Byte)
  | hangup (inode : Nat)
  | fail (inode : Nat)
  | opened (inode : Nat)
  | report (batch : List Event)
  | process (outcome : Outcome)
  deriving DecidableEq

namespace State

def goto (s : State) (pc : Pc) : State := { s with pc }

def setStream (s : State) (inode : Nat) (f : Stream) : State :=
  { s with streams := Function.update s.streams inode f }

def fileOf (s : State) (fd : Fd) : Option Nat :=
  (s.table.file fd).bind fun
    | .file inode => some inode
    | .epoll => none

end State

def help : List Byte := [45, 45, 104, 101, 108, 112]

variable (argv : List CString)

def argc : Int := argv.length

def checkUsage (s : State) : State :=
  match argv with
  | _ :: file :: _ => s.goto (if file.1 = help then .exited .failure else .creating)
  | _ => s.goto (.exited .failure)

def nextArgument (s : State) : List CString → State
  | path :: paths => s.goto (.opening path paths)
  | [] => { s.goto .waiting with numOpenFds := argc argv - 1 }

def createEpoll (s : State) : State := { s with table := s.table.install s.table.lowest .epoll }

def createStep (s : State) (outcome : Outcome) : Option State :=
  match outcome with
  | .done => some (nextArgument argv (createEpoll s) argv)
  | .error _ => some (s.goto (.exited .failure))
  | .count _ => none

def openFile (s : State) (inode : Nat) (paths : List CString) : State :=
  { s with
    pc := .adding s.table.lowest paths
    table := s.table.install s.table.lowest (.file inode)
    opened := s.opened ++ [(s.table.lowest, inode)] }

def openStep (s : State) (inode : Nat) : Option State :=
  match s.pc with
  | .opening _ paths => some (openFile s inode paths)
  | _ => none

def monitor (s : State) (fd : Fd) : State := { s with monitored := s.monitored ++ [fd] }

def addStep (s : State) (fd : Fd) (paths : List CString) (outcome : Outcome) : Option State :=
  match outcome with
  | .done => some (nextArgument argv (monitor s fd) paths)
  | .error _ => some (s.goto (.exited .failure))
  | .count _ => none

/-- What `epoll_wait` may say of a descriptor: input that is there is always reported, and an end only where it
    has come. -/
def Reportable (s : State) (e : Event) : Prop :=
  e.fd ∈ s.monitored ∧ (e.epollin || e.epollhup || e.epollerr) = true ∧
    ∃ inode ∈ s.fileOf e.fd, ((s.streams inode).pending ≠ [] → e.epollin = true) ∧
      (e.epollhup = true → (s.streams inode).hungUp = true) ∧
      (e.epollerr = true → (s.streams inode).failed = true)

instance (s : State) (e : Event) : Decidable (Reportable s e) := inferInstanceAs (Decidable (_ ∧ _ ∧ ∃ _, _ ∧ _))

def reportStep (s : State) (batch : List Event) : Option State :=
  match s.pc with
  | .waiting =>
    if 0 < s.numOpenFds ∧ batch ≠ [] ∧ batch.length ≤ MAX_EVENTS ∧ (batch.map (·.fd)).Nodup ∧
        ∀ e ∈ batch, Reportable s e then
      some (s.goto (.handling batch))
    else none
  | _ => none

def waitStep (s : State) (outcome : Outcome) : Option State :=
  if 0 < s.numOpenFds then
    match outcome with
    | .error errno => some (if errno = .EINTR then s else s.goto (.exited .failure))
    | _ => none
  else
    match outcome with
    | .done => some (s.goto (.exited .success))
    | _ => none

def ReadCount (f : Stream) (n : Nat) : Prop :=
  n ≤ MAX_BUF ∧ n ≤ f.pending.length ∧ (n = 0 → f.pending = [])

instance (f : Stream) (n : Nat) : Decidable (ReadCount f n) := inferInstanceAs (Decidable (_ ∧ _ ∧ (_ → _)))

def Stream.afterRead (f : Stream) (n : Nat) (buf : List Byte) : Stream :=
  { f with
    pending := f.pending.drop n
    input := f.input ++ f.pending.take n
    printed := f.printed ++ formatString n buf }

def readInput (s : State) (inode n : Nat) (events : List Event) : State :=
  let f := s.streams inode
  let buf := Buffer.overwrite (f.pending.take n) s.buf
  { (s.goto (.handling events)).setStream inode (f.afterRead n buf) with buf }

def closed (s : State) (e : Event) (events : List Event) : State :=
  { s with
    pc := .handling events
    table := s.table.close e.fd
    monitored := s.monitored.erase e.fd
    numOpenFds := s.numOpenFds - 1
    closes := s.closes ++ [e] }

def handleStep (s : State) (e : Event) (events : List Event) (outcome : Outcome) : Option State :=
  if e.epollin = true then
    match outcome, s.fileOf e.fd with
    | .count n, some inode =>
      if ReadCount (s.streams inode) n then some (readInput s inode n events) else none
    | .error _, _ => some (s.goto (.exited .failure))
    | _, _ => none
  else if e.epollhup = true ∨ e.epollerr = true then
    match outcome with
    | .done => some (closed s e events)
    | .error _ => some { s.goto (.exited .failure) with closes := s.closes ++ [e] }
    | .count _ => none
  else
    match outcome with
    | .done => some (s.goto (.handling events))
    | _ => none

def processStep (s : State) (outcome : Outcome) : Option State :=
  match s.pc with
  | .start =>
    match outcome with
    | .done => some (checkUsage argv s)
    | _ => none
  | .creating => createStep argv s outcome
  | .opening _ _ =>
    match outcome with
    | .error _ => some (s.goto (.exited .failure))
    | _ => none
  | .adding fd paths => addStep argv s fd paths outcome
  | .waiting => waitStep s outcome
  | .handling [] =>
    match outcome with
    | .done => some (s.goto .waiting)
    | _ => none
  | .handling (e :: events) => handleStep s e events outcome
  | .exited _ => none

def step (s : State) : Action → Option State
  | .deliver inode bytes =>
    if (s.streams inode).Ended then none
    else
      some (s.setStream inode { s.streams inode with
        delivered := (s.streams inode).delivered ++ bytes
        pending := (s.streams inode).pending ++ bytes })
  | .hangup inode => some (s.setStream inode { s.streams inode with hungUp := true })
  | .fail inode => some (s.setStream inode { s.streams inode with failed := true })
  | .opened inode => openStep s inode
  | .report batch => reportStep s batch
  | .process outcome => processStep argv s outcome

def initial (table : Descriptors Object) (numOpenFds : Int) (buf : List Byte) : State where
  pc := .start
  table := table
  monitored := []
  numOpenFds := numOpenFds
  streams := fun _ => .empty
  buf := buf
  opened := []
  closes := []

end SystemProgramming.EpollInput
