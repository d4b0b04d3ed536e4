import SystemProgramming.Kernel
import SystemProgramming.Library.Buffer
import SystemProgramming.Library.Transition

namespace SystemProgramming.EpollLtEt

def MAX_EVENT_NUMBER : Nat := 1024
def BUF_SIZE : Nat := 10

def O_RDWR : Nat := 2
def O_NONBLOCK : Nat := 2048

/-- The flags that are returned; there is no `F_SETFL`. -/
def setNonblocking (option : Nat) : Nat := option ||| O_NONBLOCK

def addFd (flags : Nat) : Nat :=
  let _option := setNonblocking flags
  flags

inductive Source where
  | listener
  | connection
  deriving DecidableEq, Repr

structure Event where
  source : Source
  epollin : Bool
  deriving DecidableEq, Repr

inductive Line where
  | triggered
  | content (ret : Int) (text : List Byte)
  | allRead
  | wrong
  deriving DecidableEq, Repr

inductive Pc where
  | waiting
  | handling (events : List Event)
  | receiving (events : List Event)
  | closing (events : List Event)
  deriving DecidableEq, Repr

inductive Handler where
  | lt
  | et
  deriving DecidableEq, Repr

/-- `pending` is what has arrived and is not read, and `edge` whether something has arrived since the
    last report. -/
structure State where
  pc : Pc
  flags : Nat
  isOpen : Bool
  pending : List Byte
  peerClosed : Bool
  edge : Bool
  errno : Errno
  buf : List Byte
  closes : Nat
  stdout : List Line

inductive Action where
  | data (bytes : List Byte)
  | hangup
  | report (batch : List Event)
  | handler (outcome : Outcome)

def zeros : List Byte := List.replicate BUF_SIZE 0

def Ready (handler : Handler) (s : State) : Prop :=
  s.isOpen = true ∧
    match handler with
    | .lt => s.pending ≠ [] ∨ s.peerClosed = true
    | .et => s.edge = true

instance (handler : Handler) (s : State) : Decidable (Ready handler s) :=
  match handler with
  | .lt => inferInstanceAs (Decidable (s.isOpen = true ∧ (s.pending ≠ [] ∨ s.peerClosed = true)))
  | .et => inferInstanceAs (Decidable (s.isOpen = true ∧ s.edge = true))

def reportStep (handler : Handler) (s : State) (batch : List Event) : Option State :=
  match s.pc with
  | .waiting =>
    if batch ≠ [] ∧ batch.length ≤ MAX_EVENT_NUMBER ∧ (batch.map Event.source).Nodup ∧
        (.connection ∈ batch.map Event.source → Ready handler s) then
      some { s with
        pc := .handling batch
        edge := s.edge && !decide (.connection ∈ batch.map Event.source) }
    else none
  | _ => none

def RecvCount (s : State) (n : Nat) : Prop :=
  s.isOpen = true ∧ n ≤ BUF_SIZE - 1 ∧ n ≤ s.pending.length ∧
    (n = 0 → s.pending = [] ∧ s.peerClosed = true)

instance (s : State) (n : Nat) : Decidable (RecvCount s n) :=
  inferInstanceAs (Decidable (_ ∧ _ ∧ _ ∧ (_ → _)))

/-- A `recv` with nothing to return blocks, unless the descriptor has been made non-blocking. -/
def RecvErrno (s : State) (errno : Errno) : Prop :=
  errno = .EAGAIN →
    s.flags &&& O_NONBLOCK ≠ 0 ∧ s.isOpen = true ∧ s.pending = [] ∧ s.peerClosed = false

instance (s : State) (errno : Errno) : Decidable (RecvErrno s errno) :=
  inferInstanceAs (Decidable (_ → _))

def received (s : State) (n : Nat) : State :=
  { s with buf := Buffer.overwrite (s.pending.take n) s.buf, pending := s.pending.drop n }

def printContent (s : State) (ret : Int) : State :=
  { s with stdout := s.stdout ++ [.content ret (formatString (-1) s.buf)] }

def ltReceive (s : State) (events : List Event) (outcome : Outcome) : Option State :=
  match outcome with
  | .count n =>
    if RecvCount s n then
      some (if n ≠ 0 then { printContent (received s n) n with pc := .handling events }
        else { received s n with pc := .closing events })
    else none
  | .error errno =>
    if RecvErrno s errno then some { printContent s (-1) with pc := .handling events, errno }
    else none
  | .done => none

/-- What `et` does where `ret <= 0`; the loop goes on if `errno` says something else. -/
def checkErrno (s : State) (events : List Event) : State :=
  if s.errno = .EAGAIN then { s with pc := .handling events, stdout := s.stdout ++ [.allRead] }
  else { s with pc := .receiving events }

def etReceive (s : State) (events : List Event) (outcome : Outcome) : Option State :=
  match outcome with
  | .count n =>
    if RecvCount s n then
      some (if n = 0 then checkErrno (received s n) events
        -- `ret = 0` is an assignment, so there is no `close` and the count that is printed is 0.
        else { printContent (received s n) 0 with pc := .receiving events })
    else none
  | .error errno =>
    if RecvErrno s errno then some (checkErrno { s with errno } events) else none
  | .done => none

def handlerStep (handler : Handler) (s : State) (outcome : Outcome) : Option State :=
  match s.pc with
  | .waiting => none
  | .handling [] =>
    match outcome with
    | .done => some { s with pc := .waiting }
    | _ => none
  | .handling (⟨.listener, _⟩ :: events) =>
    match outcome with
    | .count _ => some { s with pc := .handling events }
    | .error errno => some { s with pc := .handling events, errno }
    | .done => none
  | .handling (⟨.connection, epollin⟩ :: events) =>
    match outcome with
    | .done =>
      some (if epollin = true then
        { s with pc := .receiving events, buf := zeros, stdout := s.stdout ++ [.triggered] }
      else { s with pc := .handling events, stdout := s.stdout ++ [.wrong] })
    | _ => none
  | .receiving events =>
    match handler with
    | .lt => ltReceive s events outcome
    | .et => etReceive s events outcome
  | .closing events =>
    match outcome with
    | .done => some { s with pc := .handling events, isOpen := false, closes := s.closes + 1 }
    | .error _ => some { s with pc := .handling events }
    | .count _ => none

def step (handler : Handler) (s : State) : Action → Option State
  | .data bytes =>
    if s.isOpen = true ∧ s.peerClosed = false ∧ bytes ≠ [] then
      some { s with pending := s.pending ++ bytes, edge := true }
    else none
  | .hangup =>
    if s.isOpen = true ∧ s.peerClosed = false then some { s with peerClosed := true, edge := true }
    else none
  | .report batch => reportStep handler s batch
  | .handler outcome => handlerStep handler s outcome

def initial (errno : Errno) : State where
  pc := .waiting
  flags := addFd O_RDWR
  isOpen := true
  pending := []
  peerClosed := false
  edge := false
  errno := errno
  buf := zeros
  closes := 0
  stdout := []

end SystemProgramming.EpollLtEt
