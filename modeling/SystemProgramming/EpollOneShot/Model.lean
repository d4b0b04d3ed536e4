import Mathlib.Logic.Function.Basic
import Mathlib.Tactic.Common
import SystemProgramming.Kernel
import SystemProgramming.Library.Transition

namespace SystemProgramming.EpollOneShot

def MAX_EVENT_NUMBER : Nat := 1024
def BUFFER_SIZE : Nat := 1024

abbrev Fd := Nat

structure Event where
  fd : Fd
  epollin : Bool
  deriving DecidableEq

inductive MainPc where
  | waiting
  | dispatching (events : List Event)
  | adding (cfd : Fd) (events : List Event)
  | creating (fd : Fd) (events : List Event)
  | aborted
  deriving DecidableEq

inductive WorkerPc where
  | starting
  | receiving
  | closing
  | resetting
  | finished
  deriving DecidableEq, Repr

/-- `event` is the socket whose event the worker was created for; no statement looks at it. -/
structure Worker where
  event : Fd
  sockfd : Option Fd
  pc : WorkerPc
  deriving DecidableEq

/-- `slot` is the field `sockfd` of `fds_new`, of which `main` has only one. `reported` lists the
    readable sockets that `epoll_wait` has reported; no statement looks at it. -/
structure State where
  main : MainPc
  isOpen : Fd → Bool
  armed : Fd → Bool
  slot : Option Fd
  workers : List Worker
  reported : List Fd

inductive Action where
  | report (batch : List Event)
  | main (outcome : Outcome)
  | worker (index : Nat) (outcome : Outcome)

variable (lfd : Fd)

def Event.Readable (e : Event) : Prop := e.fd ≠ lfd ∧ e.epollin = true

instance (e : Event) : Decidable (e.Readable lfd) := inferInstanceAs (Decidable (_ ∧ _))

def toServe (events : List Event) : List Fd := (events.filter fun e => e.Readable lfd).map (·.fd)

def reportStep (s : State) (batch : List Event) : Option State :=
  match s.main with
  | .waiting =>
    if batch ≠ [] ∧ batch.length ≤ MAX_EVENT_NUMBER ∧ (batch.map (·.fd)).Nodup ∧
        ∀ e ∈ batch, e.fd = lfd ∨ s.armed e.fd = true then
      some { s with
        main := .dispatching batch
        armed := fun fd => s.armed fd && !decide (fd ∈ batch.map (·.fd))
        reported := s.reported ++ toServe lfd batch }
    else none
  | _ => none

def mainStep (s : State) (outcome : Outcome) : Option State :=
  match s.main with
  | .waiting =>
    match outcome with
    | .error _ => some { s with main := .aborted }
    | _ => none
  | .dispatching [] =>
    match outcome with
    | .done => some { s with main := .waiting }
    | _ => none
  | .dispatching (e :: events) =>
    if e.fd = lfd then
      match outcome with
      | .count cfd =>
        if s.isOpen cfd = false then
          some { s with main := .adding cfd events, isOpen := Function.update s.isOpen cfd true }
        else none
      | .error _ => some { s with main := .dispatching events }
      | .done => none
    else if e.epollin = true then
      match outcome with
      | .done => some { s with main := .creating e.fd events, slot := some e.fd }
      | _ => none
    else
      match outcome with
      | .done => some { s with main := .dispatching events }
      | _ => none
  | .adding cfd events =>
    match outcome with
    | .done => some { s with main := .dispatching events, armed := Function.update s.armed cfd true }
    | .error _ => some { s with main := .dispatching events }
    | .count _ => none
  | .creating fd events =>
    match outcome with
    | .done => some { s with
        main := .dispatching events, workers := s.workers ++ [⟨fd, none, .starting⟩] }
    | .error _ => some { s with main := .dispatching events }
    | .count _ => none
  | .aborted => none

namespace State

def setWorker (s : State) (index : Nat) (w : Worker) : State :=
  { s with workers := s.workers.set index w }

end State

def workerStep (s : State) (index : Nat) (outcome : Outcome) : Option State :=
  s.workers[index]?.bind fun w =>
    let goto (pc : WorkerPc) := s.setWorker index { w with pc }
    match w.pc, w.sockfd with
    | .starting, _ =>
      match outcome with
      | .done => some (s.setWorker index { w with sockfd := s.slot, pc := .receiving })
      | _ => none
    | .receiving, some sockfd =>
      match outcome with
      | .count n =>
        if s.isOpen sockfd = true ∧ n ≤ BUFFER_SIZE - 1 then
          some (goto (if n = 0 then .closing else .receiving))
        else none
      | .error errno =>
        if errno = .EAGAIN then
          if s.isOpen sockfd = true then some (goto .resetting) else none
        else some (goto .receiving)
      | .done => none
    | .closing, some sockfd =>
      match outcome with
      | .done => some { goto .receiving with
          isOpen := Function.update s.isOpen sockfd false
          armed := Function.update s.armed sockfd false }
      | .error _ => some (goto .receiving)
      | .count _ => none
    | .resetting, some sockfd =>
      match outcome with
      | .done => some { goto .finished with
          armed := Function.update s.armed sockfd (s.isOpen sockfd) }
      | .error _ => some (goto .finished)
      | .count _ => none
    | _, _ => none

def step (s : State) : Action → Option State
  | .report batch => reportStep lfd s batch
  | .main outcome => mainStep lfd s outcome
  | .worker index outcome => workerStep s index outcome

def initial : State where
  main := .waiting
  isOpen := fun fd => decide (fd = lfd)
  armed := fun _ => false
  slot := none
  workers := []
  reported := []

end SystemProgramming.EpollOneShot
