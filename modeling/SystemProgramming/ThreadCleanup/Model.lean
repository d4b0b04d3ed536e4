import Mathlib.Tactic.Common
import SystemProgramming.Kernel
import SystemProgramming.Library.Transition

namespace SystemProgramming.ThreadCleanup

inductive Line where
  | allocatedMemory
  | freeingBlock
  | unlockingMutex
  | waitLoopCompleted
  | aboutToCancel
  | aboutToSignal
  | wasCanceled
  | terminatedNormally
  deriving DecidableEq, Repr

inductive HandlerPc where
  | printFree
  | free
  | printUnlock
  | unlock
  deriving DecidableEq, Repr

/-- `woken` is on the way out of `pthread_cond_wait`, before it has the mutex again. The flag of it and of
    the handler says whether a cancellation is being acted upon. -/
inductive ThreadPc where
  | malloc
  | printAlloc
  | lock
  | push
  | test
  | wait
  | blocked
  | woken (cancelled : Bool)
  | printDone
  | handler (pc : HandlerPc) (cancelled : Bool)
  | terminated (cancelled : Bool)
  deriving DecidableEq, Repr

inductive MainPc where
  | create
  | sleep
  | printCancel
  | cancel
  | printSignal
  | assign
  | signal
  | join
  | report (cancelled : Bool)
  | exited (status : ExitStatus)
  deriving DecidableEq, Repr

structure State where
  main : MainPc
  thread : Option ThreadPc
  glob : Int
  locked : Bool
  pending : Bool
  allocated : Bool
  frees : Nat
  stdout : List Line
  deriving DecidableEq

inductive Action where
  | main (outcome : Outcome)
  | thread (outcome : Outcome)

namespace State

def goto (s : State) (pc : ThreadPc) : State := { s with thread := some pc }

def print (s : State) (line : Line) : State := { s with stdout := s.stdout ++ [line] }

end State

/-- `cleanHandler`. While a cancellation is acted upon its calls are no cancellation points; run by
    `pthread_cleanup_pop` they are, and the handler is not registered any more. -/
def handlerDone (s : State) (pc : HandlerPc) (cancelled : Bool) : State :=
  match pc with
  | .printFree =>
    if s.pending = true ∧ cancelled = false then s.goto (.terminated true)
    else (s.print .freeingBlock).goto (.handler .free cancelled)
  | .free =>
    { s.goto (.handler .printUnlock cancelled) with
      frees := if s.allocated = true then s.frees + 1 else s.frees }
  | .printUnlock =>
    if s.pending = true ∧ cancelled = false then s.goto (.terminated true)
    else (s.print .unlockingMutex).goto (.handler .unlock cancelled)
  | .unlock => { s.goto (.terminated cancelled) with locked := false }

/-- `threadFunc`. A cancellation point with a pending cancellation runs the handlers that are registered,
    and `pthread_cond_wait` takes the mutex back before it does. Its other wake-ups may be spurious. -/
def threadDone (s : State) (pc : ThreadPc) : Option State :=
  match pc with
  | .malloc => some { s.goto .printAlloc with allocated := true }
  | .printAlloc =>
    if s.pending = true then some (s.goto (.terminated true))
    else some ((s.print .allocatedMemory).goto .lock)
  | .lock => if s.locked = false then some { s.goto .push with locked := true } else none
  | .push => some (s.goto .test)
  | .test => some (s.goto (if s.glob = 0 then .wait else .printDone))
  | .wait =>
    if s.pending = true then some (s.goto (.handler .printFree true))
    else some { s.goto .blocked with locked := false }
  | .blocked => some (s.goto (.woken s.pending))
  | .woken cancelled =>
    if s.locked = false then
      some { s.goto (if cancelled then .handler .printFree true else .test) with locked := true }
    else none
  | .printDone =>
    if s.pending = true then some (s.goto (.handler .printFree true))
    else some ((s.print .waitLoopCompleted).goto (.handler .printFree false))
  | .handler pc cancelled => some (handlerDone s pc cancelled)
  | .terminated _ => none

def ThreadPc.checks : ThreadPc → Bool
  | .lock | .wait | .handler .unlock _ => true
  | _ => false

/-- A failed `malloc` is not looked at; every other call that fails ends in `exit(EXIT_FAILURE)`. -/
def threadStep (s : State) (outcome : Outcome) : Option State :=
  s.thread.bind fun pc =>
    match outcome with
    | .done => threadDone s pc
    | .error _ =>
      if pc = .malloc then some (s.goto .printAlloc)
      else if pc.checks = true then some { s with main := .exited .failure }
      else none
    | .count _ => none

def wake (thread : Option ThreadPc) : Option ThreadPc :=
  thread.map fun pc => if pc = .blocked then .woken false else pc

def mainDone (argc : Nat) (s : State) : Option State :=
  match s.main with
  | .create => some { s.goto .malloc with main := .sleep }
  | .sleep => some { s with main := if argc = 1 then .printCancel else .printSignal }
  | .printCancel => some { s.print .aboutToCancel with main := .cancel }
  | .cancel => some { s with main := .join, pending := true }
  | .printSignal => some { s.print .aboutToSignal with main := .assign }
  | .assign => some { s with main := .signal, glob := 1 }
  | .signal => some { s with main := .join, thread := wake s.thread }
  | .join =>
    match s.thread with
    | some (.terminated cancelled) => some { s with main := .report cancelled }
    | _ => none
  | .report cancelled =>
    some { s.print (if cancelled then .wasCanceled else .terminatedNormally) with main := .exited .success }
  | .exited _ => none

/-- The `s` that is tested after `pthread_cond_signal` is the one of `pthread_create`. -/
def MainPc.checks : MainPc → Bool
  | .create | .cancel | .join => true
  | _ => false

def mainStep (argc : Nat) (s : State) : Outcome → Option State
  | .done => mainDone argc s
  | .error _ => if s.main.checks = true then some { s with main := .exited .failure } else none
  | .count _ => none

def step (argc : Nat) (s : State) (action : Action) : Option State :=
  match s.main with
  | .exited _ => none
  | _ =>
    match action with
    | .main outcome => mainStep argc s outcome
    | .thread outcome => threadStep s outcome

def initial : State where
  main := .create
  thread := none
  glob := 0
  locked := false
  pending := false
  allocated := false
  frees := 0
  stdout := []

end SystemProgramming.ThreadCleanup
