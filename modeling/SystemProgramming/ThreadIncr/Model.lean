import Mathlib.Logic.Function.Basic
import Mathlib.Tactic.Common
import SystemProgramming.Kernel
import SystemProgramming.Library.Transition

namespace SystemProgramming.ThreadIncr

inductive Tid where
  | t1
  | t2
  deriving DecidableEq, Repr

inductive ThreadPc where
  | start
  | test
  | lock
  | load
  | add
  | store
  | unlock
  | next
  | returned
  deriving DecidableEq, Repr

structure Thread where
  pc : ThreadPc
  loops : BitVec 32
  j : BitVec 32
  loc : BitVec 32
  deriving DecidableEq

inductive MainPc where
  | create (i : Tid)
  | join (i : Tid)
  | print
  | exited (status : ExitStatus)
  deriving DecidableEq, Repr

structure State where
  main : MainPc
  loops : BitVec 32
  glob : BitVec 32
  owner : Option Tid
  threads : Tid → Option Thread
  stdout : List (BitVec 32)

inductive Action where
  | main (outcome : Outcome)
  | thread (i : Tid)

namespace State

def setThread (s : State) (i : Tid) (th : Thread) : State :=
  { s with threads := Function.update s.threads i (some th) }

def hasReturned (s : State) (i : Tid) : Bool := (s.threads i).any fun th => th.pc = .returned

end State

def threadStep (s : State) (i : Tid) : Option State :=
  (s.threads i).bind fun th =>
    match th.pc with
    | .start => some (s.setThread i { th with pc := .test, loops := s.loops, j := 0 })
    | .test => some (s.setThread i { th with pc := if th.j.slt th.loops = true then .lock else .returned })
    | .lock =>
      if s.owner = none then some { s.setThread i { th with pc := .load } with owner := some i } else none
    | .load => some (s.setThread i { th with pc := .add, loc := s.glob })
    | .add => some (s.setThread i { th with pc := .store, loc := th.loc + 1 })
    | .store => some { s.setThread i { th with pc := .unlock } with glob := th.loc }
    | .unlock => some { s.setThread i { th with pc := .next } with owner := none }
    | .next => some (s.setThread i { th with pc := .test, j := th.j + 1 })
    | .returned => none

def MainPc.afterCreate : Tid → MainPc
  | .t1 => .create .t2
  | .t2 => .join .t1

def MainPc.afterJoin : Tid → MainPc
  | .t1 => .join .t2
  | .t2 => .print

def mainStep (s : State) (outcome : Outcome) : Option State :=
  match s.main, outcome with
  | .create i, .done => some { s.setThread i ⟨.start, 0, 0, 0⟩ with main := .afterCreate i }
  | .create _, .error _ | .join _, .error _ => some { s with main := .exited .failure }
  | .join i, .done => if s.hasReturned i = true then some { s with main := .afterJoin i } else none
  | .print, .done => some { s with main := .exited .success, stdout := s.stdout ++ [s.glob] }
  | _, _ => none

def step (s : State) (action : Action) : Option State :=
  match s.main with
  | .exited _ => none
  | _ =>
    match action with
    | .main outcome => mainStep s outcome
    | .thread i => threadStep s i

def initial (loops : BitVec 32) : State where
  main := .create .t1
  loops := loops
  glob := 0
  owner := none
  threads := fun _ => none
  stdout := []

end SystemProgramming.ThreadIncr
