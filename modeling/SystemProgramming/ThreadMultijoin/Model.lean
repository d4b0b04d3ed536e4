import Mathlib.Data.List.Count
import Mathlib.Logic.Function.Basic
import SystemProgramming.Kernel
import SystemProgramming.Library.Transition

namespace SystemProgramming.ThreadMultijoin

inductive TState where
  | TS_ALIVE
  | TS_TERMINATED
  | TS_JOINED
  deriving DecidableEq, Repr

structure Slot where
  tid : Option Nat
  state : TState
  sleepTime : Int

/-- A thread is known by the number of the `pthread_create` that created it; `idx` is its own copy
    of what `arg` pointed to. -/
inductive ThreadPc where
  | start
  | sleep (idx : Nat)
  | lock (idx : Nat)
  | update (idx : Nat)
  | unlock (idx : Nat)
  | signal (idx : Nat)
  | returned (idx : Nat)
  deriving DecidableEq, Repr

inductive MainPc where
  | usage
  | calloc
  | fill
  | create
  | next
  | totals
  | lock
  | condition
  | wait
  | scan
  | join
  | mark
  | unlock
  | exit
  | exited (status : ExitStatus)
  deriving DecidableEq, Repr

inductive Owner where
  | main
  | thread (i : Nat)
  deriving DecidableEq, Repr

/-- `joined` lists the threads that `pthread_join` has returned for; no statement looks at it. -/
structure State where
  main : MainPc
  idx : Nat
  totThreads : Nat
  numLive : Int
  numUnjoined : Int
  mutex : Option Owner
  thread : List Slot
  threads : Nat → Option ThreadPc
  joined : List Nat

inductive Action where
  | main (outcome : Outcome)
  | thread (i : Nat) (outcome : Outcome)

namespace State

def states (s : State) : List TState := s.thread.map (·.state)

def setPc (s : State) (i : Nat) (pc : ThreadPc) : State :=
  { s with threads := Function.update s.threads i (some pc) }

/-- A write to `thread[idx]`; behind the end of the array it changes no slot. -/
def setSlot (s : State) (idx : Nat) (f : Slot → Slot) : State :=
  { s with thread := s.thread.modify idx f }

def setState (s : State) (idx : Nat) (state : TState) : State :=
  s.setSlot idx fun slot => { slot with state }

end State

def whileLive (numLive : Int) : MainPc := if 0 < numLive then .lock else .unlock

variable (sleepTimes : List Int)

def fillSlot (s : State) : Option State :=
  match sleepTimes[s.idx]? with
  | some sleepTime =>
    some ({ s with main := .create }.setSlot s.idx fun slot =>
      { slot with sleepTime, state := .TS_ALIVE })
  | none => some { s with main := .totals }

def createThread (s : State) : State :=
  { (s.setSlot s.idx fun slot => { slot with tid := some s.idx }).setPc s.idx .start with
    main := .next }

def scanSlot (s : State) : Option State :=
  if s.idx < s.totThreads then
    s.states[s.idx]?.map fun state =>
      { s with main := if state = .TS_TERMINATED then .join else .mark }
  else some { s with main := whileLive s.numLive }

def joinThread (s : State) : Option State :=
  (s.thread[s.idx]?.bind Slot.tid).bind fun i =>
    match s.threads i with
    | some (.returned _) => some { s with main := .mark, joined := s.joined ++ [i] }
    | _ => none

def markSlot (s : State) : State :=
  { s.setState s.idx .TS_JOINED with
    main := .scan
    idx := s.idx + 1
    numLive := s.numLive - 1
    numUnjoined := s.numUnjoined - 1 }

/-- `main`, from the check of `argc` on; `sleepTimes` are the arguments. Every error branch calls
    `exit(EXIT_FAILURE)`. -/
def mainDone (s : State) : Option State :=
  match s.main with
  | .usage => some { s with main := if sleepTimes = [] then .exited .failure else .calloc }
  | .calloc =>
    some { s with
      main := .fill
      idx := 0
      thread := List.replicate sleepTimes.length ⟨none, .TS_ALIVE, 0⟩ }
  | .fill => fillSlot sleepTimes s
  | .create => some (createThread s)
  | .next => some { s with main := .fill, idx := s.idx + 1 }
  | .totals =>
    some { s with
      main := whileLive sleepTimes.length
      totThreads := sleepTimes.length
      numLive := sleepTimes.length }
  | .lock =>
    if s.mutex = none then some { s with main := .condition, mutex := some .main } else none
  | .condition =>
    if s.numLive = 0 then some { s with main := .wait, mutex := none }
    else some { s with main := .scan, idx := 0 }
  | .wait =>
    if s.mutex = none then some { s with main := .condition, mutex := some .main } else none
  | .scan => scanSlot s
  | .join => joinThread s
  | .mark => some (markSlot s)
  | .unlock => some { s with main := .exit, mutex := none }
  | .exit => some { s with main := .exited .success }
  | .exited _ => none

def MainPc.calls : MainPc → Bool
  | .calloc | .create | .lock | .wait | .join | .unlock => true
  | _ => false

def mainStep (s : State) : Outcome → Option State
  | .done => mainDone sleepTimes s
  | .error _ => if s.main.calls = true then some { s with main := .exited .failure } else none
  | .count _ => none

/-- `threadFunc`, the section between lock and unlock as one step. -/
def threadStep (s : State) (i : Nat) (outcome : Outcome) : Option State :=
  match s.threads i, outcome with
  | some .start, .done => some (s.setPc i (.sleep s.idx))
  | some (.sleep idx), .done => some (s.setPc i (.lock idx))
  | some (.lock idx), .done =>
    if s.mutex = none then some { s.setPc i (.update idx) with mutex := some (.thread i) } else none
  | some (.update idx), .done =>
    some { (s.setPc i (.unlock idx)).setState idx .TS_TERMINATED with
      numUnjoined := s.numUnjoined + 1 }
  | some (.unlock idx), .done => some { s.setPc i (.signal idx) with mutex := none }
  | some (.signal idx), .done => some (s.setPc i (.returned idx))
  | some (.lock _), .error _ | some (.unlock _), .error _ | some (.signal _), .error _ =>
    some { s with main := .exited .failure }
  | _, _ => none

def step (s : State) (action : Action) : Option State :=
  match s.main with
  | .exited _ => none
  | _ =>
    match action with
    | .main outcome => mainStep sleepTimes s outcome
    | .thread i outcome => threadStep s i outcome

def initial : State := ⟨.usage, 0, 0, 0, 0, none, [], fun _ => none, []⟩

end SystemProgramming.ThreadMultijoin
