import SystemProgramming.Kernel
import SystemProgramming.Library.Holders
import SystemProgramming.Library.Transition

namespace SystemProgramming.MultiWait

def ECHILD : Errno := .other 10

/-- The last two are for a process that has exited, before and after its parent has waited for it. -/
inductive Pc where
  | usage
  | fork
  | sleep
  | wait
  | zombie (status : ExitStatus)
  | reaped (status : ExitStatus)
  deriving DecidableEq, Repr

structure Process where
  parent : Option Nat
  pc : Pc
  j : Nat
  numDead : Nat
  deriving DecidableEq

def Pc.isReaped : Pc → Bool
  | .reaped _ => true
  | _ => false

def Pc.live : Pc → Bool
  | .zombie _ | .reaped _ => false
  | _ => true

abbrev State := List Process

inductive Action where
  | run (pid : Nat) (outcome : Outcome)
  | reap (pid child : Nat)

namespace Process

def unreapedChildOf (pid : Nat) (p : Process) : Bool := p.parent = some pid ∧ p.pc.isReaped = false

end Process

variable (sleepTimes : List Int)

def argc : Nat := sleepTimes.length + 1

/-- One statement of a process. The child of a `fork` starts as a copy of its parent; it sleeps and
    then leaves the `switch` like the parent. -/
def runProcess (s : State) (pid : Nat) (p : Process) (outcome : Outcome) : Option State :=
  match p.pc, outcome with
  | .usage, .done =>
    if argc sleepTimes < 2 then some (s.set pid { p with pc := .zombie .failure })
    else some (s.set pid { p with pc := .fork, j := 0 })
  | .fork, .done =>
    if p.j < argc sleepTimes then
      some (s.set pid { p with j := p.j + 1 } ++ [{ p with parent := some pid, pc := .sleep }])
    else some (s.set pid { p with pc := .wait, numDead := 0 })
  | .fork, .error _ =>
    if p.j < argc sleepTimes then some (s.set pid { p with pc := .zombie .failure }) else none
  | .sleep, .done => some (s.set pid { p with pc := .fork, j := p.j + 1 })
  | .wait, .error errno =>
    if errno = ECHILD then
      if s.any (Process.unreapedChildOf pid) = true then none
      else some (s.set pid { p with pc := .zombie .success })
    else some (s.set pid { p with pc := .zombie .failure })
  | _, _ => none

def reapChild (s : State) (pid child : Nat) (p c : Process) : Option State :=
  match p.pc, c.pc with
  | .wait, .zombie status =>
    if c.parent = some pid then
      some ((s.set child { c with pc := .reaped status }).set pid { p with numDead := p.numDead + 1 })
    else none
  | _, _ => none

def step (s : State) : Action → Option State
  | .run pid outcome => s[pid]?.bind fun p => runProcess sleepTimes s pid p outcome
  | .reap pid child => s[pid]?.bind fun p => s[child]?.bind fun c => reapChild s pid child p c

def initial : State := [⟨none, .usage, 0, 0⟩]

def ForksSucceed (s : State) : Action → Prop
  | .run pid (.error errno) => ∀ p ∈ s[pid]?, p.pc = .wait ∧ errno = ECHILD
  | _ => True

instance (s : State) : (action : Action) → Decidable (ForksSucceed s action)
  | .run pid (.error errno) => inferInstanceAs (Decidable (∀ p ∈ s[pid]?, p.pc = .wait ∧ errno = ECHILD))
  | .run _ .done | .run _ (.count _) | .reap _ _ => isTrue trivial

def Done (s : State) : Prop := ∃ p, s[0]? = some p ∧ p.pc.live = false

/-- One process for each sleep time, none of which forks, and all of which are waited for. -/
structure OneForEach (n : Nat) (s : State) : Prop where
  created : s.length = n + 1
  childless : ∀ p ∈ s, p.parent = none ∨ p.parent = some 0
  numDead : ∀ p, s[0]? = some p → p.pc = .zombie .success → p.numDead = n

inductive Move (s : State) : State → Prop where
  | refused (pid : Nat) (p : Process) (here : s[pid]? = some p) (at_ : p.pc = .usage)
      (few : argc sleepTimes < 2) : Move s (s.set pid { p with pc := .zombie .failure })
  | accepted (pid : Nat) (p : Process) (here : s[pid]? = some p) (at_ : p.pc = .usage)
      (enough : 2 ≤ argc sleepTimes) : Move s (s.set pid { p with pc := .fork, j := 0 })
  | forked (pid : Nat) (p : Process) (here : s[pid]? = some p) (at_ : p.pc = .fork)
      (more : p.j < argc sleepTimes) :
      Move s (s.set pid { p with j := p.j + 1 } ++ [{ p with parent := some pid, pc := .sleep }])
  | forkedAll (pid : Nat) (p : Process) (here : s[pid]? = some p) (at_ : p.pc = .fork)
      (last : argc sleepTimes ≤ p.j) : Move s (s.set pid { p with pc := .wait, numDead := 0 })
  | slept (pid : Nat) (p : Process) (here : s[pid]? = some p) (at_ : p.pc = .sleep) :
      Move s (s.set pid { p with pc := .fork, j := p.j + 1 })
  | finished (pid : Nat) (p : Process) (here : s[pid]? = some p) (at_ : p.pc = .wait)
      (alone : ∀ c ∈ s, c.unreapedChildOf pid = false) :
      Move s (s.set pid { p with pc := .zombie .success })
  | reaped (pid child : Nat) (p c : Process) (status : ExitStatus) (here : s[pid]? = some p)
      (there : s[child]? = some c) (at_ : p.pc = .wait) (dead : c.pc = .zombie status)
      (own : c.parent = some pid) :
      Move s ((s.set child { c with pc := .reaped status }).set pid
        { p with numDead := p.numDead + 1 })

variable {sleepTimes}

theorem runProcess_moves {s t : State} {pid : Nat} {p : Process} {outcome : Outcome}
    (here : s[pid]? = some p) (succeed : ForksSucceed s (.run pid outcome))
    (taken : runProcess sleepTimes s pid p outcome = some t) : Move sleepTimes s t := by
  unfold runProcess at taken
  split at taken
  case h_1 at_ =>
    split at taken
    · rename_i few
      cases taken
      exact .refused pid p here at_ few
    · rename_i enough
      cases taken
      exact .accepted pid p here at_ (Nat.le_of_not_lt enough)
  case h_2 at_ =>
    split at taken
    · rename_i more
      cases taken
      exact .forked pid p here at_ more
    · rename_i last
      cases taken
      exact .forkedAll pid p here at_ (Nat.le_of_not_lt last)
  case h_3 errno at_ =>
    have waits := (succeed p here).1
    rw [at_] at waits
    cases waits
  case h_4 at_ =>
    cases taken
    exact .slept pid p here at_
  case h_5 errno at_ =>
    rw [(succeed p here).2, if_pos rfl] at taken
    split at taken
    · cases taken
    · rename_i alone
      cases taken
      apply Move.finished pid p here at_
      intro c member
      rw [Bool.not_eq_true, List.any_eq_false] at alone
      exact (Bool.not_eq_true _).mp (alone c member)
  case h_6 => cases taken

theorem step_moves {s t : State} {action : Action} (succeed : ForksSucceed s action)
    (taken : step sleepTimes s action = some t) : Move sleepTimes s t := by
  cases action with
  | run pid outcome =>
    rcases Option.bind_eq_some_iff.mp taken with ⟨p, here, ran⟩
    exact runProcess_moves here succeed ran
  | reap pid child =>
    rcases Option.bind_eq_some_iff.mp taken with ⟨p, here, rest⟩
    rcases Option.bind_eq_some_iff.mp rest with ⟨c, there, reaped⟩
    unfold reapChild at reaped
    split at reaped
    · rename_i status at_ dead
      split at reaped
      · rename_i own
        cases reaped
        exact .reaped pid child p c status here there at_ dead own
      · cases reaped
    · cases reaped

end SystemProgramming.MultiWait
