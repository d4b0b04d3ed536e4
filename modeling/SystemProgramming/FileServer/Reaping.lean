import Mathlib.Data.List.Count
import SystemProgramming.Kernel
import SystemProgramming.Library.Transition

namespace SystemProgramming.FileServer

open Transition

inductive ChildStatus where
  | running
  | zombie
  | reaped
  deriving DecidableEq, Repr

inductive MainPc where
  | sigaction
  | msgget
  | msgrcv
  | fork
  | msgctl
  | exited (status : ExitStatus)
  deriving DecidableEq, Repr

inductive ReaperPc where
  | save
  | waitpid (savedErrno : Errno)
  | restore (savedErrno : Errno)
  deriving DecidableEq, Repr

/-- The server process as its signal handler sees it. A child is known by the number of the `fork`
    that created it; `reaps` lists what `waitpid` has returned, and no statement looks at it. -/
structure Process where
  main : MainPc
  grimReaper : Option ReaperPc
  pending : Bool
  errno : Errno
  children : List ChildStatus
  reaps : List Nat
  deriving DecidableEq

namespace Process

inductive Action where
  | main (outcome : Outcome)
  | deliver
  | save
  | waitpid (found : Option Nat) (errno : Errno)
  | restore
  | terminate (child : Nat)
  | stop (child : Nat)

def mainStep (s : Process) (outcome : Outcome) : Option Process :=
  match s.grimReaper with
  | some _ => none
  | none =>
    match s.main, outcome with
    | .sigaction, .done => some { s with main := .msgget }
    | .sigaction, .error errno => some { s with main := .exited .failure, errno }
    | .msgget, .done => some { s with main := .msgrcv }
    | .msgget, .error errno => some { s with main := .exited .failure, errno }
    | .msgrcv, .done => some { s with main := .fork }
    | .msgrcv, .error errno =>
      some { s with main := if errno = .EINTR then .msgrcv else .msgctl, errno }
    | .fork, .done => some { s with main := .msgrcv, children := s.children ++ [.running] }
    | .fork, .error errno => some { s with main := .msgrcv, errno }
    | .msgctl, .done => some { s with main := .exited .success }
    | .msgctl, .error errno => some { s with main := .exited .success, errno }
    | _, _ => none

/-- `waitpid(-1, NULL, WNOHANG)` finds any zombie there is, and may leave anything in `errno`. -/
def waitpidStep (s : Process) (savedErrno : Errno) (found : Option Nat) (errno : Errno) :
    Option Process :=
  match found with
  | some child =>
    if s.children[child]? = some .zombie then
      some { s with children := s.children.set child .reaped, reaps := s.reaps ++ [child], errno }
    else none
  | none =>
    if .zombie ∈ s.children then none
    else some { s with grimReaper := some (.restore savedErrno), errno }

def reaperStep (s : Process) : Action → Option Process
  | .save =>
    match s.grimReaper with
    | some .save => some { s with grimReaper := some (.waitpid s.errno) }
    | _ => none
  | .waitpid found errno =>
    match s.grimReaper with
    | some (.waitpid savedErrno) => s.waitpidStep savedErrno found errno
    | _ => none
  | .restore =>
    match s.grimReaper with
    | some (.restore savedErrno) => some { s with grimReaper := none, errno := savedErrno }
    | _ => none
  | _ => none

/-- A child that terminates, or is stopped, sends `SIGCHLD`; the signal is blocked while its handler
    runs, and signals that are blocked are not counted. -/
def step (s : Process) (action : Action) : Option Process :=
  match s.main with
  | .exited _ => none
  | _ =>
    match action with
    | .main outcome => s.mainStep outcome
    | .deliver =>
      if s.pending = true ∧ s.grimReaper = none then
        some { s with pending := false, grimReaper := some .save }
      else none
    | .terminate child =>
      if s.children[child]? = some .running then
        some { s with pending := true, children := s.children.set child .zombie }
      else none
    | .stop child =>
      if s.children[child]? = some .running then some { s with pending := true } else none
    | reaper => s.reaperStep reaper

def initial : Process := ⟨.sigaction, none, false, .other 0, [], []⟩

inductive Move (s : Process) : Action → Process → Prop where
  | went (outcome : Outcome) (pc : MainPc) (errno : Errno) (off : s.grimReaper = none) :
      Move s (.main outcome) { s with main := pc, errno }
  | forked (off : s.grimReaper = none) :
      Move s (.main .done) { s with main := .msgrcv, children := s.children ++ [.running] }
  | delivered (raised : s.pending = true) (off : s.grimReaper = none) :
      Move s .deliver { s with pending := false, grimReaper := some .save }
  | saved (at_ : s.grimReaper = some .save) :
      Move s .save { s with grimReaper := some (.waitpid s.errno) }
  | reaped (savedErrno : Errno) (child : Nat) (errno : Errno)
      (at_ : s.grimReaper = some (.waitpid savedErrno)) (dead : s.children[child]? = some .zombie) :
      Move s (.waitpid (some child) errno)
        { s with children := s.children.set child .reaped, reaps := s.reaps ++ [child], errno }
  | emptied (savedErrno errno : Errno) (at_ : s.grimReaper = some (.waitpid savedErrno))
      (empty : .zombie ∉ s.children) :
      Move s (.waitpid none errno) { s with grimReaper := some (.restore savedErrno), errno }
  | returned (savedErrno : Errno) (at_ : s.grimReaper = some (.restore savedErrno)) :
      Move s .restore { s with grimReaper := none, errno := savedErrno }
  | terminated (child : Nat) (alive : s.children[child]? = some .running) :
      Move s (.terminate child)
        { s with pending := true, children := s.children.set child .zombie }
  | stopped (child : Nat) (alive : s.children[child]? = some .running) :
      Move s (.stop child) { s with pending := true }

theorem mainStep_moves {s t : Process} {outcome : Outcome} (taken : s.mainStep outcome = some t) :
    Move s (.main outcome) t := by
  unfold mainStep at taken
  split at taken
  · cases taken
  · rename_i off
    split at taken
    case h_7 =>
      cases taken
      exact .forked off
    case h_11 => cases taken
    all_goals
      cases taken
      exact .went _ _ _ off

theorem reaperStep_moves {s t : Process} {action : Action} (taken : s.reaperStep action = some t) :
    Move s action t := by
  cases action with
  | save =>
    dsimp only [reaperStep] at taken
    split at taken
    · rename_i at_
      cases taken
      exact .saved at_
    · cases taken
  | waitpid found errno =>
    dsimp only [reaperStep] at taken
    split at taken
    · rename_i savedErrno at_
      cases found with
      | some child =>
        dsimp only [waitpidStep] at taken
        split at taken
        · rename_i dead
          cases taken
          exact .reaped savedErrno child errno at_ dead
        · cases taken
      | none =>
        dsimp only [waitpidStep] at taken
        split at taken
        · cases taken
        · rename_i empty
          cases taken
          exact .emptied savedErrno errno at_ empty
    · cases taken
  | restore =>
    dsimp only [reaperStep] at taken
    split at taken
    · rename_i savedErrno at_
      cases taken
      exact .returned savedErrno at_
    · cases taken
  | _ => cases taken

theorem step_moves {s t : Process} {action : Action} (taken : s.step action = some t) :
    Move s action t := by
  unfold step at taken
  split at taken
  · cases taken
  · cases action with
    | main outcome => exact mainStep_moves taken
    | deliver =>
      dsimp only at taken
      split at taken
      · rename_i both
        cases taken
        exact .delivered both.1 both.2
      · cases taken
    | terminate child =>
      dsimp only at taken
      split at taken
      · rename_i alive
        cases taken
        exact .terminated child alive
      · cases taken
    | stop child =>
      dsimp only at taken
      split at taken
      · rename_i alive
        cases taken
        exact .stopped child alive
      · cases taken
    | save => exact reaperStep_moves taken
    | waitpid found errno => exact reaperStep_moves taken
    | restore => exact reaperStep_moves taken

def Terminated (s : Process) (child : Nat) : Prop :=
  s.children[child]? = some .zombie ∨ s.children[child]? = some .reaped

def Announced (s : Process) : Prop :=
  .zombie ∈ s.children → s.pending = true ∨ s.grimReaper = some .save ∨
    ∃ savedErrno, s.grimReaper = some (.waitpid savedErrno)

def Counted (s : Process) : Prop :=
  ∀ child, s.reaps.count child = if s.children[child]? = some .reaped then 1 else 0

theorem announced_step {s t : Process} {action : Action} (announced : s.Announced)
    (taken : s.step action = some t) : t.Announced := by
  intro zombie
  cases step_moves taken with
  | went outcome pc errno off => exact announced zombie
  | forked off =>
    rw [List.mem_append, List.mem_singleton] at zombie
    rcases zombie with old | new
    · exact announced old
    · cases new
  | delivered raised off => exact .inr (.inl rfl)
  | saved at_ => exact .inr (.inr ⟨s.errno, rfl⟩)
  | reaped savedErrno child errno at_ dead => exact .inr (.inr ⟨savedErrno, at_⟩)
  | emptied savedErrno errno at_ empty => exact absurd zombie empty
  | returned savedErrno at_ =>
    -- The handler has found no zombie, so one that is there now has raised the signal again.
    rcases announced zombie with raised | atSave | ⟨other, atWait⟩
    · exact .inl raised
    · rw [at_] at atSave
      cases atSave
    · rw [at_] at atWait
      cases atWait
  | terminated child alive => exact .inl rfl
  | stopped child alive => exact .inl rfl

theorem counted_step {s t : Process} {action : Action} (counted : s.Counted)
    (taken : s.step action = some t) : t.Counted := by
  intro other
  have before := counted other
  cases step_moves taken with
  | forked off =>
    rw [before]
    show (if s.children[other]? = _ then 1 else 0) =
      if (s.children ++ [ChildStatus.running])[other]? = _ then 1 else 0
    by_cases old : other < s.children.length
    · rw [List.getElem?_append_left old]
    · rw [List.getElem?_append_right (by omega), List.getElem?_eq_none (by omega)]
      by_cases new : other - s.children.length = 0 <;> simp [new]
  | reaped savedErrno child errno at_ dead =>
    have bound : child < s.children.length := (List.getElem?_eq_some_iff.mp dead).1
    show (s.reaps ++ [child]).count other = if (s.children.set child .reaped)[other]? = _ then 1 else 0
    rw [List.count_append, List.getElem?_set, before]
    by_cases same : child = other
    · subst same
      rw [dead]
      simp [bound]
    · simp [same]
  | terminated child alive =>
    show s.reaps.count other = if (s.children.set child .zombie)[other]? = _ then 1 else 0
    rw [List.getElem?_set, before]
    by_cases same : child = other
    · subst same
      simp [alive]
    · simp [same]
  | _ => exact before

theorem Counted.le_one {s : Process} (counted : s.Counted) (child : Nat) :
    s.reaps.count child ≤ 1 := by
  rw [counted child]
  split <;> omega

theorem Counted.terminated {s : Process} (counted : s.Counted) {child : Nat}
    (reaped : child ∈ s.reaps) : s.Terminated child := by
  have positive : 0 < s.reaps.count child := List.count_pos_iff.mpr reaped
  rw [counted child] at positive
  by_cases gone : s.children[child]? = some .reaped
  · exact .inr gone
  · rw [if_neg gone] at positive
    omega

theorem Counted.of_no_zombie {s : Process} (counted : s.Counted) (none_left : .zombie ∉ s.children)
    {child : Nat} (terminated : s.Terminated child) : s.reaps.count child = 1 := by
  rcases terminated with zombie | gone
  · exact absurd (List.mem_of_getElem? zombie) none_left
  · rw [counted child, if_pos gone]

theorem Announced.no_zombie {s : Process} (announced : s.Announced) (quiet : s.pending = false)
    (off : s.grimReaper = none) : .zombie ∉ s.children := by
  intro zombie
  rcases announced zombie with raised | atSave | ⟨savedErrno, atWait⟩
  · rw [quiet] at raised
    cases raised
  · rw [off] at atSave
    cases atSave
  · rw [off] at atWait
    cases atWait

def Action.ofReaper : Action → Bool
  | .deliver | .save | .waitpid _ _ | .restore => true
  | .main _ | .terminate _ | .stop _ => false

theorem terminated_reaper {s t : Process} {action : Action} (reaper : action.ofReaper = true)
    (taken : s.step action = some t) (child : Nat) : t.Terminated child ↔ s.Terminated child := by
  cases step_moves taken with
  | reaped savedErrno other errno at_ dead =>
    have bound : other < s.children.length := (List.getElem?_eq_some_iff.mp dead).1
    show (s.children.set other .reaped)[child]? = some .zombie ∨
      (s.children.set other .reaped)[child]? = some .reaped ↔ s.Terminated child
    unfold Terminated
    rw [List.getElem?_set]
    by_cases same : other = child
    · subst same
      rw [dead]
      simp [bound]
    · simp [same]
  | went outcome pc errno off => cases reaper
  | forked off => cases reaper
  | terminated other alive => cases reaper
  | stopped other alive => cases reaper
  | _ => exact Iff.rfl

theorem main_reaper {s t : Process} {action : Action} (reaper : action.ofReaper = true)
    (taken : s.step action = some t) : t.main = s.main := by
  cases step_moves taken with
  | went outcome pc errno off => cases reaper
  | forked off => cases reaper
  | _ => rfl

def Reaped (s t : Process) : Prop := Reaches step (fun _ action => action.ofReaper = true) s t

theorem Reaped.main {s t : Process} (reached : s.Reaped t) : t.main = s.main := by
  apply reached.invariant (I := fun m => m.main = s.main) rfl
  intro m action n same reaper taken
  rw [main_reaper reaper taken, same]

theorem Reaped.terminated {s t : Process} (reached : s.Reaped t) (child : Nat) :
    t.Terminated child ↔ s.Terminated child := by
  apply reached.invariant (I := fun m => m.Terminated child ↔ s.Terminated child) Iff.rfl
  intro m action n same reaper taken
  rw [terminated_reaper reaper taken, same]

theorem Reaped.cons {s m t : Process} (action : Action) (reaper : action.ofReaper = true)
    (taken : s.step action = some m) (rest : m.Reaped t) : s.Reaped t :=
  Reaches.trans (.single reaper taken) rest

def Alive (s : Process) : Prop := ∀ status, s.main ≠ .exited status

theorem Reaped.reaperStep {s m t : Process} (action : Action) (alive : s.Alive)
    (taken : s.reaperStep action = some m) (rest : m.Reaped t) : s.Reaped t := by
  have both : action.ofReaper = true ∧ s.step action = s.reaperStep action := by
    unfold step
    split
    · rename_i status gone
      exact absurd gone (alive status)
    · cases action with
      | save | waitpid found errno | restore => exact ⟨rfl, rfl⟩
      | _ => cases taken
  exact .cons action both.1 (by rw [both.2, taken]) rest

theorem step_deliver {s : Process} (alive : s.Alive) (raised : s.pending = true)
    (off : s.grimReaper = none) :
    s.step .deliver = some { s with pending := false, grimReaper := some .save } := by
  unfold step
  split
  · rename_i status gone
    exact absurd gone (alive status)
  · exact if_pos ⟨raised, off⟩

/-- The loop of the handler returns; the induction is on the zombies that it still finds. -/
theorem reaped_waitpid (zombies : Nat) (s : Process) (savedErrno : Errno) (alive : s.Alive)
    (at_ : s.grimReaper = some (.waitpid savedErrno)) (left : s.children.count .zombie = zombies) :
    ∃ t, s.Reaped t ∧ t.grimReaper = none ∧ t.pending = s.pending := by
  induction zombies generalizing s with
  | zero =>
    have empty : .zombie ∉ s.children := List.count_eq_zero.mp left
    refine ⟨{ s with grimReaper := none, errno := savedErrno }, ?_, rfl, rfl⟩
    apply Reaped.reaperStep (.waitpid none s.errno)
      (m := { s with grimReaper := some (.restore savedErrno) }) alive
    · simp [Process.reaperStep, waitpidStep, at_, empty]
    · exact Reaped.reaperStep .restore alive rfl (.refl _)
  | succ zombies ih =>
    have some_left : .zombie ∈ s.children := List.count_pos_iff.mp (by omega)
    rcases List.getElem?_of_mem some_left with ⟨child, dead⟩
    have bound : child < s.children.length := (List.getElem?_eq_some_iff.mp dead).1
    have fewer : (s.children.set child .reaped).count .zombie = zombies := by
      have this_one : s.children[child] = .zombie := (List.getElem?_eq_some_iff.mp dead).2
      rw [List.count_set bound, this_one, left]
      rfl
    rcases ih { s with children := s.children.set child .reaped, reaps := s.reaps ++ [child] } alive at_
      fewer with ⟨t, reached, off, same⟩
    refine ⟨t, ?_, off, same⟩
    apply Reaped.reaperStep (.waitpid (some child) s.errno) alive _ reached
    simp [Process.reaperStep, waitpidStep, at_, dead]

theorem reaped_handler {s : Process} (alive : s.Alive) :
    ∃ t, s.Reaped t ∧ t.grimReaper = none ∧ t.pending = s.pending := by
  cases at_ : s.grimReaper with
  | none => exact ⟨s, .refl s, at_, rfl⟩
  | some pc =>
    cases pc with
    | save =>
      rcases reaped_waitpid _ { s with grimReaper := some (.waitpid s.errno) } s.errno alive rfl rfl with
        ⟨t, reached, off, same⟩
      refine ⟨t, ?_, off, same⟩
      apply Reaped.reaperStep .save alive _ reached
      simp [Process.reaperStep, at_]
    | waitpid savedErrno => exact reaped_waitpid _ s savedErrno alive at_ rfl
    | restore savedErrno =>
      refine ⟨{ s with grimReaper := none, errno := savedErrno }, ?_, rfl, rfl⟩
      apply Reaped.reaperStep .restore alive _ (.refl _)
      simp [Process.reaperStep, at_]

/-- The signal and its handler always come to rest by themselves. -/
theorem reaped_quiet {s : Process} (alive : s.Alive) :
    ∃ t, s.Reaped t ∧ t.grimReaper = none ∧ t.pending = false := by
  rcases reaped_handler alive with ⟨m, first, off, -⟩
  cases raised : m.pending with
  | false => exact ⟨m, first, off, raised⟩
  | true =>
    have still : m.Alive := by
      intro status
      rw [first.main]
      exact alive status
    rcases reaped_handler (s := { m with pending := false, grimReaper := some .save }) still with
      ⟨t, rest, done, quiet⟩
    exact ⟨t, first.trans (Reaped.cons .deliver rfl (step_deliver still raised off) rest), done, quiet⟩

def Saved (errno : Errno) (s : Process) : Prop :=
  match s.grimReaper with
  | none => s.errno = errno
  | some .save => s.errno = errno
  | some (.waitpid savedErrno) => savedErrno = errno
  | some (.restore savedErrno) => savedErrno = errno

theorem saved_step {s t : Process} {action : Action} {errno : Errno} (saved : s.Saved errno)
    (running : s.grimReaper ≠ none) (taken : s.step action = some t) : t.Saved errno := by
  unfold Saved at saved ⊢
  cases step_moves taken with
  | went outcome pc other off => exact absurd off running
  | forked off => exact absurd off running
  | delivered raised off => exact absurd off running
  | saved at_ =>
    rw [at_] at saved
    exact saved
  | reaped savedErrno child other at_ dead =>
    simp only [at_] at saved ⊢
    exact saved
  | emptied savedErrno other at_ empty =>
    rw [at_] at saved
    exact saved
  | returned savedErrno at_ =>
    rw [at_] at saved
    exact saved
  | terminated child alive => exact saved
  | stopped child alive => exact saved

def Handled (s t : Process) : Prop :=
  ∃ m, s.step .deliver = some m ∧ Reaches step (fun p _ => p.grimReaper ≠ none) m t ∧
    t.grimReaper = none

theorem Handled.errno {s t : Process} (handled : s.Handled t) : t.errno = s.errno := by
  rcases handled with ⟨m, delivered, reached, off⟩
  have start : m.Saved s.errno := by
    cases step_moves delivered
    rfl
  have saved : t.Saved s.errno := by
    apply reached.invariant (I := Saved s.errno) start
    intro p action q before running taken
    exact saved_step before running taken
  unfold Saved at saved
  rw [off] at saved
  exact saved

/-- Every child that has terminated is reaped exactly once: never twice and never before, at the
    latest by the time at which no signal is pending and the handler has returned, and that time
    comes as long as `main` lives. -/
structure ReapsOnce (s : Process) : Prop where
  atMostOnce : ∀ child, s.reaps.count child ≤ 1
  onlyTerminated : ∀ child ∈ s.reaps, s.Terminated child
  noZombie : s.pending = false → s.grimReaper = none → .zombie ∉ s.children
  once : s.pending = false → s.grimReaper = none → ∀ child, s.Terminated child →
    s.reaps.count child = 1
  eventually : s.Alive → ∃ t, s.Reaped t ∧ ∀ child, s.Terminated child → t.reaps.count child = 1

theorem reachable_kept {s : Process} (run : Reaches step (fun _ _ => True) initial s) :
    s.Announced ∧ s.Counted := by
  apply run.invariant (I := fun s => s.Announced ∧ s.Counted)
  · constructor
    · intro zombie
      cases zombie
    · intro child
      rfl
  · intro s action t before _ taken
    exact ⟨announced_step before.1 taken, counted_step before.2 taken⟩

theorem grimReaper_reaps {s : Process} (run : Reaches step (fun _ _ => True) initial s) :
    s.ReapsOnce ∧ ∀ t, s.Handled t → t.errno = s.errno := by
  rcases reachable_kept run with ⟨announced, counted⟩
  have reapsOnce : s.ReapsOnce := by
    constructor
    case atMostOnce => exact counted.le_one
    case onlyTerminated => exact fun child reaped => counted.terminated reaped
    case noZombie => exact fun quiet off => announced.no_zombie quiet off
    case once =>
      intro quiet off child terminated
      exact counted.of_no_zombie (announced.no_zombie quiet off) terminated
    case eventually =>
      intro alive
      rcases reaped_quiet alive with ⟨t, reached, off, quiet⟩
      have later : t.Announced ∧ t.Counted :=
        reachable_kept (run.trans (reached.weaken fun _ _ _ => trivial))
      refine ⟨t, reached, ?_⟩
      intro child terminated
      exact later.2.of_no_zombie (later.1.no_zombie quiet off) ((reached.terminated child).mpr terminated)
  exact ⟨reapsOnce, fun t handled => handled.errno⟩

def threeChildren : List Action :=
  [.main .done, .main .done, .main .done, .main .done, .main .done, .main .done, .main .done,
    .main .done, .terminate 2, .terminate 0, .deliver, .save, .waitpid (some 0) (.other 0),
    .terminate 1, .waitpid (some 1) (.other 0), .waitpid (some 2) (.other 0),
    .waitpid none (.other 10), .restore, .deliver, .save, .waitpid none (.other 10), .restore]

theorem grimReaper_reaps_threeChildren :
    ∃ s, exec step threeChildren initial = some s ∧
      (∀ child, s.Terminated child → s.reaps.count child = 1) ∧ s.Terminated 1 := by
  have ends : (exec step threeChildren initial).any (fun s => s.pending = false ∧
      s.grimReaper = none ∧ s.children[1]? = some .reaped) = true := by decide +kernel
  rcases (Option.any_eq_true _ _).mp ends with ⟨s, run, both⟩
  rw [decide_eq_true_eq] at both
  have reaps := (grimReaper_reaps ⟨threeChildren, along_true _ _, run⟩).1
  exact ⟨s, run, reaps.once both.1 both.2.1, .inr both.2.2⟩

end Process

end SystemProgramming.FileServer
