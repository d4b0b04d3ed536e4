import SystemProgramming.ThreadCleanup.Moves

namespace SystemProgramming.ThreadCleanup

open Transition

def Stuck (s : State) : Prop := s.main = .join ∧ s.thread = some .blocked

def Heard (s : State) : Action → Prop
  | .main .done => s.main = .signal → s.thread ≠ some .wait
  | _ => True

instance (s : State) : (action : Action) → Decidable (Heard s action)
  | .main .done => inferInstanceAs (Decidable (_ → _))
  | .main (.count _) | .main (.error _) | .thread _ => isTrue trivial

structure Settled (s : State) : Prop where
  set : s.glob ≠ 0
  testing : s.thread ≠ some .wait
  awake : s.thread ≠ some .blocked

theorem settled_of_thread {s t : State} {pc : ThreadPc} (set : s.glob ≠ 0) (glob : t.glob = s.glob)
    (thread : t.thread = some pc) (testing : pc ≠ .wait) (awake : pc ≠ .blocked) : Settled t := by
  refine ⟨glob ▸ set, ?_, ?_⟩
  · rw [thread]
    exact fun same => testing (Option.some.inj same)
  · rw [thread]
    exact fun same => awake (Option.some.inj same)

theorem Quiet.settled {s : State} {pc pc' : ThreadPc} (set : s.glob ≠ 0) (moved : Quiet s pc pc') :
    pc' ≠ .wait ∧ pc' ≠ .blocked := by
  cases moved with
  | waits unset => exact absurd unset set
  | _ => exact ⟨ThreadPc.noConfusion, ThreadPc.noConfusion⟩

theorem ThreadMove.settled {s t : State} (settled : Settled s) (move : ThreadMove s t) : Settled t := by
  cases move with
  | quiet pc pc' out at_ moved =>
    obtain ⟨testing, awake⟩ := moved.settled settled.set
    exact settled_of_thread settled.set rfl rfl testing awake
  | released at_ => exact absurd at_ settled.testing
  | relocked cancelled at_ =>
    cases cancelled with
    | false => exact settled_of_thread settled.set rfl rfl ThreadPc.noConfusion ThreadPc.noConfusion
    | true => exact settled_of_thread settled.set rfl rfl ThreadPc.noConfusion ThreadPc.noConfusion
  | failed pc at_ checks => exact ⟨settled.set, settled.testing, settled.awake⟩
  | _ => exact settled_of_thread settled.set rfl rfl ThreadPc.noConfusion ThreadPc.noConfusion

theorem wake_ne_blocked (thread : Option ThreadPc) : wake thread ≠ some .blocked := by
  cases thread with
  | none => exact fun same => nomatch same
  | some pc =>
    unfold wake
    rw [Option.map_some]
    split
    · exact fun same => nomatch same
    · rename_i other
      exact fun same => other (Option.some.inj same)

theorem wake_eq_wait_iff (thread : Option ThreadPc) : wake thread = some .wait ↔ thread = some .wait := by
  cases thread with
  | none => exact Iff.rfl
  | some pc =>
    unfold wake
    rw [Option.map_some]
    split
    · rename_i blocked
      rw [blocked]
      exact iff_of_false (fun same => nomatch same) (fun same => nomatch same)
    · exact Iff.rfl

theorem MainMove.settled {argc : Nat} {s t : State} (settled : Settled s) (move : MainMove argc s t) :
    Settled t := by
  cases move with
  | created at_ => exact settled_of_thread settled.set rfl rfl ThreadPc.noConfusion ThreadPc.noConfusion
  | assigned at_ => exact ⟨Int.one_ne_zero, settled.testing, settled.awake⟩
  | signalled at_ =>
    exact ⟨settled.set, fun same => settled.testing ((wake_eq_wait_iff _).mp same), wake_ne_blocked _⟩
  | _ => exact ⟨settled.set, settled.testing, settled.awake⟩

/-- What holds once holds for good: whatever is done next, the thread does not wait again. -/
theorem step_settled {argc : Nat} {s t : State} {action : Action} (settled : Settled s)
    (taken : step argc s action = some t) : Settled t := by
  rcases step_moves taken with ⟨outcome, -, move⟩ | ⟨outcome, -, -, move⟩
  · exact move.settled settled
  · exact move.settled settled

structure Signalling (s : State) : Prop where
  mode : s.main ≠ .printCancel ∧ s.main ≠ .cancel
  enabled : s.pending = false
  set : s.main = .signal → s.glob ≠ 0

theorem signalling_initial : Signalling initial where
  mode := ⟨MainPc.noConfusion, MainPc.noConfusion⟩
  enabled := rfl
  set := fun now => MainPc.noConfusion now

theorem MainMove.signalling {argc : Nat} {s t : State} (several : argc ≠ 1) (signalling : Signalling s)
    (move : MainMove argc s t) : Signalling t := by
  cases move with
  | slept at_ =>
    rw [if_neg several]
    exact ⟨⟨MainPc.noConfusion, MainPc.noConfusion⟩, signalling.enabled, fun now => MainPc.noConfusion now⟩
  | printed pc out at_ =>
    rcases at_ with cancels | signals
    · exact absurd cancels.1 signalling.mode.1
    · obtain ⟨-, rfl⟩ := signals
      exact ⟨⟨MainPc.noConfusion, MainPc.noConfusion⟩, signalling.enabled, fun now => MainPc.noConfusion now⟩
  | cancelled at_ => exact absurd at_ signalling.mode.2
  | assigned at_ =>
    exact ⟨⟨MainPc.noConfusion, MainPc.noConfusion⟩, signalling.enabled, fun _ => Int.one_ne_zero⟩
  | _ =>
    exact ⟨⟨MainPc.noConfusion, MainPc.noConfusion⟩, signalling.enabled, fun now => MainPc.noConfusion now⟩

theorem ThreadMove.signalling {s t : State} (signalling : Signalling s) (move : ThreadMove s t) :
    Signalling t := by
  cases move with
  | failed pc at_ checks =>
    exact ⟨⟨MainPc.noConfusion, MainPc.noConfusion⟩, signalling.enabled, fun now => MainPc.noConfusion now⟩
  | _ => exact ⟨signalling.mode, signalling.enabled, signalling.set⟩

theorem step_signalling {argc : Nat} {s t : State} {action : Action} (several : argc ≠ 1)
    (signalling : Signalling s) (taken : step argc s action = some t) : Signalling t := by
  rcases step_moves taken with ⟨outcome, -, move⟩ | ⟨outcome, -, -, move⟩
  · exact move.signalling several signalling
  · exact move.signalling signalling

theorem run_signalling {argc : Nat} {actions : List Action} {s : State} (several : argc ≠ 1)
    (run : exec (step argc) actions initial = some s) : Signalling s :=
  exec_invariant (I := Signalling) (fun _ _ _ signalling _ taken => step_signalling several signalling taken)
    signalling_initial (along_true actions _) run

section Signal

variable {argc : Nat}

theorem step_signal {s : State} (at_ : s.main = .signal) :
    step argc s (.main .done) = some { s with main := .join, thread := wake s.thread } := by
  unfold step
  rw [at_]
  dsimp only [mainStep]
  unfold mainDone
  rw [at_]

theorem settled_signalled {s : State} (signalling : Signalling s) (at_ : s.main = .signal)
    (heard : s.thread ≠ some .wait) : Settled { s with main := .join, thread := wake s.thread } :=
  ⟨signalling.set at_, fun same => heard ((wake_eq_wait_iff _).mp same), wake_ne_blocked _⟩

theorem MainMove.joining {s t : State} (signalling : Signalling s) (move : MainMove argc s t)
    (joining : t.main = .join) : s.main = .signal ∧ t = { s with main := .join, thread := wake s.thread } := by
  cases move with
  | signalled at_ => exact ⟨at_, rfl⟩
  | cancelled at_ => exact absurd at_ signalling.mode.2
  | slept at_ =>
    have other : (if argc = 1 then MainPc.printCancel else .printSignal) = .join := joining
    split at other <;> cases other
  | printed pc out at_ =>
    have other : pc = .join := joining
    subst other
    rcases at_ with ⟨-, same⟩ | ⟨-, same⟩ <;> cases same
  | _ => cases joining

theorem step_joining {s t : State} {action : Action} (signalling : Signalling s)
    (settled : s.main = .join → Settled s) (heard : Heard s action) (taken : step argc s action = some t)
    (joining : t.main = .join) : Settled t := by
  rcases step_moves taken with ⟨outcome, rfl, move⟩ | ⟨outcome, rfl, stepped, move⟩
  · obtain ⟨at_, rfl⟩ := move.joining signalling joining
    have signalled : outcome = .done := by
      cases outcome with
      | done => rfl
      | count n | error errno => simp [step, mainStep, at_, MainPc.checks] at taken
    subst signalled
    exact settled_signalled signalling at_ (heard at_)
  · apply move.settled
    apply settled
    cases move with
    | failed pc at_ checks => cases joining
    | _ => exact joining

theorem stuck_of_waiting {s : State} (signalling : Signalling s) (waiting : s.thread = some .wait) :
    ∃ u, exec (step argc) [.thread .done] { s with main := .join, thread := wake s.thread } = some u ∧
      Stuck u := by
  have still : wake s.thread = some .wait := (wake_eq_wait_iff _).mpr waiting
  refine ⟨{ s with main := .join, thread := some .blocked, locked := false }, ?_, rfl, rfl⟩
  rw [still, exec_cons]
  simp [step, threadStep, threadDone, State.goto, signalling.enabled]

end Signal

/-- While every signal is heard `main` does not wait for a thread that waits for it; and after the signal
    no such state can be reached exactly if it has been heard. -/
theorem handoff {argc : Nat} (several : argc ≠ 1) {actions : List Action} {s : State}
    (run : exec (step argc) actions initial = some s) :
    (Along (step argc) Heard actions initial → ¬ Stuck s) ∧
      ∀ t, s.main = .signal → step argc s (.main .done) = some t →
        ((∀ after u, exec (step argc) after t = some u → ¬ Stuck u) ↔ s.thread ≠ some .wait) := by
  constructor
  · intro heard
    have settled : Signalling s ∧ (s.main = .join → Settled s) := by
      apply exec_invariant (I := fun s => Signalling s ∧ (s.main = .join → Settled s)) ?_ ?_ heard run
      · intro s action t both meets taken
        obtain ⟨signalling, settled⟩ := both
        exact ⟨step_signalling several signalling taken, step_joining signalling settled meets taken⟩
      · exact ⟨signalling_initial, fun now => MainPc.noConfusion now⟩
    intro stuck
    exact (settled.2 stuck.1).awake stuck.2
  · intro t at_ taken
    have signalling := run_signalling several run
    rw [step_signal at_] at taken
    cases taken
    constructor
    · intro never waiting
      obtain ⟨u, after, stuck⟩ := stuck_of_waiting signalling waiting
      exact never _ u after stuck
    · intro heard after u rest stuck
      have settled : Settled u :=
        exec_invariant (I := Settled) (fun _ _ _ settled _ taken => step_settled settled taken)
          (settled_signalled signalling at_ heard) (along_true after _) rest
      exact settled.awake stuck.2

def inTime : List Action :=
  .main .done :: List.replicate 6 (.thread .done) ++ List.replicate 4 (.main .done) ++
    [.thread .done, .thread .done]

theorem handoff_inTime :
    ∃ s, exec (step 2) inTime initial = some s ∧ s.main = .join ∧ s.thread = some .printDone ∧ ¬ Stuck s := by
  have run : exec (step 2) inTime initial = some _ := rfl
  exact ⟨_, run, rfl, rfl, (handoff (by decide) run).1 (by decide)⟩

/-- The thread has seen that `glob` is 0; `main` sets it and signals; the thread waits. -/
theorem signal_lost :
    ¬ ∀ argc, argc ≠ 1 → ∀ actions s, exec (step argc) actions initial = some s → ¬ Stuck s := by
  intro never
  have moving := never 2 (by decide) (.main .done :: List.replicate 5 (.thread .done) ++
    List.replicate 4 (.main .done) ++ [.thread .done]) _ rfl
  exact moving ⟨rfl, rfl⟩

end SystemProgramming.ThreadCleanup
