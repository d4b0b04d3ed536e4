import SystemProgramming.ThreadMultijoin.Orderly

namespace SystemProgramming.ThreadMultijoin

open Transition

variable {sleepTimes : List Int} {n : Nat}

def ReadsOwn (s : State) : Action → Prop
  | .thread i .done => s.threads i = some .start → s.idx = i
  | _ => True

instance (s : State) : (action : Action) → Decidable (ReadsOwn s action)
  | .thread _ .done => inferInstanceAs (Decidable (_ → _))
  | .thread _ (.count _) | .thread _ (.error _) | .main _ => isTrue trivial

structure Numbered (n : Nat) (s : State) : Prop where
  distinct : ∀ i j pc pc' idx, s.threads i = some pc → s.threads j = some pc' → pc.idx = some idx →
    pc'.idx = some idx → i = j
  within : ∀ i pc idx, s.threads i = some pc → pc.idx = some idx → idx < n
  own : s.Own

theorem own_step {s t : State} {action : Action} (controlled : Controlled sleepTimes.length s)
    (taken : step sleepTimes s action = some t) : t.Own ↔ s.Own ∧ ReadsOwn s action := by
  have moved := (step_some taken).2
  cases action with
  | main outcome =>
    rw [and_iff_left (show ReadsOwn s (.main outcome) from trivial)]
    cases outcome with
    | done => exact own_main controlled moved
    | count n => cases moved
    | error errno =>
      cases moved with
      | failed _ at_ => exact Iff.rfl
  | thread i outcome =>
    cases outcome with
    | done => exact own_thread moved
    | count n => cases moved
    | error errno =>
      cases moved with
      | failed pc _ at_ => exact (and_iff_left trivial).symm

section Within

def State.Within (n : Nat) (s : State) : Prop := ∀ i pc, s.threads i = some pc → i < n

theorem ThreadMove.within {s t : State} {i : Nat} {outcome : Outcome} (within : s.Within n)
    (move : ThreadMove s i outcome t) : t.Within n := by
  intro j pc there
  cases move with
  | failed pc' errno at_ => exact within j pc there
  | started at_ | slept idx at_ | locked idx at_ free | updated idx at_ | unlocked idx at_
  | signalled idx at_ =>
    rcases Parties.update_some there with ⟨rfl, -⟩ | ⟨-, before⟩
    · exact within _ _ at_
    · exact within j pc before

theorem MainMove.within {s t : State} {outcome : Outcome} (controlled : Controlled n s)
    (within : s.Within n) (move : MainMove sleepTimes s outcome t) : t.Within n := by
  intro j pc there
  cases move with
  | created at_ =>
    have phase := controlled.phase
    rw [at_] at phase
    rcases Parties.update_some there with ⟨rfl, -⟩ | ⟨-, before⟩
    · exact phase.2.2
    · exact within j pc before
  | _ => exact within j pc there

theorem within_step {s t : State} {action : Action} (controlled : Controlled sleepTimes.length s)
    (within : s.Within sleepTimes.length) (taken : step sleepTimes s action = some t) :
    t.Within sleepTimes.length := by
  have moved := (step_some taken).2
  cases action with
  | main outcome => exact MainMove.within controlled within moved
  | thread i outcome => exact ThreadMove.within within moved

theorem numbered_iff_own {s : State} (within : s.Within n) : Numbered n s ↔ s.Own := by
  constructor
  · exact Numbered.own
  · intro own
    refine ⟨?_, ?_, own⟩
    · intro i j pc pc' idx first second here there
      rw [← own i pc idx first here, own j pc' idx second there]
    · intro i pc idx present here
      rw [own i pc idx present here]
      exact within i pc present

end Within

/-- The threads are numbered by their slots if and only if each of them reads `idx` in time. -/
theorem numbered_iff {actions : List Action} {s : State}
    (run : exec (step sleepTimes) actions initial = some s) :
    Numbered sleepTimes.length s ↔ Along (step sleepTimes) ReadsOwn actions initial := by
  have kept : ∀ s a t, (Controlled sleepTimes.length s ∧ s.Within sleepTimes.length) →
      step sleepTimes s a = some t → Controlled sleepTimes.length t ∧ t.Within sleepTimes.length := by
    intro s a t both taken
    exact ⟨both.1.step taken, within_step both.1 both.2 taken⟩
  have start : Controlled sleepTimes.length initial ∧ initial.Within sleepTimes.length :=
    ⟨controlled_initial, fun _ _ there => nomatch there⟩
  have reached := exec_invariant (fun s a t both _ taken => kept s a t both taken) start
    (along_true actions initial) run
  have tracked := along_iff kept (P := State.Own) (fun s a t both taken => own_step both.1 taken) start run
  have nobody : initial.Own := fun _ _ _ there => nomatch there
  rw [numbered_iff_own reached.2, tracked, and_iff_right nobody]

def atOnce : List Action :=
  [.main .done, .main .done, .main .done, .main .done, .thread 0 .done, .main .done, .main .done,
    .main .done, .thread 1 .done]

theorem numbered_atOnce :
    ∃ s, exec (step [2, 1]) atOnce initial = some s ∧ s.threads 0 = some (.sleep 0) ∧
      s.threads 1 = some (.sleep 1) ∧ Numbered 2 s := by
  have run : exec (step [2, 1]) atOnce initial = some _ := rfl
  exact ⟨_, run, rfl, rfl, (numbered_iff run).mpr (by decide)⟩

/-- The first thread reads `idx` after `main` has increased it: both work on the second slot. -/
theorem late_start_shares :
    ¬ ∀ s, Reaches (step [2, 1]) (fun _ _ => True) initial s → Numbered 2 s := by
  intro always
  have numbered := always _ ⟨[.main .done, .main .done, .main .done, .main .done, .main .done, .main .done,
    .main .done, .thread 0 .done, .thread 1 .done], along_true _ _, rfl⟩
  have same := numbered.distinct 0 1 (.sleep 1) (.sleep 1) 1 rfl rfl rfl rfl
  cases same

end SystemProgramming.ThreadMultijoin
