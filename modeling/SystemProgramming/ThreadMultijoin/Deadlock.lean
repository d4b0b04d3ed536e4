import SystemProgramming.Library.Termination
import SystemProgramming.Library.Weights
import SystemProgramming.ThreadMultijoin.JoinDiscipline
import SystemProgramming.ThreadMultijoin.Numbering

namespace SystemProgramming.ThreadMultijoin

open Transition

variable {sleepTimes : List Int} {n i : Nat} {s t : State} {action : Action} {outcome : Outcome}

def Action.Succeeds : Action → Prop
  | .main outcome | .thread _ outcome => outcome.isError = false

instance : (action : Action) → Decidable action.Succeeds
  | .main outcome | .thread _ outcome => inferInstanceAs (Decidable (outcome.isError = false))

structure Held (s : State) : Prop where
  main : s.mutex = some .main → s.main.holds = true
  thread : ∀ i, s.mutex = some (.thread i) → ∃ pc, s.threads i = some pc ∧ pc.holds = true

theorem Held.setPc {pc pc' : ThreadPc} (held : Held s) (at_ : s.threads i = some pc)
    (same : pc'.holds = pc.holds) : Held (s.setPc i pc') := by
  refine ⟨held.main, ?_⟩
  intro j owner
  obtain ⟨before, there, holds⟩ := held.thread j owner
  show ∃ pc, Function.update s.threads i (some pc') j = some pc ∧ pc.holds = true
  by_cases mine : j = i
  · subst mine
    rw [at_, Option.some.injEq] at there
    exact ⟨pc', Function.update_self .., by rw [same, there, holds]⟩
  · exact ⟨before, (Function.update_of_ne mine ..).trans there, holds⟩

theorem ThreadMove.held (held : Held s) (move : ThreadMove s i .done t) : Held t := by
  cases move with
  | started at_ => exact held.setPc at_ rfl
  | slept idx at_ => exact held.setPc at_ rfl
  | signalled idx at_ => exact held.setPc at_ rfl
  | updated idx at_ =>
    have next := held.setPc at_ (show (ThreadPc.unlock idx).holds = (ThreadPc.update idx).holds from rfl)
    exact ⟨next.main, next.thread⟩
  | locked idx at_ free =>
    refine ⟨?_, ?_⟩
    · intro owner
      cases owner
    · intro j owner
      cases owner
      exact ⟨.update idx, Function.update_self .., rfl⟩
  | unlocked idx at_ =>
    refine ⟨?_, ?_⟩
    · intro owner
      cases owner
    · intro j owner
      cases owner

theorem Held.goto (held : Held s) (mutex : t.mutex = s.mutex) (threads : t.threads = s.threads)
    (holds : s.main.holds = true → t.main.holds = true) : Held t := by
  refine ⟨?_, ?_⟩
  · rw [mutex]
    exact fun owner => holds (held.main owner)
  · rw [mutex, threads]
    exact held.thread

theorem MainMove.held (controlled : Controlled n s) (held : Held s) (move : MainMove sleepTimes s .done t) :
    Held t := by
  cases move with
  | created at_ =>
    refine ⟨?_, ?_⟩
    · intro owner
      have holds := held.main owner
      rw [at_] at holds
      cases holds
    · intro j owner
      obtain ⟨pc, there, holds⟩ := held.thread j owner
      have other : j ≠ s.idx := by
        rintro rfl
        rw [controlled.fresh at_] at there
        cases there
      exact ⟨pc, (Function.update_of_ne other ..).trans there, holds⟩
  | locked at_ free =>
    refine ⟨fun _ => rfl, ?_⟩
    intro j owner
    cases owner
  | waits at_ dead =>
    refine ⟨?_, ?_⟩
    · intro owner
      cases owner
    · intro j owner
      cases owner
  | unlocked at_ =>
    refine ⟨?_, ?_⟩
    · intro owner
      cases owner
    · intro j owner
      cases owner
  | ended at_ last =>
    have phase := controlled.phase
    rw [at_] at phase
    obtain ⟨-, looping, bound, -⟩ := phase
    have total := looping.1
    have live := looping.2
    have dead : s.numLive = 0 := by omega
    rw [dead, whileLive_zero]
    exact held.goto rfl rfl fun _ => rfl
  | scans at_ live | found at_ more terminated | skipped state at_ more there other | marked at_
  | joined i idx slot at_ there tid returned => exact held.goto rfl rfl fun _ => rfl
  | refused at_ nothing | accepted at_ something | allocated at_ | filled sleepTime at_ more | filledAll at_ last
  | next at_ | totalled at_ | exits at_ =>
    refine held.goto rfl rfl fun holds => ?_
    rw [at_] at holds
    cases holds

structure Working (n : Nat) (s : State) : Prop where
  controlled : Controlled n s
  marked : Marked s
  within : s.Within n
  held : Held s

theorem step_working (working : Working sleepTimes.length s) (succeeds : action.Succeeds)
    (taken : step sleepTimes s action = some t) : Working sleepTimes.length t := by
  obtain ⟨controlled, marked, within, held⟩ := working
  have moved := (step_some taken).2
  refine ⟨controlled.step taken, marked.step controlled taken, within_step controlled within taken, ?_⟩
  cases action with
  | main outcome =>
    cases outcome with
    | done => exact moved.held controlled held
    | count n => cases moved
    | error errno => cases succeeds
  | thread i outcome =>
    cases outcome with
    | done => exact moved.held held
    | count n => cases moved
    | error errno => cases succeeds

theorem working_initial : Working n initial := by
  refine ⟨controlled_initial, marked_initial, ?_, ?_, ?_⟩
  · intro i pc there
    cases there
  · intro owner
    cases owner
  · intro i owner
    cases owner

def State.Deadlocked (s : State) : Prop :=
  s.main = .join ∧ ∃ j idx, s.tids[s.idx]? = some (some j) ∧ s.threads j = some (.lock idx)

def CanAdvance (sleepTimes : List Int) (s : State) : Prop :=
  ∃ action t, Action.Succeeds action ∧ step sleepTimes s action = some t

theorem step_running (unended : ∀ status, s.main ≠ .exited status) (action : Action) :
    step sleepTimes s action =
      match action with
      | .main outcome => mainStep sleepTimes s outcome
      | .thread i outcome => threadStep s i outcome := by
  unfold step
  split
  · rename_i status at_
    exact absurd at_ (unended status)
  · rfl

theorem main_advances (unended : ∀ status, s.main ≠ .exited status) (enabled : (mainDone sleepTimes s).isSome) :
    CanAdvance sleepTimes s := by
  obtain ⟨t, taken⟩ := Option.isSome_iff_exists.mp enabled
  exact ⟨.main .done, t, rfl, (step_running unended _).trans taken⟩

theorem thread_advances (unended : ∀ status, s.main ≠ .exited status) (enabled : (threadStep s i .done).isSome) :
    CanAdvance sleepTimes s := by
  obtain ⟨t, taken⟩ := Option.isSome_iff_exists.mp enabled
  exact ⟨.thread i .done, t, rfl, (step_running unended _).trans taken⟩

/-- A thread that has not returned goes on, or waits for the mutex. -/
theorem thread_goes (sleepTimes : List Int) (unended : ∀ status, s.main ≠ .exited status) {pc : ThreadPc}
    (there : s.threads i = some pc) :
    CanAdvance sleepTimes s ∨ (∃ idx, pc = .returned idx) ∨ ∃ idx, pc = .lock idx := by
  cases pc with
  | returned idx => exact .inr (.inl ⟨idx, rfl⟩)
  | lock idx => exact .inr (.inr ⟨idx, rfl⟩)
  | start | sleep idx | update idx | unlock idx | signal idx =>
    exact .inl (thread_advances unended (i := i) (by simp [threadStep, there]))

/-- Who owns the mutex goes on. -/
theorem owner_goes (held : Held s) (unended : ∀ status, s.main ≠ .exited status)
    (owner : s.mutex = some (.thread i)) : CanAdvance sleepTimes s := by
  obtain ⟨pc, there, holds⟩ := held.thread i owner
  rcases thread_goes sleepTimes unended there with goes | ⟨idx, rfl⟩ | ⟨idx, rfl⟩
  · exact goes
  · cases holds
  · cases holds

/-- Unless `main` has exited, somebody can go on, or `main` waits for a thread that waits for its mutex. -/
theorem advances_or_deadlocked (working : Working sleepTimes.length s) (unended : ∀ status, s.main ≠ .exited status) :
    CanAdvance sleepTimes s ∨ s.Deadlocked := by
  have phase := working.controlled.phase
  have goes : (mainDone sleepTimes s).isSome → CanAdvance sleepTimes s ∨ s.Deadlocked :=
    fun enabled => .inl (main_advances unended enabled)
  cases at_ : s.main with
  | usage | calloc | create | next | totals | mark | unlock | exit => exact goes (by simp [mainDone, at_])
  | fill =>
    apply goes
    simp only [mainDone, at_, fillSlot]
    split <;> rfl
  | condition =>
    apply goes
    simp only [mainDone, at_]
    split <;> rfl
  | lock =>
    cases owner : s.mutex with
    | none => exact goes (by simp [mainDone, at_, owner])
    | some holder =>
      cases holder with
      | main =>
        have holds := working.held.main owner
        rw [at_] at holds
        cases holds
      | thread i => exact .inl (owner_goes working.held unended owner)
  | wait =>
    rw [at_] at phase
    exact phase.elim
  | scan =>
    rw [at_] at phase
    obtain ⟨running, looping, -⟩ := phase
    apply goes
    simp only [mainDone, at_, scanSlot]
    split
    · rename_i more
      have inside : s.idx < s.states.length := by
        rw [State.length_states, running.length, ← looping.1]
        exact more
      rw [List.getElem?_eq_getElem inside]
      rfl
    · rfl
  | join =>
    rw [at_] at phase
    obtain ⟨running, -, inside, -⟩ := phase
    have target : s.tids[s.idx]? = some (some s.idx) := running.tids s.idx inside
    obtain ⟨pc, there⟩ := Option.isSome_iff_exists.mp ((running.created s.idx).mpr inside)
    rcases thread_goes sleepTimes unended there with advance | ⟨idx, rfl⟩ | ⟨idx, rfl⟩
    · exact .inl advance
    · apply goes
      rw [State.tids, List.getElem?_map] at target
      obtain ⟨slot, present, tid⟩ := Option.map_eq_some_iff.mp target
      simp [mainDone, at_, joinThread, present, tid, there]
    · exact .inr ⟨at_, s.idx, idx, target, there⟩
  | exited status => exact absurd at_ (unended status)

theorem ThreadMove.deadlocked (controlled : Controlled n s) (dead : s.Deadlocked) (move : ThreadMove s i .done t) :
    t.Deadlocked := by
  obtain ⟨at_, j, idx, target, there⟩ := dead
  have owner := controlled.mainOwned (by rw [at_]; rfl)
  have frame := move.frame controlled
  refine ⟨frame.main.trans at_, j, idx, ?_, ?_⟩
  · rw [frame.tids, frame.idx]
    exact target
  · by_cases mine : j = i
    · subst mine
      cases move with
      | locked idx' at_ free =>
        rw [owner] at free
        cases free
      | started at_ | slept idx' at_ | updated idx' at_ | unlocked idx' at_ | signalled idx' at_ =>
        rw [at_] at there
        cases there
    · cases move with
      | started at_ | slept idx' at_ | locked idx' at_ free | updated idx' at_ | unlocked idx' at_
      | signalled idx' at_ => exact (Function.update_of_ne mine ..).trans there

theorem MainMove.not_deadlocked (move : MainMove sleepTimes s .done t) : ¬ s.Deadlocked := by
  rintro ⟨at_, j, idx, target, there⟩
  cases move with
  | joined i idx' slot _ present tid returned =>
    rw [State.tids, List.getElem?_map, present, Option.map_some, tid, Option.some.injEq, Option.some.injEq] at target
    rw [← target, returned] at there
    cases there
  | locked at' =>
    rcases at' with at' | at' <;> · rw [at_] at at'; cases at'
  | refused at' | accepted at' | allocated at' | filled _ at' | filledAll at' | created at' | next at' | totalled at'
  | waits at' | scans at' | found at' | skipped _ at' | ended at' | marked at' | unlocked at' | exits at' =>
    rw [at_] at at'
    cases at'

/-- Without a failing call there is no way out of the deadlock. -/
theorem step_deadlocked (controlled : Controlled n s) (dead : s.Deadlocked) (succeeds : action.Succeeds)
    (taken : step sleepTimes s action = some t) : t.Deadlocked := by
  have moved := (step_some taken).2
  cases action with
  | main outcome =>
    cases outcome with
    | done => exact absurd dead (MainMove.not_deadlocked moved)
    | count n => cases moved
    | error errno => cases succeeds
  | thread i outcome =>
    cases outcome with
    | done => exact ThreadMove.deadlocked controlled dead moved
    | count n => cases moved
    | error errno => cases succeeds

/-- Where the threads have read their own numbers, the slot of the thread that `main` joins was set by that
    thread, which therefore does not wait for the mutex any more. -/
theorem not_deadlocked (working : Working n s) (own : s.Own) : ¬ s.Deadlocked := by
  rintro ⟨at_, j, idx, target, there⟩
  have phase := working.controlled.phase
  rw [at_] at phase
  obtain ⟨running, -, inside, -, terminated⟩ := phase
  obtain ⟨i, -, pc, present, set⟩ := working.marked.slots (by rw [at_]; rfl) s.idx terminated
  have same : s.idx = i := own i pc s.idx present (ThreadPc.idx_of_set set)
  have mine : s.tids[s.idx]? = some (some s.idx) := running.tids s.idx inside
  rw [mine, Option.some.injEq, Option.some.injEq] at target
  rw [← same, target, there, Option.some.injEq] at present
  rw [← present] at set
  cases set

section Work

open Weights

def ThreadPc.rank : ThreadPc → Nat
  | .start => 6
  | .sleep _ => 5
  | .lock _ => 4
  | .update _ => 3
  | .unlock _ => 2
  | .signal _ => 1
  | .returned _ => 0

def threadRank (pc : Option ThreadPc) : Nat := pc.elim 6 ThreadPc.rank

def MainPc.rank (n left : Nat) : MainPc → Nat
  | .usage => 6 * n + 9
  | .calloc => 6 * n + 8
  | .fill => 3 * left + 3 * n + 7
  | .create => 3 * left + 3 * n + 6
  | .next => 3 * left + 3 * n + 5
  | .totals => 3 * n + 6
  | .lock | .wait => 3 * n + 5
  | .condition => 3 * n + 4
  | .scan => 3 * left + 3
  | .join => 3 * left + 2
  | .mark => 3 * left + 1
  | .unlock => 2
  | .exit => 1
  | .exited _ => 0

def threadsWork (n : Nat) (s : State) : Nat := total (fun i => threadRank (s.threads i)) (List.range n)

def work (n : Nat) (s : State) : Nat := s.main.rank n (n - s.idx) + threadsWork n s

theorem threadsWork_update {pc' : ThreadPc} {d : Nat} (inside : i < n)
    (threads : t.threads = Function.update s.threads i (some pc')) (less : pc'.rank + d ≤ threadRank (s.threads i)) :
    threadsWork n t + d ≤ threadsWork n s := by
  apply total_lower (List.mem_range.mpr inside)
  · rw [threads, Function.update_self]
    exact less
  · intro j _
    rw [threads]
    by_cases mine : j = i
    · subst mine
      rw [Function.update_self]
      exact (Nat.le_add_right ..).trans less
    · rw [Function.update_of_ne mine]

theorem ThreadMove.lower (within : s.Within n) (move : ThreadMove s i .done t) :
    threadsWork n t + 1 ≤ threadsWork n s ∧ t.main = s.main ∧ t.idx = s.idx := by
  cases move with
  | started at_ | slept idx at_ | locked idx at_ free | updated idx at_ | unlocked idx at_ | signalled idx at_ =>
    refine ⟨threadsWork_update (within i _ at_) rfl ?_, rfl, rfl⟩
    rw [at_]
    exact Nat.le_refl _

theorem rank_whileLive (numLive : Int) (left : Nat) : (whileLive numLive).rank n left ≤ 3 * n + 5 := by
  rw [whileLive]
  split <;> simp only [MainPc.rank] <;> omega

theorem MainMove.lower (controlled : Controlled sleepTimes.length s) (move : MainMove sleepTimes s .done t) :
    work sleepTimes.length t + 1 ≤ work sleepTimes.length s := by
  have phase := controlled.phase
  cases move with
  | created at_ =>
    rw [at_] at phase
    have threads : threadsWork sleepTimes.length (createThread s) + 0 ≤ threadsWork sleepTimes.length s := by
      apply threadsWork_update phase.2.2 rfl
      rw [controlled.fresh at_]
      exact Nat.le_refl _
    have after : (createThread s).main = .next := rfl
    have same : (createThread s).idx = s.idx := rfl
    simp only [work, at_, after, same, MainPc.rank]
    omega
  | totalled at_ =>
    have bound := rank_whileLive (n := sleepTimes.length) sleepTimes.length (sleepTimes.length - s.idx)
    simp only [work, at_, MainPc.rank, threadsWork] at bound ⊢
    omega
  | ended at_ last =>
    rw [at_] at phase
    obtain ⟨-, looping, inside, -⟩ := phase
    have total := looping.1
    have live := looping.2
    have dead : s.numLive = 0 := by omega
    simp only [work, at_, dead, whileLive_zero, MainPc.rank, threadsWork]
    omega
  | locked at_ free =>
    rcases at_ with at_ | at_ <;> simp only [work, at_, MainPc.rank, threadsWork] <;> omega
  | waits at_ dead =>
    rw [at_] at phase
    obtain ⟨running, -, -, -, live⟩ := phase
    have positive := running.positive
    omega
  | next at_ =>
    rw [at_] at phase
    have inside := phase.2.2
    simp only [work, at_, MainPc.rank, threadsWork]
    omega
  | marked at_ =>
    rw [at_] at phase
    have inside := phase.2.2.1
    simp only [work, at_, MainPc.rank, threadsWork, markSlot, State.setState, State.setSlot]
    omega
  | refused at_ | accepted at_ | allocated at_ | filled _ at_ | filledAll at_ | scans at_ | found at_ | skipped _ at_
  | joined _ _ _ at_ | unlocked at_ | exits at_ =>
    simp only [work, at_, MainPc.rank, threadsWork, State.setSlot]
    omega

theorem step_lower (working : Working sleepTimes.length s) (succeeds : action.Succeeds)
    (taken : step sleepTimes s action = some t) : work sleepTimes.length t + 1 ≤ work sleepTimes.length s := by
  have moved := (step_some taken).2
  cases action with
  | main outcome =>
    cases outcome with
    | done => exact MainMove.lower working.controlled moved
    | count n => cases moved
    | error errno => cases succeeds
  | thread i outcome =>
    cases outcome with
    | count n => cases moved
    | error errno => cases succeeds
    | done =>
      obtain ⟨less, main, idx⟩ := ThreadMove.lower working.within moved
      rw [work, work, main, idx]
      omega

theorem work_initial : work n initial = 12 * n + 9 := by
  have threads : threadsWork n initial = n * 6 := by
    have each : ∀ i ∈ List.range n, threadRank (initial.threads i) = 6 := fun _ _ => rfl
    rw [threadsWork, total_const each, List.length_range]
  rw [work, threads]
  simp only [initial, MainPc.rank]
  omega

end Work

/-- Where no call fails, the program comes to its end after a bounded number of statements, or to a deadlock
    that nothing ends; the second does not happen where every thread reads its own number. -/
theorem ends_or_deadlocks {actions : List Action} (run : exec (step sleepTimes) actions initial = some s)
    (succeed : Along (step sleepTimes) (fun _ action => action.Succeeds) actions initial) :
    actions.length ≤ 12 * sleepTimes.length + 9 ∧
      ((∀ status, s.main ≠ .exited status) → CanAdvance sleepTimes s ∨ s.Deadlocked) ∧
      (s.Deadlocked → ∀ more t, exec (step sleepTimes) more s = some t →
        Along (step sleepTimes) (fun _ action => action.Succeeds) more s → t.Deadlocked) ∧
      (Along (step sleepTimes) ReadsOwn actions initial → ¬ s.Deadlocked) := by
  have kept : ∀ s action t, Working sleepTimes.length s → Action.Succeeds action →
      step sleepTimes s action = some t → Working sleepTimes.length t :=
    fun s action t working succeeds taken => step_working working succeeds taken
  have working := exec_invariant kept working_initial succeed run
  refine ⟨?_, advances_or_deadlocked working, ?_, ?_⟩
  · have bound := count_add_measure_le (fun _ => true) (work sleepTimes.length) kept
      (fun s action t working succeeds taken => step_lower working succeeds taken) working_initial succeed run
    rw [List.countP_true, work_initial] at bound
    omega
  · intro dead more t later fine
    have both : Working sleepTimes.length t ∧ t.Deadlocked := by
      apply exec_invariant (I := fun s => Working sleepTimes.length s ∧ s.Deadlocked) _ ⟨working, dead⟩ fine later
      rintro s action t ⟨working, dead⟩ succeeds taken
      exact ⟨kept s action t working succeeds taken, step_deadlocked working.controlled dead succeeds taken⟩
    exact both.2
  · intro reads
    have own : Controlled sleepTimes.length s ∧ s.Own := by
      apply exec_invariant (I := fun s => Controlled sleepTimes.length s ∧ s.Own) _ _ reads run
      · rintro s action t ⟨controlled, own⟩ reads taken
        exact ⟨controlled.step taken, (own_step controlled taken).mpr ⟨own, reads⟩⟩
      · exact ⟨controlled_initial, fun _ _ _ there => nomatch there⟩
    exact not_deadlocked working own.2

def lateStart : List Action :=
  [.main .done, .main .done, .main .done, .main .done, .main .done, .main .done, .thread 0 .done, .main .done,
    .main .done, .main .done, .main .done, .thread 0 .done, .thread 0 .done, .thread 0 .done, .thread 0 .done,
    .thread 1 .done, .thread 1 .done, .main .done, .main .done, .main .done, .main .done, .main .done]

theorem ends_or_deadlocks_lateStart :
    ∃ s, exec (step [2, 1]) lateStart initial = some s ∧ s.Deadlocked ∧
      ∀ more t, exec (step [2, 1]) more s = some t →
        Along (step [2, 1]) (fun _ action => action.Succeeds) more s → t.Deadlocked := by
  have reached : ∃ s, exec (step [2, 1]) lateStart initial = some s ∧ s.Deadlocked := ⟨_, rfl, rfl, 1, 2, rfl, rfl⟩
  obtain ⟨s, run, dead⟩ := reached
  exact ⟨s, run, dead, (ends_or_deadlocks run (by decide +kernel)).2.2.1 dead⟩

end SystemProgramming.ThreadMultijoin
