import SystemProgramming.Library.Termination
import SystemProgramming.ThreadIncr.Counter

namespace SystemProgramming.ThreadIncr

open Mutex Transition

variable {loops glob : BitVec 32} {done : List Tid} {s t : State} {i : Tid} {action : Action}

def Action.Succeeds : Action → Prop
  | .main outcome => outcome.isError = false
  | .thread _ => True

instance : (action : Action) → Decidable action.Succeeds
  | .main outcome => inferInstanceAs (Decidable (outcome.isError = false))
  | .thread _ => isTrue trivial

def Thread.left (th : Thread) : Nat := (th.loops.toInt - th.j.toInt).toNat

def Thread.work (loops : BitVec 32) (th : Thread) : Nat :=
  match th.pc with
  | .start => 7 * loops.toInt.toNat + 2
  | .test => 7 * th.left + 1
  | .lock => 7 * th.left
  | .load => 7 * th.left - 1
  | .add => 7 * th.left - 2
  | .store => 7 * th.left - 3
  | .unlock => 7 * th.left - 4
  | .next => 7 * th.left - 5
  | .returned => 0

def threadWork (loops : BitVec 32) (th : Option Thread) : Nat :=
  th.elim (7 * loops.toInt.toNat + 2) (Thread.work loops)

def MainPc.rank : MainPc → Nat
  | .create .t1 => 5
  | .create .t2 => 4
  | .join .t1 => 3
  | .join .t2 => 2
  | .print => 1
  | .exited _ => 0

def State.work (s : State) : Nat :=
  s.main.rank + threadWork s.loops (s.threads .t1) + threadWork s.loops (s.threads .t2)

theorem left_of_turn {th : Thread} {n : Nat} (turn : th.Turn loops n) : 0 < th.left := by
  have less := turn.less
  rw [Thread.left, turn.same, turn.round]
  omega

theorem Local.work {th th' : Thread} {n : Nat} (same : s.loops = loops) (progress : th.Progress loops s.glob n)
    (moved : Local s th th') : th'.work loops + 1 ≤ th.work loops := by
  unfold Thread.Progress at progress
  cases moved with
  | started at_ => simp [Thread.work, at_, Thread.left, same]
  | entered at_ less => simp [Thread.work, at_, Thread.left]
  | ended at_ last => simp [Thread.work, at_]
  | loaded at_ =>
    rw [at_] at progress
    have some_ := left_of_turn progress
    simp only [Thread.work, at_, Thread.left] at some_ ⊢
    omega
  | added at_ =>
    rw [at_] at progress
    have some_ := left_of_turn progress.1
    simp only [Thread.work, at_, Thread.left] at some_ ⊢
    omega
  | stepped at_ =>
    rw [at_] at progress
    obtain ⟨m, rfl, turn⟩ := progress
    have next := toInt_add_one turn.round turn.less
    have less := turn.less
    simp only [Thread.work, at_, Thread.left, turn.same, turn.round, next]
    omega

theorem ThreadMove.work {th : Thread} {n : Nat} (same : s.loops = loops) (progress : th.Progress loops s.glob n)
    (move : ThreadMove s i th t) :
    ∃ th', t.threads = Function.update s.threads i (some th') ∧ th'.work loops + 1 ≤ th.work loops ∧
      t.main = s.main ∧ t.loops = s.loops := by
  unfold Thread.Progress at progress
  cases move with
  | «local» th' moved => exact ⟨th', rfl, moved.work same progress, rfl, rfl⟩
  | locked at_ free =>
    rw [at_] at progress
    have some_ := left_of_turn progress
    refine ⟨_, rfl, ?_, rfl, rfl⟩
    simp only [Thread.work, at_, Thread.left] at some_ ⊢
    omega
  | stored at_ =>
    rw [at_] at progress
    have some_ := left_of_turn progress.1
    refine ⟨_, rfl, ?_, rfl, rfl⟩
    simp only [Thread.work, at_, Thread.left] at some_ ⊢
    omega
  | unlocked at_ =>
    rw [at_] at progress
    obtain ⟨m, -, turn⟩ := progress
    have some_ := left_of_turn turn
    refine ⟨_, rfl, ?_, rfl, rfl⟩
    simp only [Thread.work, at_, Thread.left] at some_ ⊢
    omega

theorem work_update {threads : Tid → Option Thread} {th : Thread} {d : Nat}
    (less : th.work loops + d ≤ threadWork loops (threads i)) :
    threadWork loops (Function.update threads i (some th) .t1) +
        threadWork loops (Function.update threads i (some th) .t2) + d ≤
      threadWork loops (threads .t1) + threadWork loops (threads .t2) := by
  have here : threadWork loops (some th) = th.work loops := rfl
  cases i with
  | t1 =>
    rw [Function.update_self, Function.update_of_ne (by decide), here]
    omega
  | t2 =>
    rw [Function.update_self, Function.update_of_ne (by decide), here]
    omega

theorem mainStep_work {outcome : Outcome} (counted : Counted loops done s)
    (taken : mainStep s outcome = some t) : t.work + 1 ≤ s.work := by
  unfold mainStep at taken
  split at taken
  case h_1 i at_ =>
    cases taken
    have absent : s.threads i = none := by
      apply counted.lifecycle.pending
      rw [at_]
      cases i <;> rfl
    have same : Thread.work s.loops ⟨.start, 0, 0, 0⟩ + 0 ≤ threadWork s.loops (s.threads i) := by
      rw [absent]
      exact Nat.le_refl _
    have both := work_update (i := i) same
    have lower : (MainPc.afterCreate i).rank + 1 = s.main.rank := by
      rw [at_]
      cases i <;> rfl
    simp only [State.work, State.setThread]
    omega
  case h_2 i errno at_ =>
    cases taken
    cases i <;> simp only [State.work, at_, MainPc.rank] <;> omega
  case h_3 i errno at_ =>
    cases taken
    cases i <;> simp only [State.work, at_, MainPc.rank] <;> omega
  case h_4 i at_ =>
    split at taken
    · cases taken
      cases i <;> simp only [State.work, at_, MainPc.rank, MainPc.afterJoin] <;> omega
    · cases taken
  case h_5 at_ =>
    cases taken
    simp only [State.work, at_, MainPc.rank]
    omega
  case h_6 => cases taken

theorem step_work (counted : Counted loops done s) (taken : step s action = some t) : t.work + 1 ≤ s.work := by
  unfold step at taken
  split at taken
  · cases taken
  · cases action with
    | main outcome => exact mainStep_work counted taken
    | thread i =>
      obtain ⟨th, here, move⟩ := threadStep_moves taken
      have progress := counted.progress i
      rw [here] at progress
      obtain ⟨th', threads, less, main, constant⟩ := move.work counted.constant progress
      have before : th'.work loops + 1 ≤ threadWork loops (s.threads i) := by rwa [here]
      have both := work_update before
      rw [State.work, State.work, threads, main, constant, counted.constant]
      omega

structure Created (s : State) : Prop where
  first : s.main = .create .t2 → (s.threads .t1).isSome
  both : ∀ j, s.main = .join j → ∀ i, (s.threads i).isSome

theorem created_initial (loops : BitVec 32) : Created (initial loops) := ⟨by simp [initial], by simp [initial]⟩

theorem isSome_update {threads : Tid → Option Thread} {th : Thread} {j : Tid} (before : (threads j).isSome) :
    (Function.update threads i (some th) j).isSome := by
  by_cases same : j = i
  · rw [same, Function.update_self]
    rfl
  · rwa [Function.update_of_ne same]

theorem mainStep_created {outcome : Outcome} (created : Created s) (taken : mainStep s outcome = some t) :
    Created t := by
  unfold mainStep at taken
  split at taken
  case h_1 i at_ =>
    cases taken
    cases i with
    | t1 =>
      refine ⟨fun _ => ?_, by simp [MainPc.afterCreate]⟩
      simp [State.setThread]
    | t2 =>
      refine ⟨by simp [MainPc.afterCreate], ?_⟩
      intro j _ i
      show (Function.update s.threads .t2 (some _) i).isSome
      cases i with
      | t1 => exact isSome_update (created.first at_)
      | t2 => simp
  case h_2 i errno at_ | h_3 i errno at_ =>
    cases taken
    exact ⟨by simp, by simp⟩
  case h_4 i at_ =>
    split at taken
    · cases taken
      exact ⟨by cases i <;> simp [MainPc.afterJoin], fun _ _ => created.both i at_⟩
    · cases taken
  case h_5 at_ =>
    cases taken
    exact ⟨by simp, by simp⟩
  case h_6 => cases taken

theorem step_created (counted : Counted loops done s) (created : Created s) (taken : step s action = some t) :
    Created t := by
  unfold step at taken
  split at taken
  · cases taken
  · cases action with
    | main outcome => exact mainStep_created created taken
    | thread i =>
      obtain ⟨th, here, move⟩ := threadStep_moves taken
      have progress := counted.progress i
      rw [here] at progress
      obtain ⟨th', threads, -, main, -⟩ := move.work counted.constant progress
      refine ⟨?_, ?_⟩
      · rw [main, threads]
        exact fun at_ => isSome_update (created.first at_)
      · rw [main, threads]
        exact fun j at_ i => isSome_update (created.both j at_ i)

theorem threadStep_isSome {th : Thread} (here : s.threads i = some th) (running : th.pc ≠ .returned)
    (free : th.pc = .lock → s.owner = none) : (threadStep s i).isSome := by
  rw [threadStep, here, Option.bind_some]
  cases at_ : th.pc with
  | returned => exact absurd at_ running
  | lock => simp [free at_]
  | _ => rfl

/-- While a thread runs, one of them can go on: the owner of the mutex, or anyone if there is none. -/
theorem thread_advances {th : Thread} (counted : Counted loops done s) (here : s.threads i = some th)
    (running : th.pc ≠ .returned) : ∃ j, (threadStep s j).isSome := by
  cases owner : s.owner with
  | none => exact ⟨i, threadStep_isSome here running fun _ => owner⟩
  | some j =>
    have inside : Critical (s.threads j) := (counted.guarded j).mpr owner
    obtain ⟨other, there, critical⟩ := (Option.any_eq_true _ _).mp inside
    refine ⟨j, threadStep_isSome there ?_ ?_⟩
    · intro at_
      simp [at_, ThreadPc.critical] at critical
    · intro at_
      simp [at_, ThreadPc.critical] at critical

theorem step_running (unended : ∀ status, s.main ≠ .exited status) (action : Action) :
    step s action =
      match action with
      | .main outcome => mainStep s outcome
      | .thread i => threadStep s i := by
  unfold step
  split
  · rename_i status at_
    exact absurd at_ (unended status)
  · rfl

theorem advances (counted : Counted loops done s) (created : Created s)
    (unended : ∀ status, s.main ≠ .exited status) : ∃ action t, action.Succeeds ∧ step s action = some t := by
  have main : (mainStep s .done).isSome → ∃ action t, action.Succeeds ∧ step s action = some t := by
    intro enabled
    obtain ⟨t, taken⟩ := Option.isSome_iff_exists.mp enabled
    exact ⟨.main .done, t, rfl, (step_running unended _).trans taken⟩
  have thread : ∀ i, (threadStep s i).isSome → ∃ action t, action.Succeeds ∧ step s action = some t := by
    intro i enabled
    obtain ⟨t, taken⟩ := Option.isSome_iff_exists.mp enabled
    exact ⟨.thread i, t, trivial, (step_running unended _).trans taken⟩
  cases at_ : s.main with
  | create i => exact main (by simp [mainStep, at_])
  | join i =>
    obtain ⟨th, here⟩ := Option.isSome_iff_exists.mp (created.both i at_ i)
    by_cases returned : th.pc = .returned
    · exact main (by simp [mainStep, at_, State.hasReturned, here, returned])
    · obtain ⟨j, enabled⟩ := thread_advances counted here returned
      exact thread j enabled
  | print => exact main (by simp [mainStep, at_])
  | exited status => exact absurd at_ (unended status)

theorem Counted.twice (counted : Counted loops done s) (joined : ∀ i, s.main.hasJoined i = true) :
    s.glob = BitVec.ofInt 32 (2 * max loops.toInt 0) := by
  have first := counted.rounds (joined .t1)
  have second := counted.rounds (joined .t2)
  rw [counted.glob, length_eq_count, ← BitVec.ofInt_natCast]
  congr 1
  omega

structure Printed (s : State) : Prop where
  succeeds : s.main ≠ .exited .failure
  output : s.main = .exited .success → s.stdout = [s.glob]
  quiet : s.main ≠ .exited .success → s.stdout = []

theorem mainStep_printed {outcome : Outcome} (succeeds : outcome.isError = false) (quiet : s.stdout = [])
    (taken : mainStep s outcome = some t) : Printed t := by
  unfold mainStep at taken
  split at taken
  case h_1 i at_ =>
    cases taken
    exact ⟨by cases i <;> simp [MainPc.afterCreate], by cases i <;> simp [MainPc.afterCreate], fun _ => quiet⟩
  case h_2 | h_3 => cases succeeds
  case h_4 i at_ =>
    split at taken
    · cases taken
      exact ⟨by cases i <;> simp [MainPc.afterJoin], by cases i <;> simp [MainPc.afterJoin], fun _ => quiet⟩
    · cases taken
  case h_5 at_ =>
    cases taken
    exact ⟨by simp, fun _ => by simp [quiet], fun open_ => absurd rfl open_⟩
  case h_6 => cases taken

theorem step_printed (succeeds : action.Succeeds) (printed : Printed s) (taken : step s action = some t) :
    Printed t := by
  unfold step at taken
  split at taken
  · cases taken
  · rename_i unended
    have quiet := printed.quiet (unended .success)
    cases action with
    | main outcome => exact mainStep_printed succeeds quiet taken
    | thread i =>
      obtain ⟨th, -, move⟩ := threadStep_moves taken
      have still : t.main = s.main ∧ t.stdout = s.stdout := by cases move <;> exact ⟨rfl, rfl⟩
      refine ⟨?_, ?_, fun _ => still.2.trans quiet⟩
      · rw [still.1]
        exact unended .failure
      · rw [still.1]
        exact fun ended => absurd ended (unended .success)

/-- Whatever the threads do in what order, the program ends after a bounded number of statements, there is
    no deadlock, and what it prints is twice the number of rounds as an `int`. -/
theorem counter_completes (loops : BitVec 32) {actions : List Action}
    (run : exec step actions (initial loops) = some s) :
    actions.length ≤ 14 * loops.toInt.toNat + 9 ∧
    ((∀ status, s.main ≠ .exited status) → ∃ action t, action.Succeeds ∧ step s action = some t) ∧
    (Along step (fun _ action => action.Succeeds) actions (initial loops) → ∀ status, s.main = .exited status →
      status = .success ∧ s.stdout = [BitVec.ofInt 32 (2 * max loops.toInt 0)]) := by
  have kept : ∀ s action t, (∃ done, Counted loops done s) ∧ Created s → True → step s action = some t →
      (∃ done, Counted loops done t) ∧ Created t :=
    fun s action t ⟨⟨done, counted⟩, created⟩ _ taken =>
      ⟨⟨_, step_counted counted taken⟩, step_created counted created taken⟩
  have start : (∃ done, Counted loops done (initial loops)) ∧ Created (initial loops) :=
    ⟨⟨[], counted_initial loops⟩, created_initial loops⟩
  obtain ⟨⟨done, counted⟩, created⟩ := exec_invariant kept start (along_true actions _) run
  refine ⟨?_, advances counted created, ?_⟩
  · have bound := count_add_measure_le (fun _ => true) State.work kept
      (fun s action t ⟨⟨done, counted⟩, _⟩ _ taken => step_work counted taken) start (along_true actions _) run
    have whole : (initial loops).work = 14 * loops.toInt.toNat + 9 := by
      simp only [State.work, initial, MainPc.rank, threadWork, Option.elim_none]
      omega
    rw [List.countP_true, whole] at bound
    omega
  · intro succeed status ended
    have printed : Printed s :=
      exec_invariant (fun s action t before succeeds taken => step_printed succeeds before taken)
        ⟨by simp [initial], by simp [initial], fun _ => rfl⟩ succeed run
    cases status with
    | failure => exact absurd ended printed.succeeds
    | success =>
      refine ⟨rfl, ?_⟩
      rw [printed.output ended, counted.twice]
      intro i
      rw [ended]
      rfl

theorem counter_completes_oneRound :
    ∃ s, exec step (oneRound ++ [.main .done]) (initial 1) = some s ∧ s.main = .exited .success ∧
      s.stdout = [2] := by
  have run : exec step (oneRound ++ [.main .done]) (initial 1) = some _ := rfl
  exact ⟨_, run, rfl, ((counter_completes 1 run).2.2 (by decide +kernel) .success rfl).2⟩

end SystemProgramming.ThreadIncr
