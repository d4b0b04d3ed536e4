import SystemProgramming.ThreadMultijoin.Control

namespace SystemProgramming.ThreadMultijoin

open Transition

variable {sleepTimes : List Int} {n : Nat}

def ThreadPc.idx : ThreadPc → Option Nat
  | .start => none
  | .sleep idx | .lock idx | .update idx | .unlock idx | .signal idx | .returned idx => some idx

def ThreadPc.set : ThreadPc → Option Nat
  | .start | .sleep _ | .lock _ | .update _ => none
  | .unlock idx | .signal idx | .returned idx => some idx

def State.HasSet (s : State) (i idx : Nat) : Prop := ∃ pc, s.threads i = some pc ∧ pc.set = some idx

def MainPc.joining : MainPc → Bool
  | .lock | .condition | .wait | .scan | .join | .mark | .unlock | .exit | .exited .success => true
  | .usage | .calloc | .fill | .create | .next | .totals | .exited .failure => false

/-- Each thread is joined once, by a call made after it has set its slot; the counters count; and
    nobody is left behind. -/
structure JoinDiscipline (n : Nat) (s : State) : Prop where
  once : s.joined.Nodup
  calls : s.main = .join → ∀ slot ∈ s.thread[s.idx]?, ∀ i ∈ slot.tid, i ∉ s.joined ∧ s.HasSet i i
  terminated : ∀ i ∈ s.joined, s.HasSet i i
  counters : s.main.joining = true → s.mutex = none →
    s.numUnjoined = s.states.count .TS_TERMINATED ∧
      s.numLive = s.states.countP fun state => state ≠ .TS_JOINED
  exits : ∀ status, s.main = .exited status → ∀ i < n, (s.threads i).isSome = true → i ∈ s.joined

/-- No call fails; each thread reads `idx` while that is still the number it was created with; and
    `main` locks the mutex when every slot says `TS_TERMINATED`. -/
def Orderly (s : State) : Action → Prop
  | .main outcome => outcome.isError = false ∧
      (s.main = .lock → ∀ state ∈ s.states, state = .TS_TERMINATED)
  | .thread i outcome => outcome.isError = false ∧ (s.threads i = some .start → s.idx = i)

instance (s : State) : (action : Action) → Decidable (Orderly s action)
  | .main _ => inferInstanceAs (Decidable (_ ∧ (_ → _)))
  | .thread _ _ => inferInstanceAs (Decidable (_ ∧ (_ → _)))

namespace State

def Own (s : State) : Prop := ∀ i pc idx, s.threads i = some pc → pc.idx = some idx → idx = i

def Remaining (n c : Nat) (s : State) : Prop :=
  ∀ j < n, j ∈ s.joined ∨ (c ≤ j ∧ s.states[j]? = some .TS_TERMINATED)

def Complete (n : Nat) (s : State) : Prop := ∀ j < n, j ∈ s.joined

def JoinsAll (n : Nat) (s : State) : MainPc → Prop
  | .usage | .calloc | .fill | .create | .next | .totals | .lock | .wait => True
  | .condition => s.Remaining n 0
  | .scan | .join => s.Remaining n s.idx
  | .mark => s.Remaining n (s.idx + 1)
  | .unlock | .exit | .exited .success => s.Complete n
  | .exited .failure => n = 0

def Tidy (n : Nat) (s : State) : Prop := s.Own ∧ s.JoinsAll n s.main

end State

theorem own_setPc {s : State} {i : Nat} {pc pc' : ThreadPc} (present : s.threads i = some pc)
    (copied : pc.idx = none ∨ pc.idx = pc'.idx) :
    (s.setPc i pc').Own ↔ s.Own ∧ ∀ idx, pc'.idx = some idx → idx = i := by
  constructor
  · intro own
    constructor
    · intro j before idx there local_
      by_cases same : j = i
      · subst same
        rw [present, Option.some.injEq] at there
        subst there
        rcases copied with nothing | equal
        · rw [nothing] at local_
          cases local_
        · exact own j pc' idx (Function.update_self ..) (by rw [← equal, local_])
      · exact own j before idx ((Function.update_of_ne same ..).trans there) local_
    · intro idx local_
      exact own i pc' idx (Function.update_self ..) local_
  · rintro ⟨own, new⟩ j after idx there local_
    rcases Parties.update_some there with ⟨rfl, rfl⟩ | ⟨-, before⟩
    · exact new idx local_
    · exact own j after idx before local_

/-- Only what `main` holds the mutex for looks at the states of the slots. -/
theorem joinsAll_frame {s t : State} (controlled : Controlled n s) (frame : Frame s t) :
    t.JoinsAll n t.main ↔ s.JoinsAll n s.main := by
  have owned := controlled.mainOwned
  rw [frame.main]
  cases at_ : s.main with
  | condition | scan | join | mark =>
    have held : s.mutex = some .main := owned (by rw [at_]; rfl)
    simp only [State.JoinsAll, State.Remaining, frame.joined, frame.idx, frame.held held]
  | unlock | exit => simp only [State.JoinsAll, State.Complete, frame.joined]
  | exited status => cases status <;> simp only [State.JoinsAll, State.Complete, frame.joined]
  | _ => exact Iff.rfl

theorem Controlled.positive {s : State} (controlled : Controlled n s) {i : Nat} {pc : ThreadPc}
    (present : s.threads i = some pc) : 0 < n := by
  by_cases zero : n = 0
  · have empty := controlled.phase.nothing zero
    rw [empty.2.2 i] at present
    cases present
  · omega

theorem own_thread {s t : State} {i : Nat} (move : ThreadMove s i .done t) :
    t.Own ↔ s.Own ∧ (s.threads i = some .start → s.idx = i) := by
  -- Past its first step a thread only carries its copy along.
  have carried : ∀ pc pc' idx, s.threads i = some pc → pc.idx = some idx → pc'.idx = some idx →
      ((s.setPc i pc').Own ↔ s.Own ∧ (s.threads i = some .start → s.idx = i)) := by
    intro pc pc' idx at_ before after
    rw [own_setPc at_ (.inr (by rw [before, after]))]
    apply and_congr_right
    intro own
    constructor
    · intro _ atStart
      rw [at_, Option.some.injEq] at atStart
      rw [atStart] at before
      cases before
    · intro _ other same
      rw [after, Option.some.injEq] at same
      rw [← same]
      exact own i pc idx at_ before
  cases move with
  | started at_ =>
    rw [own_setPc at_ (.inl rfl)]
    apply and_congr_right
    intro _
    constructor
    · intro mine _
      exact mine s.idx rfl
    · intro mine idx same
      cases same
      exact mine at_
  | slept idx at_ => exact carried _ _ idx at_ rfl rfl
  | locked idx at_ free => exact carried _ (.update idx) idx at_ rfl rfl
  | updated idx at_ => exact carried _ (.unlock idx) idx at_ rfl rfl
  | unlocked idx at_ => exact carried _ (.signal idx) idx at_ rfl rfl
  | signalled idx at_ => exact carried _ _ idx at_ rfl rfl

theorem tidy_thread {s t : State} {i : Nat} {outcome : Outcome} (controlled : Controlled n s)
    (move : ThreadMove s i outcome t) :
    t.Tidy n ↔ s.Tidy n ∧ Orderly s (.thread i outcome) := by
  cases outcome with
  | done =>
    unfold State.Tidy
    rw [own_thread move, joinsAll_frame controlled (move.frame controlled)]
    simp only [Orderly, Outcome.isError, true_and]
    exact and_right_comm
  | count n => cases move
  | error errno =>
    cases move with
    | failed pc _ at_ =>
      have positive := controlled.positive at_
      constructor
      · rintro ⟨-, zero⟩
        exact absurd zero (Nat.ne_of_gt positive)
      · rintro ⟨-, impossible, -⟩
        cases impossible

theorem own_create {s : State} (fresh : s.threads s.idx = none) : (createThread s).Own ↔ s.Own := by
  constructor
  · intro own i pc idx there local_
    apply own i pc idx _ local_
    apply (Function.update_of_ne _ ..).trans there
    rintro rfl
    rw [fresh] at there
    cases there
  · intro own i pc idx there local_
    rcases Parties.update_some there with ⟨-, rfl⟩ | ⟨-, before⟩
    · cases local_
    · exact own i pc idx before local_

theorem remaining_all {s : State} : s.Remaining n n ↔ s.Complete n := by
  constructor
  · intro remaining j bound
    rcases remaining j bound with joined | ⟨later, -⟩
    · exact joined
    · omega
  · intro complete j bound
    exact .inl (complete j bound)

theorem remaining_skipped {s : State} {state : TState} (there : s.states[s.idx]? = some state)
    (other : state ≠ .TS_TERMINATED) : s.Remaining n (s.idx + 1) ↔ s.Remaining n s.idx := by
  constructor
  · intro remaining j bound
    rcases remaining j bound with joined | ⟨later, terminated⟩
    · exact .inl joined
    · exact .inr ⟨by omega, terminated⟩
  · intro remaining j bound
    rcases remaining j bound with joined | ⟨later, terminated⟩
    · exact .inl joined
    · right
      have ne : j ≠ s.idx := by
        rintro rfl
        rw [there, Option.some.injEq] at terminated
        exact other terminated
      exact ⟨by omega, terminated⟩

theorem remaining_joined {s : State} (terminated : s.states[s.idx]? = some .TS_TERMINATED) :
    ({ s with main := .mark, joined := s.joined ++ [s.idx] } : State).Remaining n (s.idx + 1) ↔
      s.Remaining n s.idx := by
  constructor
  · intro remaining j bound
    rcases remaining j bound with joined | ⟨later, there⟩
    · rcases List.mem_append.mp joined with old | new
      · exact .inl old
      · rw [List.mem_singleton.mp new]
        exact .inr ⟨Nat.le_refl _, terminated⟩
    · exact .inr ⟨by omega, there⟩
  · intro remaining j bound
    rcases remaining j bound with joined | ⟨later, there⟩
    · exact .inl (List.mem_append_left _ joined)
    · by_cases this_one : j = s.idx
      · rw [this_one]
        exact .inl (List.mem_append_right _ List.mem_cons_self)
      · exact .inr ⟨by omega, there⟩

theorem states_mark (s : State) : (markSlot s).states = s.states.set s.idx .TS_JOINED :=
  State.states_setSlot_state _ fun _ => rfl

theorem remaining_marked {s : State} :
    (markSlot s).Remaining n (s.idx + 1) ↔ s.Remaining n (s.idx + 1) := by
  unfold State.Remaining
  rw [states_mark]
  apply forall₂_congr
  intro j _
  apply or_congr Iff.rfl
  apply and_congr_right
  intro later
  rw [List.getElem?_set_ne (by omega)]

theorem remaining_start {s : State} (nothing : s.joined = []) (length : s.thread.length = n) :
    s.Remaining n 0 ↔ ∀ state ∈ s.states, state = .TS_TERMINATED := by
  constructor
  · intro remaining state member
    rcases List.getElem?_of_mem member with ⟨j, there⟩
    have bound : j < s.states.length := (List.getElem?_eq_some_iff.mp there).1
    rw [State.length_states, length] at bound
    rcases remaining j bound with joined | ⟨-, terminated⟩
    · rw [nothing] at joined
      cases joined
    · rw [there, Option.some.injEq] at terminated
      exact terminated
  · intro all j bound
    right
    have inside : j < s.states.length := by rw [State.length_states, length]; exact bound
    refine ⟨Nat.zero_le j, ?_⟩
    rw [List.getElem?_eq_getElem inside]
    exact congrArg some (all _ (List.getElem_mem inside))

theorem Controlled.calls_positive {s : State} (controlled : Controlled n s)
    (calls : s.main.calls = true) : 0 < n := by
  have phase := controlled.phase
  cases at_ : s.main with
  | calloc =>
    rw [at_] at phase
    exact phase.1
  | create | lock | join =>
    rw [at_] at phase
    exact phase.1.positive
  | unlock =>
    rw [at_] at phase
    exact phase.positive
  | wait =>
    rw [at_] at phase
    exact phase.elim
  | _ =>
    rw [at_] at calls
    cases calls

theorem joinsAll_main {s t : State} (controlled : Controlled n s) (count : sleepTimes.length = n)
    (move : MainMove sleepTimes s .done t) :
    t.JoinsAll n t.main ↔ s.JoinsAll n s.main ∧
      (s.main = .lock → ∀ state ∈ s.states, state = .TS_TERMINATED) := by
  have phase := controlled.phase
  cases move with
  | refused at_ nothing =>
    have zero : n = 0 := by rw [← count, nothing]; rfl
    simp [at_, State.JoinsAll, zero]
  | locked at_ free =>
    rcases at_ with at_ | at_
    · rw [at_] at phase ⊢
      simp only [State.JoinsAll, true_and, forall_const]
      exact remaining_start phase.2.1.1 phase.1.length
    · rw [at_] at phase
      exact phase.elim
  | waits at_ dead =>
    rw [at_] at phase
    have live := phase.2.2.2.2
    have positive := phase.1.positive
    omega
  | skipped state at_ more there other =>
    simp only [at_, State.JoinsAll, reduceCtorEq, false_implies, and_true]
    exact remaining_skipped there other
  | ended at_ last =>
    rw [at_] at phase
    rcases phase with ⟨running, looping, bound, -⟩
    have total := looping.1
    have live := looping.2
    have all : s.idx = n := by omega
    have dead : s.numLive = 0 := by omega
    simp only [at_, dead, whileLive_zero, State.JoinsAll, reduceCtorEq, false_implies, and_true, all]
    exact remaining_all.symm
  | joined i idx slot at_ there tid returned =>
    have same := (controlled.join at_ there tid).1
    rw [at_] at phase
    rw [same]
    simp only [at_, State.JoinsAll, reduceCtorEq, false_implies, and_true]
    exact remaining_joined phase.2.2.2.2
  | marked at_ =>
    simp only [at_, State.JoinsAll, reduceCtorEq, false_implies, and_true]
    exact remaining_marked
  | totalled at_ =>
    rw [at_] at phase
    have positive := phase.1.positive
    rw [count, whileLive_of_pos (by omega)]
    simp [at_, State.JoinsAll]
  | scans at_ live =>
    simp only [at_, State.JoinsAll, reduceCtorEq, false_implies, and_true]
    exact Iff.rfl
  | found at_ more terminated =>
    simp only [at_, State.JoinsAll, reduceCtorEq, false_implies, and_true]
    exact Iff.rfl
  | unlocked at_ =>
    simp only [at_, State.JoinsAll, reduceCtorEq, false_implies, and_true]
    exact Iff.rfl
  | exits at_ =>
    simp only [at_, State.JoinsAll, reduceCtorEq, false_implies, and_true]
    exact Iff.rfl
  | filled sleepTime at_ more => simp [at_, State.JoinsAll, State.setSlot]
  | created at_ => simp [at_, State.JoinsAll, createThread]
  | accepted at_ _ | allocated at_ | filledAll at_ _ | next at_ => simp [at_, State.JoinsAll]

theorem own_main {s t : State} (controlled : Controlled n s) (move : MainMove sleepTimes s .done t) :
    t.Own ↔ s.Own := by
  cases move with
  | created at_ => exact own_create (controlled.fresh at_)
  | _ => exact Iff.rfl

theorem tidy_main {s t : State} {outcome : Outcome} (controlled : Controlled n s)
    (count : sleepTimes.length = n) (move : MainMove sleepTimes s outcome t) :
    t.Tidy n ↔ s.Tidy n ∧ Orderly s (.main outcome) := by
  cases outcome with
  | done =>
    unfold State.Tidy
    rw [own_main controlled move, joinsAll_main controlled count move]
    simp only [Orderly, Outcome.isError, true_and]
    exact and_assoc.symm
  | count n => cases move
  | error errno =>
    cases move with
    | failed _ at_ =>
      have positive := controlled.calls_positive at_
      constructor
      · rintro ⟨-, zero⟩
        exact absurd zero (Nat.ne_of_gt positive)
      · rintro ⟨-, impossible, -⟩
        cases impossible

theorem controlled_initial : Controlled n initial where
  owned := by
    intro i pc there
    cases there
  mainOwned := by
    intro holds
    cases holds
  ordered := List.Pairwise.nil
  phase := ⟨rfl, rfl, fun _ => rfl⟩

theorem Controlled.step {s t : State} {action : Action} (controlled : Controlled sleepTimes.length s)
    (taken : ThreadMultijoin.step sleepTimes s action = some t) : Controlled sleepTimes.length t := by
  have moved := (step_some taken).2
  cases action with
  | main outcome => exact controlled.main_step rfl moved
  | thread i outcome => exact controlled.thread_step moved

theorem tidy_step {s t : State} {action : Action} (controlled : Controlled sleepTimes.length s)
    (taken : step sleepTimes s action = some t) :
    t.Tidy sleepTimes.length ↔ s.Tidy sleepTimes.length ∧ Orderly s action := by
  have moved := (step_some taken).2
  cases action with
  | main outcome => exact tidy_main controlled rfl moved
  | thread i outcome => exact tidy_thread controlled moved

theorem tidy_initial : initial.Tidy n := by
  constructor
  · intro i pc idx there
    cases there
  · trivial

theorem tidy_iff_orderly {actions : List Action} {s : State}
    (run : exec (step sleepTimes) actions initial = some s) :
    s.Tidy sleepTimes.length ↔ Along (step sleepTimes) Orderly actions initial := by
  have tracked : s.Tidy sleepTimes.length ↔
      initial.Tidy sleepTimes.length ∧ Along (step sleepTimes) Orderly actions initial :=
    along_iff (fun _ _ _ controlled taken => controlled.step taken)
      (fun _ _ _ controlled taken => tidy_step controlled taken) controlled_initial run
  rw [tracked, and_iff_right tidy_initial]

end SystemProgramming.ThreadMultijoin
