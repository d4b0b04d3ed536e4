import SystemProgramming.Library.Holders
import SystemProgramming.ThreadMultijoin.Orderly

namespace SystemProgramming.ThreadMultijoin

open Transition

variable {sleepTimes : List Int} {n : Nat}

structure Counted (s : State) : Prop where
  flagged : ∀ j state, s.states[j]? = some state → (state = .TS_ALIVE ↔ ¬ s.HasSet j j)
  unjoined : s.numUnjoined = s.states.count .TS_TERMINATED
  live : s.main.joining = true → s.numLive = s.states.countP fun state => state ≠ .TS_JOINED
  joined : ∀ i ∈ s.joined, s.HasSet i i

theorem hasSet_setPc {s : State} {i : Nat} {pc pc' : ThreadPc} (present : s.threads i = some pc)
    (same : pc'.set = pc.set) (j idx : Nat) : (s.setPc i pc').HasSet j idx ↔ s.HasSet j idx := by
  constructor
  · rintro ⟨after, there, set⟩
    rcases Parties.update_some there with ⟨rfl, rfl⟩ | ⟨-, before⟩
    · exact ⟨pc, present, by rw [← same, set]⟩
    · exact ⟨after, before, set⟩
  · rintro ⟨before, there, set⟩
    by_cases mine : j = i
    · subst mine
      rw [present, Option.some.injEq] at there
      subst there
      exact ⟨pc', Function.update_self .., by rw [same, set]⟩
    · exact ⟨before, (Function.update_of_ne mine ..).trans there, set⟩

theorem Counted.of_same {s t : State} (counted : Counted s) (states : t.states = s.states)
    (set : ∀ j idx, t.HasSet j idx ↔ s.HasSet j idx) (unjoined : t.numUnjoined = s.numUnjoined)
    (joined : t.joined = s.joined) (numLive : t.numLive = s.numLive)
    (joining : t.main.joining = true → s.main.joining = true) : Counted t where
  flagged := by
    intro j state there
    rw [states] at there
    rw [set]
    exact counted.flagged j state there
  unjoined := by rw [unjoined, states, counted.unjoined]
  live := by
    intro at_
    rw [numLive, states]
    exact counted.live (joining at_)
  joined := by
    intro i member
    rw [joined] at member
    rw [set]
    exact counted.joined i member

def MainPc.beforePass : MainPc → Bool
  | .usage | .calloc | .fill | .create | .next | .totals | .lock | .condition => true
  | _ => false

/-- The threads that exist are those that have a slot, and until the pass `idx` has gone past
    each of them. -/
theorem Controlled.thread_bound {s : State} (controlled : Controlled n s)
    (running : s.main ≠ .exited .failure) {i : Nat} {pc : ThreadPc}
    (present : s.threads i = some pc) :
    i < s.thread.length ∧ (s.main.beforePass = true → i ≤ s.idx) := by
  have phase := controlled.phase
  have isSome : (s.threads i).isSome = true := by
    rw [present]
    rfl
  cases at_ : s.main with
  | usage =>
    rw [at_] at phase
    rw [phase.2.2] at present
    cases present
  | calloc =>
    rw [at_] at phase
    rw [phase.2.2.2] at present
    cases present
  | fill | create | next =>
    rw [at_] at phase
    have created := (phase.1.created i).mp isSome
    have bound := phase.2.2
    rw [phase.1.length]
    exact ⟨by omega, fun _ => by omega⟩
  | totals =>
    rw [at_] at phase
    have created := (phase.1.created i).mp isSome
    have all := phase.2.2
    rw [phase.1.length]
    exact ⟨created, fun _ => by omega⟩
  | lock | condition =>
    rw [at_] at phase
    have created := (phase.1.created i).mp isSome
    have all := phase.2.2.1
    rw [phase.1.length]
    exact ⟨created, fun _ => by omega⟩
  | scan | join | mark =>
    rw [at_] at phase
    rw [phase.1.length]
    exact ⟨(phase.1.created i).mp isSome, nofun⟩
  | wait =>
    rw [at_] at phase
    exact phase.elim
  | unlock | exit =>
    rw [at_] at phase
    rw [phase.length]
    exact ⟨(phase.created i).mp isSome, nofun⟩
  | exited status =>
    cases status with
    | success =>
      rw [at_] at phase
      rw [phase.length]
      exact ⟨(phase.created i).mp isSome, nofun⟩
    | failure => exact absurd at_ running

theorem Counted.update {s : State} {i : Nat} (counted : Counted s)
    (at_ : s.threads i = some (.update i)) (inside : i < s.states.length) :
    Counted { (s.setPc i (.unlock i)).setState i .TS_TERMINATED with
      numUnjoined := s.numUnjoined + 1 } := by
  have states : ((s.setPc i (.unlock i)).setState i .TS_TERMINATED).states =
      s.states.set i .TS_TERMINATED := State.states_setSlot_state _ fun _ => rfl
  have unset : ¬ s.HasSet i i := by
    rintro ⟨pc, there, set⟩
    rw [at_, Option.some.injEq] at there
    rw [← there] at set
    cases set
  have alive : s.states[i] = .TS_ALIVE :=
    (counted.flagged i _ (List.getElem?_eq_getElem inside)).mpr unset
  have now : (s.setPc i (.unlock i)).HasSet i i := ⟨.unlock i, Function.update_self .., rfl⟩
  have still : ∀ j, j ≠ i → ((s.setPc i (.unlock i)).HasSet j j ↔ s.HasSet j j) := by
    intro j other
    constructor
    · rintro ⟨pc, there, set⟩
      exact ⟨pc, (Function.update_of_ne other ..).symm.trans there, set⟩
    · rintro ⟨pc, there, set⟩
      exact ⟨pc, (Function.update_of_ne other ..).trans there, set⟩
  constructor
  case flagged =>
    intro j state there
    change ((s.setPc i (.unlock i)).setState i .TS_TERMINATED).states[j]? = some state at there
    show state = .TS_ALIVE ↔ ¬ (s.setPc i (.unlock i)).HasSet j j
    rw [states, List.getElem?_set] at there
    by_cases mine : i = j
    · subst mine
      rw [if_pos rfl, if_pos inside, Option.some.injEq] at there
      subst there
      simp [now]
    · rw [if_neg mine] at there
      rw [still j (Ne.symm mine)]
      exact counted.flagged j state there
  case unjoined =>
    show s.numUnjoined + 1 = ((s.setPc i (.unlock i)).setState i .TS_TERMINATED).states.count _
    rw [states, List.count_set inside, alive, counted.unjoined]
    simp
  case live =>
    intro joining
    show s.numLive = (((s.setPc i (.unlock i)).setState i .TS_TERMINATED).states.countP _ : Nat)
    rw [states, List.countP_set inside, alive, counted.live joining]
    have positive : 0 < s.states.countP fun state => state ≠ .TS_JOINED := by
      rw [List.countP_pos_iff]
      exact ⟨s.states[i], List.getElem_mem inside, by rw [alive]; rfl⟩
    simp only [ne_eq, reduceCtorEq, not_false_eq_true, decide_true, if_true] at positive ⊢
    omega
  case joined =>
    intro j member
    show (s.setPc i (.unlock i)).HasSet j j
    by_cases mine : j = i
    · rw [mine]
      exact now
    · exact (still j mine).mpr (counted.joined j member)

theorem Counted.thread_step {s t : State} {i : Nat} (counted : Counted s)
    (controlled : Controlled n s) (running : s.main ≠ .exited .failure) (own : s.Own)
    (move : ThreadMove s i .done t) : Counted t := by
  cases move with
  | started at_ =>
    exact counted.of_same rfl (hasSet_setPc at_ rfl) rfl rfl rfl (fun joining => joining)
  | slept idx at_ =>
    exact counted.of_same rfl (hasSet_setPc at_ rfl) rfl rfl rfl (fun joining => joining)
  | locked idx at_ free =>
    exact counted.of_same rfl (hasSet_setPc at_ rfl) rfl rfl rfl (fun joining => joining)
  | unlocked idx at_ =>
    exact counted.of_same rfl (hasSet_setPc at_ rfl) rfl rfl rfl (fun joining => joining)
  | signalled idx at_ =>
    exact counted.of_same rfl (hasSet_setPc at_ rfl) rfl rfl rfl (fun joining => joining)
  | updated idx at_ =>
    have mine : idx = i := own i _ idx at_ rfl
    subst mine
    have inside := (controlled.thread_bound running at_).1
    exact counted.update at_ (by rw [State.length_states]; exact inside)

theorem states_fill {s : State} (alive : s.states[s.idx]? = some .TS_ALIVE) (sleepTime : Int) :
    ({ s with main := .create }.setSlot s.idx fun slot =>
      { slot with sleepTime, state := .TS_ALIVE }).states = s.states := by
  have inside : s.idx < s.states.length := (List.getElem?_eq_some_iff.mp alive).1
  have here : s.states[s.idx] = .TS_ALIVE := (List.getElem?_eq_some_iff.mp alive).2
  rw [State.states_setSlot_state .TS_ALIVE fun _ => rfl]
  show s.states.set s.idx .TS_ALIVE = s.states
  rw [← here]
  exact List.set_getElem_self inside

theorem hasSet_create {s : State} (fresh : s.threads s.idx = none) (j idx : Nat) :
    (createThread s).HasSet j idx ↔ s.HasSet j idx := by
  constructor
  · rintro ⟨pc, there, set⟩
    rcases Parties.update_some there with ⟨-, rfl⟩ | ⟨-, before⟩
    · cases set
    · exact ⟨pc, before, set⟩
  · rintro ⟨pc, there, set⟩
    have other : j ≠ s.idx := by
      rintro rfl
      rw [fresh] at there
      cases there
    exact ⟨pc, (Function.update_of_ne other ..).trans there, set⟩

theorem Counted.mark {s : State} (counted : Counted s) (joining : s.main.joining = true)
    (terminated : s.states[s.idx]? = some .TS_TERMINATED) : Counted (markSlot s) := by
  have inside : s.idx < s.states.length := (List.getElem?_eq_some_iff.mp terminated).1
  have here : s.states[s.idx] = .TS_TERMINATED := (List.getElem?_eq_some_iff.mp terminated).2
  have member : s.states[s.idx] ∈ s.states := List.getElem_mem inside
  have set : s.HasSet s.idx s.idx := by
    by_contra unset
    cases (counted.flagged s.idx _ terminated).mpr unset
  constructor
  case flagged =>
    intro j state there
    rw [states_mark, List.getElem?_set] at there
    show state = .TS_ALIVE ↔ ¬ s.HasSet j j
    by_cases mine : s.idx = j
    · rw [if_pos mine, if_pos inside, Option.some.injEq] at there
      rw [← mine, ← there]
      simp [set]
    · rw [if_neg mine] at there
      exact counted.flagged j state there
  case unjoined =>
    have positive : 0 < s.states.count .TS_TERMINATED := by
      rw [List.count_pos_iff, ← here]
      exact member
    show s.numUnjoined - 1 = _
    rw [states_mark, List.count_set inside, here, counted.unjoined]
    simp only [beq_self_eq_true, if_true, reduceCtorEq, beq_iff_eq, if_false, Nat.add_zero]
    omega
  case live =>
    intro _
    have positive : 0 < s.states.countP fun state => state ≠ .TS_JOINED := by
      rw [List.countP_pos_iff]
      exact ⟨s.states[s.idx], member, by rw [here]; rfl⟩
    show s.numLive - 1 = _
    rw [states_mark, List.countP_set inside, here, counted.live joining]
    simp only [ne_eq, reduceCtorEq, not_false_eq_true, decide_true, if_true, not_true_eq_false,
      decide_false, Bool.false_eq_true, if_false, Nat.add_zero] at positive ⊢
    omega
  case joined => exact counted.joined

theorem Counted.allocate {s : State} (counted : Counted s) (nothing : s.joined = [])
    (empty : s.thread = []) (threads : ∀ i, s.threads i = none) :
    Counted { s with
      main := .fill
      idx := 0
      thread := List.replicate n ⟨none, .TS_ALIVE, 0⟩ } := by
  have unset : ∀ j idx, ¬ s.HasSet j idx := by
    rintro j idx ⟨pc, there, -⟩
    rw [threads] at there
    cases there
  constructor
  case flagged =>
    intro j state there
    rw [State.states, List.map_replicate, List.getElem?_replicate] at there
    by_cases inside : j < n
    · rw [if_pos inside, Option.some.injEq] at there
      rw [← there]
      exact iff_of_true rfl (unset j j)
    · rw [if_neg inside] at there
      cases there
  case unjoined =>
    show s.numUnjoined = _
    rw [counted.unjoined, State.states, State.states, empty, List.map_replicate, List.count_replicate]
    rfl
  case live =>
    intro joining
    cases joining
  case joined =>
    intro i member
    rw [show s.joined = [] from nothing] at member
    cases member

theorem Counted.total {s : State} (counted : Counted s) (size : s.states.length = n)
    (unjoined : .TS_JOINED ∉ s.states) :
    Counted { s with main := whileLive n, totThreads := n, numLive := n } := by
  constructor
  case flagged => exact counted.flagged
  case unjoined => exact counted.unjoined
  case joined => exact counted.joined
  case live =>
    intro _
    show (n : Int) = (s.states.countP _ : Nat)
    have all : s.states.countP (fun state => state ≠ .TS_JOINED) = s.states.length := by
      rw [List.countP_eq_length]
      intro state member
      have other : state ≠ .TS_JOINED := by
        rintro rfl
        exact unjoined member
      simpa using other
    rw [all, size]

theorem Counted.main_step {s t : State} (counted : Counted s) (controlled : Controlled n s)
    (count : sleepTimes.length = n) (tidy : s.Tidy n) (move : MainMove sleepTimes s .done t) :
    Counted t := by
  have phase := controlled.phase
  have same : ∀ j idx, s.HasSet j idx ↔ s.HasSet j idx := fun _ _ => Iff.rfl
  cases move with
  | allocated at_ =>
    rw [at_] at phase
    rcases phase with ⟨positive, nothing, empty, threads⟩
    exact counted.allocate nothing empty threads
  | filled sleepTime at_ more =>
    have alive : s.states[s.idx]? = some .TS_ALIVE := by
      rw [at_] at phase
      have inside : s.idx < s.states.length := by
        rw [State.length_states, phase.1.length]
        omega
      rw [List.getElem?_eq_getElem inside, Option.some.injEq]
      rw [counted.flagged s.idx _ (List.getElem?_eq_getElem inside)]
      rintro ⟨pc, there, -⟩
      have created := (phase.1.created s.idx).mp (by rw [there]; rfl)
      exact Nat.lt_irrefl _ created
    exact counted.of_same (states_fill alive sleepTime) same rfl rfl rfl (fun joining => by cases joining)
  | created at_ =>
    have states : (createThread s).states = s.states := State.states_setSlot fun _ => rfl
    exact counted.of_same states (hasSet_create (controlled.fresh at_)) rfl rfl rfl
      (fun joining => by cases joining)
  | totalled at_ =>
    rw [at_] at phase
    rcases phase with ⟨running, unjoined, -⟩
    have size : s.states.length = sleepTimes.length := by
      rw [State.length_states, running.length, count]
    exact counted.total size unjoined.2
  | marked at_ =>
    have terminated : s.states[s.idx]? = some .TS_TERMINATED := by
      rw [at_] at phase
      have joinsAll := tidy.2
      rw [at_] at joinsAll
      rcases joinsAll s.idx phase.2.2.1 with joined | ⟨later, -⟩
      · exact phase.2.2.2.2 joined
      · omega
    exact counted.mark (by rw [at_]; rfl) terminated
  | joined i idx slot at_ there tid returned =>
    have mine := (controlled.join at_ there tid).1
    rw [at_] at phase
    have set : s.HasSet s.idx s.idx := by
      by_contra unset
      cases (counted.flagged s.idx _ phase.2.2.2.2).mpr unset
    constructor
    case flagged => exact counted.flagged
    case unjoined => exact counted.unjoined
    case live => exact fun _ => counted.live (by rw [at_]; rfl)
    case joined =>
      intro j member
      rcases List.mem_append.mp member with old | new
      · exact counted.joined j old
      · rw [List.mem_singleton.mp new, mine]
        exact set
  | waits at_ dead =>
    rw [at_] at phase
    have live := phase.2.2.2.2
    have positive := phase.1.positive
    omega
  | locked at_ free =>
    have joining : s.main.joining = true := by rcases at_ with at_ | at_ <;> rw [at_] <;> rfl
    exact counted.of_same rfl same rfl rfl rfl (fun _ => joining)
  | refused at_ _ | accepted at_ _ | filledAll at_ _ | next at_ =>
    exact counted.of_same rfl same rfl rfl rfl (fun joining => by cases joining)
  | scans at_ _ | found at_ _ _ | skipped _ at_ _ _ _ | ended at_ _ | unlocked at_ | exits at_ =>
    exact counted.of_same rfl same rfl rfl rfl (fun _ => by rw [at_]; rfl)

theorem counted_initial : Counted initial where
  flagged := by
    intro j state there
    cases there
  unjoined := rfl
  live := by
    intro joining
    cases joining
  joined := by
    intro i member
    cases member

theorem joinDiscipline_of_tidy {s : State} (controlled : Controlled n s) (counted : Counted s)
    (tidy : s.Tidy n) : JoinDiscipline n s where
  once := controlled.ordered.imp Nat.ne_of_lt
  calls := by
    intro at_ slot there i tid
    have mine := (controlled.join at_ there tid).1
    have phase := controlled.phase
    rw [at_] at phase
    rcases phase with ⟨-, -, -, passed, terminated⟩
    rw [mine]
    constructor
    · intro member
      exact Nat.lt_irrefl _ (passed _ member)
    · by_contra unset
      cases (counted.flagged _ _ terminated).mpr unset
  terminated := counted.joined
  counters := fun joining _ => ⟨counted.unjoined, counted.live joining⟩
  exits := by
    intro status exited i bound _
    have joinsAll := tidy.2
    rw [exited] at joinsAll
    cases status with
    | success => exact joinsAll i bound
    | failure =>
      have zero : n = 0 := joinsAll
      omega

theorem Counted.step {s t : State} {action : Action} (counted : Counted s)
    (controlled : Controlled sleepTimes.length s) (tidy : s.Tidy sleepTimes.length)
    (orderly : Orderly s action) (taken : step sleepTimes s action = some t) : Counted t := by
  have moved := step_some taken
  cases action with
  | main outcome =>
    cases outcome with
    | done => exact counted.main_step controlled rfl tidy moved.2
    | count n => cases moved.2
    | error errno => cases orderly.1
  | thread i outcome =>
    cases outcome with
    | done => exact counted.thread_step controlled (moved.1 .failure) tidy.1 moved.2
    | count n => cases moved.2
    | error errno => cases orderly.1

theorem joinDiscipline_of_orderly {s : State}
    (run : Reaches (step sleepTimes) Orderly initial s) : JoinDiscipline sleepTimes.length s := by
  have all : Controlled sleepTimes.length s ∧ s.Tidy sleepTimes.length ∧ Counted s := by
    apply run.invariant (I := fun s =>
      Controlled sleepTimes.length s ∧ s.Tidy sleepTimes.length ∧ Counted s)
    · exact ⟨controlled_initial, tidy_initial, counted_initial⟩
    · rintro s action t ⟨controlled, tidy, counted⟩ orderly taken
      exact ⟨controlled.step taken, (tidy_step controlled taken).mpr ⟨tidy, orderly⟩,
        counted.step controlled tidy orderly taken⟩
  exact joinDiscipline_of_tidy all.1 all.2.2 all.2.1

def MainPc.released : MainPc → Bool
  | .exit | .exited _ => true
  | _ => false

structure Marked (s : State) : Prop where
  read : s.main.beforePass = true → ∀ i pc idx, s.threads i = some pc → pc.idx = some idx → i ≤ idx
  slots : s.main.released = false → ∀ j, s.states[j]? = some .TS_TERMINATED →
    ∃ i, i ≤ j ∧ s.HasSet i j
  joined : ∀ j ∈ s.joined, ∃ i, i ≤ j ∧ s.HasSet i j

theorem ThreadMove.hasSet {s t : State} {i : Nat} (move : ThreadMove s i .done t) {j idx : Nat}
    (set : s.HasSet j idx) : t.HasSet j idx := by
  have kept : ∀ pc pc', s.threads i = some pc → pc'.set = pc.set → (s.setPc i pc').HasSet j idx :=
    fun _ _ at_ same => (hasSet_setPc at_ same j idx).mpr set
  cases move with
  | started at_ => exact kept _ _ at_ rfl
  | slept own at_ => exact kept _ _ at_ rfl
  | locked own at_ free => exact kept _ (.update own) at_ rfl
  | unlocked own at_ => exact kept _ (.signal own) at_ rfl
  | signalled own at_ => exact kept _ _ at_ rfl
  | updated own at_ =>
    rcases set with ⟨pc, there, set⟩
    have other : j ≠ i := by
      rintro rfl
      rw [at_, Option.some.injEq] at there
      rw [← there] at set
      cases set
    exact ⟨pc, (Function.update_of_ne other ..).trans there, set⟩

theorem ThreadMove.read {s t : State} {i : Nat} (move : ThreadMove s i .done t) {j idx : Nat}
    {pc : ThreadPc} (there : t.threads j = some pc) (local_ : pc.idx = some idx) :
    (∃ before, s.threads j = some before ∧ before.idx = some idx) ∨
      (j = i ∧ idx = s.idx ∧ s.threads i = some .start) := by
  have carried : ∀ before after, s.threads i = some before → after.idx = before.idx →
      (s.setPc i after).threads j = some pc →
        ∃ old, s.threads j = some old ∧ old.idx = some idx := by
    intro before after at_ same now
    rcases Parties.update_some now with ⟨rfl, rfl⟩ | ⟨-, unmoved⟩
    · exact ⟨before, at_, by rw [← same, local_]⟩
    · exact ⟨pc, unmoved, local_⟩
  cases move with
  | started at_ =>
    rcases Parties.update_some there with ⟨same, rfl⟩ | ⟨-, before⟩
    · cases local_
      exact .inr ⟨same, rfl, at_⟩
    · exact .inl ⟨pc, before, local_⟩
  | slept own at_ => exact .inl (carried _ (.lock own) at_ rfl there)
  | locked own at_ free => exact .inl (carried _ (.update own) at_ rfl there)
  | updated own at_ => exact .inl (carried _ (.unlock own) at_ rfl there)
  | unlocked own at_ => exact .inl (carried _ (.signal own) at_ rfl there)
  | signalled own at_ => exact .inl (carried _ (.returned own) at_ rfl there)

/-- A slot that a thread sets is one whose number it had read before the pass. -/
theorem Marked.slot_update {s : State} (marked : Marked s) (controlled : Controlled n s)
    (kept : s.main.released = false) {i idx : Nat} (at_ : s.threads i = some (.update idx)) :
    i ≤ idx := by
  have owner := controlled.owned i _ at_ rfl
  by_cases before : s.main.beforePass = true
  · exact marked.read before i _ idx at_ rfl
  · have held : s.main.holds = true := by
      have phase := controlled.phase
      cases main : s.main with
      | wait =>
        rw [main] at phase
        exact phase.elim
      | scan | join | mark | unlock => rfl
      | exit | exited _ =>
        rw [main] at kept
        cases kept
      | _ =>
        rw [main] at before
        exact absurd rfl before
    rw [controlled.mainOwned held] at owner
    cases owner

theorem Marked.thread_step {s t : State} {i : Nat} (marked : Marked s) (controlled : Controlled n s)
    (move : ThreadMove s i .done t) : Marked t := by
  have frame := move.frame controlled
  constructor
  case read =>
    rw [frame.main]
    intro before j pc idx there local_
    rcases move.read there local_ with ⟨old, present, same⟩ | ⟨mine, read, atStart⟩
    · exact marked.read before j old idx present same
    · rw [mine, read]
      have running : s.main ≠ .exited .failure := by
        intro exited
        rw [exited] at before
        cases before
      exact (controlled.thread_bound running atStart).2 before
  case slots =>
    rw [frame.main]
    intro kept j terminated
    by_cases old : s.states[j]? = some .TS_TERMINATED
    · rcases marked.slots kept j old with ⟨k, bound, set⟩
      exact ⟨k, bound, move.hasSet set⟩
    · cases move with
      | updated idx at_ =>
        change ((s.setPc i (.unlock idx)).setState idx .TS_TERMINATED).states[j]? = _ at terminated
        rw [State.setState, State.states_setSlot_state .TS_TERMINATED fun _ => rfl,
          State.states_setPc] at terminated
        have this_one : idx = j := by
          by_contra other
          rw [List.getElem?_set_ne other] at terminated
          exact old terminated
        rw [← this_one]
        exact ⟨i, marked.slot_update controlled kept at_, .unlock idx, Function.update_self .., rfl⟩
      | _ => exact absurd terminated old
  case joined =>
    rw [frame.joined]
    intro j member
    rcases marked.joined j member with ⟨k, bound, set⟩
    exact ⟨k, bound, move.hasSet set⟩

theorem Marked.of_same {s t : State} (marked : Marked s)
    (before : t.main.beforePass = true → s.main.beforePass = true)
    (released : t.main.released = false → s.main.released = false)
    (states : ∀ j : Nat, t.states[j]? = some .TS_TERMINATED → s.states[j]? = some .TS_TERMINATED)
    (threads : t.threads = s.threads) (joined : t.joined = s.joined) : Marked t where
  read := by
    rw [threads]
    exact fun at_ => marked.read (before at_)
  slots := by
    intro at_ j terminated
    simp only [State.HasSet, threads]
    exact marked.slots (released at_) j (states j terminated)
  joined := by
    intro j member
    rw [joined] at member
    simp only [State.HasSet, threads]
    exact marked.joined j member

theorem terminated_of_set {states : List TState} {i j : Nat} {state : TState}
    (other : state ≠ .TS_TERMINATED) (there : (states.set i state)[j]? = some .TS_TERMINATED) :
    states[j]? = some .TS_TERMINATED := by
  rcases Holders.getElem?_set_cases there with ⟨-, same⟩ | ⟨-, before⟩
  · exact absurd same.symm other
  · exact before

theorem Marked.main_step {s t : State} (marked : Marked s) (controlled : Controlled n s)
    (move : MainMove sleepTimes s .done t) : Marked t := by
  have phase := controlled.phase
  cases move with
  | allocated at_ =>
    refine marked.of_same (fun _ => by rw [at_]; rfl) (fun _ => by rw [at_]; rfl) ?_ rfl rfl
    intro j terminated
    have member := List.mem_of_getElem? terminated
    rw [State.states, List.map_replicate, List.mem_replicate] at member
    cases member.2
  | filled sleepTime at_ more =>
    refine marked.of_same (fun _ => by rw [at_]; rfl) (fun _ => by rw [at_]; rfl) ?_ rfl rfl
    intro j terminated
    rw [State.states_setSlot_state .TS_ALIVE fun _ => rfl] at terminated
    exact terminated_of_set (by simp) terminated
  | created at_ =>
    have states : (createThread s).states = s.states := State.states_setSlot fun _ => rfl
    have set : ∀ j idx, (createThread s).HasSet j idx ↔ s.HasSet j idx :=
      hasSet_create (controlled.fresh at_)
    constructor
    case read =>
      intro _ i pc idx there local_
      rcases Parties.update_some there with ⟨-, rfl⟩ | ⟨-, before⟩
      · cases local_
      · exact marked.read (by rw [at_]; rfl) i pc idx before local_
    case slots =>
      intro _ j terminated
      rw [states] at terminated
      simp only [set]
      exact marked.slots (by rw [at_]; rfl) j terminated
    case joined =>
      simp only [set]
      exact marked.joined
  | joined i idx slot at_ there tid returned =>
    have mine := (controlled.join at_ there tid).1
    rw [at_] at phase
    constructor
    case read =>
      intro before
      cases before
    case slots => exact fun _ => marked.slots (by rw [at_]; rfl)
    case joined =>
      intro j member
      rcases List.mem_append.mp member with old | new
      · exact marked.joined j old
      · rw [List.mem_singleton.mp new, mine]
        exact marked.slots (by rw [at_]; rfl) s.idx phase.2.2.2.2
  | marked at_ =>
    refine marked.of_same (fun before => by cases before) (fun _ => by rw [at_]; rfl) ?_ rfl rfl
    intro j terminated
    rw [states_mark] at terminated
    exact terminated_of_set (by simp) terminated
  | locked at_ free =>
    rcases at_ with at_ | at_
    · exact marked.of_same (fun _ => by rw [at_]; rfl) (fun _ => by rw [at_]; rfl) (fun _ same => same)
        rfl rfl
    · rw [at_] at phase
      exact phase.elim
  | ended at_ last =>
    rw [at_] at phase
    rcases phase with ⟨running, looping, bound, -⟩
    have total := looping.1
    have live := looping.2
    have dead : s.numLive = 0 := by omega
    rw [dead, whileLive_zero]
    exact marked.of_same (fun before => by cases before) (fun _ => by rw [at_]; rfl)
      (fun _ same => same) rfl rfl
  | refused at_ _ | exits at_ | unlocked at_ =>
    exact marked.of_same (fun before => by cases before) (fun kept => by cases kept)
      (fun _ same => same) rfl rfl
  | waits at_ _ | scans at_ _ | found at_ _ _ | skipped _ at_ _ _ _ =>
    exact marked.of_same (fun before => by cases before) (fun _ => by rw [at_]; rfl)
      (fun _ same => same) rfl rfl
  | accepted at_ _ | filledAll at_ _ | next at_ | totalled at_ =>
    exact marked.of_same (fun _ => by rw [at_]; rfl) (fun _ => by rw [at_]; rfl) (fun _ same => same)
      rfl rfl

theorem Marked.step {s t : State} {action : Action} (marked : Marked s)
    (controlled : Controlled sleepTimes.length s) (taken : step sleepTimes s action = some t) :
    Marked t := by
  have moved := (step_some taken).2
  cases action with
  | main outcome =>
    cases outcome with
    | done => exact marked.main_step controlled moved
    | count n => cases moved
    | error errno =>
      cases moved with
      | failed _ at_ =>
        exact marked.of_same (fun before => by cases before) (fun kept => by cases kept)
          (fun _ same => same) rfl rfl
  | thread i outcome =>
    cases outcome with
    | done => exact marked.thread_step controlled moved
    | count n => cases moved
    | error errno =>
      cases moved with
      | failed pc _ at_ =>
        exact marked.of_same (fun before => by cases before) (fun kept => by cases kept)
          (fun _ same => same) rfl rfl

theorem marked_initial : Marked initial where
  read := by
    intro _ i pc idx there
    cases there
  slots := by
    intro _ j terminated
    cases terminated
  joined := by
    intro j member
    cases member

/-- If every slot was set, by a thread that is not behind it, then each thread has set its own. -/
theorem Marked.own_of_complete {s : State} (marked : Marked s) (complete : s.Complete n) (k : Nat)
    (bound : k < n) : s.HasSet k k := by
  induction k using Nat.strong_induction_on with
  | _ k ih =>
    rcases marked.joined k (complete k bound) with ⟨i, le, set⟩
    by_cases mine : i = k
    · rwa [mine] at set
    · -- A thread before this one has set its own slot, and sets no other.
      have own := ih i (by omega) (by omega)
      rcases set with ⟨pc, there, first⟩
      rcases own with ⟨pc', there', second⟩
      rw [there, Option.some.injEq] at there'
      rw [← there', first, Option.some.injEq] at second
      exact absurd second.symm mine

theorem ThreadPc.idx_of_set {pc : ThreadPc} {idx : Nat} (set : pc.set = some idx) :
    pc.idx = some idx := by
  cases pc with
  | unlock own | signal own | returned own => exact set
  | _ => cases set

theorem Marked.tidy {s : State} (marked : Marked s) (controlled : Controlled n s)
    (exited : s.main = .exited .success) (complete : s.Complete n) : s.Tidy n := by
  constructor
  · intro i pc idx there local_
    have phase := controlled.phase
    rw [exited] at phase
    have bound : i < n := (phase.created i).mp (by rw [there]; rfl)
    rcases marked.own_of_complete complete i bound with ⟨pc', there', set⟩
    rw [there, Option.some.injEq] at there'
    rw [← there'] at set
    have own := ThreadPc.idx_of_set set
    rw [local_, Option.some.injEq] at own
    exact own
  · rw [exited]
    exact complete

/-- The join discipline holds in every state that an orderly run reaches, and of the runs in which
    `main` exits successfully it holds at the end of no others. -/
theorem joinDiscipline_iff_orderly (actions : List Action) (s : State)
    (run : exec (step sleepTimes) actions initial = some s) :
    (Along (step sleepTimes) Orderly actions initial → JoinDiscipline sleepTimes.length s) ∧
      (s.main = .exited .success → (JoinDiscipline sleepTimes.length s ↔
        Along (step sleepTimes) Orderly actions initial)) := by
  have forward : Along (step sleepTimes) Orderly actions initial →
      JoinDiscipline sleepTimes.length s :=
    fun along => joinDiscipline_of_orderly ⟨actions, along, run⟩
  refine ⟨forward, ?_⟩
  intro exited
  constructor
  · intro discipline
    have both : Controlled sleepTimes.length s ∧ Marked s := by
      apply exec_invariant (I := fun s => Controlled sleepTimes.length s ∧ Marked s) _ _
        (along_true actions initial) run
      · rintro s action t ⟨controlled, marked⟩ - taken
        exact ⟨controlled.step taken, marked.step controlled taken⟩
      · exact ⟨controlled_initial, marked_initial⟩
    have phase := both.1.phase
    rw [exited] at phase
    have complete : s.Complete sleepTimes.length :=
      fun i bound => discipline.exits _ exited i bound ((phase.created i).mpr bound)
    exact (tidy_iff_orderly run).mp (both.2.tidy both.1 exited complete)
  · exact forward

def bothTerminated : List Action :=
  [.main .done, .main .done, .main .done, .main .done, .thread 0 .done, .main .done, .main .done,
    .main .done, .thread 1 .done, .main .done, .main .done, .main .done, .thread 1 .done,
    .thread 1 .done, .thread 1 .done, .thread 1 .done, .thread 0 .done, .thread 0 .done,
    .thread 0 .done, .thread 0 .done, .thread 0 .done, .thread 1 .done, .main .done, .main .done,
    .main .done, .main .done, .main .done, .main .done, .main .done, .main .done, .main .done,
    .main .done, .main .done]

theorem joinDiscipline_iff_orderly_bothTerminated :
    ∃ s, exec (step [2, 1]) bothTerminated initial = some s ∧ s.main = .exited .success ∧
      JoinDiscipline 2 s := by
  have ends : (exec (step [2, 1]) bothTerminated initial).any
      (fun s => s.main = .exited .success) = true := by decide +kernel
  rcases (Option.any_eq_true _ _).mp ends with ⟨s, run, exited⟩
  rw [decide_eq_true_eq] at exited
  have both := joinDiscipline_iff_orderly bothTerminated s run
  exact ⟨s, run, exited, (both.2 exited).mpr (by decide +kernel)⟩

def stillAsleep : List Action :=
  [.main .done, .main .done, .main .done, .main .done, .thread 0 .done, .main .done, .main .done,
    .main .done, .main .done, .main .done, .main .done, .main .done, .main .done, .main .done,
    .main .done]

theorem stillAsleep_not_joined :
    ¬ ∀ s, Reaches (step [1]) (fun _ _ => True) initial s → JoinDiscipline 1 s := by
  intro always
  have ends : (exec (step [1]) stillAsleep initial).any
      (fun s => s.main = .exited .success ∧ (s.threads 0).isSome = true ∧ s.joined = []) = true := by decide +kernel
  rcases (Option.any_eq_true _ _).mp ends with ⟨s, run, both⟩
  rw [decide_eq_true_eq] at both
  have joined := (always s ⟨stillAsleep, along_true _ _, run⟩).exits _ both.1 0 Nat.zero_lt_one both.2.1
  rw [both.2.2] at joined
  cases joined

end SystemProgramming.ThreadMultijoin
