import SystemProgramming.Library.Parties
import SystemProgramming.ThreadMultijoin.Moves

namespace SystemProgramming.ThreadMultijoin

open Transition

variable {sleepTimes : List Int} {n : Nat}

def ThreadPc.holds : ThreadPc → Bool
  | .update _ | .unlock _ => true
  | _ => false

def MainPc.holds : MainPc → Bool
  | .condition | .scan | .join | .mark | .unlock => true
  | _ => false

namespace State

def tids (s : State) : List (Option Nat) := s.thread.map (·.tid)

def Empty (s : State) : Prop := s.joined = [] ∧ s.thread = [] ∧ ∀ i, s.threads i = none

def Unjoined (s : State) : Prop := s.joined = [] ∧ .TS_JOINED ∉ s.states

end State

structure Running (n c : Nat) (thread : List Slot) (threads : Nat → Option ThreadPc) : Prop where
  positive : 0 < n
  length : thread.length = n
  created : ∀ i, (threads i).isSome = true ↔ i < c
  tids : ∀ i, i < c → (thread.map (·.tid))[i]? = some (some i)

namespace State

abbrev Created (n c : Nat) (s : State) : Prop := Running n c s.thread s.threads

def Looping (n : Nat) (s : State) : Prop := s.totThreads = n ∧ s.numLive = n - s.idx

def Phase (n : Nat) (s : State) : MainPc → Prop
  | .usage => s.Empty
  | .calloc => 0 < n ∧ s.Empty
  | .fill => s.Created n s.idx ∧ s.Unjoined ∧ s.idx ≤ n
  | .create => s.Created n s.idx ∧ s.Unjoined ∧ s.idx < n
  | .next => s.Created n (s.idx + 1) ∧ s.Unjoined ∧ s.idx < n
  | .totals => s.Created n n ∧ s.Unjoined ∧ s.idx = n
  | .lock | .condition =>
    s.Created n n ∧ s.Unjoined ∧ s.idx = n ∧ s.totThreads = n ∧ s.numLive = n
  | .wait => False
  | .scan => s.Created n n ∧ s.Looping n ∧ s.idx ≤ n ∧ ∀ i ∈ s.joined, i < s.idx
  | .join => s.Created n n ∧ s.Looping n ∧ s.idx < n ∧ (∀ i ∈ s.joined, i < s.idx) ∧
      s.states[s.idx]? = some .TS_TERMINATED
  | .mark => s.Created n n ∧ s.Looping n ∧ s.idx < n ∧ (∀ i ∈ s.joined, i ≤ s.idx) ∧
      (s.idx ∈ s.joined → s.states[s.idx]? = some .TS_TERMINATED)
  | .unlock | .exit | .exited .success => s.Created n n
  | .exited .failure => n = 0 → s.Empty

end State

structure Controlled (n : Nat) (s : State) : Prop where
  owned : ∀ i pc, s.threads i = some pc → pc.holds = true → s.mutex = some (.thread i)
  mainOwned : s.main.holds = true → s.mutex = some .main
  ordered : s.joined.Pairwise (· < ·)
  phase : s.Phase n s.main

structure Frame (s t : State) : Prop where
  main : t.main = s.main
  idx : t.idx = s.idx
  totThreads : t.totThreads = s.totThreads
  numLive : t.numLive = s.numLive
  joined : t.joined = s.joined
  created : ∀ i, (t.threads i).isSome = (s.threads i).isSome
  tids : t.tids = s.tids
  unjoined : .TS_JOINED ∉ s.states → .TS_JOINED ∉ t.states
  held : s.mutex = some .main → t.states = s.states

theorem isSome_setPc {s : State} {i : Nat} {pc : ThreadPc} (present : s.threads i = some pc)
    (pc' : ThreadPc) (j : Nat) : ((s.setPc i pc').threads j).isSome = (s.threads j).isSome := by
  show (Function.update s.threads i (some pc') j).isSome = _
  by_cases same : j = i
  · subst same
    rw [Function.update_self, present]
    rfl
  · rw [Function.update_of_ne same]

theorem tids_setSlot {s : State} {idx : Nat} {f : Slot → Slot} (kept : ∀ slot, (f slot).tid = slot.tid) :
    (s.setSlot idx f).tids = s.tids := by
  show (s.thread.modify idx f).map (·.tid) = s.thread.map (·.tid)
  apply List.ext_getElem?
  intro j
  rw [List.getElem?_map, List.getElem?_map, List.getElem?_modify]
  by_cases same : idx = j
  · cases s.thread[j]? <;> simp [same, kept]
  · simp [same]

theorem Frame.of_setPc {s : State} {i : Nat} {pc : ThreadPc} (present : s.threads i = some pc)
    (pc' : ThreadPc) (mutex : Option Owner) : Frame s { s.setPc i pc' with mutex } where
  main := rfl
  idx := rfl
  totThreads := rfl
  numLive := rfl
  joined := rfl
  created := isSome_setPc present pc'
  tids := rfl
  unjoined := fun unjoined => unjoined
  held := fun _ => rfl

theorem ThreadMove.frame {s t : State} {i : Nat} (controlled : Controlled n s)
    (move : ThreadMove s i .done t) : Frame s t := by
  cases move with
  | started at_ => exact .of_setPc at_ _ s.mutex
  | slept idx at_ => exact .of_setPc at_ _ s.mutex
  | locked idx at_ free => exact .of_setPc at_ _ _
  | unlocked idx at_ => exact .of_setPc at_ _ _
  | signalled idx at_ => exact .of_setPc at_ _ s.mutex
  | updated idx at_ =>
    have states : ((s.setPc i (.unlock idx)).setState idx .TS_TERMINATED).states =
        s.states.set idx .TS_TERMINATED := State.states_setSlot_state _ fun _ => rfl
    constructor
    case created => exact isSome_setPc at_ _
    case tids => exact tids_setSlot fun _ => rfl
    case unjoined =>
      intro unjoined joined
      rcases List.mem_or_eq_of_mem_set (states ▸ joined) with old | new
      · exact unjoined old
      · cases new
    case held =>
      intro held
      rw [controlled.owned i _ at_ rfl] at held
      cases held
    all_goals rfl

theorem Running.frame {c : Nat} {s t : State} (running : s.Created n c) (frame : Frame s t) :
    t.Created n c where
  positive := running.positive
  length := by
    have same : t.tids.length = s.tids.length := by rw [frame.tids]
    rw [State.tids, State.tids, List.length_map, List.length_map] at same
    rw [same, running.length]
  created := by
    intro i
    rw [frame.created, running.created]
  tids := by
    show ∀ i, i < c → t.tids[i]? = some (some i)
    rw [frame.tids]
    exact running.tids

theorem State.Unjoined.frame {s t : State} (unjoined : s.Unjoined) (frame : Frame s t) : t.Unjoined :=
  ⟨by rw [frame.joined, unjoined.1], frame.unjoined unjoined.2⟩

theorem State.Looping.frame {s t : State} (looping : s.Looping n) (frame : Frame s t) :
    t.Looping n :=
  ⟨by rw [frame.totThreads, looping.1], by rw [frame.numLive, frame.idx, looping.2]⟩

theorem tids_of_nil {s : State} (nothing : s.thread = []) : s.tids = [] := by
  rw [State.tids, nothing]
  rfl

theorem State.Empty.frame {s t : State} (empty : s.Empty) (frame : Frame s t) : t.Empty := by
  refine ⟨by rw [frame.joined, empty.1], ?_, ?_⟩
  · have tids := frame.tids
    rw [tids_of_nil empty.2.1] at tids
    exact List.map_eq_nil_iff.mp tids
  · intro i
    have created := frame.created i
    rw [empty.2.2 i] at created
    exact Option.not_isSome_iff_eq_none.mp (by rw [created]; decide)

theorem Controlled.phase_frame {s t : State} (controlled : Controlled n s) (frame : Frame s t) :
    t.Phase n t.main := by
  have phase := controlled.phase
  have owned := controlled.mainOwned
  rw [frame.main]
  unfold State.Phase at phase ⊢
  split at phase
  case h_1 => exact phase.frame frame
  case h_2 => exact ⟨phase.1, phase.2.frame frame⟩
  case h_3 => exact ⟨frame.idx ▸ phase.1.frame frame, phase.2.1.frame frame, frame.idx ▸ phase.2.2⟩
  case h_4 => exact ⟨frame.idx ▸ phase.1.frame frame, phase.2.1.frame frame, frame.idx ▸ phase.2.2⟩
  case h_5 => exact ⟨frame.idx ▸ phase.1.frame frame, phase.2.1.frame frame, frame.idx ▸ phase.2.2⟩
  case h_6 => exact ⟨phase.1.frame frame, phase.2.1.frame frame, frame.idx ▸ phase.2.2⟩
  case h_7 | h_8 =>
    rw [frame.idx, frame.totThreads, frame.numLive]
    exact ⟨phase.1.frame frame, phase.2.1.frame frame, phase.2.2⟩
  case h_9 => exact phase
  case h_10 =>
    rw [frame.idx, frame.joined]
    exact ⟨phase.1.frame frame, phase.2.1.frame frame, phase.2.2⟩
  case h_11 at_ | h_12 at_ =>
    have held : s.mutex = some .main := owned (by rw [at_]; rfl)
    rw [frame.idx, frame.joined, frame.held held]
    exact ⟨phase.1.frame frame, phase.2.1.frame frame, phase.2.2⟩
  case h_13 | h_14 | h_15 => exact phase.frame frame
  case h_16 => exact fun zero => (phase zero).frame frame

theorem State.Phase.nothing {s : State} {pc : MainPc} (phase : s.Phase n pc) (zero : n = 0) : s.Empty := by
  unfold Phase at phase
  split at phase
  case h_1 => exact phase
  case h_2 => exact absurd zero (Nat.ne_of_gt phase.1)
  case h_9 => exact phase.elim
  case h_13 | h_14 | h_15 => exact absurd zero (Nat.ne_of_gt phase.positive)
  case h_16 => exact phase zero
  all_goals exact absurd zero (Nat.ne_of_gt phase.1.positive)

theorem Controlled.owned_setPc {s : State} (controlled : Controlled n s) {i j : Nat}
    {new pc : ThreadPc} (outside : new.holds = false)
    (there : (s.setPc i new).threads j = some pc) (holds : pc.holds = true) :
    s.mutex = some (.thread j) ∧ j ≠ i := by
  rcases Parties.update_some there with ⟨-, rfl⟩ | ⟨other, before⟩
  · rw [holds] at outside
    cases outside
  · exact ⟨controlled.owned j pc before holds, other⟩

theorem Controlled.thread_owned {s t : State} {i : Nat} {outcome : Outcome}
    (controlled : Controlled n s) (move : ThreadMove s i outcome t) (j : Nat) (pc : ThreadPc)
    (there : t.threads j = some pc) (holds : pc.holds = true) : t.mutex = some (.thread j) := by
  cases move with
  | started at_ => exact (controlled.owned_setPc rfl there holds).1
  | slept idx at_ => exact (controlled.owned_setPc rfl there holds).1
  | signalled idx at_ => exact (controlled.owned_setPc rfl there holds).1
  | failed before errno at_ => exact controlled.owned j pc there holds
  | unlocked idx at_ =>
    have other := controlled.owned_setPc rfl there holds
    rw [controlled.owned i _ at_ rfl, Option.some.injEq, Owner.thread.injEq] at other
    exact absurd other.1.symm other.2
  | locked idx at_ free =>
    rcases Parties.update_some there with ⟨rfl, -⟩ | ⟨-, before⟩
    · rfl
    · rw [controlled.owned j pc before holds] at free
      cases free
  | updated idx at_ =>
    rcases Parties.update_some there with ⟨rfl, -⟩ | ⟨-, before⟩
    · exact controlled.owned j _ at_ rfl
    · exact controlled.owned j pc before holds

theorem Controlled.thread_mainOwned {s t : State} {i : Nat} (controlled : Controlled n s)
    (move : ThreadMove s i .done t) (holds : s.main.holds = true) : t.mutex = some .main := by
  have held := controlled.mainOwned holds
  cases move with
  | locked idx at_ free =>
    rw [held] at free
    cases free
  | unlocked idx at_ =>
    rw [controlled.owned i _ at_ rfl] at held
    cases held
  | _ => exact held

theorem Controlled.thread_step {s t : State} {i : Nat} {outcome : Outcome}
    (controlled : Controlled n s) (move : ThreadMove s i outcome t) : Controlled n t := by
  have owned := controlled.thread_owned move
  cases outcome with
  | done =>
    have frame := move.frame controlled
    constructor
    case owned => exact owned
    case mainOwned =>
      rw [frame.main]
      exact controlled.thread_mainOwned move
    case ordered =>
      rw [frame.joined]
      exact controlled.ordered
    case phase => exact controlled.phase_frame frame
  | count n => cases move
  | error errno =>
    cases move with
    | failed pc _ at_ =>
      constructor
      case owned => exact owned
      case mainOwned =>
        intro holds
        cases holds
      case ordered => exact controlled.ordered
      case phase => exact fun zero => controlled.phase.nothing zero

/-- A statement of `main` outside `pthread_mutex_lock` and `pthread_mutex_unlock`. -/
theorem Controlled.main_goto {s t : State} (controlled : Controlled n s)
    (threads : t.threads = s.threads) (mutex : t.mutex = s.mutex) (joined : t.joined = s.joined)
    (holds : t.main.holds = true → s.main.holds = true) (phase : t.Phase n t.main) : Controlled n t where
  owned := by
    rw [threads, mutex]
    exact controlled.owned
  mainOwned := by
    rw [mutex]
    exact fun held => controlled.mainOwned (holds held)
  ordered := by
    rw [joined]
    exact controlled.ordered
  phase := phase

theorem whileLive_of_pos {numLive : Int} (positive : 0 < numLive) : whileLive numLive = .lock :=
  if_pos positive

theorem whileLive_zero : whileLive 0 = .unlock := rfl

theorem Controlled.fresh {s : State} (controlled : Controlled n s) (at_ : s.main = .create) :
    s.threads s.idx = none := by
  have phase := controlled.phase
  rw [at_] at phase
  have created := phase.1.created s.idx
  cases present : s.threads s.idx with
  | none => rfl
  | some pc =>
    rw [present] at created
    exact absurd (created.mp rfl) (Nat.lt_irrefl _)

theorem Controlled.create {s : State} (controlled : Controlled n s) (at_ : s.main = .create) :
    Controlled n (createThread s) := by
  have phase := controlled.phase
  rw [at_] at phase
  rcases phase with ⟨running, unjoined, more⟩
  have states : (createThread s).states = s.states := State.states_setSlot fun _ => rfl
  constructor
  case owned =>
    intro j pc there holds
    rcases Parties.update_some there with ⟨-, rfl⟩ | ⟨-, before⟩
    · cases holds
    · exact controlled.owned j pc before holds
  case mainOwned =>
    intro holds
    cases holds
  case ordered => exact controlled.ordered
  case phase =>
    show (createThread s).Created n (s.idx + 1) ∧ (createThread s).Unjoined ∧ s.idx < n
    refine ⟨⟨running.positive, ?_, ?_, ?_⟩, ⟨unjoined.1, states ▸ unjoined.2⟩, more⟩
    · show (s.thread.modify s.idx _).length = n
      rw [List.length_modify, running.length]
    · intro i
      show (Function.update s.threads s.idx (some .start) i).isSome = true ↔ i < s.idx + 1
      by_cases same : i = s.idx
      · rw [same, Function.update_self]
        simp
      · rw [Function.update_of_ne same, running.created]
        omega
    · intro i created
      show ((s.thread.modify s.idx _).map (·.tid))[i]? = some (some i)
      have inside : i < s.thread.length := by
        rw [running.length]
        omega
      rw [List.getElem?_map, List.getElem?_modify]
      by_cases same : s.idx = i
      · simp [same, inside]
      · have before := running.tids i (by omega)
        rw [List.getElem?_map] at before
        simpa [same] using before

theorem Controlled.mark {s : State} (controlled : Controlled n s) (at_ : s.main = .mark) :
    Controlled n (markSlot s) := by
  have phase := controlled.phase
  rw [at_] at phase
  rcases phase with ⟨running, looping, more, passed, -⟩
  have holds : s.main.holds = true := by
    rw [at_]
    rfl
  refine controlled.main_goto rfl rfl rfl (fun _ => holds) ?_
  show (markSlot s).Created n n ∧ (markSlot s).Looping n ∧ s.idx + 1 ≤ n ∧ ∀ i ∈ s.joined, i < s.idx + 1
  refine ⟨⟨running.positive, ?_, running.created, ?_⟩, ⟨looping.1, ?_⟩, by omega, ?_⟩
  · show (s.thread.modify s.idx _).length = n
    rw [List.length_modify, running.length]
  · have tids : (markSlot s).tids = s.tids := tids_setSlot fun _ => rfl
    show ∀ i, i < n → (markSlot s).tids[i]? = some (some i)
    rw [tids]
    exact running.tids
  · have live := looping.2
    show s.numLive - 1 = n - ((s.idx + 1 : Nat) : Int)
    omega
  · intro i member
    exact Nat.lt_succ_of_le (passed i member)

theorem Controlled.join {s : State} (controlled : Controlled n s) (at_ : s.main = .join) {i : Nat}
    {slot : Slot} (there : s.thread[s.idx]? = some slot) (tid : slot.tid = some i) :
    i = s.idx ∧ Controlled n { s with main := .mark, joined := s.joined ++ [i] } := by
  have phase := controlled.phase
  rw [at_] at phase
  rcases phase with ⟨running, looping, more, passed, terminated⟩
  have same : i = s.idx := by
    have own := running.tids s.idx more
    rw [List.getElem?_map, there, Option.map_some, tid] at own
    exact Option.some.inj (Option.some.inj own)
  subst same
  refine ⟨rfl, ?_⟩
  constructor
  case owned => exact controlled.owned
  case mainOwned => exact fun _ => controlled.mainOwned (by rw [at_]; rfl)
  case ordered =>
    rw [List.pairwise_append]
    refine ⟨controlled.ordered, List.pairwise_singleton _ _, ?_⟩
    intro j member other new
    rw [List.mem_singleton.mp new]
    exact passed j member
  case phase =>
    refine ⟨running, looping, more, ?_, fun _ => terminated⟩
    intro j member
    rcases List.mem_append.mp member with old | new
    · exact Nat.le_of_lt (passed j old)
    · exact Nat.le_of_eq (List.mem_singleton.mp new)

theorem Controlled.allocate {s : State} (controlled : Controlled n s) (at_ : s.main = .calloc) :
    Controlled n { s with
      main := .fill
      idx := 0
      thread := List.replicate n ⟨none, .TS_ALIVE, 0⟩ } := by
  have phase := controlled.phase
  rw [at_] at phase
  rcases phase with ⟨positive, joined, -, threads⟩
  refine controlled.main_goto rfl rfl rfl (fun holds => by cases holds) ?_
  refine ⟨⟨positive, List.length_replicate, ?_, ?_⟩, ⟨joined, ?_⟩, Nat.zero_le n⟩
  · intro i
    show (s.threads i).isSome = true ↔ i < 0
    rw [threads]
    simp
  · intro i created
    exact absurd created (Nat.not_lt_zero i)
  · intro joinedSlot
    rw [State.states, List.map_replicate, List.mem_replicate] at joinedSlot
    cases joinedSlot.2

theorem Controlled.fill {s : State} (controlled : Controlled n s) (at_ : s.main = .fill)
    (more : s.idx < n) (sleepTime : Int) :
    Controlled n ({ s with main := .create }.setSlot s.idx fun slot =>
      { slot with sleepTime, state := .TS_ALIVE }) := by
  have phase := controlled.phase
  rw [at_] at phase
  rcases phase with ⟨running, unjoined, -⟩
  refine controlled.main_goto rfl rfl rfl (fun holds => by cases holds) ?_
  refine ⟨⟨running.positive, ?_, running.created, ?_⟩, ⟨unjoined.1, ?_⟩, more⟩
  · show (s.thread.modify s.idx _).length = n
    rw [List.length_modify, running.length]
  · have tids : ({ s with main := .create }.setSlot s.idx fun slot =>
        { slot with sleepTime, state := .TS_ALIVE }).tids = s.tids := tids_setSlot fun _ => rfl
    intro i created
    show (State.tids _)[i]? = _
    rw [tids]
    exact running.tids i created
  · rw [State.states_setSlot_state .TS_ALIVE fun _ => rfl]
    intro joined
    rcases List.mem_or_eq_of_mem_set joined with old | new
    · exact unjoined.2 old
    · cases new

theorem Controlled.lock {s : State} (controlled : Controlled n s)
    (at_ : s.main = .lock ∨ s.main = .wait) (free : s.mutex = none) :
    Controlled n { s with main := .condition, mutex := some .main } := by
  constructor
  case owned =>
    intro i pc there holds
    have owner := controlled.owned i pc there holds
    rw [free] at owner
    cases owner
  case mainOwned => exact fun _ => rfl
  case ordered => exact controlled.ordered
  case phase =>
    have phase := controlled.phase
    rcases at_ with at_ | at_
    · rw [at_] at phase
      exact phase
    · rw [at_] at phase
      exact phase.elim

theorem Controlled.unlock {s : State} (controlled : Controlled n s) (at_ : s.main = .unlock) :
    Controlled n { s with main := .exit, mutex := none } := by
  have phase := controlled.phase
  have held := controlled.mainOwned (by rw [at_]; rfl)
  rw [at_] at phase
  constructor
  case owned =>
    intro i pc there holds
    have owner := controlled.owned i pc there holds
    rw [held] at owner
    cases owner
  case mainOwned =>
    intro holds
    cases holds
  case ordered => exact controlled.ordered
  case phase => exact phase

theorem Controlled.main_step {s t : State} {outcome : Outcome} (controlled : Controlled n s)
    (count : sleepTimes.length = n)
    (move : MainMove sleepTimes s outcome t) : Controlled n t := by
  have phase := controlled.phase
  cases move with
  | refused at_ nothing =>
    refine controlled.main_goto rfl rfl rfl (fun holds => by cases holds) ?_
    exact fun zero => controlled.phase.nothing zero
  | accepted at_ something =>
    rw [at_] at phase
    refine controlled.main_goto rfl rfl rfl (fun holds => by cases holds) ?_
    exact ⟨count ▸ List.length_pos_of_ne_nil something, phase⟩
  | allocated at_ =>
    rw [count]
    exact controlled.allocate at_
  | filled sleepTime at_ more => exact controlled.fill at_ (count ▸ more) sleepTime
  | filledAll at_ last =>
    rw [at_] at phase
    rcases phase with ⟨running, unjoined, bound⟩
    have all : s.idx = n := by omega
    refine controlled.main_goto rfl rfl rfl (fun holds => by cases holds) ?_
    exact ⟨by rw [all] at running; exact running, unjoined, all⟩
  | created at_ => exact controlled.create at_
  | next at_ =>
    rw [at_] at phase
    rcases phase with ⟨running, unjoined, more⟩
    refine controlled.main_goto rfl rfl rfl (fun holds => by cases holds) ?_
    exact ⟨running, unjoined, more⟩
  | totalled at_ =>
    rw [at_] at phase
    rcases phase with ⟨running, unjoined, all⟩
    have positive := running.positive
    rw [count, whileLive_of_pos (by omega)]
    refine controlled.main_goto rfl rfl rfl (fun holds => by cases holds) ?_
    exact ⟨running, unjoined, all, rfl, rfl⟩
  | locked at_ free => exact controlled.lock at_ free
  | waits at_ dead =>
    -- Not every thread has been joined yet, so `main` never waits.
    rw [at_] at phase
    rcases phase with ⟨running, -, -, -, live⟩
    have positive := running.positive
    rw [live] at dead
    omega
  | scans at_ live =>
    rw [at_] at phase
    rcases phase with ⟨running, unjoined, -, total, all⟩
    refine controlled.main_goto rfl rfl rfl (fun _ => by rw [at_]; rfl) ?_
    refine ⟨running, ⟨total, by rw [all]; simp⟩, Nat.zero_le n, ?_⟩
    intro i member
    rw [unjoined.1] at member
    cases member
  | found at_ more terminated =>
    rw [at_] at phase
    rcases phase with ⟨running, looping, -, passed⟩
    refine controlled.main_goto rfl rfl rfl (fun _ => by rw [at_]; rfl) ?_
    exact ⟨running, looping, looping.1 ▸ more, passed, terminated⟩
  | skipped state at_ more there other =>
    rw [at_] at phase
    rcases phase with ⟨running, looping, -, passed⟩
    refine controlled.main_goto rfl rfl rfl (fun _ => by rw [at_]; rfl) ?_
    refine ⟨running, looping, looping.1 ▸ more, fun i member => Nat.le_of_lt (passed i member), ?_⟩
    intro member
    exact absurd (passed _ member) (Nat.lt_irrefl _)
  | ended at_ last =>
    rw [at_] at phase
    rcases phase with ⟨running, looping, bound, passed⟩
    have total := looping.1
    have live := looping.2
    have dead : s.numLive = 0 := by omega
    rw [dead, whileLive_zero]
    refine controlled.main_goto rfl rfl rfl (fun _ => by rw [at_]; rfl) ?_
    exact running
  | joined i idx slot at_ there tid returned => exact (controlled.join at_ there tid).2
  | marked at_ => exact controlled.mark at_
  | unlocked at_ => exact controlled.unlock at_
  | exits at_ =>
    rw [at_] at phase
    refine controlled.main_goto rfl rfl rfl (fun holds => by cases holds) ?_
    exact phase
  | failed errno at_ =>
    refine controlled.main_goto rfl rfl rfl (fun holds => by cases holds) ?_
    exact fun zero => controlled.phase.nothing zero

end SystemProgramming.ThreadMultijoin
