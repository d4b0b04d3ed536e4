import Mathlib.Data.Finset.Card
import Mathlib.Data.List.Range
import SystemProgramming.Kernel
import SystemProgramming.Library.Termination

namespace SystemProgramming.PollPipes

open Transition

structure Pipe where
  readEnd : Nat
  writeEnd : Nat
  bytes : Nat
  deriving DecidableEq

inductive Call where
  | callocPfds
  | callocPollFd
  | pipe
  | write
  | poll
  deriving DecidableEq

inductive Line where
  | failed (call : Call)
  | writing (writeEnd readEnd : Nat)
  | returned (ready : Nat)
  | readable (j fd : Nat)
  deriving DecidableEq

inductive Pc where
  | callocPfds
  | callocPollFd
  | pipe
  | random
  | write (randPipe : Nat)
  | poll
  | report
  | exited (status : ExitStatus)
  | killed
  deriving DecidableEq

structure State where
  pc : Pc
  pipes : List Pipe
  j : Nat
  stdout : List Line

inductive Action where
  | call (outcome : Outcome)
  | pipe (readEnd writeEnd : Nat)
  | random (r : Nat)

namespace State

def fail (s : State) (call : Call) : State := { s with pc := .exited .failure, stdout := s.stdout ++ [.failed call] }

end State

def readEnd (pipes : List Pipe) (j : Nat) : Nat := pipes[j]?.elim 0 (·.readEnd)
def writeEnd (pipes : List Pipe) (j : Nat) : Nat := pipes[j]?.elim 0 (·.writeEnd)

def readable (pipes : List Pipe) : List Nat :=
  (List.range pipes.length).filter fun j => pipes[j]?.any fun p => decide (0 < p.bytes)

variable (numPipes numWrites : Int) (capacity : Nat)

def afterWrite (j : Nat) : Pc := if (j : Int) < numWrites then .random else .poll

def afterPipe (made : Nat) : Pc := if (made : Int) < numPipes then .pipe else afterWrite numWrites 0

/-- `numPipes` and `numWrites` are what `atoi` makes of the arguments. The program reads none of the pipes, so
    that a `write` to a full one blocks for good; `random() % 0` ends the program with a signal. -/
def step (s : State) (action : Action) : Option State :=
  match s.pc, action with
  | .callocPfds, .call .done => if 0 ≤ numPipes then some { s with pc := .callocPollFd } else none
  | .callocPfds, .call (.error _) => some (s.fail .callocPfds)
  | .callocPollFd, .call .done => some { s with pc := afterPipe numPipes numWrites 0 }
  | .callocPollFd, .call (.error _) => some (s.fail .callocPollFd)
  | .pipe, .pipe readEnd writeEnd =>
    some { s with
      pc := afterPipe numPipes numWrites (s.pipes.length + 1)
      pipes := s.pipes ++ [⟨readEnd, writeEnd, 0⟩] }
  | .pipe, .call (.error _) => some (s.fail .pipe)
  | .random, .random r =>
    if numPipes = 0 then some { s with pc := .killed }
    else
      let randPipe := r % numPipes.toNat
      some { s with
        pc := .write randPipe
        stdout := s.stdout ++ [.writing (writeEnd s.pipes randPipe) (readEnd s.pipes randPipe)] }
  | .write randPipe, .call (.count n) =>
    if n = 1 ∧ s.pipes[randPipe]?.any (fun p => decide (p.bytes < capacity)) = true then
      some { s with
        pc := afterWrite numWrites (s.j + 1)
        pipes := s.pipes.modify randPipe fun p => { p with bytes := p.bytes + 1 }
        j := s.j + 1 }
    else none
  | .write _, .call (.error _) => some (s.fail .write)
  | .poll, .call (.count ready) =>
    if ready = (readable s.pipes).length ∧ 0 < ready then
      some { s with pc := .report, stdout := s.stdout ++ [.returned ready] }
    else none
  | .poll, .call (.error _) => some (s.fail .poll)
  | .report, .call .done =>
    some { s with
      pc := .exited .success
      stdout := s.stdout ++ (readable s.pipes).map fun j => .readable j (readEnd s.pipes j) }
  | _, _ => none

def initial : State := ⟨.callocPfds, [], 0, []⟩

def draws (s : State) : Action → List Nat
  | .call (.count _) =>
    match s.pc with
    | .write randPipe => [randPipe]
    | _ => []
  | _ => []

def Action.Succeeds : Action → Prop
  | .call outcome => outcome.isError = false
  | _ => True

variable {numPipes numWrites : Int} {capacity : Nat} {s t : State} {action : Action} {log : List Nat}

def Pc.call : Pc → Option Call
  | .callocPfds => some .callocPfds
  | .callocPollFd => some .callocPollFd
  | .pipe => some .pipe
  | .write _ => some .write
  | .poll => some .poll
  | .random | .report | .exited _ | .killed => none

inductive Move (numPipes numWrites : Int) (capacity : Nat) (s : State) : Action → State → Prop where
  | allocatedPfds (at_ : s.pc = .callocPfds) (nonneg : 0 ≤ numPipes) :
      Move numPipes numWrites capacity s (.call .done) { s with pc := .callocPollFd }
  | allocatedPollFd (at_ : s.pc = .callocPollFd) :
      Move numPipes numWrites capacity s (.call .done) { s with pc := afterPipe numPipes numWrites 0 }
  | piped (readEnd writeEnd : Nat) (at_ : s.pc = .pipe) :
      Move numPipes numWrites capacity s (.pipe readEnd writeEnd) { s with
        pc := afterPipe numPipes numWrites (s.pipes.length + 1)
        pipes := s.pipes ++ [⟨readEnd, writeEnd, 0⟩] }
  | drew (r : Nat) (at_ : s.pc = .random) (some_ : numPipes ≠ 0) :
      Move numPipes numWrites capacity s (.random r) { s with
        pc := .write (r % numPipes.toNat)
        stdout := s.stdout ++
          [.writing (writeEnd s.pipes (r % numPipes.toNat)) (readEnd s.pipes (r % numPipes.toNat))] }
  | dividedByZero (r : Nat) (at_ : s.pc = .random) (none_ : numPipes = 0) :
      Move numPipes numWrites capacity s (.random r) { s with pc := .killed }
  | wrote (k : Nat) (at_ : s.pc = .write k)
      (room : s.pipes[k]?.any (fun p => decide (p.bytes < capacity)) = true) :
      Move numPipes numWrites capacity s (.call (.count 1)) { s with
        pc := afterWrite numWrites (s.j + 1)
        pipes := s.pipes.modify k fun p => { p with bytes := p.bytes + 1 }
        j := s.j + 1 }
  | polled (at_ : s.pc = .poll) (some_ : 0 < (readable s.pipes).length) :
      Move numPipes numWrites capacity s (.call (.count (readable s.pipes).length)) { s with
        pc := .report
        stdout := s.stdout ++ [.returned (readable s.pipes).length] }
  | reported (at_ : s.pc = .report) :
      Move numPipes numWrites capacity s (.call .done) { s with
        pc := .exited .success
        stdout := s.stdout ++ (readable s.pipes).map fun j => .readable j (readEnd s.pipes j) }
  | failed (errno : Errno) (call : Call) (at_ : s.pc.call = some call) :
      Move numPipes numWrites capacity s (.call (.error errno)) (s.fail call)

theorem step_moves (taken : step numPipes numWrites capacity s action = some t) :
    Move numPipes numWrites capacity s action t := by
  unfold step at taken
  split at taken
  case h_1 at_ =>
    split at taken
    · rename_i nonneg
      cases taken
      exact .allocatedPfds at_ nonneg
    · cases taken
  case h_3 at_ =>
    cases taken
    exact .allocatedPollFd at_
  case h_5 readEnd writeEnd at_ =>
    cases taken
    exact .piped readEnd writeEnd at_
  case h_7 r at_ =>
    split at taken
    · rename_i none_
      cases taken
      exact .dividedByZero r at_ none_
    · rename_i some_
      cases taken
      exact .drew r at_ some_
  case h_8 k n at_ =>
    split at taken
    · rename_i room
      obtain ⟨rfl, room⟩ := room
      cases taken
      exact .wrote k at_ room
    · cases taken
  case h_10 ready at_ =>
    split at taken
    · rename_i some_
      obtain ⟨rfl, some_⟩ := some_
      cases taken
      exact .polled at_ some_
    · cases taken
  case h_12 at_ =>
    cases taken
    exact .reported at_
  case h_13 => cases taken
  case h_2 at_ | h_4 at_ | h_6 at_ | h_9 at_ | h_11 at_ =>
    cases taken
    exact .failed _ _ (by rw [at_]; rfl)

def writes (pipes : List Pipe) (log : List Nat) : List Line :=
  log.map fun k => .writing (writeEnd pipes k) (readEnd pipes k)

def Phase (numPipes numWrites : Int) (log : List Nat) (s : State) : Prop :=
  match s.pc with
  | .callocPfds => s.pipes = [] ∧ log = [] ∧ s.stdout = []
  | .callocPollFd => 0 ≤ numPipes ∧ s.pipes = [] ∧ log = [] ∧ s.stdout = []
  | .pipe => (s.pipes.length : Int) < numPipes ∧ log = [] ∧ s.stdout = []
  | .random => s.pipes.length = numPipes ∧ (log.length : Int) < numWrites ∧ s.stdout = writes s.pipes log
  | .write randPipe =>
    s.pipes.length = numPipes ∧ (log.length : Int) < numWrites ∧ randPipe < s.pipes.length ∧
      s.stdout = writes s.pipes (log ++ [randPipe])
  | .poll => s.pipes.length = numPipes ∧ (log.length : Int) = max numWrites 0 ∧ s.stdout = writes s.pipes log
  | .report =>
    s.pipes.length = numPipes ∧ (log.length : Int) = max numWrites 0 ∧
      s.stdout = writes s.pipes log ++ [.returned (readable s.pipes).length]
  | .exited .success =>
    s.pipes.length = numPipes ∧ (log.length : Int) = max numWrites 0 ∧
      s.stdout = writes s.pipes log ++ [.returned (readable s.pipes).length] ++
        (readable s.pipes).map fun j => .readable j (readEnd s.pipes j)
  | .exited .failure | .killed => True

structure Drawn (numPipes numWrites : Int) (log : List Nat) (s : State) : Prop where
  counted : ∀ (k : Nat) (p : Pipe), s.pipes[k]? = some p → p.bytes = log.count k
  within : ∀ k ∈ log, k < s.pipes.length
  length : s.j = log.length
  phase : Phase numPipes numWrites log s

theorem Drawn.readable_eq (drawn : Drawn numPipes numWrites log s) :
    (readable s.pipes) = (List.range s.pipes.length).filter (· ∈ log) := by
  apply List.filter_congr
  intro j below
  rw [List.mem_range] at below
  rw [List.getElem?_eq_getElem below, Option.any_some, drawn.counted j _ (List.getElem?_eq_getElem below)]
  simp [List.count_pos_iff]

theorem Drawn.readable_card (drawn : Drawn numPipes numWrites log s) :
    (readable s.pipes).length = log.toFinset.card := by
  have distinct : (readable s.pipes).Nodup := List.nodup_range.filter _
  rw [← List.toFinset_card_of_nodup distinct]
  congr 1
  ext k
  rw [List.mem_toFinset, List.mem_toFinset, drawn.readable_eq, List.mem_filter, List.mem_range]
  simp only [decide_eq_true_eq, and_iff_right_iff_imp]
  exact drawn.within k

theorem phase_afterWrite {s : State} (at_ : s.pc = afterWrite numWrites log.length)
    (made : s.pipes.length = numPipes) (below : (log.length : Int) ≤ max numWrites 0)
    (output : s.stdout = writes s.pipes log) : Phase numPipes numWrites log s := by
  unfold afterWrite at at_
  unfold Phase
  split at at_
  · rename_i more
    rw [at_]
    exact ⟨made, more, output⟩
  · rename_i last
    rw [at_]
    exact ⟨made, by omega, output⟩

theorem phase_afterPipe {s : State} (at_ : s.pc = afterPipe numPipes numWrites s.pipes.length)
    (below : (s.pipes.length : Int) ≤ numPipes) (output : s.stdout = []) : Phase numPipes numWrites [] s := by
  unfold afterPipe at at_
  split at at_
  · rename_i more
    unfold Phase
    rw [at_]
    exact ⟨more, rfl, output⟩
  · rename_i last
    exact phase_afterWrite at_ (by omega) (Int.le_max_right _ _) output

theorem writes_modify (pipes : List Pipe) (k : Nat) (log : List Nat) :
    writes (pipes.modify k fun p => { p with bytes := p.bytes + 1 }) log = writes pipes log := by
  apply List.map_congr_left
  intro i _
  simp only [readEnd, writeEnd, List.getElem?_modify]
  cases pipes[i]? with
  | none => rfl
  | some p => by_cases same : k = i <;> simp [same]

theorem Drawn.written {k : Nat} (drawn : Drawn numPipes numWrites log s) (at_ : s.pc = .write k) :
    Drawn numPipes numWrites (log ++ [k]) { s with
      pc := afterWrite numWrites (s.j + 1)
      pipes := s.pipes.modify k fun p => { p with bytes := p.bytes + 1 }
      j := s.j + 1 } := by
  have phase := drawn.phase
  rw [Phase, at_] at phase
  obtain ⟨made, more, below, output⟩ := phase
  have size : (s.pipes.modify k fun p => { p with bytes := p.bytes + 1 }).length = s.pipes.length :=
    List.length_modify _ _ _
  refine ⟨?_, ?_, ?_, ?_⟩
  · intro i p here
    rw [List.getElem?_modify] at here
    obtain ⟨before, there, rfl⟩ := Option.map_eq_some_iff.mp here
    have counted := drawn.counted i before there
    rw [List.count_append, List.count_singleton]
    by_cases same : k = i
    · simp [same, counted]
    · simp [same, counted]
  · intro i member
    show i < (s.pipes.modify k _).length
    rw [size]
    rcases List.mem_append.mp member with old | new
    · exact drawn.within i old
    · rwa [List.mem_singleton.mp new]
  · rw [List.length_append, ← drawn.length]
    rfl
  · apply phase_afterWrite
    · rw [List.length_append, ← drawn.length]
      rfl
    · show ((s.pipes.modify k _).length : Int) = numPipes
      rwa [size]
    · rw [List.length_append, List.length_singleton]
      omega
    · show s.stdout = writes (s.pipes.modify k _) (log ++ [k])
      rw [output, writes_modify]

theorem Drawn.goto (drawn : Drawn numPipes numWrites log s) (pipes : t.pipes = s.pipes) (j : t.j = s.j)
    (phase : Phase numPipes numWrites log t) : Drawn numPipes numWrites log t :=
  ⟨by rw [pipes]; exact drawn.counted, by rw [pipes]; exact drawn.within, j.trans drawn.length, phase⟩

theorem Drawn.failed (drawn : Drawn numPipes numWrites log s) (call : Call) :
    Drawn numPipes numWrites log (s.fail call) := drawn.goto rfl rfl trivial

theorem Drawn.made (drawn : Drawn numPipes numWrites [] s) (at_ : s.pc = .pipe) (readEnd writeEnd : Nat) :
    Drawn numPipes numWrites [] { s with
      pc := afterPipe numPipes numWrites (s.pipes.length + 1)
      pipes := s.pipes ++ [⟨readEnd, writeEnd, 0⟩] } := by
  have phase := drawn.phase
  rw [Phase, at_] at phase
  obtain ⟨more, -, quiet⟩ := phase
  refine ⟨?_, by simp, drawn.length, phase_afterPipe ?_ ?_ quiet⟩
  · intro k p here
    rcases List.mem_append.mp (List.mem_of_getElem? here) with old | new
    · obtain ⟨i, there⟩ := List.getElem?_of_mem old
      exact drawn.counted i p there
    · rw [List.mem_singleton.mp new]
      rfl
  · simp
  · simp only [List.length_append, List.length_singleton]
    omega

theorem Drawn.random (drawn : Drawn numPipes numWrites log s) (at_ : s.pc = .random) (some_ : numPipes ≠ 0)
    (r : Nat) :
    Drawn numPipes numWrites log { s with
      pc := .write (r % numPipes.toNat)
      stdout := s.stdout ++
        [.writing (writeEnd s.pipes (r % numPipes.toNat)) (readEnd s.pipes (r % numPipes.toNat))] } := by
  have phase := drawn.phase
  rw [Phase, at_] at phase
  obtain ⟨made, more, output⟩ := phase
  have below : r % numPipes.toNat < numPipes.toNat := Nat.mod_lt _ (by omega)
  refine drawn.goto rfl rfl ⟨made, more, ?_, ?_⟩
  · show r % numPipes.toNat < s.pipes.length
    omega
  · show s.stdout ++ _ = _
    rw [output, writes, writes, List.map_append]
    rfl

theorem step_drawn (drawn : Drawn numPipes numWrites log s)
    (taken : step numPipes numWrites capacity s action = some t) :
    Drawn numPipes numWrites (log ++ draws s action) t := by
  have phase := drawn.phase
  unfold Phase at phase
  have quiet : draws s action = [] → Drawn numPipes numWrites log t →
      Drawn numPipes numWrites (log ++ draws s action) t := by
    intro nothing next
    rwa [nothing, List.append_nil]
  cases step_moves taken with
  | allocatedPfds at_ nonneg =>
    rw [at_] at phase
    exact quiet rfl (drawn.goto rfl rfl ⟨nonneg, phase⟩)
  | allocatedPollFd at_ =>
    rw [at_] at phase
    obtain ⟨nonneg, empty, rfl, silent⟩ := phase
    refine quiet rfl (drawn.goto rfl rfl (phase_afterPipe ?_ ?_ silent))
    · show _ = afterPipe numPipes numWrites s.pipes.length
      rw [empty]
      rfl
    · show (s.pipes.length : Int) ≤ numPipes
      rw [empty]
      exact nonneg
  | piped readEnd writeEnd at_ =>
    rw [at_] at phase
    obtain ⟨-, rfl, -⟩ := phase
    exact quiet rfl (drawn.made at_ readEnd writeEnd)
  | drew r at_ some_ => exact quiet rfl (drawn.random at_ some_ r)
  | dividedByZero r at_ => exact quiet rfl (drawn.goto rfl rfl trivial)
  | wrote k at_ room =>
    rw [show draws s (.call (.count 1)) = [k] by simp [draws, at_]]
    exact drawn.written at_
  | polled at_ some_ =>
    rw [at_] at phase
    obtain ⟨made, last, output⟩ := phase
    refine quiet (by simp [draws, at_]) (drawn.goto rfl rfl ⟨made, last, ?_⟩)
    rw [output]
  | reported at_ =>
    rw [at_] at phase
    obtain ⟨made, last, output⟩ := phase
    refine quiet rfl (drawn.goto rfl rfl ⟨made, last, ?_⟩)
    rw [output]
  | failed errno call at_ => exact quiet rfl (drawn.failed call)

theorem drawn_initial : Drawn numPipes numWrites [] initial := ⟨by simp [initial], by simp, rfl, rfl, rfl, rfl⟩

def State.work (numPipes numWrites : Int) (s : State) : Nat :=
  match s.pc with
  | .callocPfds => numPipes.toNat + 2 * numWrites.toNat + 4
  | .callocPollFd => numPipes.toNat + 2 * numWrites.toNat + 3
  | .pipe => (numPipes - s.pipes.length).toNat + 2 * numWrites.toNat + 2
  | .random => 2 * (numWrites - s.j).toNat + 2
  | .write _ => 2 * (numWrites - s.j).toNat + 1
  | .poll => 2
  | .report => 1
  | .exited _ | .killed => 0

theorem work_afterWrite {j : Nat} (at_ : s.pc = afterWrite numWrites j) (same : s.j = j) :
    s.work numPipes numWrites ≤ 2 * (numWrites - j).toNat + 2 := by
  unfold afterWrite at at_
  split at at_
  · simp only [State.work, at_, same]
    omega
  · simp only [State.work, at_]
    omega

theorem work_afterPipe (at_ : s.pc = afterPipe numPipes numWrites s.pipes.length) (begun : s.j = 0) :
    s.work numPipes numWrites ≤ (numPipes - s.pipes.length).toNat + 2 * numWrites.toNat + 2 := by
  unfold afterPipe at at_
  split at at_
  · simp only [State.work, at_]
    omega
  · have rest : s.work numPipes numWrites ≤ _ := work_afterWrite at_ begun
    omega

theorem work_pos {call : Call} (at_ : s.pc.call = some call) : 0 < s.work numPipes numWrites := by
  unfold State.work
  cases pc : s.pc with
  | callocPfds | callocPollFd | pipe | write | poll => exact Nat.succ_pos _
  | random | report | exited | killed =>
    rw [pc] at at_
    cases at_

theorem step_work (drawn : Drawn numPipes numWrites log s)
    (taken : step numPipes numWrites capacity s action = some t) :
    t.work numPipes numWrites + 1 ≤ s.work numPipes numWrites := by
  have phase := drawn.phase
  have length := drawn.length
  unfold Phase at phase
  cases step_moves taken with
  | allocatedPfds at_ | drew r at_ | dividedByZero r at_ | polled at_ | reported at_ =>
    simp only [State.work, at_]
    omega
  | allocatedPollFd at_ =>
    rw [at_] at phase
    obtain ⟨nonneg, empty, rfl, silent⟩ := phase
    have next : State.work numPipes numWrites { s with pc := afterPipe numPipes numWrites 0 } ≤
        (numPipes - s.pipes.length).toNat + 2 * numWrites.toNat + 2 :=
      work_afterPipe (by rw [empty]; rfl) length
    have before : s.work numPipes numWrites = numPipes.toNat + 2 * numWrites.toNat + 3 := by
      simp only [State.work, at_]
    have none_ : s.pipes.length = 0 := by rw [empty, List.length_nil]
    rw [before]
    omega
  | piped readEnd writeEnd at_ =>
    rw [at_] at phase
    obtain ⟨more, rfl, -⟩ := phase
    have next : State.work numPipes numWrites { s with
        pc := afterPipe numPipes numWrites (s.pipes.length + 1)
        pipes := s.pipes ++ [⟨readEnd, writeEnd, 0⟩] } ≤ _ := work_afterPipe (by simp) length
    simp only [List.length_append, List.length_singleton] at next
    simp only [State.work, at_] at next ⊢
    omega
  | wrote k at_ =>
    rw [at_] at phase
    have next : State.work numPipes numWrites { s with
        pc := afterWrite numWrites (s.j + 1)
        pipes := s.pipes.modify k fun p => { p with bytes := p.bytes + 1 }
        j := s.j + 1 } ≤ _ := work_afterWrite rfl rfl
    have more := phase.2.1
    simp only [State.work, at_] at next ⊢
    omega
  | failed errno call at_ => exact work_pos at_

/-- Where the program waits for good, or has ended: `calloc` of a negative number of bytes fails, a full pipe is
    not read by anyone, and neither `poll` nor anyone else ends the wait for pipes that are all empty. -/
def Blocked (numPipes : Int) (capacity : Nat) (log : List Nat) : Pc → Prop
  | .callocPfds => numPipes < 0
  | .write randPipe => capacity ≤ log.count randPipe
  | .poll => log = []
  | .exited _ | .killed => True
  | .callocPollFd | .pipe | .random | .report => False

theorem goes_on_iff (drawn : Drawn numPipes numWrites log s) :
    (∃ action t, Action.Succeeds action ∧ step numPipes numWrites capacity s action = some t) ↔
      ¬ Blocked numPipes capacity log s.pc := by
  have phase := drawn.phase
  have ready := drawn.readable_card
  unfold Phase at phase
  constructor
  · rintro ⟨action, t, succeeds, taken⟩ blocked
    cases step_moves taken with
    | allocatedPfds at_ nonneg =>
      rw [at_] at blocked
      exact absurd blocked (Int.not_lt.mpr nonneg)
    | wrote k at_ room =>
      rw [at_] at blocked
      have full : capacity ≤ log.count k := blocked
      obtain ⟨p, there, below⟩ := (Option.any_eq_true _ _).mp room
      rw [decide_eq_true_eq, drawn.counted k p there] at below
      omega
    | polled at_ some_ =>
      rw [at_] at blocked
      rw [drawn.readable_card, show log = [] from blocked] at some_
      simp at some_
    | allocatedPollFd at_ | piped _ _ at_ | drew _ at_ | dividedByZero _ at_ | reported at_ =>
      rw [at_] at blocked
      exact blocked
    | failed => cases succeeds
  · intro free
    have goes : ∀ action : Action, action.Succeeds → (step numPipes numWrites capacity s action).isSome →
        ∃ action t, Action.Succeeds action ∧ step numPipes numWrites capacity s action = some t := by
      intro action succeeds enabled
      obtain ⟨t, taken⟩ := Option.isSome_iff_exists.mp enabled
      exact ⟨action, t, succeeds, taken⟩
    cases at_ : s.pc with
    | callocPfds =>
      rw [at_] at free
      exact goes (.call .done) rfl (by simp [step, at_, Int.not_lt.mp free])
    | callocPollFd | report => exact goes (.call .done) rfl (by simp [step, at_])
    | pipe => exact goes (.pipe 0 0) trivial (by simp [step, at_])
    | random => exact goes (.random 0) trivial (by simp only [step, at_]; split <;> rfl)
    | write k =>
      rw [at_] at phase free
      have there := List.getElem?_eq_getElem phase.2.2.1
      have room : s.pipes[k].bytes < capacity := by
        rw [drawn.counted k _ there]
        exact Nat.not_le.mp free
      exact goes (.call (.count 1)) rfl (by simp [step, at_, there, room])
    | poll =>
      rw [at_] at free
      have some_ : 0 < (readable s.pipes).length := by
        rw [ready, Finset.card_pos]
        exact (List.toFinset_nonempty_iff log).mpr free
      exact goes (.call (.count (readable s.pipes).length)) rfl (by simp [step, at_, some_])
    | exited status | killed =>
      rw [at_] at free
      exact absurd trivial free

def drawnBy (numPipes numWrites : Int) (capacity : Nat) (actions : List Action) : List Nat :=
  trace (step numPipes numWrites capacity) draws actions initial

/-- `poll_pipes` ends after a bounded number of statements; it goes on unless it is `Blocked`; and where it ends
    well it has written as often as it was asked to, and names just the pipes written to and their number. -/
theorem polls_drawn (numPipes numWrites : Int) (capacity : Nat) {actions : List Action}
    (run : exec (step numPipes numWrites capacity) actions initial = some s) :
    actions.length ≤ numPipes.toNat + 2 * numWrites.toNat + 4 ∧
    ((∃ action t, Action.Succeeds action ∧ step numPipes numWrites capacity s action = some t) ↔
      ¬ Blocked numPipes capacity (drawnBy numPipes numWrites capacity actions) s.pc) ∧
    (s.pc = .exited .success → ∃ log, log = drawnBy numPipes numWrites capacity actions ∧
      (log.length : Int) = max numWrites 0 ∧ (∀ k ∈ log, (k : Int) < numPipes) ∧
      s.stdout = writes s.pipes log ++ [.returned log.toFinset.card] ++
        ((List.range numPipes.toNat).filter (· ∈ log)).map fun j => .readable j (readEnd s.pipes j)) := by
  have drawn : Drawn numPipes numWrites (drawnBy numPipes numWrites capacity actions) s := by
    apply exec_trace_always ?_ drawn_initial run
    intro log s action t drawn taken
    exact step_drawn drawn taken
  refine ⟨?_, goes_on_iff drawn, ?_⟩
  · have kept : ∀ s action t, (∃ log, Drawn numPipes numWrites log s) → True →
        step numPipes numWrites capacity s action = some t → ∃ log, Drawn numPipes numWrites log t :=
      fun _ _ _ ⟨_, drawn⟩ _ taken => ⟨_, step_drawn drawn taken⟩
    have bound := count_add_measure_le (fun _ => true) (State.work numPipes numWrites) kept
      (fun _ _ _ ⟨_, drawn⟩ _ taken => step_work drawn taken) ⟨[], drawn_initial⟩ (along_true actions _) run
    have start : initial.work numPipes numWrites = numPipes.toNat + 2 * numWrites.toNat + 4 := rfl
    rw [List.countP_true, start] at bound
    omega
  · intro ended
    have phase := drawn.phase
    rw [Phase, ended] at phase
    obtain ⟨made, last, output⟩ := phase
    have count : numPipes.toNat = s.pipes.length := by omega
    refine ⟨_, rfl, last, ?_, ?_⟩
    · intro k member
      have below := drawn.within k member
      omega
    · rw [output, drawn.readable_card, drawn.readable_eq, count]

def sameTwice : List Action :=
  [.call .done, .call .done, .pipe 3 4, .pipe 5 6, .pipe 7 8, .random 4, .call (.count 1), .random 7, .call (.count 1),
    .call (.count 1), .call .done]

theorem polls_drawn_sameTwice :
    ∃ s, exec (step 3 2 65536) sameTwice initial = some s ∧ sameTwice.length ≤ 11 ∧
      s.stdout = [.writing 6 5, .writing 6 5, .returned 1, .readable 1 5] := by
  have ends : (exec (step 3 2 65536) sameTwice initial).any
      (fun s => s.pc = .exited .success ∧ s.pipes = [⟨3, 4, 0⟩, ⟨5, 6, 2⟩, ⟨7, 8, 0⟩]) = true := by decide +kernel
  obtain ⟨s, run, both⟩ := (Option.any_eq_true _ _).mp ends
  rw [decide_eq_true_eq] at both
  have whole := polls_drawn 3 2 65536 run
  obtain ⟨log, same, -, -, output⟩ := whole.2.2 both.1
  have drawn : drawnBy 3 2 65536 sameTwice = [1, 1] := by decide +kernel
  rw [same, drawn, both.2] at output
  exact ⟨s, run, whole.1, output.trans (by decide +kernel)⟩

end SystemProgramming.PollPipes
