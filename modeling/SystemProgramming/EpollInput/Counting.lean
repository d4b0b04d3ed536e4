import SystemProgramming.EpollInput.Model

namespace SystemProgramming.EpollInput

open Transition

variable {argv : List CString}

inductive Move (argv : List CString) (s : State) : Action → State → Prop where
  | delivered (inode : Nat) (bytes : List Byte) (goesOn : ¬(s.streams inode).Ended) :
      Move argv s (.deliver inode bytes) (s.setStream inode { s.streams inode with
        delivered := (s.streams inode).delivered ++ bytes
        pending := (s.streams inode).pending ++ bytes })
  | hungUp (inode : Nat) : Move argv s (.hangup inode) (s.setStream inode { s.streams inode with hungUp := true })
  | failed (inode : Nat) : Move argv s (.fail inode) (s.setStream inode { s.streams inode with failed := true })
  | checked (at_ : s.pc = .start) : Move argv s (.process .done) (checkUsage argv s)
  | created (at_ : s.pc = .creating) : Move argv s (.process .done) (nextArgument argv (createEpoll s) argv)
  | opened (inode : Nat) (path : CString) (paths : List CString) (at_ : s.pc = .opening path paths) :
      Move argv s (.opened inode) (openFile s inode paths)
  | added (fd : Fd) (paths : List CString) (at_ : s.pc = .adding fd paths) :
      Move argv s (.process .done) (nextArgument argv (monitor s fd) paths)
  | reported (batch : List Event) (at_ : s.pc = .waiting) (distinct : (batch.map (·.fd)).Nodup)
      (reportable : ∀ e ∈ batch, Reportable s e) : Move argv s (.report batch) (s.goto (.handling batch))
  | interrupted (at_ : s.pc = .waiting) : Move argv s (.process (.error .EINTR)) s
  | finished (at_ : s.pc = .waiting) (none_ : ¬0 < s.numOpenFds) :
      Move argv s (.process .done) (s.goto (.exited .success))
  | around (at_ : s.pc = .handling []) : Move argv s (.process .done) (s.goto .waiting)
  | read (e : Event) (events : List Event) (inode n : Nat) (at_ : s.pc = .handling (e :: events))
      (input : e.epollin = true) (present : s.fileOf e.fd = some inode) (count : ReadCount (s.streams inode) n) :
      Move argv s (.process (.count n)) (readInput s inode n events)
  | closed (e : Event) (events : List Event) (at_ : s.pc = .handling (e :: events)) (noInput : e.epollin = false)
      (ended : e.epollhup = true ∨ e.epollerr = true) : Move argv s (.process .done) (closed s e events)
  | idle (e : Event) (events : List Event) (at_ : s.pc = .handling (e :: events)) :
      Move argv s (.process .done) (s.goto (.handling events))
  | closeFailed (e : Event) (events : List Event) (errno : Errno) (at_ : s.pc = .handling (e :: events))
      (noInput : e.epollin = false) :
      Move argv s (.process (.error errno)) { s.goto (.exited .failure) with closes := s.closes ++ [e] }
  | left (errno : Errno) : Move argv s (.process (.error errno)) (s.goto (.exited .failure))

theorem handleStep_moves {s t : State} {e : Event} {events : List Event} {outcome : Outcome}
    (at_ : s.pc = .handling (e :: events)) (taken : handleStep s e events outcome = some t) :
    Move argv s (.process outcome) t := by
  unfold handleStep at taken
  split at taken
  · rename_i input
    split at taken
    · rename_i n inode present
      split at taken
      · rename_i count
        cases taken
        exact .read e events inode n at_ input present count
      · cases taken
    · cases taken
      exact .left _
    · cases taken
  · rename_i other
    have noInput : e.epollin = false := Bool.eq_false_iff.mpr other
    split at taken
    · rename_i ended
      cases outcome with
      | done =>
        cases taken
        exact .closed e events at_ noInput ended
      | count n => cases taken
      | error errno =>
        cases taken
        exact .closeFailed e events errno at_ noInput
    · cases outcome with
      | done =>
        cases taken
        exact .idle e events at_
      | count n => cases taken
      | error errno => cases taken

theorem processStep_moves {s t : State} {outcome : Outcome} (taken : processStep argv s outcome = some t) :
    Move argv s (.process outcome) t := by
  unfold processStep at taken
  split at taken
  case h_1 at_ =>
    cases outcome with
    | done =>
      cases taken
      exact .checked at_
    | count n => cases taken
    | error errno => cases taken
  case h_2 at_ =>
    cases outcome with
    | done =>
      cases taken
      exact .created at_
    | count n => cases taken
    | error errno =>
      cases taken
      exact .left errno
  case h_3 =>
    cases outcome with
    | done => cases taken
    | count n => cases taken
    | error errno =>
      cases taken
      exact .left errno
  case h_4 fd paths at_ =>
    cases outcome with
    | done =>
      cases taken
      exact .added fd paths at_
    | count n => cases taken
    | error errno =>
      cases taken
      exact .left errno
  case h_5 at_ =>
    unfold waitStep at taken
    split at taken
    · cases outcome with
      | done => cases taken
      | count n => cases taken
      | error errno =>
        cases taken
        split
        · rename_i interrupted
          rw [interrupted]
          exact .interrupted at_
        · exact .left errno
    · rename_i none_
      cases outcome with
      | done =>
        cases taken
        exact .finished at_ none_
      | count n => cases taken
      | error errno => cases taken
  case h_6 at_ =>
    cases outcome with
    | done =>
      cases taken
      exact .around at_
    | count n => cases taken
    | error errno => cases taken
  case h_7 e events at_ => exact handleStep_moves at_ taken
  case h_8 => cases taken

theorem step_moves {s t : State} {a : Action} (taken : step argv s a = some t) : Move argv s a t := by
  cases a with
  | deliver inode bytes =>
    unfold step at taken
    dsimp only at taken
    split at taken
    · cases taken
    · rename_i goesOn
      cases taken
      exact .delivered inode bytes goesOn
  | hangup inode =>
    cases taken
    exact .hungUp inode
  | fail inode =>
    cases taken
    exact .failed inode
  | opened inode =>
    unfold step openStep at taken
    dsimp only at taken
    split at taken
    · rename_i path paths at_
      cases taken
      exact .opened inode path paths at_
    · cases taken
  | report batch =>
    unfold step reportStep at taken
    dsimp only at taken
    split at taken
    · rename_i at_
      split at taken
      · rename_i allowed
        cases taken
        exact .reported batch at_ allowed.2.2.2.1 allowed.2.2.2.2
      · cases taken
    · cases taken
  | process outcome => exact processStep_moves taken

def batch : Pc → List Event
  | .handling events => events
  | _ => []

section NextArgument

variable (s : State) (paths : List CString)

@[simp] theorem monitored_nextArgument : (nextArgument argv s paths).monitored = s.monitored := by
  cases paths <;> rfl

@[simp] theorem opened_nextArgument : (nextArgument argv s paths).opened = s.opened := by
  cases paths <;> rfl

@[simp] theorem closes_nextArgument : (nextArgument argv s paths).closes = s.closes := by
  cases paths <;> rfl

@[simp] theorem streams_nextArgument : (nextArgument argv s paths).streams = s.streams := by
  cases paths <;> rfl

@[simp] theorem fileOf_nextArgument (fd : Fd) : (nextArgument argv s paths).fileOf fd = s.fileOf fd := by
  cases paths <;> rfl

@[simp] theorem batch_nextArgument : batch (nextArgument argv s paths).pc = [] := by
  cases paths <;> rfl

theorem nextArgument_not_adding (fd : Fd) (rest : List CString) : (nextArgument argv s paths).pc ≠ .adding fd rest := by
  intro added
  cases paths <;> cases added

end NextArgument

/-- How the counter and the list of epoll go together; the opening loop starts at the name of the program, so it
    opens one descriptor more than `numOpenFds` counts. -/
def Phase (argv : List CString) (s : State) : Prop :=
  match s.pc with
  | .start | .creating => s.monitored = []
  | .opening _ paths | .adding _ paths => s.monitored.length + paths.length + 1 = argv.length
  | .waiting | .handling _ => s.numOpenFds + 1 = s.monitored.length
  | .exited .success => s.numOpenFds + 1 = s.monitored.length ∧ s.numOpenFds ≤ 0
  | .exited .failure => True

structure Counting (argv : List CString) (s : State) : Prop where
  phase : Phase argv s
  monitored : ∀ e ∈ batch s.pc, e.fd ∈ s.monitored
  distinct : ((batch s.pc).map (·.fd)).Nodup

theorem counting_initial (table : Descriptors Object) (numOpenFds : Int) (buf : List Byte) :
    Counting argv (initial table numOpenFds buf) := ⟨rfl, nofun, .nil⟩

section Counting

variable {s t : State} {a : Action}

theorem counting_nextArgument {paths : List CString} (sum : s.monitored.length + paths.length = argv.length) :
    Counting argv (nextArgument argv s paths) := by
  refine ⟨?_, ?_, ?_⟩
  · cases paths with
    | nil =>
      show argc argv - 1 + 1 = (s.monitored.length : Int)
      rw [List.length_nil, Nat.add_zero] at sum
      rw [argc, sum]
      omega
    | cons path paths => exact (Nat.add_assoc _ _ _).trans sum
  · rw [batch_nextArgument]
    nofun
  · rw [batch_nextArgument]
    exact .nil

theorem Counting.failure (s : State) (closes : List Event) :
    Counting argv { s.goto (.exited .failure) with closes } := ⟨trivial, nofun, .nil⟩

theorem Counting.frame (counting : Counting argv s) (pc : t.pc = s.pc) (monitored : t.monitored = s.monitored)
    (numOpenFds : t.numOpenFds = s.numOpenFds) : Counting argv t := by
  obtain ⟨phase, members, distinct⟩ := counting
  refine ⟨?_, ?_, ?_⟩
  · unfold Phase at phase ⊢
    rwa [pc, monitored, numOpenFds]
  · rwa [pc, monitored]
  · rwa [pc]

theorem Counting.rest {e : Event} {events : List Event} (counting : Counting argv s)
    (at_ : s.pc = .handling (e :: events)) :
    s.numOpenFds + 1 = s.monitored.length ∧ e.fd ∈ s.monitored ∧ (∀ other ∈ events, other.fd ∈ s.monitored) ∧
      (∀ other ∈ events, other.fd ≠ e.fd) ∧ (events.map (·.fd)).Nodup := by
  obtain ⟨phase, members, distinct⟩ := counting
  unfold Phase at phase
  rw [at_] at phase members distinct
  obtain ⟨first, rest⟩ := List.nodup_cons.mp distinct
  refine ⟨phase, members e List.mem_cons_self, fun other inside => members other (List.mem_cons_of_mem _ inside), ?_,
    rest⟩
  intro other inside same
  exact first (List.mem_map.mpr ⟨other, inside, same⟩)

theorem Counting.step (counting : Counting argv s) (move : Move argv s a t) : Counting argv t := by
  have phase := counting.phase
  unfold Phase at phase
  cases move with
  | delivered => exact counting.frame rfl rfl rfl
  | hungUp => exact counting.frame rfl rfl rfl
  | failed => exact counting.frame rfl rfl rfl
  | interrupted => exact counting
  | closeFailed => exact .failure s _
  | left => exact .failure s s.closes
  | checked at_ =>
    rw [at_] at phase
    unfold checkUsage
    split
    · split
      · exact .failure s s.closes
      · exact ⟨phase, nofun, .nil⟩
    · exact .failure s s.closes
  | created at_ =>
    rw [at_] at phase
    exact counting_nextArgument (by rw [createEpoll, phase, List.length_nil, Nat.zero_add])
  | opened inode path paths at_ =>
    rw [at_] at phase
    exact ⟨phase, nofun, .nil⟩
  | added fd paths at_ =>
    rw [at_] at phase
    refine counting_nextArgument ?_
    rw [monitor, List.length_append, List.length_singleton, ← phase]
    omega
  | reported batch at_ distinct reportable =>
    rw [at_] at phase
    exact ⟨phase, fun e member => (reportable e member).1, distinct⟩
  | finished at_ none_ =>
    rw [at_] at phase
    exact ⟨⟨phase, Int.not_lt.mp none_⟩, nofun, .nil⟩
  | around at_ =>
    rw [at_] at phase
    exact ⟨phase, nofun, .nil⟩
  | read e events inode n at_ =>
    obtain ⟨count, -, members, -, distinct⟩ := counting.rest at_
    exact ⟨count, members, distinct⟩
  | closed e events at_ =>
    obtain ⟨count, here, members, others, distinct⟩ := counting.rest at_
    refine ⟨?_, fun other inside => (List.mem_erase_of_ne (others other inside)).mpr (members other inside), distinct⟩
    show s.numOpenFds - 1 + 1 = ((s.monitored.erase e.fd).length : Int)
    have shorter := List.length_erase_of_mem here
    have positive := List.length_pos_of_mem here
    omega
  | idle e events at_ =>
    obtain ⟨count, -, members, -, distinct⟩ := counting.rest at_
    exact ⟨count, members, distinct⟩

theorem counting_of_run {table : Descriptors Object} {numOpenFds : Int} {buf : List Byte} {actions : List Action}
    (run : exec (EpollInput.step argv) actions (initial table numOpenFds buf) = some s) : Counting argv s := by
  apply exec_invariant (I := Counting argv) ?_ (counting_initial table numOpenFds buf) (along_true actions _) run
  intro s a t counting _ taken
  exact counting.step (step_moves taken)

end Counting

end SystemProgramming.EpollInput
