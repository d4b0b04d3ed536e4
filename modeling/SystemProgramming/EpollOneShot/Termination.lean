import SystemProgramming.EpollOneShot.Model
import SystemProgramming.Library.Termination

namespace SystemProgramming.EpollOneShot

open Transition

structure At (index : Nat) (fd : Fd) (s : State) (pc : WorkerPc) (isOpen : Bool) : Prop where
  here : ∃ w, s.workers[index]? = some w ∧ w.pc = pc ∧ (pc ≠ .starting → w.sockfd = some fd)
  slot : pc = .starting → s.slot = some fd
  socket : s.isOpen fd = isOpen

inductive SocketMove : WorkerPc → Bool → Outcome → WorkerPc → Bool → Prop where
  | started (isOpen : Bool) : SocketMove .starting isOpen .done .receiving isOpen
  | received (n : Nat) (some_bytes : n ≠ 0) : SocketMove .receiving true (.count n) .receiving true
  | ended : SocketMove .receiving true (.count 0) .closing true
  | again : SocketMove .receiving true (.error .EAGAIN) .resetting true
  | failed (isOpen : Bool) (errno : Errno) (other : errno ≠ .EAGAIN) :
      SocketMove .receiving isOpen (.error errno) .receiving isOpen
  | closed (isOpen : Bool) : SocketMove .closing isOpen .done .receiving false
  | notClosed (isOpen : Bool) (errno : Errno) :
      SocketMove .closing isOpen (.error errno) .receiving isOpen
  | rearmed (isOpen : Bool) : SocketMove .resetting isOpen .done .finished isOpen
  | notRearmed (isOpen : Bool) (errno : Errno) :
      SocketMove .resetting isOpen (.error errno) .finished isOpen

variable {index : Nat} {fd : Fd}

theorem at_of_set {s t : State} {w v : Worker} {pc : WorkerPc} {isOpen : Bool}
    (here : s.workers[index]? = some w) (workers : t.workers = s.workers.set index v) (at_ : v.pc = pc)
    (started : pc ≠ .starting) (sockfd : v.sockfd = some fd) (socket : t.isOpen fd = isOpen) :
    At index fd t pc isOpen := by
  refine ⟨⟨v, ?_, at_, fun _ => sockfd⟩, fun starting => absurd starting started, socket⟩
  rw [workers, List.getElem?_set_self (List.getElem?_eq_some_iff.mp here).1]

theorem workerStep_at {s t : State} {pc : WorkerPc} {isOpen : Bool} {outcome : Outcome}
    (before : At index fd s pc isOpen) (taken : workerStep s index outcome = some t) :
    ∃ next after, SocketMove pc isOpen outcome next after ∧ At index fd t next after := by
  rcases before with ⟨⟨w, here, rfl, sockfd⟩, slot, rfl⟩
  unfold workerStep at taken
  rw [here, Option.bind_some] at taken
  dsimp only at taken
  split at taken
  case h_1 at_ =>
    rw [at_]
    cases outcome <;> cases taken
    exact ⟨_, _, .started _, at_of_set here rfl rfl nofun (slot at_) rfl⟩
  case h_2 socket at_ named =>
    have same : socket = fd := Option.some.inj (named.symm.trans (sockfd (by simp [at_])))
    subst same
    rw [at_]
    cases outcome with
    | done => cases taken
    | count n =>
      dsimp only at taken
      split at taken
      · rename_i counted
        cases taken
        rw [counted.1]
        by_cases ended : n = 0
        · subst ended
          exact ⟨_, _, .ended, at_of_set here rfl rfl nofun named counted.1⟩
        · rw [if_neg ended]
          exact ⟨_, _, .received n ended, at_of_set here rfl rfl nofun named counted.1⟩
      · cases taken
    | error errno =>
      dsimp only at taken
      split at taken
      · rename_i again
        split at taken
        · rename_i isOpen
          cases taken
          rw [again, isOpen]
          exact ⟨_, _, .again, at_of_set here rfl rfl nofun named isOpen⟩
        · cases taken
      · rename_i other
        cases taken
        exact ⟨_, _, .failed _ errno other, at_of_set here rfl rfl nofun named rfl⟩
  case h_3 socket at_ named =>
    have same : socket = fd := Option.some.inj (named.symm.trans (sockfd (by simp [at_])))
    subst same
    rw [at_]
    cases outcome with
    | done =>
      cases taken
      exact ⟨_, _, .closed _, at_of_set here rfl rfl nofun named (Function.update_self _ _ _)⟩
    | count n => cases taken
    | error errno =>
      cases taken
      exact ⟨_, _, .notClosed _ errno, at_of_set here rfl rfl nofun named rfl⟩
  case h_4 socket at_ named =>
    rw [at_]
    cases outcome with
    | done =>
      cases taken
      exact ⟨_, _, .rearmed _, at_of_set here rfl rfl nofun (sockfd (by simp [at_])) rfl⟩
    | count n => cases taken
    | error errno =>
      cases taken
      exact ⟨_, _, .notRearmed _ errno, at_of_set here rfl rfl nofun (sockfd (by simp [at_])) rfl⟩
  case h_5 => cases taken

inductive SocketCall where
  | close
  | rearm
  deriving DecidableEq, Repr

def callsAt (pc : WorkerPc) (outcome : Outcome) : List SocketCall :=
  match pc, outcome with
  | .closing, .done => [.close]
  | .resetting, _ => [.rearm]
  | _, _ => []

def socketCalls (index : Nat) (s : State) (outcome : Outcome) : List SocketCall :=
  s.workers[index]?.elim [] fun w => callsAt w.pc outcome

def Called (pc : WorkerPc) (isOpen : Bool) (calls : List SocketCall) : Prop :=
  isOpen = true ∧ calls = (if pc = .finished then [.rearm] else []) ∨
    isOpen = false ∧ pc = .receiving ∧ calls = [.close]

theorem SocketMove.called {pc next : WorkerPc} {isOpen after : Bool} {outcome : Outcome}
    {calls : List SocketCall} (called : Called pc isOpen calls)
    (move : SocketMove pc isOpen outcome next after) : Called next after (calls ++ callsAt pc outcome) := by
  rcases called with ⟨rfl, rfl⟩ | ⟨rfl, rfl, rfl⟩
  · cases move with
    | closed => exact .inr ⟨rfl, rfl, rfl⟩
    | _ => exact .inl ⟨rfl, rfl⟩
  · cases move with
    | failed errno other => exact .inr ⟨rfl, rfl, rfl⟩

def Serving (index : Nat) (fd : Fd) (calls : List SocketCall) (s : State) : Prop :=
  ∃ pc isOpen, At index fd s pc isOpen ∧ Called pc isOpen calls

theorem workerStep_serving {calls : List SocketCall} {s t : State} {outcome : Outcome}
    (serving : Serving index fd calls s) (taken : workerStep s index outcome = some t) :
    Serving index fd (calls ++ socketCalls index s outcome) t := by
  rcases serving with ⟨pc, isOpen, before, called⟩
  rcases workerStep_at before taken with ⟨next, after, move, behind⟩
  rcases before with ⟨⟨w, here, at_, -⟩, -, -⟩
  have now : socketCalls index s outcome = callsAt pc outcome := by
    rw [socketCalls, here, Option.elim_some, at_]
  rw [now]
  exact ⟨next, after, behind, move.called called⟩

def Quiet (index : Nat) (s : State) (outcome : Outcome) : Prop :=
  s.workers[index]?.map Worker.pc = some .receiving →
    outcome ≠ .count 0 ∧ (outcome.isError = true → outcome = .error .EAGAIN)

instance (s : State) (outcome : Outcome) : Decidable (Quiet index s outcome) :=
  inferInstanceAs (Decidable (_ → _))

section Progress

variable {s : State} {isOpen : Bool}

theorem exists_start (starting : At index fd s .starting isOpen) :
    ∃ t, workerStep s index .done = some t ∧ At index fd t .receiving isOpen := by
  rcases starting with ⟨⟨⟨event, sockfd, pc⟩, here, rfl, -⟩, slot, socket⟩
  refine ⟨s.setWorker index ⟨event, s.slot, .receiving⟩, ?_,
    at_of_set here rfl rfl nofun (slot rfl) socket⟩
  rw [workerStep, here]
  rfl

/-- A signal comes in, or the descriptor has been closed. -/
theorem exists_receive (receiving : At index fd s .receiving isOpen) :
    ∃ t, workerStep s index (.error (if isOpen then .EINTR else EBADF)) = some t ∧
      At index fd t .receiving isOpen := by
  rcases receiving with ⟨⟨⟨event, sockfd, pc⟩, here, rfl, named⟩, -, socket⟩
  cases named nofun
  refine ⟨s.setWorker index ⟨event, some fd, .receiving⟩, ?_, at_of_set here rfl rfl nofun rfl socket⟩
  rw [workerStep, here]
  cases isOpen <;> rfl

theorem exists_close (closing : At index fd s .closing isOpen) :
    ∃ t, workerStep s index .done = some t ∧ At index fd t .receiving false := by
  rcases closing with ⟨⟨⟨event, sockfd, pc⟩, here, rfl, named⟩, -, -⟩
  cases named nofun
  refine ⟨{ s.setWorker index ⟨event, some fd, .receiving⟩ with
      isOpen := Function.update s.isOpen fd false
      armed := Function.update s.armed fd false }, ?_,
    at_of_set here rfl rfl nofun rfl (Function.update_self _ _ _)⟩
  rw [workerStep, here]
  rfl

theorem exists_reset (resetting : At index fd s .resetting isOpen) :
    ∃ t, workerStep s index .done = some t ∧ At index fd t .finished isOpen := by
  rcases resetting with ⟨⟨⟨event, sockfd, pc⟩, here, rfl, named⟩, -, socket⟩
  cases named nofun
  refine ⟨{ s.setWorker index ⟨event, some fd, .finished⟩ with
      armed := Function.update s.armed fd (s.isOpen fd) }, ?_, at_of_set here rfl rfl nofun rfl socket⟩
  rw [workerStep, here]
  rfl

/-- A worker that receives can go on for ever, as nothing but `EAGAIN` ends its loop. -/
theorem receiving_endless (receiving : At index fd s .receiving isOpen) :
    ¬ Ends (fun s => workerStep s index) s := by
  refine not_ends (I := fun s => At index fd s .receiving isOpen) ?_ receiving
  intro s here
  rcases exists_receive here with ⟨t, taken, next⟩
  exact ⟨_, t, taken, next⟩

/-- Before its `reset_oneshot` there is always a way to go on for ever. -/
theorem endless_or_resetting {pc : WorkerPc} (here : At index fd s pc isOpen) :
    ¬ Ends (fun s => workerStep s index) s ∨ pc = .resetting ∨ pc = .finished := by
  have later : ∀ {outcome t next after}, workerStep s index outcome = some t →
      At index fd t next after → next = .receiving → ¬ Ends (fun s => workerStep s index) s := by
    intro outcome t next after taken there receiving ends
    subst receiving
    have run : exec (fun s => workerStep s index) [outcome] s = some t := by
      rw [exec_cons, taken]
      rfl
    exact receiving_endless there (ends.of_exec run)
  cases pc with
  | starting =>
    rcases exists_start here with ⟨t, taken, there⟩
    exact .inl (later taken there rfl)
  | receiving => exact .inl (receiving_endless here)
  | closing =>
    rcases exists_close here with ⟨t, taken, there⟩
    exact .inl (later taken there rfl)
  | resetting => exact .inr (.inl rfl)
  | finished => exact .inr (.inr rfl)

end Progress

/-- Once the peer has closed the connection or an error has occurred, the worker leaves its loop and has
    closed the socket once; it does not re-arm a socket that it has closed. -/
structure Leaves (index : Nat) (start : State) (outcomes : List Outcome) (t : State) : Prop where
  ends : ¬ Along (fun s => workerStep s index) (Quiet index) outcomes start →
    Ends (fun s => workerStep s index) t
  closes : ¬ Along (fun s => workerStep s index) (Quiet index) outcomes start → ∀ more u,
    exec (fun s => workerStep s index) more t = some u →
      u.workers[index]?.map Worker.pc = some .finished →
        (trace (fun s => workerStep s index) (socketCalls index) (outcomes ++ more) start).count .close = 1
  rearms : .close ∈ trace (fun s => workerStep s index) (socketCalls index) outcomes start →
    .rearm ∉ trace (fun s => workerStep s index) (socketCalls index) outcomes start

theorem serving_of_run {start t : State} {outcomes : List Outcome}
    (starting : At index fd start .starting true)
    (run : exec (fun s => workerStep s index) outcomes start = some t) :
    Serving index fd (trace (fun s => workerStep s index) (socketCalls index) outcomes start) t := by
  apply exec_trace_always (I := Serving index fd) ?_ ⟨_, _, starting, .inl ⟨rfl, rfl⟩⟩ run
  intro calls s outcome t serving taken
  exact workerStep_serving serving taken

theorem Serving.finished {calls : List SocketCall} {s : State} (serving : Serving index fd calls s)
    (finished : s.workers[index]?.map Worker.pc = some .finished) : calls = [.rearm] := by
  rcases serving with ⟨pc, isOpen, ⟨⟨w, here, at_, -⟩, -, -⟩, called⟩
  rw [here, Option.map_some, at_, Option.some.injEq] at finished
  subst finished
  rcases called with ⟨-, calls⟩ | ⟨-, receiving, -⟩
  · exact calls
  · cases receiving

theorem At.map_pc {s : State} {pc : WorkerPc} {isOpen : Bool} (here : At index fd s pc isOpen) :
    s.workers[index]?.map Worker.pc = some pc := by
  rcases here with ⟨⟨w, there, at_, -⟩, -, -⟩
  rw [there, Option.map_some, at_]

/-- The worker gets away from its socket as it should exactly as long as there is nothing to get away
    from. -/
theorem leaves_iff (start : State) (starting : At index fd start .starting true)
    (outcomes : List Outcome) (t : State)
    (run : exec (fun s => workerStep s index) outcomes start = some t) :
    Leaves index start outcomes t ↔
      Along (fun s => workerStep s index) (Quiet index) outcomes start := by
  have serving := serving_of_run starting run
  constructor
  · intro leaves
    by_contra ended
    have never_closed : ∀ more u, exec (fun s => workerStep s index) more t = some u →
        ¬ At index fd u .finished true := by
      intro more u rest finished
      have whole : exec (fun s => workerStep s index) (outcomes ++ more) start = some u := by
        rw [exec_append, run, Option.bind_some, rest]
      have once := leaves.closes ended more u rest finished.map_pc
      rw [(serving_of_run starting whole).finished finished.map_pc] at once
      cases once
    rcases serving with ⟨pc, isOpen, here, called⟩
    rcases endless_or_resetting here with endless | left_
    · exact endless (leaves.ends ended)
    · rcases called with ⟨rfl, -⟩ | ⟨-, rfl, -⟩
      · rcases left_ with rfl | rfl
        · rcases exists_reset here with ⟨u, taken, finished⟩
          refine never_closed [.done] u ?_ finished
          rw [exec_cons, taken]
          rfl
        · exact never_closed [] t rfl here
      · rcases left_ with other | other
        · cases other
        · cases other
  · intro quiet
    refine ⟨fun ended => absurd quiet ended, fun ended => absurd quiet ended, ?_⟩
    rcases serving with ⟨pc, isOpen, -, called⟩
    rcases called with ⟨-, calls⟩ | ⟨-, -, calls⟩
    · rw [calls]
      intro closed
      split at closed
      · simp at closed
      · cases closed
    · rw [calls]
      simp

def created : State where
  main := .waiting
  isOpen := fun fd => decide (fd = 3 ∨ fd = 5)
  armed := fun _ => false
  slot := some 5
  workers := [⟨5, none, .starting⟩]
  reported := [5]

theorem at_created : At 0 5 created .starting true := ⟨⟨_, rfl, rfl, nofun⟩, fun _ => rfl, rfl⟩

def readAll : List Outcome := [.done, .count 7, .error .EAGAIN, .done]

theorem leaves_iff_readAll :
    ∃ t, exec (fun s => workerStep s 0) readAll created = some t ∧ Leaves 0 created readAll t :=
  ⟨_, rfl, (leaves_iff created at_created readAll _ rfl).mpr (by decide)⟩

def hangup : List Outcome := [.done, .count 0, .done]

theorem hangup_endless :
    ∃ t, exec (fun s => workerStep s 0) hangup created = some t ∧ ¬ Leaves 0 created hangup t := by
  refine ⟨_, rfl, ?_⟩
  intro leaves
  refine @receiving_endless 0 5 _ false ?_ (leaves.ends (by decide))
  exact ⟨⟨_, rfl, rfl, fun _ => rfl⟩, nofun, rfl⟩

end SystemProgramming.EpollOneShot
