import SystemProgramming.FifoSeqnum.Service
import SystemProgramming.Library.Termination
import SystemProgramming.Library.Weights

namespace SystemProgramming.FifoSeqnum

open Records Transition

variable {argv : Pid → BitVec 32} {capacity : Nat} {s t : State} {pid : Pid} {ids : List Pid}

def ServerPc.rank : ServerPc → Nat
  | .mkfifo | .openClient => 3
  | .openServer | .update => 2
  | .openDummy | .write => 1
  | .read | .exited => 0

def ClientPc.rank : ClientPc → Nat
  | .openServer => 11
  | .mkfifo => 10
  | .atexit => 9
  | .write => 8
  | .openFifo => 3
  | .read | .report => 2
  | .exiting _ => 1
  | .exited _ => 0

def State.work (ids : List Pid) (s : State) : Nat :=
  Weights.total (fun pid => (s.clients pid).pc.rank) ids + s.pipe.length / 2 + s.server.pc.rank

theorem ServerWork.less {ch : Channel Request} (framed : Framed capacity s ch) (work : ServerWork s t) :
    t.work ids + 1 ≤ s.work ids := by
  cases work with
  | created at_ | opened at_ | ready at_ | openedClient at_ | updated at_ | answered pid fds content at_ clientFd =>
    simp only [State.work, State.serverAt, State.setFifo, updateSeqNum, at_, ServerPc.rank]
    omega
  | taken n at_ available positive =>
    obtain ⟨r, rest, req, waiting, -, whole⟩ := framed.readRequest available positive
    have bytes : s.pipe.length = (requestCodec.frames rest).length + 8 := by
      rw [framed.bytes, waiting, requestCodec.length_frames, requestCodec.length_frames, List.length_cons]
      show _ * 8 = _ * 8 + 8
      omega
    rw [whole]
    simp only [State.work, at_, ServerPc.rank, bytes]
    omega

theorem work_setClient {c : Client} (k : Nat) (member : pid ∈ ids)
    (clients : t.clients = Function.update s.clients pid c) (server : t.server = s.server)
    (pipe : t.pipe.length = s.pipe.length + 2 * k) (less : c.pc.rank + (k + 1) ≤ (s.clients pid).pc.rank) :
    t.work ids + 1 ≤ s.work ids := by
  have lower : Weights.total (fun other => (t.clients other).pc.rank) ids + (k + 1) ≤
      Weights.total (fun other => (s.clients other).pc.rank) ids := by
    rw [clients]
    apply Weights.total_lower member
    · rwa [Function.update_self]
    · intro other _
      by_cases same : other = pid
      · subst same
        rw [Function.update_self]
        omega
      · rw [Function.update_of_ne same]
  rw [State.work, State.work, server, pipe]
  omega

theorem ClientWork.less (member : pid ∈ ids) (work : ClientWork argv capacity s pid t) :
    t.work ids + 1 ≤ s.work ids := by
  cases work with
  | requested at_ =>
    refine work_setClient 4 member rfl rfl ?_ ?_
    · show (s.pipe ++ requestCodec.encode (request argv pid)).length = _
      rw [List.length_append, requestCodec.length_encode]
      rfl
    · simp [at_, ClientPc.rank]
  | connected at_ | created at_ | registered at_ | opened at_ | took n rsp content at_ | reported at_ =>
    exact work_setClient 0 member rfl rfl rfl (by simp [at_, ClientPc.rank])
  | removed status at_ => exact work_setClient 0 member rfl rfl rfl (by simp [at_, ClientPc.rank])

theorem step_work {action : Action} (served : Served argv capacity ids s) (serves : Serves ids action)
    (stepped : step argv capacity s action = some t) : t.work ids + 1 ≤ s.work ids := by
  cases action with
  | server outcome =>
    obtain ⟨ch, framed⟩ := served.framed
    exact (serverStep_works serves stepped).less framed
  | client pid outcome => exact (clientStep_works serves.1 stepped).less serves.2

def CanAdvance (argv : Pid → BitVec 32) (capacity : Nat) (ids : List Pid) (s : State) : Prop :=
  ∃ action t, Serves ids action ∧ step argv capacity s action = some t

theorem canAdvance_of_isSome (action : Action) (serves : Serves ids action)
    (enabled : (step argv capacity s action).isSome) : CanAdvance argv capacity ids s := by
  obtain ⟨t, taken⟩ := Option.isSome_iff_exists.mp enabled
  exact ⟨action, t, serves, taken⟩

/-- The server only waits for a request. -/
theorem server_stuck (served : Served argv capacity ids s) (stuck : ¬ CanAdvance argv capacity ids s) :
    s.server.pc = .read ∧ s.pipe = [] := by
  have goes : ∀ outcome : Outcome, outcome.isError = false → (serverStep s outcome).isSome → False :=
    fun outcome succeeds enabled => stuck (canAdvance_of_isSome (.server outcome) succeeds enabled)
  have made := served.accounted.made
  cases at_ : s.server.pc with
  | mkfifo =>
    refine (goes .done rfl ?_).elim
    have absent : s.serverFifo = false := by simpa [at_] using made
    simp [serverStep, at_, absent]
  | openServer | openDummy =>
    refine (goes .done rfl ?_).elim
    have present : s.serverFifo = true := made.mpr (by simp [at_])
    simp [serverStep, at_, present]
  | read =>
    refine ⟨rfl, ?_⟩
    by_contra some_
    have positive := List.length_pos_of_ne_nil some_
    have wide : 0 < sizeofRequest := requestCodec.width_pos
    apply goes (.count (min sizeofRequest s.pipe.length)) rfl
    have enough : 0 < min sizeofRequest s.pipe.length := Nat.lt_min.mpr ⟨wide, positive⟩
    simp [serverStep, at_, enough]
  | openClient =>
    obtain ⟨-, reader, there⟩ := served.inHand (by simp [State.current, at_])
    refine (goes .done rfl ?_).elim
    simp [serverStep, at_, reader, there]
  | update => exact (goes .done rfl (by simp [serverStep, at_])).elim
  | write =>
    obtain ⟨-, reader, there⟩ := served.inHand (by simp [State.current, at_])
    have head := served.accounted.clientFd (.inr at_)
    obtain ⟨fds, clientFd⟩ := List.head?_eq_some_iff.mp head
    refine (goes .done rfl ?_).elim
    simp [serverStep, at_, clientFd, reader, there]
  | exited => exact absurd at_ served.accounted.running

/-- When the server waits, all that were asked are answered. -/
theorem Served.idle (served : Served argv capacity ids s) (at_ : s.server.pc = .read) (empty : s.pipe = []) :
    s.requested = s.answers.map (·.req) := by
  obtain ⟨waiting, order, bytes⟩ := served.order
  have nobody : waiting = [] := by
    rw [empty] at bytes
    have size := requestCodec.length_frames waiting
    rw [← bytes, List.length_nil] at size
    apply List.length_eq_zero_iff.mp
    rcases Nat.mul_eq_zero.mp size.symm with none_ | narrow
    · exact none_
    · exact absurd narrow requestCodec.width_pos.ne'
  rw [order, nobody, State.current, at_, List.append_nil, List.append_nil]

theorem Served.isAnswered (served : Served argv capacity ids s) (idle : s.requested = s.answers.map (·.req))
    (sent : ¬ (s.clients pid).pc.Unsent) : s.IsAnswered pid := by
  have member := served.sent pid sent
  rw [State.IsAnswered, served.accounted.fifos, ← idle]
  exact List.mem_map_of_mem (f := (·.pid)) member

theorem client_stuck (served : Served argv capacity ids s) (room : sizeofRequest ≤ capacity)
    (stuck : ¬ CanAdvance argv capacity ids s) (member : pid ∈ ids) :
    (s.clients pid).pc = .exited .failure ∧ s.fifos pid = none := by
  obtain ⟨reading, empty⟩ := server_stuck served stuck
  have idle := served.idle reading empty
  have made : s.serverFifo = true := served.accounted.made.mpr (by simp [reading])
  have goes : ∀ outcome : Outcome, outcome.isError = false → (clientStep argv capacity s pid outcome).isSome → False :=
    fun outcome succeeds enabled => stuck (canAdvance_of_isSome (.client pid outcome) ⟨succeeds, member⟩ enabled)
  have phase := served.phases pid member
  have answered : ¬ (s.clients pid).pc.Unsent → s.IsAnswered pid := served.isAnswered idle
  cases at_ : (s.clients pid).pc with
  | openServer => exact (goes .done rfl (by simp [clientStep, at_, made, reading])).elim
  | mkfifo =>
    rw [at_] at phase
    have absent : s.fifos pid = none := phase
    exact (goes .done rfl (by simp [clientStep, at_, absent])).elim
  | atexit => exact (goes .done rfl (by simp [clientStep, at_])).elim
  | write => exact (goes .done rfl (by simp [clientStep, at_, empty, room])).elim
  | openFifo =>
    rw [at_] at phase
    obtain ⟨content, there, -⟩ := phase
    have opened : s.HasWriter pid := by
      obtain ⟨a, member, same⟩ := List.mem_map.mp (answered (by simp [at_, ClientPc.Unsent]))
      have routed := (served.accounted.routed a member).2
      rw [same] at routed
      exact .inr routed
    exact (goes .done rfl (by simp [clientStep, at_, there, opened])).elim
  | read =>
    rw [at_] at phase
    obtain ⟨content, there, iff⟩ := phase
    have some_ := iff.mpr (answered (by simp [at_, ClientPc.Unsent]))
    have positive := List.length_pos_of_ne_nil some_
    have enough : 0 < min sizeofResponse content.length := Nat.lt_min.mpr ⟨by decide, positive⟩
    refine (goes (.count (min sizeofResponse content.length)) rfl ?_).elim
    simp [clientStep, at_, there, enough]
  | report =>
    rw [at_] at phase
    exact phase.elim
  | exiting status =>
    rw [at_] at phase
    cases status with
    | success => exact phase.elim
    | failure =>
      have present : (s.fifos pid).isSome := phase.2
      exact (goes .done rfl (by simp [clientStep, at_, present])).elim
  | exited status =>
    rw [at_] at phase
    cases status with
    | success => exact phase.elim
    | failure => exact ⟨rfl, phase.2⟩

/-- The server and the clients never wait for each other in a ring: a run without a failing call has a bounded
    number of statements, and where none is left each client has been granted the numbers behind the last
    ones, once, and has removed its FIFO. Nonetheless each of them has failed. -/
theorem clients_served {left : Pid → Bool} {req : List Byte} {rsp : BitVec 32} (ids : List Pid) (distinct : ids.Nodup)
    (fresh : ∀ pid ∈ ids, left pid = false) (room : sizeofRequest ≤ capacity) {actions : List Action}
    (serves : Along (step argv capacity) (fun _ => Serves ids) actions (initial false left req rsp))
    (run : exec (step argv capacity) actions (initial false left req rsp) = some s) :
    actions.length ≤ 11 * ids.length + 3 ∧
    (¬ CanAdvance argv capacity ids s →
      (s.answers.map (·.fifo)).Perm ids ∧ (∀ a ∈ s.answers, a.req = request argv a.fifo) ∧
      Consecutive 0 s.answers ∧ ∀ pid ∈ ids, (s.clients pid).pc = .exited .failure ∧ s.fifos pid = none) := by
  have kept : ∀ s action t, Served argv capacity ids s → Serves ids action → step argv capacity s action = some t →
      Served argv capacity ids t := fun _ _ _ served serves stepped => step_served served serves stepped
  constructor
  · have bound := count_add_measure_le (fun _ => true) (State.work ids) kept
      (fun _ _ _ served serves stepped => step_work served serves stepped) (served_initial fresh) serves run
    have start : (initial false left req rsp).work ids = 11 * ids.length + 3 := by
      have each : Weights.total (fun pid => ((initial false left req rsp).clients pid).pc.rank) ids =
          ids.length * 11 := Weights.total_const fun _ _ => rfl
      rw [State.work, each, Nat.mul_comm]
      simp [initial, ServerPc.rank]
    rw [List.countP_true, start] at bound
    omega
  · intro stuck
    have served : Served argv capacity ids s := exec_invariant kept (served_initial fresh) serves run
    obtain ⟨reading, empty⟩ := server_stuck served stuck
    have idle := served.idle reading empty
    have ended : ∀ pid ∈ ids, (s.clients pid).pc = .exited .failure ∧ s.fifos pid = none :=
      fun pid member => client_stuck served room stuck member
    refine ⟨?_, ?_, served.accounted.consecutive, ended⟩
    · have unique := served.asked.distinct
      rw [idle, ← served.accounted.fifos] at unique
      rw [List.perm_ext_iff_of_nodup unique distinct]
      intro pid
      constructor
      · intro answered
        apply served.members
        intro at_
        exact served.unsent (.inl at_) answered
      · intro member
        exact served.isAnswered idle (by simp [ended pid member, ClientPc.Unsent])
    · intro a member
      have routed := (served.accounted.routed a member).1
      rw [routed]
      apply (served.asked.written a.req _).1
      rw [idle]
      exact List.mem_map_of_mem member

def twoServed : List Action :=
  [.server .done, .server .done, .server .done] ++
    ([.done, .done, .done, .done].flatMap fun outcome => [.client 7 outcome, .client 9 outcome]) ++
    [.server (.count 8), .client 7 .done, .server .done, .server .done, .server .done, .server (.count 8),
      .server .done, .client 7 (.count 4), .client 9 .done, .server .done, .server .done, .client 7 .done,
      .client 9 (.count 4), .client 9 .done]

theorem clients_served_two :
    ∃ s, exec (step (fun _ => 5) 16) twoServed (initial false (fun _ => false) [] 0) = some s ∧
      twoServed.length ≤ 25 ∧ (s.answers.map (·.fifo)).Perm [7, 9] ∧ Consecutive 0 s.answers ∧
      (s.clients 9).pc = .exited .failure := by
  obtain ⟨s, run⟩ : ∃ s, exec (step (fun _ => 5) 16) twoServed (initial false (fun _ => false) [] 0) = some s :=
    Option.isSome_iff_exists.mp (by decide +kernel)
  have whole := clients_served [7, 9] (by decide) (fun _ _ => rfl) (by decide) (by decide +kernel) run
  have stuck : ¬ CanAdvance (fun _ => 5) 16 [7, 9] s := by
    rintro ⟨action, t, serves, taken⟩
    cases run
    cases action with
    | client pid outcome =>
      simp only [Serves, List.mem_cons, List.not_mem_nil, or_false] at serves
      rcases serves.2 with rfl | rfl <;> cases taken
    | server outcome =>
      cases outcome with
      | error errno => cases serves
      | done => cases taken
      | count n => cases n <;> cases taken
  have ended := whole.2 stuck
  exact ⟨s, run, whole.1, ended.1, ended.2.2.1, (ended.2.2.2 9 (by decide)).1⟩

end SystemProgramming.FifoSeqnum
