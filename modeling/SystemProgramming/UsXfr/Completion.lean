import SystemProgramming.Library.Termination
import SystemProgramming.Library.Weights
import SystemProgramming.UsXfr.Concatenation

namespace SystemProgramming.UsXfr

open Transition

variable {input : Id → List Byte} {s t : State} {id other : Id} {outcome : Outcome} {ids : List Id}

inductive ClientMove (s : State) (id : Id) : State → Prop where
  | connected (at_ : (s.clients id).pc = .connecting) :
      ClientMove s id
        { s.setClient id { s.clients id with pc := .reading } with backlog := s.backlog ++ [id] }
  | filled (n : Nat) (at_ : (s.clients id).pc = .reading) (some_ : 0 < n) (fits : n ≤ BUF_SIZE)
      (available : n ≤ (s.clients id).stdin.length) :
      ClientMove s id (s.setClient id { s.clients id with
        pc := .writing
        stdin := (s.clients id).stdin.drop n
        buf := Buffer.overwrite ((s.clients id).stdin.take n) (s.clients id).buf
        numRead := n })
  | ended (at_ : (s.clients id).pc = .reading) (empty : (s.clients id).stdin = []) :
      ClientMove s id (s.setClient id { s.clients id with pc := .exited .success, numRead := 0 })
  | wrote (at_ : (s.clients id).pc = .writing) :
      ClientMove s id (s.setClient id { s.clients id with
        pc := .reading
        conn := (s.clients id).conn.put ((s.clients id).buf.take (s.clients id).numRead) })

theorem clientStep_moves (works : Works s (.client id outcome)) (taken : clientStep s id outcome = some t) :
    ClientMove s id t := by
  obtain ⟨succeeds, whole⟩ := works
  unfold clientStep at taken
  dsimp only at taken
  split at taken
  · rename_i at_
    cases outcome with
    | count n => cases taken
    | error errno => cases succeeds
    | done =>
      dsimp only at taken
      split at taken
      · cases taken
        exact .connected at_
      · cases taken
  · rename_i at_
    obtain ⟨c, stepped, rfl⟩ := Option.map_eq_some_iff.mp taken
    cases outcome with
    | done => cases stepped
    | error errno => cases succeeds
    | count n =>
      simp only [clientRead] at stepped
      split at stepped
      · rename_i read
        cases stepped
        exact .filled n at_ read.1 read.2.1 read.2.2
      · split at stepped
        · rename_i ended
          cases stepped
          exact .ended at_ ended.2
        · cases stepped
  · rename_i at_
    obtain ⟨c, stepped, rfl⟩ := Option.map_eq_some_iff.mp taken
    cases outcome with
    | done => cases stepped
    | error errno => cases succeeds
    | count n =>
      have same : n = (s.clients id).numRead := whole (by rw [at_]; rfl)
      subst same
      simp only [clientWrite, returned, ne_eq, not_true_eq_false, if_false] at stepped
      split at stepped
      · cases stepped
        exact .wrote at_
      · cases stepped
  · cases taken

/-- `ServerMove.filled` does not say how much is read. -/
theorem filled_some (works : Works s (.server outcome)) (taken : serverStep s outcome = some t)
    (at_ : s.pc = .reading id) (writes : t.pc = .writing id) : 0 < t.numRead ∧ t.numRead ≤ BUF_SIZE := by
  unfold serverStep at taken
  rw [at_] at taken
  cases outcome with
  | done => cases taken
  | error errno => cases works.1
  | count n =>
    dsimp only at taken
    split at taken
    · rename_i read
      cases taken
      exact ⟨read.1, read.2.1⟩
    · split at taken
      · cases taken
        cases writes
      · cases taken

def Action.Within (ids : List Id) : Action → Prop
  | .client id _ => id ∈ ids
  | .server _ => True

instance (ids : List Id) : (action : Action) → Decidable (action.Within ids)
  | .client id _ => inferInstanceAs (Decidable (id ∈ ids))
  | .server _ => isTrue trivial

def ClientPc.rank : ClientPc → Nat
  | .connecting => 2
  | .reading | .writing => 1
  | .exited _ => 0

def Client.work (c : Client) : Nat :=
  4 * c.stdin.length + (if c.pc = .writing then 2 * c.numRead + 1 else 0) + 2 * c.conn.inFlight.length +
    c.pc.rank

def connectionWork (s : State) (id : Id) : Nat :=
  if id ∈ s.closed then 0
  else
    match s.pc with
    | .reading current => if current = id then 2 else 3
    | .closing current => if current = id then 1 else 3
    | _ => 3

def work (s : State) (id : Id) : Nat := (s.clients id).work + connectionWork s id

structure Serving (input : Id → List Byte) (ids : List Id) (s : State) : Prop where
  invariant : Invariant input s
  members : ∀ id ∈ s.accepted ++ s.backlog, id ∈ ids
  connected : ∀ id, (s.clients id).pc ≠ .connecting → id ∈ s.accepted ++ s.backlog
  unfailed : ∀ id, (s.clients id).pc ≠ .exited .failure
  clientFits : ∀ id, (s.clients id).pc = .writing → (s.clients id).numRead ≤ BUF_SIZE
  serverFits : ∀ id, s.pc = .writing id → s.numRead ≤ BUF_SIZE

theorem Serving.current (serving : Serving input ids s) (at_ : s.pc.current = some id) :
    id ∈ s.accepted ∧ id ∈ ids ∧ id ∉ s.closed := by
  have order := serving.invariant.order
  have distinct := serving.invariant.distinct.of_append_left
  rw [at_, Option.toList_some] at order
  have member : id ∈ s.accepted := by simp [order]
  refine ⟨member, serving.members id (List.mem_append_left _ member), ?_⟩
  rw [order] at distinct
  intro closed
  exact List.disjoint_of_nodup_append distinct closed (by simp)

/-- What a client may be replaced by without its connection's being concerned. -/
theorem Serving.setClient {c : Client} (serving : Serving input ids s)
    (invariant : Invariant input (s.setClient id c)) (connected : id ∈ s.accepted ++ s.backlog)
    (unfailed : c.pc ≠ .exited .failure) (fits : c.pc = .writing → c.numRead ≤ BUF_SIZE) :
    Serving input ids (s.setClient id c) := by
  refine ⟨invariant, serving.members, ?_, ?_, ?_, serving.serverFits⟩
  · apply Parties.forall_update (P := fun other (c : Client) => c.pc ≠ .connecting → other ∈ s.accepted ++ s.backlog)
      serving.connected
    exact fun _ => connected
  · exact Parties.forall_update (P := fun _ (c : Client) => c.pc ≠ .exited .failure) serving.unfailed unfailed
  · exact Parties.forall_update (P := fun _ (c : Client) => c.pc = .writing → c.numRead ≤ BUF_SIZE)
      serving.clientFits fits

theorem ClientMove.serving (serving : Serving input ids s) (member : id ∈ ids)
    (invariant : Invariant input t) (move : ClientMove s id t) : Serving input ids t := by
  cases move with
  | connected at_ =>
    refine ⟨invariant, ?_, ?_, ?_, ?_, serving.serverFits⟩
    · intro other waiting
      rw [← List.append_assoc, List.mem_append, List.mem_singleton] at waiting
      rcases waiting with before | rfl
      · exact serving.members other before
      · exact member
    · intro other connected
      rw [← List.append_assoc, List.mem_append, List.mem_singleton]
      by_cases same : other = id
      · exact .inr same
      · simp only [State.setClient, Function.update_of_ne same] at connected
        exact .inl (serving.connected other connected)
    · exact Parties.forall_update (P := fun _ (c : Client) => c.pc ≠ .exited .failure) serving.unfailed (by simp)
    · exact Parties.forall_update (P := fun _ (c : Client) => c.pc = .writing → c.numRead ≤ BUF_SIZE)
        serving.clientFits (by simp)
  | filled n at_ some_ fits available =>
    exact serving.setClient invariant (serving.connected id (by simp [at_])) (by simp) (fun _ => fits)
  | ended at_ empty =>
    exact serving.setClient invariant (serving.connected id (by simp [at_])) (by simp) (by simp)
  | wrote at_ =>
    exact serving.setClient invariant (serving.connected id (by simp [at_])) (by simp) (by simp)

theorem serverStep_serving (serving : Serving input ids s) (works : Works s (.server outcome))
    (taken : serverStep s outcome = some t) : Serving input ids t := by
  have invariant := serverStep_invariant serving.invariant works taken
  have fits : ∀ id, s.pc = .reading id → t.pc = .writing id → t.numRead ≤ BUF_SIZE :=
    fun id at_ writes => (filled_some works taken at_ writes).2
  obtain ⟨-, members, connected, unfailed, clientFits, -⟩ := serving
  cases serverStep_moves works taken with
  | accepted id backlog at_ waiting =>
    have same : s.accepted ++ [id] ++ backlog = s.accepted ++ s.backlog := by
      rw [waiting, List.append_assoc, List.singleton_append]
    refine ⟨invariant, ?_, ?_, unfailed, clientFits, by simp [State.goto]⟩
    · rwa [← same] at members
    · rwa [← same] at connected
  | filled id n at_ available =>
    have fits := fits id at_ rfl
    refine ⟨invariant, members, ?_, ?_, ?_, fun _ _ => fits⟩
    · exact Parties.forall_update (P := fun other (c : Client) => c.pc ≠ .connecting → other ∈ s.accepted ++ s.backlog)
        connected (connected id)
    · exact Parties.forall_update (P := fun _ (c : Client) => c.pc ≠ .exited .failure) unfailed (unfailed id)
    · exact Parties.forall_update (P := fun _ (c : Client) => c.pc = .writing → c.numRead ≤ BUF_SIZE) clientFits
        (clientFits id)
  | ended id at_ drained exited => exact ⟨invariant, members, connected, unfailed, clientFits, by simp [State.goto]⟩
  | wrote id at_ => exact ⟨invariant, members, connected, unfailed, clientFits, by simp [State.goto]⟩
  | closed id at_ => exact ⟨invariant, members, connected, unfailed, clientFits, by simp [State.goto]⟩

theorem connectionWork_congr (pc : t.pc = s.pc) (closed : t.closed = s.closed) (id : Id) :
    connectionWork t id = connectionWork s id := by
  rw [connectionWork, connectionWork, pc, closed]

theorem ClientMove.work (move : ClientMove s id t) :
    work t id + 1 ≤ work s id ∧ ∀ other, other ≠ id → work t other = work s other := by
  have same : ∀ other, connectionWork t other = connectionWork s other := by
    cases move <;> exact connectionWork_congr rfl rfl
  have less : (t.clients id).work + 1 ≤ (s.clients id).work := by
    cases move <;> simp_all [Client.work, State.setClient, ClientPc.rank] <;> omega
  constructor
  · rw [UsXfr.work, UsXfr.work, same]
    omega
  · intro other apart
    rw [UsXfr.work, UsXfr.work, same]
    cases move <;> simp [State.setClient, apart]

theorem connectionWork_le (t : State) (id : Id) : connectionWork t id ≤ 3 := by
  unfold connectionWork
  split
  · omega
  · split
    · split <;> omega
    · split <;> omega
    · omega

theorem connectionWork_other (current : t.pc.current ≠ some id) (open_ : id ∉ t.closed) : connectionWork t id = 3 := by
  unfold connectionWork
  rw [if_neg open_]
  split
  · rename_i at_
    rw [at_] at current
    exact if_neg fun same => current (by rw [same]; rfl)
  · rename_i at_
    rw [at_] at current
    exact if_neg fun same => current (by rw [same]; rfl)
  · rfl

theorem connectionWork_closed (closed : id ∈ t.closed) : connectionWork t id = 0 := if_pos closed

/-- Of the connections, the server works on one. -/
theorem serverStep_work (serving : Serving input ids s) (works : Works s (.server outcome))
    (taken : serverStep s outcome = some t) :
    ∃ id ∈ ids, work t id + 1 ≤ work s id ∧ ∀ other, other ≠ id → work t other ≤ work s other := by
  have read : ∀ id, s.pc = .reading id → t.pc = .writing id → 0 < t.numRead :=
    fun id at_ writes => (filled_some works taken at_ writes).1
  have alone : ∀ id, id ∈ ids → (∀ other, other ≠ id → t.clients other = s.clients other) →
      (∀ other, other ≠ id → s.pc.current ≠ some other) → (∀ other, other ∈ s.closed → other ∈ t.closed) →
      work t id + 1 ≤ work s id →
      ∃ id ∈ ids, work t id + 1 ≤ work s id ∧ ∀ other, other ≠ id → work t other ≤ work s other := by
    intro id member clients idle closed less
    refine ⟨id, member, less, ?_⟩
    intro other apart
    have share : connectionWork t other ≤ connectionWork s other := by
      by_cases done : other ∈ s.closed
      · rw [connectionWork_closed (closed other done)]
        exact Nat.zero_le _
      · rw [connectionWork_other (idle other apart) done]
        exact connectionWork_le t other
    rw [work, work, clients other apart]
    omega
  have only : ∀ id, s.pc.current = some id → ∀ other, other ≠ id → s.pc.current ≠ some other := by
    intro id at_ other apart same
    rw [at_, Option.some.injEq] at same
    exact apart same.symm
  cases serverStep_moves works taken with
  | accepted id backlog at_ waiting =>
    have queued : id ∈ s.backlog := by simp [waiting]
    have distinct := serving.invariant.distinct
    have fresh : id ∉ s.closed := by
      intro closed
      have accepted : id ∈ s.accepted := by simp [serving.invariant.order, closed]
      exact List.disjoint_of_nodup_append distinct accepted queued
    refine alone id (serving.members id (List.mem_append_right _ queued)) (fun _ _ => rfl)
      (by simp [at_, ServerPc.current]) (fun _ closed => closed) ?_
    simp [work, connectionWork, State.goto, fresh, at_]
  | filled id n at_ available =>
    have current : s.pc.current = some id := by rw [at_]; rfl
    obtain ⟨-, member, fresh⟩ := serving.current current
    have positive : 0 < n := read id at_ rfl
    refine alone id member ?_ (only id current) (fun _ closed => closed) ?_
    · intro other apart
      exact Function.update_of_ne apart _ _
    · simp [work, connectionWork, Client.work, State.goto, State.setClient, fresh, at_]
      omega
  | ended id at_ drained exited =>
    have current : s.pc.current = some id := by rw [at_]; rfl
    obtain ⟨-, member, fresh⟩ := serving.current current
    refine alone id member (fun _ _ => rfl) (only id current) (fun _ closed => closed) ?_
    simp [work, connectionWork, State.goto, fresh, at_]
  | wrote id at_ =>
    have current : s.pc.current = some id := by rw [at_]; rfl
    obtain ⟨-, member, fresh⟩ := serving.current current
    refine alone id member (fun _ _ => rfl) (only id current) (fun _ closed => closed) ?_
    simp [work, connectionWork, State.goto, fresh, at_]
  | closed id at_ =>
    have current : s.pc.current = some id := by rw [at_]; rfl
    obtain ⟨-, member, fresh⟩ := serving.current current
    refine alone id member (fun _ _ => rfl) (only id current) (fun _ closed => List.mem_append_left _ closed) ?_
    simp [work, connectionWork, State.goto, fresh, at_]

def Serves (ids : List Id) (s : State) (action : Action) : Prop := Works s action ∧ action.Within ids

instance (ids : List Id) (s : State) (action : Action) : Decidable (Serves ids s action) :=
  inferInstanceAs (Decidable (_ ∧ _))

theorem step_serving {action : Action} (serving : Serving input ids s) (serves : Serves ids s action)
    (taken : step s action = some t) : Serving input ids t := by
  cases action with
  | client id outcome =>
    exact (clientStep_moves serves.1 taken).serving serving serves.2
      (clientStep_invariant serving.invariant serves.1 taken)
  | server outcome => exact serverStep_serving serving serves.1 taken

theorem step_work {action : Action} (serving : Serving input ids s) (serves : Serves ids s action)
    (taken : step s action = some t) : Weights.total (work t) ids + 1 ≤ Weights.total (work s) ids := by
  have one : ∃ id ∈ ids, work t id + 1 ≤ work s id ∧ ∀ other, other ≠ id → work t other ≤ work s other := by
    cases action with
    | client id outcome =>
      obtain ⟨less, same⟩ := (clientStep_moves serves.1 taken).work
      exact ⟨id, serves.2, less, fun other apart => (same other apart).le⟩
    | server outcome => exact serverStep_work serving serves.1 taken
  obtain ⟨id, member, less, rest⟩ := one
  apply Weights.total_lower member less
  intro other _
  by_cases same : other = id
  · subst same
    omega
  · exact rest other same

theorem serving_initial (buf : List Byte) (junk : Id → List Byte) : Serving input ids (initial input buf junk) := by
  refine ⟨invariant_initial input buf junk, ?_, ?_, ?_, ?_, ?_⟩ <;> simp [initial]

theorem work_initial (buf : List Byte) (junk : Id → List Byte) (id : Id) :
    work (initial input buf junk) id = 4 * (input id).length + 5 := by
  simp [work, Client.work, connectionWork, initial, Channel.empty, ClientPc.rank]

def CanAdvance (ids : List Id) (s : State) : Prop := ∃ action t, Serves ids s action ∧ step s action = some t

theorem canAdvance_of_isSome (action : Action) (serves : Serves ids s action) (enabled : (step s action).isSome) :
    CanAdvance ids s := by
  obtain ⟨t, taken⟩ := Option.isSome_iff_exists.mp enabled
  exact ⟨action, t, serves, taken⟩

/-- A client waits only for its connection to be taken. -/
theorem client_stuck (serving : Serving input ids s) (stuck : ¬ CanAdvance ids s) (member : id ∈ ids) :
    (s.clients id).pc = .exited .success ∨ (s.clients id).pc = .connecting ∧ s.backlog ≠ [] := by
  cases at_ : (s.clients id).pc with
  | connecting =>
    refine .inr ⟨rfl, ?_⟩
    intro empty
    apply stuck
    apply canAdvance_of_isSome (.client id .done)
    · simp [Serves, Works, Action.Within, Outcome.isError, at_, ClientPc.writes, member]
    · simp [step, clientStep, at_, empty]
  | reading =>
    refine absurd ?_ stuck
    by_cases empty : (s.clients id).stdin = []
    · apply canAdvance_of_isSome (.client id (.count 0))
      · simp [Serves, Works, Action.Within, Outcome.isError, at_, ClientPc.writes, member]
      · simp [step, clientStep, clientRead, at_, empty]
    · have one : 1 ≤ (s.clients id).stdin.length := List.length_pos_of_ne_nil empty
      apply canAdvance_of_isSome (.client id (.count 1))
      · simp [Serves, Works, Action.Within, Outcome.isError, at_, ClientPc.writes, member]
      · simp [step, clientStep, clientRead, at_, one, BUF_SIZE]
  | writing =>
    have fits := serving.clientFits id at_
    refine absurd ?_ stuck
    apply canAdvance_of_isSome (.client id (.count (s.clients id).numRead))
    · simp [Serves, Works, Action.Within, Outcome.isError, at_, ClientPc.writes, member, returned]
    · simp [step, clientStep, clientWrite, at_, fits]
  | exited status =>
    cases status with
    | success => exact .inl rfl
    | failure => exact absurd at_ (serving.unfailed id)

theorem server_stuck (serving : Serving input ids s) (stuck : ¬ CanAdvance ids s) :
    s.pc = .accepting ∧ s.backlog = [] := by
  have goes : ∀ outcome : Outcome, outcome.isError = false → (s.pc.writes = true → returned outcome = s.numRead) →
      (serverStep s outcome).isSome → False :=
    fun outcome succeeds whole enabled =>
      stuck (canAdvance_of_isSome (.server outcome) ⟨⟨succeeds, whole⟩, trivial⟩ enabled)
  cases at_ : s.pc with
  | accepting =>
    refine ⟨rfl, ?_⟩
    cases waiting : s.backlog with
    | nil => rfl
    | cons id backlog =>
      refine (goes .done rfl (by simp [at_, ServerPc.writes]) ?_).elim
      simp [serverStep, at_, waiting]
  | reading id =>
    obtain ⟨accepted, member, -⟩ := serving.current (show s.pc.current = some id by rw [at_]; rfl)
    by_cases empty : (s.clients id).conn.inFlight = []
    · rcases client_stuck serving stuck member with ended | ⟨connecting, -⟩
      · refine (goes (.count 0) rfl (by simp [at_, ServerPc.writes]) ?_).elim
        simp [serverStep, at_, empty, ended, ClientPc.hasExited]
      · exact absurd (List.mem_append_left _ accepted) (serving.invariant.connecting id connecting)
    · have one : 1 ≤ (s.clients id).conn.inFlight.length := List.length_pos_of_ne_nil empty
      refine (goes (.count 1) rfl (by simp [at_, ServerPc.writes]) ?_).elim
      simp [serverStep, at_, one, BUF_SIZE]
  | writing id =>
    have fits := serving.serverFits id at_
    refine (goes (.count s.numRead) rfl (fun _ => rfl) ?_).elim
    simp [serverStep, at_, fits]
  | closing id =>
    refine (goes .done rfl (by simp [at_, ServerPc.writes]) ?_).elim
    simp [serverStep, at_]
  | exited status =>
    have copies := serving.invariant.copies
    rw [Copies, at_] at copies
    exact copies.elim

/-- The clients are all served: a fault-free run with these clients has a bounded number of steps, and
    where none is left each of them has ended and its input is in the output, whole and once. -/
theorem service_completes (input : Id → List Byte) (ids : List Id) (distinct : ids.Nodup) (buf : List Byte)
    (junk : Id → List Byte) {actions : List Action}
    (serves : Along step (Serves ids) actions (initial input buf junk))
    (run : exec step actions (initial input buf junk) = some s) :
    actions.length ≤ Weights.total (fun id => 4 * (input id).length + 5) ids ∧
    (¬ CanAdvance ids s →
      s.pc = .accepting ∧ s.backlog = [] ∧ (∀ id ∈ ids, (s.clients id).pc = .exited .success) ∧
      ∃ order : List Id, order.Perm ids ∧ s.stdout = order.flatMap input) := by
  constructor
  · have bound := count_add_measure_le (fun _ => true) (fun s => Weights.total (work s) ids)
      (fun _ _ _ serving serves taken => step_serving serving serves taken)
      (fun _ _ _ serving serves taken => step_work serving serves taken)
      (serving_initial buf junk) serves run
    have start : work (initial input buf junk) = fun id => 4 * (input id).length + 5 := funext (work_initial buf junk)
    rw [List.countP_true, start] at bound
    omega
  · intro stuck
    have serving : Serving input ids s := exec_invariant
      (fun _ _ _ serving serves taken => step_serving serving serves taken) (serving_initial buf junk) serves run
    obtain ⟨accepting, nobody⟩ := server_stuck serving stuck
    have ended : ∀ id ∈ ids, (s.clients id).pc = .exited .success := by
      intro id member
      rcases client_stuck serving stuck member with ended | ⟨-, waiting⟩
      · exact ended
      · exact absurd nobody waiting
    have order := serving.invariant.order
    have copies := serving.invariant.copies
    rw [Copies, accepting] at copies
    rw [accepting, ServerPc.current, Option.toList_none, List.append_nil] at order
    refine ⟨accepting, nobody, ended, s.closed, ?_, copies⟩
    have unique := serving.invariant.distinct
    have members := serving.members
    have connected := serving.connected
    rw [nobody, List.append_nil, order] at unique members connected
    rw [List.perm_ext_iff_of_nodup unique distinct]
    exact fun id => ⟨members id, fun member => connected id (by simp [ended id member])⟩

def twoClients : List Action :=
  oneAfterTheOther ++ [.client 2 (.count 0), .server (.count 1), .server (.count 0), .server .done]

theorem service_completes_twoClients :
    ∃ s, exec step twoClients (initial twoInputs [] fun _ => []) = some s ∧ twoClients.length ≤ 26 ∧
      ∃ order : List Id, order.Perm [1, 2] ∧ s.stdout = order.flatMap twoInputs := by
  obtain ⟨s, run⟩ : ∃ s, exec step twoClients (initial twoInputs [] fun _ => []) = some s :=
    Option.isSome_iff_exists.mp (by decide +kernel)
  have whole := service_completes twoInputs [1, 2] (by decide) [] (fun _ => []) (by decide +kernel) run
  have stuck : ¬ CanAdvance [1, 2] s := by
    rintro ⟨action, t, ⟨works, within⟩, taken⟩
    cases run
    cases action with
    | client id outcome =>
      simp only [Action.Within, List.mem_cons, List.not_mem_nil, or_false] at within
      rcases within with rfl | rfl <;> cases taken
    | server outcome =>
      cases outcome with
      | error errno => cases works.1
      | done => cases taken
      | count n => cases taken
  exact ⟨s, run, whole.1, (whole.2 stuck).2.2.2⟩

end SystemProgramming.UsXfr
