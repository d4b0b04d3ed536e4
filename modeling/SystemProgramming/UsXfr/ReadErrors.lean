import SystemProgramming.UsXfr.Concatenation

namespace SystemProgramming.UsXfr

open Transition

def SSIZE_MAX : Nat := 9223372036854775807

/-- `write` returns -1 when it is given a count that `ssize_t` does not hold. -/
def WriteLimit (s : State) : Action → Prop
  | .client id outcome =>
    (s.clients id).pc.writes = true → SSIZE_MAX < (s.clients id).numRead → outcome.isError = true
  | .server outcome => s.pc.writes = true → SSIZE_MAX < s.numRead → outcome.isError = true

instance (s : State) : (action : Action) → Decidable (WriteLimit s action)
  | .client _ _ | .server _ => inferInstanceAs (Decidable (_ → _ → _))

def clientReads (id : Id) (s : State) : Action → List Outcome
  | .client other outcome => if other = id ∧ (s.clients id).pc = .reading then [outcome] else []
  | .server _ => []

def serverReads (s : State) : Action → List Outcome
  | .client _ _ => []
  | .server outcome =>
    match s.pc with
    | .reading _ => [outcome]
    | _ => []

section Loop

inductive Stage where
  | reading
  | writing
  | outside
  | exited (status : ExitStatus)
  deriving DecidableEq

structure Loop where
  stage : Stage
  numRead : Nat

def ClientPc.stage : ClientPc → Stage
  | .connecting => .outside
  | .reading => .reading
  | .writing => .writing
  | .exited status => .exited status

def ServerPc.stage : ServerPc → Stage
  | .accepting | .closing _ => .outside
  | .reading _ => .reading
  | .writing _ => .writing
  | .exited status => .exited status

def Client.loop (c : Client) : Loop := ⟨c.pc.stage, c.numRead⟩

def State.loop (s : State) : Loop := ⟨s.pc.stage, s.numRead⟩

/-- A failed `read` is the last one and ends the process with `EXIT_FAILURE`, and a `write` under way is
    for no more bytes than the last `read` has delivered. -/
structure Reported (reads : List Outcome) (l : Loop) : Prop where
  atOnce : ∀ before errno after, reads = before ++ .error errno :: after →
    after = [] ∧ l.stage = .exited .failure
  delivered : l.stage = .writing → ∃ before n, reads = before ++ [.count n] ∧ l.numRead ≤ n

inductive LoopMove (l : Loop) : List Outcome → Loop → Prop where
  | filled (n : Nat) (at_ : l.stage = .reading) : LoopMove l [.count n] ⟨.writing, n⟩
  | ended (stage : Stage) (at_ : l.stage = .reading) (left : stage ≠ .writing) :
      LoopMove l [.count 0] ⟨stage, 0⟩
  | readFailed (errno : Errno) (at_ : l.stage = .reading) :
      LoopMove l [.error errno] ⟨.writing, SIZE_MAX⟩
  | wrote (at_ : l.stage = .writing) : LoopMove l [] ⟨.reading, l.numRead⟩
  | notWritten (outcome : Outcome) (at_ : l.stage = .writing)
      (limit : SSIZE_MAX < l.numRead → outcome.isError = true) (differs : returned outcome ≠ l.numRead) :
      LoopMove l [] ⟨.exited .failure, l.numRead⟩
  | outside (stage : Stage) (at_ : l.stage = .outside) (left : stage ≠ .writing) :
      LoopMove l [] ⟨stage, l.numRead⟩

def Follows (l : Loop) : Option Outcome → Prop
  | some (.error _) => l.stage = .reading ∨ (l.stage = .writing ∧ l.numRead = SIZE_MAX)
  | some (.count n) => l.stage = .writing → l.numRead = n
  | some .done | none => l.stage ≠ .writing

theorem follows_of_left {l : Loop} {last : Option Outcome} (at_ : l.stage ≠ .writing)
    (reading : ∀ errno, last = some (.error errno) → l.stage = .reading) : Follows l last := by
  unfold Follows
  split
  · exact .inl (reading _ rfl)
  · exact fun here => absurd here at_
  · exact at_
  · exact at_

theorem Follows.not_error {l : Loop} {last : Option Outcome} (follows : Follows l last)
    (outside : l.stage ≠ .reading) (quiet : l.stage ≠ .writing) (errno : Errno) : last ≠ some (.error errno) := by
  rintro rfl
  rcases follows with reading | writing
  · exact outside reading
  · exact quiet writing.1

/-- The -1 of a failed `read` and the -1 of the `write` that cannot be done are the same `size_t`. -/
theorem Follows.notWritten {l : Loop} {last : Option Outcome} {outcome : Outcome}
    (follows : Follows l last) (at_ : l.stage = .writing)
    (limit : SSIZE_MAX < l.numRead → outcome.isError = true) (differs : returned outcome ≠ l.numRead)
    (errno : Errno) : last ≠ some (.error errno) := by
  rintro rfl
  rcases follows with reading | writing
  · rw [at_] at reading
    cases reading
  · have failed := limit (by rw [writing.2]; decide)
    cases outcome with
    | done | count n => cases failed
    | error other => exact differs writing.2.symm

theorem LoopMove.follows {l l' : Loop} {reads now : List Outcome} (follows : Follows l reads.getLast?)
    (move : LoopMove l now l') : Follows l' (reads ++ now).getLast? := by
  cases move with
  | filled n at_ =>
    rw [List.getLast?_concat]
    exact fun _ => rfl
  | ended stage at_ left =>
    rw [List.getLast?_concat]
    exact fun here => absurd here left
  | readFailed errno at_ =>
    rw [List.getLast?_concat]
    exact .inr ⟨rfl, rfl⟩
  | wrote at_ =>
    rw [List.append_nil]
    exact follows_of_left Stage.noConfusion (fun _ _ => rfl)
  | notWritten outcome at_ limit differs =>
    rw [List.append_nil]
    exact follows_of_left Stage.noConfusion
      (fun errno last => absurd last (follows.notWritten at_ limit differs errno))
  | outside stage at_ left =>
    rw [List.append_nil]
    have elsewhere : l.stage ≠ .reading ∧ l.stage ≠ .writing := by
      rw [at_]
      exact ⟨Stage.noConfusion, Stage.noConfusion⟩
    exact follows_of_left left
      (fun errno last => absurd last (follows.not_error elsewhere.1 elsewhere.2 errno))

theorem Follows.reported_iff {l : Loop} {reads : List Outcome} (follows : Follows l reads.getLast?) :
    Reported reads l ↔ ∀ outcome ∈ reads, outcome.isError = false := by
  constructor
  · intro reported outcome member
    cases outcome with
    | done | count n => rfl
    | error errno =>
      obtain ⟨before, after, split⟩ := List.mem_iff_append.mp member
      obtain ⟨rfl, failed⟩ := reported.atOnce before errno after split
      have last : reads.getLast? = some (.error errno) := by rw [split, List.getLast?_concat]
      have never := follows.not_error (by simp [failed]) (by simp [failed]) errno
      exact absurd last never
  · intro fine
    constructor
    · intro before errno after split
      have failed := fine (.error errno) (by rw [split]; simp)
      cases failed
    · intro at_
      cases last : reads.getLast? with
      | none =>
        rw [last] at follows
        exact absurd at_ follows
      | some outcome =>
        obtain ⟨before, split⟩ := List.getLast?_eq_some_iff.mp last
        rw [last] at follows
        cases outcome with
        | done => exact absurd at_ follows
        | count n => exact ⟨before, n, split, Nat.le_of_eq (follows at_)⟩
        | error errno =>
          have failed := fine (.error errno) (by rw [split]; simp)
          cases failed

end Loop

section Client

theorem clientRead_loop {c d : Client} {outcome : Outcome} (at_ : c.pc = .reading)
    (stepped : clientRead c outcome = some d) : LoopMove c.loop [outcome] d.loop := by
  have stage : c.loop.stage = .reading := by rw [Client.loop, at_, ClientPc.stage]
  cases outcome with
  | done => cases stepped
  | error errno =>
    cases stepped
    exact .readFailed errno stage
  | count n =>
    dsimp only [clientRead] at stepped
    split at stepped
    · cases stepped
      exact .filled n stage
    · split at stepped
      · rename_i ended
        obtain ⟨rfl, -⟩ := ended
        cases stepped
        exact .ended _ stage Stage.noConfusion
      · cases stepped

theorem clientWrite_loop {c d : Client} {outcome : Outcome} (at_ : c.pc = .writing)
    (limit : SSIZE_MAX < c.numRead → outcome.isError = true)
    (stepped : clientWrite c outcome = some d) : LoopMove c.loop [] d.loop := by
  have stage : c.loop.stage = .writing := by rw [Client.loop, at_, ClientPc.stage]
  have next : d.numRead = c.numRead ∧
      d.pc = if returned outcome ≠ c.numRead then .exited .failure else .reading := by
    cases outcome with
    | done => cases stepped
    | error errno =>
      cases stepped
      exact ⟨rfl, rfl⟩
    | count n =>
      dsimp only [clientWrite] at stepped
      split at stepped
      · cases stepped
        exact ⟨rfl, rfl⟩
      · cases stepped
  obtain ⟨numRead, pc⟩ := next
  by_cases differs : returned outcome ≠ c.numRead
  · rw [if_pos differs] at pc
    rw [show d.loop = ⟨.exited .failure, c.loop.numRead⟩ by rw [Client.loop, pc, numRead]; rfl]
    exact .notWritten outcome stage limit differs
  · rw [if_neg differs] at pc
    rw [show d.loop = ⟨.reading, c.loop.numRead⟩ by rw [Client.loop, pc, numRead]; rfl]
    exact .wrote stage

theorem clientReads_self (id : Id) (s : State) (outcome : Outcome) :
    clientReads id s (.client id outcome) = if (s.clients id).pc = .reading then [outcome] else [] := by
  simp [clientReads]

/-- A step of a client is one in its own copy loop, and the server's loop is where it was. -/
theorem clientStep_loop {s t : State} {id : Id} {outcome : Outcome}
    (limit : WriteLimit s (.client id outcome)) (taken : clientStep s id outcome = some t) :
    t.loop = s.loop ∧ ∃ d, t.clients = Function.update s.clients id d ∧
      LoopMove (s.clients id).loop (clientReads id s (.client id outcome)) d.loop := by
  rw [clientReads_self]
  unfold clientStep at taken
  dsimp only at taken
  split at taken
  · rename_i at_
    have stage : (s.clients id).loop.stage = .outside := by rw [Client.loop, at_, ClientPc.stage]
    rw [if_neg (by simp [at_])]
    cases outcome with
    | count n => cases taken
    | done =>
      dsimp only at taken
      split at taken
      · cases taken
        exact ⟨rfl, _, rfl, .outside _ stage Stage.noConfusion⟩
      · cases taken
    | error errno =>
      cases taken
      exact ⟨rfl, _, rfl, .outside _ stage Stage.noConfusion⟩
  · rename_i at_
    rw [if_pos at_]
    obtain ⟨d, stepped, rfl⟩ := Option.map_eq_some_iff.mp taken
    exact ⟨rfl, d, rfl, clientRead_loop at_ stepped⟩
  · rename_i at_
    rw [if_neg (by simp [at_])]
    obtain ⟨d, stepped, rfl⟩ := Option.map_eq_some_iff.mp taken
    exact ⟨rfl, d, rfl, clientWrite_loop at_ (limit (by rw [at_, ClientPc.writes])) stepped⟩
  · cases taken

end Client

section Server

theorem serverWrite_loop {s t : State} {id : Id} {outcome : Outcome} (at_ : s.pc = .writing id)
    (limit : SSIZE_MAX < s.numRead → outcome.isError = true) (taken : serverStep s outcome = some t) :
    t.clients = s.clients ∧ LoopMove s.loop [] t.loop := by
  have stage : s.loop.stage = .writing := by rw [State.loop, at_, ServerPc.stage]
  have next : t.clients = s.clients ∧ t.numRead = s.numRead ∧
      t.pc = if returned outcome ≠ s.numRead then .exited .failure else .reading id := by
    unfold serverStep at taken
    rw [at_] at taken
    cases outcome with
    | done => cases taken
    | error errno =>
      cases taken
      exact ⟨rfl, rfl, rfl⟩
    | count n =>
      dsimp only at taken
      split at taken
      · cases taken
        exact ⟨rfl, rfl, rfl⟩
      · cases taken
  obtain ⟨clients, numRead, pc⟩ := next
  refine ⟨clients, ?_⟩
  by_cases differs : returned outcome ≠ s.numRead
  · rw [if_pos differs] at pc
    rw [show t.loop = ⟨.exited .failure, s.loop.numRead⟩ by rw [State.loop, pc, numRead]; rfl]
    exact .notWritten outcome stage limit differs
  · rw [if_neg differs] at pc
    rw [show t.loop = ⟨.reading, s.loop.numRead⟩ by rw [State.loop, pc, numRead]; rfl]
    exact .wrote stage

theorem serverStep_loop {s t : State} {outcome : Outcome} (limit : WriteLimit s (.server outcome))
    (taken : serverStep s outcome = some t) :
    (∀ id, (t.clients id).loop = (s.clients id).loop) ∧
      LoopMove s.loop (serverReads s (.server outcome)) t.loop := by
  unfold serverReads
  rw [WriteLimit] at limit
  cases at_ : s.pc with
  | accepting =>
    have stage : s.loop.stage = .outside := by rw [State.loop, at_, ServerPc.stage]
    unfold serverStep at taken
    rw [at_] at taken
    dsimp only at taken
    split at taken
    · cases taken
      exact ⟨fun _ => rfl, .outside _ stage Stage.noConfusion⟩
    · cases taken
      exact ⟨fun _ => rfl, .outside _ stage Stage.noConfusion⟩
    · cases taken
  | reading id =>
    have stage : s.loop.stage = .reading := by rw [State.loop, at_, ServerPc.stage]
    unfold serverStep at taken
    rw [at_] at taken
    cases outcome with
    | done => cases taken
    | error errno =>
      cases taken
      exact ⟨fun _ => rfl, .readFailed errno stage⟩
    | count n =>
      dsimp only at taken
      split at taken
      · cases taken
        -- A connection that is read from is not part of its client's loop.
        have quiet : (s.clients id).loop =
            Client.loop { s.clients id with conn := (s.clients id).conn.take n } := rfl
        refine ⟨fun other => ?_, .filled n stage⟩
        exact (Parties.update_rel (R := fun c d => Client.loop c = Client.loop d) (fun _ => rfl) quiet
          other).symm
      · split at taken
        · rename_i ended
          obtain ⟨rfl, -⟩ := ended
          cases taken
          exact ⟨fun _ => rfl, .ended _ stage Stage.noConfusion⟩
        · cases taken
  | writing id =>
    obtain ⟨clients, move⟩ := serverWrite_loop at_ (limit (by rw [at_, ServerPc.writes])) taken
    exact ⟨fun _ => by rw [clients], move⟩
  | closing id =>
    have stage : s.loop.stage = .outside := by rw [State.loop, at_, ServerPc.stage]
    unfold serverStep at taken
    rw [at_] at taken
    cases outcome with
    | count n => cases taken
    | done | error errno =>
      cases taken
      exact ⟨fun _ => rfl, .outside _ stage Stage.noConfusion⟩
  | exited status =>
    unfold serverStep at taken
    rw [at_] at taken
    cases taken

end Server

section Run

variable {input : Id → List Byte} {buf : List Byte} {junk : Id → List Byte}

theorem step_follows_client {s t : State} {action : Action} {id : Id} {reads : List Outcome}
    (follows : Follows (s.clients id).loop reads.getLast?) (limit : WriteLimit s action)
    (taken : step s action = some t) :
    Follows (t.clients id).loop (reads ++ clientReads id s action).getLast? := by
  cases action with
  | client other outcome =>
    obtain ⟨-, d, clients, move⟩ := clientStep_loop limit taken
    rw [clients]
    by_cases same : other = id
    · subst same
      rw [Function.update_self]
      exact move.follows follows
    · rw [Function.update_of_ne (Ne.symm same), clientReads, if_neg (fun both => same both.1),
        List.append_nil]
      exact follows
  | server outcome =>
    rw [(serverStep_loop limit taken).1 id, clientReads, List.append_nil]
    exact follows

theorem step_follows_server {s t : State} {action : Action} {reads : List Outcome}
    (follows : Follows s.loop reads.getLast?) (limit : WriteLimit s action)
    (taken : step s action = some t) :
    Follows t.loop (reads ++ serverReads s action).getLast? := by
  cases action with
  | client id outcome =>
    rw [(clientStep_loop limit taken).1, serverReads, List.append_nil]
    exact follows
  | server outcome => exact (serverStep_loop limit taken).2.follows follows

/-- Failed `read` calls are reported as they should be, by any client and by the server, exactly where
    there are none. -/
theorem failures_reported_iff {actions : List Action} {s : State}
    (limit : Along step WriteLimit actions (initial input buf junk))
    (run : exec step actions (initial input buf junk) = some s) :
    (∀ id, Reported (trace step (clientReads id) actions (initial input buf junk)) (s.clients id).loop ↔
      ∀ outcome ∈ trace step (clientReads id) actions (initial input buf junk),
        outcome.isError = false) ∧
    (Reported (trace step serverReads actions (initial input buf junk)) s.loop ↔
      ∀ outcome ∈ trace step serverReads actions (initial input buf junk), outcome.isError = false) := by
  constructor
  · intro id
    apply Follows.reported_iff
    apply exec_trace (I := fun reads s => Follows (s.clients id).loop reads.getLast?) ?_ Stage.noConfusion
      limit run
    intro reads s action t follows meets taken
    exact step_follows_client follows meets taken
  · apply Follows.reported_iff
    apply exec_trace (I := fun reads s => Follows s.loop reads.getLast?) ?_ Stage.noConfusion limit run
    intro reads s action t follows meets taken
    exact step_follows_server follows meets taken

def oneByte : List Action :=
  [.client 0 .done, .server .done, .client 0 (.count 1), .client 0 (.count 1), .client 0 (.count 0),
    .server (.count 1), .server (.count 1), .server (.count 0)]

theorem reported_oneByte :
    ∃ s, exec step oneByte (initial (fun _ => [7]) [] (fun _ => [])) = some s ∧
      (s.clients 0).pc = .exited .success ∧
      Reported [.count 1, .count 0] (s.clients 0).loop ∧ Reported [.count 1, .count 0] s.loop := by
  have limit : Along step WriteLimit oneByte (initial (fun _ => [7]) [] (fun _ => [])) := by decide
  have both := failures_reported_iff limit rfl
  exact ⟨_, rfl, rfl, (both.1 0).mpr (by decide), both.2.mpr (by decide)⟩

/-- `read` fails with `EIO`, and `write` with `EFAULT`: the client is back at `read`. -/
theorem failed_read_ignored :
    ¬ ∀ actions s, Along step WriteLimit actions (initial (fun _ => [7]) [] (fun _ => [])) →
      exec step actions (initial (fun _ => [7]) [] (fun _ => [])) = some s →
        ∀ id, Reported (trace step (clientReads id) actions (initial (fun _ => [7]) [] (fun _ => [])))
          (s.clients id).loop := by
  intro always
  have reported := always
    [.client 0 .done, .client 0 (.error (.other 5)), .client 0 (.error (.other 14))] _ (by decide) rfl 0
  have failed := (reported.atOnce [] (.other 5) [] rfl).2
  cases failed

end Run

end SystemProgramming.UsXfr
