import SystemProgramming.FileServer.Dispatch

namespace SystemProgramming.FileServer

open Transition

variable {files : List Byte → Option (List Byte)} {argv : Nat → List Byte} {qbytes : Nat} {s t : State} {id : Nat}

inductive QueueCall where
  | created
  | removed
  deriving DecidableEq

/-- The `msgget` that creates the private queue, and every `msgctl` with `IPC_RMID` on it, whether
    it succeeds or fails. -/
def queueCalls (id : Nat) (s : State) : Action → List QueueCall
  | .client other outcome =>
    if other = id then
      match (s.clients id).pc, outcome with
      | .msgget, .done => [.created]
      | .removing, _ => [.removed]
      | .exiting _, _ => [.removed]
      | _, _ => []
    else []
  | _ => []

/-- `atexit` registers the handler, and the first message does not report a failed `open`. -/
def leftToHandler (id : Nat) (s : State) : Action → Bool
  | .client other outcome =>
    if other = id then
      match (s.clients id).pc, outcome with
      | .atexit, .error _ => false
      | .receiveFirst, .done =>
        match s.queues id with
        | some (e :: _) => e.msg.mtype ≠ RESP_MT_FAILURE
        | _ => true
      | _, _ => true
    else true
  | _ => true

def ClientPc.working : ClientPc → Bool
  | .atexit | .request | .receiveFirst | .test | .receive | .report => true
  | _ => false

inductive ClientHop : List QueueCall → Bool → ClientPc → ClientPc → Prop where
  | created : ClientHop [.created] true .msgget .atexit
  | refused : ClientHop [] true .msgget (.exited .failure)
  | unregistered : ClientHop [] false .atexit (.exited .failure)
  | onward (pc next : ClientPc) (at_ : pc.working = true) (after : next.working = true) :
      ClientHop [] true pc next
  | ended (pc : ClientPc) (status : ExitStatus) (at_ : pc.working = true) :
      ClientHop [] true pc (.exiting status)
  | rejected : ClientHop [] false .receiveFirst .removing
  | explicit : ClientHop [.removed] true .removing (.exiting .failure)
  | handler (status : ExitStatus) : ClientHop [.removed] true (.exiting status) (.exited status)

@[simp] theorem setClient_clients_self (s : State) (id : Nat) (c : Client) :
    (s.setClient id c).clients id = c := Function.update_self ..

@[simp] theorem setQueue_clients (s : State) (id : Nat) (queue : Option (List Envelope)) :
    (s.setQueue id queue).clients = s.clients := rfl

/-- A call that fails sends the client to its end, through the handler where that is registered. -/
theorem clientStep_fails {errno : Errno} (taken : clientStep argv qbytes s id (.error errno) = some t) :
    ClientHop (queueCalls id s (.client id (.error errno))) (leftToHandler id s (.client id (.error errno)))
      (s.clients id).pc (t.clients id).pc := by
  unfold clientStep at taken
  dsimp only at taken
  simp only [queueCalls, leftToHandler, if_true]
  cases at_ : (s.clients id).pc with
  | msgget =>
    rw [at_] at taken
    cases taken
    simpa using ClientHop.refused
  | atexit =>
    rw [at_] at taken
    cases taken
    simpa using ClientHop.unregistered
  | request =>
    rw [at_] at taken
    cases taken
    simpa using ClientHop.ended .request .failure rfl
  | receiveFirst =>
    rw [at_] at taken
    cases taken
    simpa using ClientHop.ended .receiveFirst .failure rfl
  | receive =>
    rw [at_] at taken
    cases taken
    simpa using ClientHop.ended .receive .failure rfl
  | removing =>
    rw [at_] at taken
    cases taken
    simpa using ClientHop.explicit
  | exiting status =>
    rw [at_] at taken
    cases taken
    simpa using ClientHop.handler status
  | test | report | exited status =>
    rw [at_] at taken
    cases taken

theorem clientStep_succeeds (taken : clientStep argv qbytes s id .done = some t) :
    ClientHop (queueCalls id s (.client id .done)) (leftToHandler id s (.client id .done))
      (s.clients id).pc (t.clients id).pc := by
  unfold clientStep at taken
  dsimp only at taken
  simp only [queueCalls, leftToHandler, if_true]
  split at taken
  case h_1 at_ =>
    rw [at_]
    split at taken
    · cases taken
      simpa using ClientHop.created
    · cases taken
  case h_2 at_ =>
    rw [at_]
    cases taken
    simpa using ClientHop.onward .atexit .request rfl rfl
  case h_3 at_ =>
    rw [at_]
    obtain ⟨queue, present, sent⟩ := Option.bind_eq_some_iff.mp taken
    split at sent
    · cases sent
      simpa using ClientHop.onward .request .receiveFirst rfl rfl
    · cases sent
  case h_4 at_ =>
    rw [at_]
    obtain ⟨⟨e, t'⟩, received, same⟩ := Option.map_eq_some_iff.mp taken
    obtain ⟨queue, head, rfl⟩ := msgrcv_some received
    cases same
    simp only [head, setClient_clients_self, Client.first]
    by_cases failed : e.msg.mtype = RESP_MT_FAILURE
    · simpa [failed] using ClientHop.rejected
    · simpa [failed] using ClientHop.onward .receiveFirst .test rfl rfl
  case h_5 at_ =>
    rw [at_]
    cases taken
    simp only [setClient_clients_self]
    by_cases more : (s.clients id).resp.mtype = RESP_MT_DATA
    · simpa [more] using ClientHop.onward .test .receive rfl rfl
    · simpa [more] using ClientHop.onward .test .report rfl rfl
  case h_6 at_ =>
    rw [at_]
    obtain ⟨⟨e, t'⟩, received, same⟩ := Option.map_eq_some_iff.mp taken
    obtain ⟨queue, head, rfl⟩ := msgrcv_some received
    cases same
    simpa [Client.next] using ClientHop.onward .receive .test rfl rfl
  case h_7 at_ =>
    rw [at_]
    cases taken
    simpa using ClientHop.ended .report .success rfl
  case h_8 at_ =>
    rw [at_]
    cases taken
    simpa using ClientHop.explicit
  case h_9 status at_ =>
    rw [at_]
    cases taken
    simpa using ClientHop.handler status
  case h_10 => cases taken

theorem clientStep_hops {outcome : Outcome} (taken : clientStep argv qbytes s id outcome = some t) :
    ClientHop (queueCalls id s (.client id outcome)) (leftToHandler id s (.client id outcome))
      (s.clients id).pc (t.clients id).pc := by
  cases outcome with
  | done => exact clientStep_succeeds taken
  | error errno => exact clientStep_fails taken
  | count n =>
    -- no statement of a client completes with a count
    cases at_ : (s.clients id).pc with
    | _ =>
      unfold clientStep at taken
      dsimp only at taken
      rw [at_] at taken
      cases taken

theorem ClientMove.other {id' : Nat} (move : ClientMove argv s id' t) (apart : id ≠ id') :
    t.clients id = s.clients id := by
  cases move with
  | _ => exact Function.update_of_ne apart _ _

theorem step_hops {action : Action} (id : Nat) (taken : step files argv qbytes s action = some t) :
    ClientHop (queueCalls id s action) (leftToHandler id s action) (s.clients id).pc (t.clients id).pc ∨
      queueCalls id s action = [] ∧ leftToHandler id s action = true ∧ t.clients id = s.clients id := by
  cases action with
  | server outcome =>
    have same : t.clients id = s.clients id := by
      cases serverStep_moves taken with
      | _ => rfl
    exact .inr ⟨rfl, rfl, same⟩
  | fork pid data image =>
    obtain ⟨req, -, -, rfl⟩ := forkStep_some taken
    exact .inr ⟨rfl, rfl, rfl⟩
  | child pid outcome =>
    obtain ⟨k, k', sent, -, -, -, effect⟩ := childStep_some taken
    rcases effect with ⟨-, rfl⟩ | ⟨msg, queue, -, -, -, rfl⟩
    · exact .inr ⟨rfl, rfl, rfl⟩
    · exact .inr ⟨rfl, rfl, rfl⟩
  | client other outcome =>
    by_cases same : other = id
    · subst same
      exact .inl (clientStep_hops taken)
    · refine .inr ⟨?_, ?_, (clientStep_moves taken).other (Ne.symm same)⟩
      · simp [queueCalls, same]
      · simp [leftToHandler, same]

def RemovedOnce (calls : List QueueCall) : ClientPc → Prop
  | .msgget => calls = []
  | .removing => False
  | .exited _ => calls = [] ∨ calls = [.created, .removed]
  | _ => calls = [.created]

def RemovedOtherwise (calls : List QueueCall) : ClientPc → Prop
  | .removing => calls = [.created]
  | .exiting _ => calls = [.created, .removed]
  | .exited _ => calls = [.created] ∨ calls = [.created, .removed, .removed]
  | _ => False

theorem RemovedOnce.of_working {calls : List QueueCall} {pc : ClientPc} (working : pc.working = true) :
    RemovedOnce calls pc ↔ calls = [.created] := by
  cases pc with
  | msgget | removing | exiting | exited => cases working
  | _ => exact Iff.rfl

theorem RemovedOtherwise.not_working {calls : List QueueCall} {pc : ClientPc} (working : pc.working = true) :
    ¬ RemovedOtherwise calls pc := by
  cases pc with
  | msgget | removing | exiting | exited => cases working
  | _ => exact id

theorem ClientHop.once {calls before : List QueueCall} {pc next : ClientPc} (hop : ClientHop calls true pc next)
    (once : RemovedOnce before pc) : RemovedOnce (before ++ calls) next := by
  cases hop with
  | created =>
    cases once
    rfl
  | refused =>
    cases once
    exact .inl rfl
  | onward _ _ at_ after =>
    rw [RemovedOnce.of_working at_] at once
    rw [RemovedOnce.of_working after, once]
    rfl
  | ended _ status at_ =>
    rw [RemovedOnce.of_working at_] at once
    rw [once]
    rfl
  | explicit => cases once
  | handler status =>
    cases once
    exact .inr rfl

theorem ClientHop.leaves {calls before : List QueueCall} {pc next : ClientPc} (hop : ClientHop calls false pc next)
    (once : RemovedOnce before pc) : RemovedOtherwise (before ++ calls) next := by
  cases hop with
  | unregistered =>
    cases once
    exact .inl rfl
  | rejected =>
    cases once
    rfl

theorem ClientHop.otherwise {calls before : List QueueCall} {left : Bool} {pc next : ClientPc}
    (hop : ClientHop calls left pc next) (otherwise : RemovedOtherwise before pc) :
    RemovedOtherwise (before ++ calls) next := by
  cases hop with
  | created | refused | unregistered | rejected => cases otherwise
  | onward _ _ at_ after => exact absurd otherwise (RemovedOtherwise.not_working at_)
  | ended _ status at_ => exact absurd otherwise (RemovedOtherwise.not_working at_)
  | explicit =>
    cases otherwise
    rfl
  | handler status =>
    cases otherwise
    exact .inr rfl

theorem calls_of_run {actions : List Action} (run : exec (step files argv qbytes) actions initial = some t)
    (id : Nat) :
    let calls := trace (step files argv qbytes) (queueCalls id) actions initial
    let left := Along (step files argv qbytes) (fun s action => leftToHandler id s action = true) actions initial
    (left → RemovedOnce calls (t.clients id).pc) ∧ (¬ left → RemovedOtherwise calls (t.clients id).pc) := by
  apply exec_history_always (I := fun before s =>
    let calls := trace (step files argv qbytes) (queueCalls id) before initial
    let left := Along (step files argv qbytes) (fun s action => leftToHandler id s action = true) before initial
    (left → RemovedOnce calls (s.clients id).pc) ∧ (¬ left → RemovedOtherwise calls (s.clients id).pc)) ?_ ?_ run
  · rintro before s action t here ⟨once, otherwise⟩ taken
    dsimp only
    rw [along_concat action here, trace_concat action here]
    constructor
    · rintro ⟨past, now⟩
      rcases step_hops id taken with hop | ⟨quiet, -, same⟩
      · rw [now] at hop
        exact hop.once (once past)
      · rw [quiet, List.append_nil, same]
        exact once past
    · intro missed
      by_cases past : Along (step files argv qbytes) (fun s action => leftToHandler id s action = true) before initial
      · have now : leftToHandler id s action = false := by
          rw [not_and, Bool.not_eq_true] at missed
          exact missed past
        rcases step_hops id taken with hop | ⟨-, left, -⟩
        · rw [now] at hop
          exact hop.leaves (once past)
        · rw [now] at left
          cases left
      · rcases step_hops id taken with hop | ⟨quiet, -, same⟩
        · exact hop.otherwise (otherwise past)
        · rw [quiet, List.append_nil, same]
          exact otherwise past
  · exact ⟨fun _ => rfl, fun missed => absurd trivial missed⟩

/-- The queue of a client that has created it is removed exactly once before the client ends, if and
    only if `atexit` succeeds and the first response does not report a failure. -/
theorem queue_removed_once_iff {actions : List Action} {status : ExitStatus}
    (run : exec (step files argv qbytes) actions initial = some t) (id : Nat)
    (ended : (t.clients id).pc = .exited status) :
    (.created ∈ trace (step files argv qbytes) (queueCalls id) actions initial →
      (trace (step files argv qbytes) (queueCalls id) actions initial).count .removed = 1) ↔
      Along (step files argv qbytes) (fun s action => leftToHandler id s action = true) actions initial := by
  obtain ⟨once, otherwise⟩ := calls_of_run run id
  rw [ended] at once otherwise
  constructor
  · intro removed
    by_contra missed
    rcases otherwise missed with calls | calls
    · rw [calls] at removed
      exact absurd (removed (by decide)) (by decide)
    · rw [calls] at removed
      exact absurd (removed (by decide)) (by decide)
  · intro left created
    rcases once left with calls | calls
    · rw [calls] at created
      cases created
    · rw [calls]
      rfl

def requestFails : List Action :=
  [.client 7 .done, .client 7 .done, .client 7 (.error .EAGAIN), .client 7 .done]

theorem queue_removed_once_requestFails :
    (trace (step (fun _ => none) (fun _ => [97]) 16384) (queueCalls 7) requestFails initial).count .removed = 1 := by
  obtain ⟨t, run, ended⟩ : ∃ t, exec (step (fun _ => none) (fun _ => [97]) 16384) requestFails initial = some t ∧
      (t.clients 7).pc = .exited .failure := ⟨_, rfl, rfl⟩
  have once := (queue_removed_once_iff run 7 ended).mpr (by decide)
  exact once (by decide)

def openFails : List Action :=
  [.client 7 .done, .client 7 .done, .client 7 .done, .server .done, .fork 1 [] (stackImage 0),
    .child 1 (.error (.other 2)), .child 1 .done, .client 7 .done, .client 7 .done, .client 7 (.error (.other 22))]

theorem openFails_removed_twice :
    ¬ ∀ actions t status, exec (step (fun _ => none) (fun _ => [97]) 16384) actions initial = some t →
      (t.clients 7).pc = .exited status →
      .created ∈ trace (step (fun _ => none) (fun _ => [97]) 16384) (queueCalls 7) actions initial →
      (trace (step (fun _ => none) (fun _ => [97]) 16384) (queueCalls 7) actions initial).count .removed = 1 := by
  intro always
  have twice : trace (step (fun _ => none) (fun _ => [97]) 16384) (queueCalls 7) openFails initial =
      [.created, .removed, .removed] := by decide +kernel
  obtain ⟨t, run, ended⟩ : ∃ t, exec (step (fun _ => none) (fun _ => [97]) 16384) openFails initial = some t ∧
      (t.clients 7).pc = .exited .failure := ⟨_, rfl, rfl⟩
  have once := always openFails t .failure run ended
  rw [twice] at once
  exact absurd (once (by decide)) (by decide)

end SystemProgramming.FileServer
