import SystemProgramming.FileServer.Completion

namespace SystemProgramming.FileServer

open Transition

variable {files : List Byte → Option (List Byte)} {argv : Nat → List Byte} {qbytes : Nat}

/-- A message put on the queue of a client; `atEnd` marks those of the last `msgsnd` of
    `serveRequest`. -/
structure Reply where
  clientId : Nat
  msg : ResponseMsg
  atEnd : Bool

/-- The file server with the requests that `main` has received and the replies of its children. -/
structure Logged where
  state : State
  taken : List RequestMsg
  replies : List Reply

namespace Logged

def initial : Logged := ⟨FileServer.initial, [], []⟩

def taking (s t : State) : List RequestMsg :=
  match s.server, t.server with
  | .receive, .fork req => [req]
  | _, _ => []

variable (files argv qbytes)

def replying (s : State) : Action → List Reply
  | .child pid outcome =>
    ((s.children pid).bind fun k => (k.step files outcome).bind fun (_, sent) =>
      sent.map fun msg => ⟨k.req.clientId, msg, k.pc = .closing⟩).toList
  | _ => []

def step (l : Logged) (action : Action) : Option Logged :=
  (FileServer.step files argv qbytes l.state action).map fun t =>
    ⟨t, l.taken ++ taking l.state t, l.replies ++ replying files l.state action⟩

end Logged

def ChildPc.live : ChildPc → Bool
  | .exited _ => false
  | .opening | .failing | .reading | .sending _ | .closing => true

def Logged.Answered (l : Logged) (id : Nat) : Prop :=
  ∃ reply ∈ l.replies, reply.clientId = id ∧ (reply.msg.mtype = RESP_MT_FAILURE ∨ reply.atEnd = true)

/-- A request that was taken off the server queue is still in the hands of `main`, or a live child
    serves it, or its client has been answered. -/
def Logged.NoneLost (l : Logged) : Prop :=
  ∀ req ∈ l.taken, l.state.server = .fork req ∨
    (∃ pid k, l.state.children pid = some k ∧ k.req = req ∧ k.pc.live = true) ∨
    l.Answered req.clientId

/-- No `fork` fails, and no `msgsnd` of a message that would answer the client. -/
def Answers (l : Logged) : Action → Prop
  | .server outcome => l.state.server.held ≠ [] → outcome.isError = false
  | .child pid outcome => ∀ k ∈ l.state.children pid, k.pc = .failing ∨ k.pc = .closing →
      outcome.isError = false
  | _ => True

instance (l : Logged) : (action : Action) → Decidable (Answers l action)
  | .server _ => inferInstanceAs (Decidable (_ → _))
  | .child pid _ => inferInstanceAs (Decidable (∀ k ∈ l.state.children pid, _ → _))
  | .fork _ _ _ | .client _ _ => isTrue trivial

def Logged.Kept (l : Logged) : Prop :=
  ∀ req ∈ l.taken, l.state.server = .fork req ∨
    ∃ pid k, l.state.children pid = some k ∧ k.req = req ∧ k.pc ≠ .exited .failure

def Child.Typed (k : Child) : Prop :=
  match k.pc with
  | .failing => k.resp.mtype = RESP_MT_FAILURE
  | .reading | .sending _ => k.resp.mtype = RESP_MT_DATA
  | .opening | .closing | .exited _ => True

structure Logged.Wellformed (argv : Nat → List Byte) (l : Logged) : Prop where
  dispatch : Dispatch argv l.state
  typed : l.state.AllChildren Child.Typed
  asked : ∀ req ∈ l.taken, req = request argv req.clientId ∧
    ¬ (l.state.clients req.clientId).pc.Unsent
  fresh : ∀ req ∈ l.taken, ∀ other ∈ l.state.serverQueue.getD [], req.clientId ≠ other.clientId
  held : ∀ req, l.state.server = .fork req → req ∈ l.taken
  children : l.state.AllChildren fun k => k.req ∈ l.taken
  answered : ∀ id, l.Answered id ↔
    ∃ pid k, l.state.children pid = some k ∧ k.req.clientId = id ∧ k.pc = .exited .success

theorem ChildMove.typed {k k' : Child} {outcome : Outcome} {sent : Option ResponseMsg}
    (move : ChildMove files k outcome k' sent) (typed : k.Typed) : k'.Typed := by
  unfold Child.Typed at typed ⊢
  cases move <;> simp_all [Child.finish]

theorem ChildMove.failed_iff {k k' : Child} {outcome : Outcome} {sent : Option ResponseMsg}
    (move : ChildMove files k outcome k' sent) :
    k'.pc ≠ .exited .failure ↔ (k.pc = .failing ∨ k.pc = .closing → outcome.isError = false) := by
  cases move <;> simp_all [Child.finish, Outcome.isError]

theorem ChildMove.answers_iff {k k' : Child} {outcome : Outcome} {sent : Option ResponseMsg}
    (move : ChildMove files k outcome k' sent) (typed : k.Typed) :
    k'.pc = .exited .success ↔
      ∃ msg ∈ sent, msg.mtype = RESP_MT_FAILURE ∨ k.pc = .closing := by
  unfold Child.Typed at typed
  cases move <;> simp_all [Child.finish, RESP_MT_FAILURE, RESP_MT_DATA]

theorem ChildPc.live_iff (pc : ChildPc) : pc.live = true ↔ ∀ status, pc ≠ .exited status := by
  cases pc <;> simp [ChildPc.live]

theorem clientStep_server {s t : State} {id : Nat} {outcome : Outcome}
    (taken : clientStep argv qbytes s id outcome = some t) : t.server = s.server := by
  cases clientStep_moves taken <;> rfl

theorem clientStep_sent {s t : State} {id other : Nat} {outcome : Outcome}
    (taken : clientStep argv qbytes s id outcome = some t)
    (before : ¬ (s.clients other).pc.Unsent) : ¬ (t.clients other).pc.Unsent := by
  cases clientStep_moves taken
  case goto pc next => exact setClient_unsent next.unsent other before
  case created at_ fresh =>
    exact setClient_unsent (fun sent => absurd (.inl at_) sent) other before
  case requested queue at_ present =>
    exact setClient_unsent (fun sent => absurd (.inr (.inr at_)) sent) other before
  case receivedFirst e queue at_ head =>
    apply setClient_unsent _ other before
    intro _
    unfold Client.first
    split <;> simp [ClientPc.Unsent]
  case receivedNext e queue at_ head =>
    apply setClient_unsent _ other before
    intro _
    simp [Client.next, ClientPc.Unsent]
  case removed pc next => exact setClient_unsent next.unsent other before

theorem step_sent {s t : State} {action : Action} (taken : step files argv qbytes s action = some t)
    (id : Nat) (before : ¬ (s.clients id).pc.Unsent) : ¬ (t.clients id).pc.Unsent := by
  cases action with
  | server outcome => rwa [(serverStep_frame taken).2.1]
  | fork pid data image =>
    rcases forkStep_some taken with ⟨req, at_, free, rfl⟩
    exact before
  | child pid outcome =>
    rcases childStep_some taken with ⟨k, k', sent, present, move, children, effect⟩
    rcases effect with ⟨-, rfl⟩ | ⟨msg, queue, -, -, -, rfl⟩ <;> exact before
  | client other outcome => exact clientStep_sent taken before

theorem clientStep_serverQueue {s t : State} {id : Nat} {outcome : Outcome}
    (taken : clientStep argv qbytes s id outcome = some t) {req : RequestMsg}
    (waits : req ∈ t.serverQueue.getD []) :
    req ∈ s.serverQueue.getD [] ∨ (req.clientId = id ∧ (s.clients id).pc.Unsent) := by
  cases clientStep_moves taken
  case requested queue at_ present =>
    rw [Option.getD_some, List.mem_append, List.mem_singleton] at waits
    rcases waits with old | new
    · left
      rwa [present, Option.getD_some]
    · right
      exact ⟨by rw [new]; rfl, .inr (.inr at_)⟩
  all_goals exact .inl waits

theorem step_serverQueue {s t : State} {action : Action}
    (taken : step files argv qbytes s action = some t) {req : RequestMsg}
    (waits : req ∈ t.serverQueue.getD []) :
    req ∈ s.serverQueue.getD [] ∨ (s.clients req.clientId).pc.Unsent := by
  cases action with
  | server outcome =>
    left
    cases serverStep_moves taken with
    | took head queue at_ waiting =>
      rw [waiting]
      exact List.mem_cons_of_mem head waits
    | removed at_ => cases waits
    | _ => exact waits
  | fork pid data image =>
    rcases forkStep_some taken with ⟨held, at_, free, rfl⟩
    exact .inl waits
  | child pid outcome =>
    left
    rcases childStep_some taken with ⟨k, k', sent, present, move, children, effect⟩
    rcases effect with ⟨-, rfl⟩ | ⟨msg, queue, -, -, -, rfl⟩ <;> exact waits
  | client id outcome =>
    rcases clientStep_serverQueue taken waits with old | ⟨same, unsent⟩
    · exact .inl old
    · right
      rwa [same]

/-- `main` only comes to hold a request by a `msgrcv`. -/
theorem step_held {s t : State} {action : Action} (taken : step files argv qbytes s action = some t)
    {req : RequestMsg} (holds : t.server = .fork req) : s.server = .fork req ∨ s.server = .receive := by
  cases action with
  | server outcome =>
    right
    cases serverStep_moves taken with
    | took head queue at_ waiting => exact at_
    | interrupted errno at_ => exact at_
    | _ => cases holds
  | fork pid data image =>
    rcases forkStep_some taken with ⟨held, at_, free, rfl⟩
    cases holds
  | child pid outcome =>
    left
    rcases childStep_some taken with ⟨k, k', sent, present, move, children, effect⟩
    rcases effect with ⟨-, rfl⟩ | ⟨msg, queue, -, -, -, rfl⟩ <;> exact holds
  | client id outcome =>
    left
    rwa [clientStep_server taken] at holds

theorem step_serves {s t : State} {action : Action} (taken : step files argv qbytes s action = some t)
    {pid : Nat} {k : Child} (present : t.children pid = some k) :
    s.server = .fork k.req ∨ ∃ before, s.children pid = some before ∧ k.req = before.req := by
  cases action with
  | server outcome =>
    right
    rw [(serverStep_frame taken).1] at present
    exact ⟨k, present, rfl⟩
  | fork other data image =>
    rcases forkStep_some taken with ⟨req, at_, free, rfl⟩
    rcases setChild_some present with ⟨-, rfl⟩ | ⟨-, before⟩
    · exact .inl at_
    · exact .inr ⟨k, before, rfl⟩
  | child other outcome =>
    right
    rcases childStep_some taken with ⟨before, k', sent, there, move, children, -⟩
    rw [children] at present
    rcases setChild_some present with ⟨rfl, rfl⟩ | ⟨-, old⟩
    · exact ⟨before, there, move.req⟩
    · exact ⟨k, old, rfl⟩
  | client id outcome =>
    right
    rw [clientStep_children taken] at present
    exact ⟨k, present, rfl⟩

theorem Logged.step_some {l m : Logged} {action : Action}
    (taken : Logged.step files argv qbytes l action = some m) :
    FileServer.step files argv qbytes l.state action = some m.state ∧
      m.taken = l.taken ++ Logged.taking l.state m.state ∧
      m.replies = l.replies ++ Logged.replying files l.state action := by
  rcases Option.map_eq_some_iff.mp taken with ⟨t, moved, same⟩
  cases same
  exact ⟨moved, rfl, rfl⟩

theorem Logged.taking_mem {s t : State} {req : RequestMsg} :
    req ∈ Logged.taking s t ↔ s.server = .receive ∧ t.server = .fork req := by
  unfold Logged.taking
  split
  · rename_i first second
    rw [List.mem_singleton, first, second, ServerPc.fork.injEq]
    simp [eq_comm]
  · rename_i other
    simp only [List.not_mem_nil, false_iff]
    exact fun both => other _ both.1 both.2

namespace Logged

theorem Wellformed.of_held {l : Logged} (dispatch : Dispatch argv l.state) {req : RequestMsg}
    (holds : l.state.server = .fork req) :
    (req = request argv req.clientId ∧ ¬ (l.state.clients req.clientId).pc.Unsent) ∧
      ∀ other ∈ l.state.serverQueue.getD [], req.clientId ≠ other.clientId := by
  have pending : l.state.pending = req :: l.state.serverQueue.getD [] := by
    simp [State.pending, holds, ServerPc.held]
  have distinct := dispatch.distinct
  rw [pending, List.map_cons, List.nodup_cons] at distinct
  constructor
  · apply dispatch.asked
    rw [pending]
    exact List.mem_cons_self
  · intro other waits same
    apply distinct.1
    rw [same]
    exact List.mem_map_of_mem waits

theorem Wellformed.asked_step {l m : Logged} {action : Action} (formed : l.Wellformed argv)
    (taken : Logged.step files argv qbytes l action = some m) :
    ∀ req ∈ m.taken, req = request argv req.clientId ∧
      ¬ (m.state.clients req.clientId).pc.Unsent := by
  rcases step_some taken with ⟨moved, grown, -⟩
  intro req member
  rw [grown, List.mem_append, taking_mem] at member
  rcases member with old | ⟨-, holds⟩
  · have asked := formed.asked req old
    exact ⟨asked.1, step_sent moved _ asked.2⟩
  · exact (of_held (step_dispatch formed.dispatch moved) holds).1

theorem Wellformed.fresh_step {l m : Logged} {action : Action} (formed : l.Wellformed argv)
    (taken : Logged.step files argv qbytes l action = some m) :
    ∀ req ∈ m.taken, ∀ other ∈ m.state.serverQueue.getD [], req.clientId ≠ other.clientId := by
  rcases step_some taken with ⟨moved, grown, -⟩
  intro req member other waits
  rw [grown, List.mem_append, taking_mem] at member
  rcases member with old | ⟨-, holds⟩
  · rcases step_serverQueue moved waits with before | unsent
    · exact formed.fresh req old other before
    · -- The client has just sent its request, and that of `req` had done so before.
      intro same
      rw [← same] at unsent
      exact (formed.asked req old).2 unsent
  · exact (of_held (step_dispatch formed.dispatch moved) holds).2 other waits

theorem Wellformed.held_step {l m : Logged} {action : Action} (formed : l.Wellformed argv)
    (taken : Logged.step files argv qbytes l action = some m) :
    ∀ req, m.state.server = .fork req → req ∈ m.taken := by
  rcases step_some taken with ⟨moved, grown, -⟩
  intro req holds
  rw [grown, List.mem_append, taking_mem]
  rcases step_held moved holds with before | before
  · exact .inl (formed.held req before)
  · exact .inr ⟨before, holds⟩

theorem Wellformed.children_step {l m : Logged} {action : Action} (formed : l.Wellformed argv)
    (taken : Logged.step files argv qbytes l action = some m) :
    m.state.AllChildren fun k => k.req ∈ m.taken := by
  rcases step_some taken with ⟨moved, grown, -⟩
  intro pid k present
  rw [grown, List.mem_append]
  left
  rcases step_serves moved present with holds | ⟨before, there, same⟩
  · exact formed.held _ holds
  · rw [same]
    exact formed.children pid before there

theorem taking_of_server_eq {s t : State} (same : t.server = s.server) : taking s t = [] := by
  unfold taking
  rw [same]
  split
  · rename_i before after
    rw [before] at after
    cases after
  · rfl

theorem replying_child {s t : State} {pid : Nat} {outcome : Outcome}
    (taken : childStep files qbytes s pid outcome = some t) :
    ∃ k k' sent, s.children pid = some k ∧ ChildMove files k outcome k' sent ∧
      t.children = (s.setChild pid k').children ∧ t.server = s.server ∧
      replying files s (.child pid outcome) =
        (sent.map fun msg => ⟨k.req.clientId, msg, k.pc = .closing⟩).toList := by
  rcases Option.bind_eq_some_iff.mp taken with ⟨k, present, rest⟩
  rcases Option.bind_eq_some_iff.mp rest with ⟨⟨k', sent⟩, moved, sending⟩
  have reply : replying files s (.child pid outcome) =
      (sent.map fun msg => ⟨k.req.clientId, msg, k.pc = .closing⟩).toList := by
    simp [replying, present, moved]
  cases sent with
  | none =>
    cases sending
    exact ⟨k, k', none, present, Child.step_moves moved, rfl, rfl, reply⟩
  | some msg =>
    rcases msgsnd_some sending with ⟨queue, there, room, rfl⟩
    exact ⟨k, k', some msg, present, Child.step_moves moved, rfl, rfl, reply⟩

theorem answered_append {l m : Logged} {more : List Reply} (grown : m.replies = l.replies ++ more)
    (id : Nat) : m.Answered id ↔ l.Answered id ∨
      ∃ reply ∈ more, reply.clientId = id ∧ (reply.msg.mtype = RESP_MT_FAILURE ∨ reply.atEnd = true) := by
  unfold Answered
  rw [grown]
  simp [or_and_right, exists_or]

theorem Wellformed.answered_step {l m : Logged} {action : Action} (formed : l.Wellformed argv)
    (taken : Logged.step files argv qbytes l action = some m) (id : Nat) :
    m.Answered id ↔
      ∃ pid k, m.state.children pid = some k ∧ k.req.clientId = id ∧ k.pc = .exited .success := by
  rcases step_some taken with ⟨moved, -, grown⟩
  rw [answered_append grown, formed.answered id]
  cases action with
  | server outcome => simp [replying, (serverStep_frame moved).1]
  | client other outcome => simp [replying, clientStep_children moved]
  | fork pid data image =>
    rcases forkStep_some moved with ⟨req, at_, free, same⟩
    have present : ∀ other k, l.state.children other = some k → other ≠ pid := by
      rintro other k present rfl
      rw [free] at present
      cases present
    rw [same]
    simp only [State.setChild, Parties.exists_update_some]
    simp only [replying, List.not_mem_nil, false_and, exists_false, or_false, reduceCtorEq, and_false,
      false_or]
    constructor
    · rintro ⟨other, k, there, rest⟩
      exact ⟨other, k, present other k there, there, rest⟩
    · rintro ⟨other, k, -, there, rest⟩
      exact ⟨other, k, there, rest⟩
  | child pid outcome =>
    rcases replying_child moved with ⟨k, k', sent, present, move, children, -, reply⟩
    have answers := move.answers_iff (formed.typed pid k present)
    have running : k.pc ≠ .exited .success := move.live .success
    rw [children, reply]
    simp only [State.setChild, Parties.exists_update_some, move.req, answers]
    constructor
    · rintro (⟨other, k₀, there, same, success⟩ | ⟨reply, member, same, ending⟩)
      · right
        refine ⟨other, k₀, ?_, there, same, success⟩
        rintro rfl
        rw [present, Option.some.injEq] at there
        rw [← there] at success
        exact running success
      · left
        simp only [Option.mem_toList, Option.map_eq_some_iff] at member
        rcases member with ⟨msg, written, rfl⟩
        exact ⟨same, msg, written, by simpa using ending⟩
    · rintro (⟨same, msg, written, ending⟩ | ⟨other, k₀, -, there, same, success⟩)
      · right
        refine ⟨⟨k.req.clientId, msg, k.pc = .closing⟩, ?_, same, by simpa using ending⟩
        rw [Option.mem_def] at written
        simp [written]
      · exact .inl ⟨other, k₀, there, same, success⟩

theorem wellformed_initial : initial.Wellformed argv where
  dispatch := dispatch_initial
  typed := allChildren_initial _
  asked := fun _ member => absurd member List.not_mem_nil
  fresh := fun _ member => absurd member List.not_mem_nil
  held := by
    intro req holds
    cases holds
  children := allChildren_initial _
  answered := by simp [Answered, initial, FileServer.initial]

theorem Wellformed.step {l m : Logged} {action : Action} (formed : l.Wellformed argv)
    (taken : Logged.step files argv qbytes l action = some m) : m.Wellformed argv where
  dispatch := step_dispatch formed.dispatch (step_some taken).1
  typed := by
    apply formed.typed.step _ _ (step_some taken).1
    · intro pid req data image _
      trivial
    · intro pid outcome k k' sent _ move typed
      exact move.typed typed
  asked := formed.asked_step taken
  fresh := formed.fresh_step taken
  held := formed.held_step taken
  children := formed.children_step taken
  answered := formed.answered_step taken

theorem Wellformed.noneLost_iff {l : Logged} (formed : l.Wellformed argv) : l.NoneLost ↔ l.Kept := by
  constructor
  · intro noneLost req member
    rcases noneLost req member with holds | ⟨pid, k, present, same, live⟩ | answered
    · exact .inl holds
    · exact .inr ⟨pid, k, present, same, (ChildPc.live_iff _).mp live .failure⟩
    · right
      rcases (formed.answered _).mp answered with ⟨pid, k, present, same, success⟩
      refine ⟨pid, k, present, ?_, by rw [success]; decide⟩
      rw [(formed.dispatch.served pid k present).1, same]
      exact (formed.asked req member).1.symm
  · intro kept req member
    rcases kept req member with holds | ⟨pid, k, present, same, unfailed⟩
    · exact .inl holds
    · right
      cases at_ : k.pc with
      | exited status =>
        right
        cases status with
        | success => exact (formed.answered _).mpr ⟨pid, k, present, by rw [same], at_⟩
        | failure => exact absurd at_ unfailed
      | _ => exact .inl ⟨pid, k, present, same, by rw [at_]; rfl⟩

/-- The steps of `main` lose a request exactly when a `fork` fails. -/
theorem Wellformed.kept_server {l m : Logged} {outcome : Outcome} (formed : l.Wellformed argv)
    (taken : Logged.step files argv qbytes l (.server outcome) = some m) :
    m.Kept ↔ l.Kept ∧ Answers l (.server outcome) := by
  rcases step_some taken with ⟨moved, grown, -⟩
  have move : ServerMove l.state outcome m.state := serverStep_moves moved
  unfold Kept Answers
  rw [grown, (serverStep_frame moved).1]
  generalize m.state = t at move
  cases move with
  | took req queue at_ waiting =>
    simp only [at_, ServerPc.held, taking, reduceCtorEq, false_or, ne_eq, not_true_eq_false,
      false_implies, and_true, ServerPc.fork.injEq, List.mem_append, List.mem_singleton]
    constructor
    · intro kept other member
      rcases kept other (.inl member) with same | served
      · -- The request that is taken now is not one of those taken before.
        have waits : req ∈ l.state.serverQueue.getD [] := by simp [waiting]
        exact absurd (by rw [same]) (formed.fresh other member req waits)
      · exact served
    · rintro kept other (member | rfl)
      · exact .inr (kept other member)
      · exact .inl rfl
  | refused req errno at_ =>
    have dropped : req ∈ l.state.pending := by simp [State.pending, at_, ServerPc.held]
    simp only [at_, ServerPc.held, taking, List.append_nil, Outcome.isError]
    constructor
    · intro kept
      rcases kept req (formed.held req at_) with holds | ⟨pid, k, present, same, -⟩
      · cases holds
      · have absent := (formed.dispatch.served pid k present).2.2
        rw [same] at absent
        exact absurd (List.mem_map_of_mem dropped) absent
    · rintro ⟨-, answers⟩
      exact absurd (answers (List.cons_ne_nil _ _)) (by decide)
  | interrupted errno at_ =>
    by_cases interrupted : errno = .EINTR <;> simp [at_, ServerPc.held, taking, interrupted]
  | removed at_ => simp [at_, ServerPc.held, taking]
  | left errno at_ => simp [at_, ServerPc.held, taking]

theorem kept_fork {l m : Logged} {pid : Nat} {data : List Byte} {image : StackImage}
    (taken : Logged.step files argv qbytes l (.fork pid data image) = some m) : m.Kept ↔ l.Kept := by
  rcases step_some taken with ⟨moved, grown, -⟩
  rcases forkStep_some moved with ⟨req, at_, free, same⟩
  unfold Kept
  rw [grown, same]
  simp only [State.setChild, Parties.exists_update_some, taking, at_, List.append_nil, reduceCtorEq,
    false_or, ServerPc.fork.injEq, not_false_eq_true, and_true, ne_eq]
  have others : ∀ other k, l.state.children other = some k → other ≠ pid := by
    rintro other k present rfl
    rw [free] at present
    cases present
  constructor
  · intro kept other member
    rcases kept other member with new | ⟨first, k, -, old⟩
    · exact .inl new
    · exact .inr ⟨first, k, old⟩
  · intro kept other member
    rcases kept other member with new | ⟨first, k, present, old⟩
    · exact .inl new
    · exact .inr ⟨first, k, others first k present, present, old⟩

/-- A child loses its request exactly when its last `msgsnd` fails. -/
theorem Wellformed.kept_child {l m : Logged} {pid : Nat} {outcome : Outcome}
    (formed : l.Wellformed argv)
    (taken : Logged.step files argv qbytes l (.child pid outcome) = some m) :
    m.Kept ↔ l.Kept ∧ Answers l (.child pid outcome) := by
  rcases step_some taken with ⟨moved, grown, -⟩
  rcases replying_child moved with ⟨k, k', sent, there, move, children, server, -⟩
  have running : k.pc ≠ .exited .failure := move.live .failure
  unfold Kept Answers
  rw [grown, taking_of_server_eq server, children, server]
  simp only [State.setChild, Parties.exists_update_some, List.append_nil, there, Option.mem_some_iff,
    forall_eq', move.req, ← move.failed_iff]
  constructor
  · intro kept
    constructor
    · intro req member
      rcases kept req member with holds | ⟨same, -⟩ | ⟨other, l', -, old⟩
      · exact .inl holds
      · exact .inr ⟨pid, k, there, same, running⟩
      · exact .inr ⟨other, l', old⟩
    · -- No other child serves this request, and `main` does not hold it.
      have served := formed.dispatch.served pid k there
      rcases kept k.req (formed.children pid k there) with holds | ⟨-, unfailed⟩ | ⟨other, l', ne, old⟩
      · have pending : k.req ∈ l.state.pending := by simp [State.pending, holds, ServerPc.held]
        exact absurd (List.mem_map_of_mem pending) served.2.2
      · exact unfailed
      · exact absurd (formed.dispatch.unique other pid l' k old.1 there (by rw [old.2.1])) ne
  · rintro ⟨kept, unfailed⟩ req member
    rcases kept req member with holds | ⟨other, l', present, same, old⟩
    · exact .inl holds
    · right
      by_cases moves : other = pid
      · subst moves
        rw [there, Option.some.injEq] at present
        subst present
        exact .inl ⟨same, unfailed⟩
      · exact .inr ⟨other, l', moves, present, same, old⟩

theorem kept_client {l m : Logged} {id : Nat} {outcome : Outcome}
    (taken : Logged.step files argv qbytes l (.client id outcome) = some m) : m.Kept ↔ l.Kept := by
  rcases step_some taken with ⟨moved, grown, -⟩
  unfold Kept
  rw [grown, taking_of_server_eq (clientStep_server moved), List.append_nil,
    clientStep_children moved, clientStep_server moved]

theorem Wellformed.kept_step {l m : Logged} {action : Action} (formed : l.Wellformed argv)
    (taken : Logged.step files argv qbytes l action = some m) :
    m.Kept ↔ l.Kept ∧ Answers l action := by
  cases action with
  | server outcome => exact formed.kept_server taken
  | fork pid data image => exact (kept_fork taken).trans (and_iff_left trivial).symm
  | child pid outcome => exact formed.kept_child taken
  | client id outcome => exact (kept_client taken).trans (and_iff_left trivial).symm

/-- What is recorded beside the state does not get in the way of a run. -/
theorem exists_logged {s : State}
    (run : Reaches (FileServer.step files argv qbytes) (fun _ _ => True) FileServer.initial s) :
    ∃ l, Reaches (step files argv qbytes) (fun _ _ => True) initial l ∧ s = l.state := by
  apply run.simulate (R := fun (s : State) (l : Logged) => s = l.state) (u := initial) rfl
  rintro s action t l rfl - taken
  have next : step files argv qbytes l action =
      some ⟨t, l.taken ++ taking l.state t, l.replies ++ replying files l.state action⟩ := by
    unfold step
    rw [taken]
    rfl
  exact ⟨_, .single trivial next, rfl⟩

/-- No request has been lost if and only if every `fork` and every message that ends the service
    of a child went well. -/
theorem noneLost_iff_answers (actions : List Action) (l : Logged)
    (run : exec (step files argv qbytes) actions initial = some l) :
    l.NoneLost ↔ Along (step files argv qbytes) Answers actions initial := by
  have formed : l.Wellformed argv :=
    exec_invariant (fun _ _ _ formed _ taken => formed.step taken) wellformed_initial
      (along_true actions initial) run
  have tracked : l.Kept ↔ initial.Kept ∧ Along (step files argv qbytes) Answers actions initial :=
    along_iff (fun _ _ _ formed taken => formed.step taken)
      (fun _ _ _ formed taken => formed.kept_step taken) wellformed_initial run
  have start : initial.Kept := fun req member => absurd member List.not_mem_nil
  rw [formed.noneLost_iff, tracked, and_iff_right start]

theorem noneLost_iff_answers_wholeTransfer :
    ∃ l, exec (step twoFiles twoArgs 16384) wholeTransfer initial = some l ∧ l.NoneLost ∧
      l.taken.length = 1 := by
  have ends : (exec (step twoFiles twoArgs 16384) wholeTransfer initial).any
      (fun l => l.taken.length = 1) = true := by decide +kernel
  rcases (Option.any_eq_true _ _).mp ends with ⟨l, run, one⟩
  rw [decide_eq_true_eq] at one
  exact ⟨l, run, (noneLost_iff_answers wholeTransfer l run).mpr (by decide +kernel), one⟩

def forkFails : List Action :=
  [.client 7 .done, .client 7 .done, .client 7 .done, .server .done, .server (.error .EAGAIN)]

theorem forkFails_lost :
    ¬ ∀ l, Reaches (step twoFiles twoArgs 16384) (fun _ _ => True) initial l → l.NoneLost := by
  intro always
  have ends : ∃ l, exec (step twoFiles twoArgs 16384) forkFails initial = some l ∧
      l.taken = [request twoArgs 7] ∧ l.state.server = .receive ∧
      l.state.children = (fun _ => none) ∧ l.replies = [] := ⟨_, rfl, rfl, rfl, rfl, rfl⟩
  rcases ends with ⟨l, run, one, server, children, replies⟩
  rcases always l ⟨forkFails, along_true _ _, run⟩ (request twoArgs 7) (by simp [one]) with
    holds | ⟨pid, k, present, -⟩ | ⟨reply, member, -⟩
  · rw [server] at holds
    cases holds
  · rw [children] at present
    cases present
  · rw [replies] at member
    cases member

end Logged

end SystemProgramming.FileServer
