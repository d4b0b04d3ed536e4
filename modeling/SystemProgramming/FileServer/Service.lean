import SystemProgramming.FileServer.Completion

namespace SystemProgramming.FileServer

open Transition

variable {files : List Byte → Option (List Byte)} {argv : Nat → List Byte} {qbytes : Nat}

/-- Whatever happens to the others, `main` goes on, and no call of this client or of the child that
    serves it fails but the `open` of a file that is not there. What the child sends as its closing
    message starts with the address of the request, which is no type of a response. -/
def Healthy (files : List Byte → Option (List Byte)) (id : Nat) (s : State) : Action → Prop
  | .server (.error errno) =>
    (s.server = .receive ∧ errno = .EINTR) ∨ ∃ req ∈ s.server.held, req.clientId ≠ id
  | .server _ => True
  | .fork _ _ image => RESP_MT_END < image.pointer
  | .child pid outcome => ∀ k ∈ s.children pid, k.req.clientId = id → outcome.isError = true →
      k.pc = .opening ∧ files k.req.pathname = none
  | .client other outcome => other = id → outcome.isError = false

instance (id : Nat) (s : State) : (action : Action) → Decidable (Healthy files id s action)
  | .server (.error _) => inferInstanceAs (Decidable (_ ∨ ∃ req ∈ s.server.held, req.clientId ≠ id))
  | .server .done | .server (.count _) => isTrue trivial
  | .fork _ _ image => inferInstanceAs (Decidable (RESP_MT_END < image.pointer))
  | .child pid outcome => inferInstanceAs (Decidable (∀ k ∈ s.children pid, k.req.clientId = id →
      outcome.isError = true → k.pc = .opening ∧ files k.req.pathname = none))
  | .client other outcome => inferInstanceAs (Decidable (other = id → outcome.isError = false))

def OnlyFor (id : Nat) (s : State) : Action → Prop
  | .server _ | .fork _ _ _ => True
  | .child pid _ => ∃ k ∈ s.children pid, k.req.clientId = id
  | .client other _ => other = id

def Alone (files : List Byte → Option (List Byte)) (id : Nat) (s : State) (action : Action) : Prop :=
  Healthy files id s action ∧ OnlyFor id s action

inductive ClientDone (argv : Nat → List Byte) (s : State) (id : Nat) : State → Prop where
  | created (at_ : (s.clients id).pc = .msgget) (fresh : s.queues id = none) :
      ClientDone argv s id ((s.setClient id { s.clients id with pc := .atexit }).setQueue id (some []))
  | registered (at_ : (s.clients id).pc = .atexit) :
      ClientDone argv s id (s.setClient id { s.clients id with pc := .request })
  | requested (queue : List RequestMsg) (at_ : (s.clients id).pc = .request)
      (present : s.serverQueue = some queue) :
      ClientDone argv s id { s.setClient id { s.clients id with pc := .receiveFirst } with
        serverQueue := some (queue ++ [request argv id]) }
  | receivedFirst (e : Envelope) (queue : List Envelope) (at_ : (s.clients id).pc = .receiveFirst)
      (head : s.queues id = some (e :: queue)) :
      ClientDone argv s id ((s.setQueue id (some queue)).setClient id ((s.clients id).first e))
  | tested (at_ : (s.clients id).pc = .test) :
      ClientDone argv s id (s.setClient id { s.clients id with
        pc := if (s.clients id).resp.mtype = RESP_MT_DATA then .receive else .report })
  | receivedNext (e : Envelope) (queue : List Envelope) (at_ : (s.clients id).pc = .receive)
      (head : s.queues id = some (e :: queue)) :
      ClientDone argv s id ((s.setQueue id (some queue)).setClient id ((s.clients id).next e))
  | reported (at_ : (s.clients id).pc = .report) :
      ClientDone argv s id (s.setClient id { s.clients id with pc := .exiting .success })
  | removed (at_ : (s.clients id).pc = .removing) :
      ClientDone argv s id ((s.setClient id { s.clients id with pc := .exiting .failure }).setQueue id none)
  | exited (status : ExitStatus) (at_ : (s.clients id).pc = .exiting status) :
      ClientDone argv s id ((s.setClient id { s.clients id with pc := .exited status }).setQueue id none)

theorem clientStep_done {s t : State} {id : Nat} {outcome : Outcome} (fine : outcome.isError = false)
    (taken : clientStep argv qbytes s id outcome = some t) : ClientDone argv s id t := by
  unfold clientStep at taken
  dsimp only at taken
  cases outcome with
  | error errno => cases fine
  | count n => split at taken <;> cases taken
  | done =>
    split at taken
    case h_1 at_ =>
      dsimp only at taken
      split at taken
      · rename_i fresh
        cases taken
        exact .created at_ fresh
      · cases taken
    case h_2 at_ =>
      cases taken
      exact .registered at_
    case h_3 at_ =>
      obtain ⟨queue, present, sent⟩ := Option.bind_eq_some_iff.mp taken
      split at sent
      · cases sent
        exact .requested queue at_ present
      · cases sent
    case h_4 at_ =>
      obtain ⟨⟨e, t'⟩, received, same⟩ := Option.map_eq_some_iff.mp taken
      obtain ⟨queue, head, rfl⟩ := msgrcv_some received
      cases same
      exact .receivedFirst e queue at_ head
    case h_5 at_ =>
      cases taken
      exact .tested at_
    case h_6 at_ =>
      obtain ⟨⟨e, t'⟩, received, same⟩ := Option.map_eq_some_iff.mp taken
      obtain ⟨queue, head, rfl⟩ := msgrcv_some received
      cases same
      exact .receivedNext e queue at_ head
    case h_7 at_ =>
      cases taken
      exact .reported at_
    case h_8 at_ =>
      cases taken
      exact .removed at_
    case h_9 status at_ =>
      cases taken
      exact .exited status at_
    case h_10 => cases taken

def ClientPc.Queued (pc : ClientPc) (queue : Option (List Envelope)) : Prop :=
  match pc with
  | .msgget | .exited _ => queue = none
  | .exiting _ => True
  | .atexit | .request | .receiveFirst | .test | .receive | .report | .removing => queue ≠ none

def ClientPc.Rejected (pc : ClientPc) : Prop :=
  pc = .removing ∨ pc = .exiting .failure ∨ pc = .exited .failure

structure Child.Sound (files : List Byte → Option (List Byte)) (k : Child) : Prop where
  image : RESP_MT_END < k.image.pointer
  running : k.pc ≠ .exited .failure
  nothingLost : k.lost = []
  bound : ∀ n, k.pc = .sending n → n ≤ RESP_MSG_SIZE
  refused : k.resp.mtype = RESP_MT_FAILURE → files k.req.pathname = none

structure Ready (files : List Byte → Option (List Byte)) (argv : Nat → List Byte) (id : Nat) (s : State) :
    Prop where
  serving : s.server = .receive ∨ ∃ req, s.server = .fork req
  requests : ∃ queue, s.serverQueue = some queue
  free : ∃ bound, ∀ pid, bound ≤ pid → s.children pid = none
  asked : ¬ (s.clients id).pc.Unsent →
    request argv id ∈ s.pending ∨ ∃ pid k, s.children pid = some k ∧ k.req = request argv id
  queue : (s.clients id).pc.Queued (s.queues id)
  sizes : ∀ queue, s.queues id = some queue → ∀ e ∈ queue, e.msg.data.length ≤ RESP_MSG_SIZE
  child : s.AllChildren fun k => k.req.clientId = id → k.Sound files
  rejected : (s.clients id).pc.Rejected → files (argv id) = none

theorem ready_initial (id : Nat) : Ready files argv id initial := by
  constructor
  case serving => exact .inl rfl
  case requests => exact ⟨[], rfl⟩
  case free => exact ⟨0, fun _ _ => rfl⟩
  case asked => exact fun sent => absurd (.inl rfl) sent
  case queue => exact rfl
  case sizes => simp [initial]
  case child => exact allChildren_initial _
  case rejected => simp [ClientPc.Rejected, initial]

theorem serverStep_ready {s t : State} {id : Nat} {outcome : Outcome} (ready : Ready files argv id s)
    (fine : Healthy files id s (.server outcome)) (taken : serverStep s outcome = some t) :
    Ready files argv id t := by
  obtain ⟨serving, requests, free, asked, queue, sizes, child, rejected⟩ := ready
  cases serverStep_moves taken
  case took req rest at_ waiting =>
    refine ⟨.inr ⟨req, rfl⟩, ⟨rest, rfl⟩, free, ?_, queue, sizes, child, rejected⟩
    have same : s.pending = req :: rest := by simp [State.pending, at_, waiting, ServerPc.held]
    rw [same] at asked
    simpa [State.pending, ServerPc.held] using asked
  case interrupted errno at_ =>
    have retried : errno = .EINTR := by simpa [Healthy, at_, ServerPc.held] using fine
    rw [if_pos retried]
    refine ⟨.inl rfl, requests, free, ?_, queue, sizes, child, rejected⟩
    simpa [State.pending, at_, ServerPc.held] using asked
  case refused req errno at_ =>
    have other : req.clientId ≠ id := by simpa [Healthy, at_, ServerPc.held] using fine
    refine ⟨.inl rfl, requests, free, ?_, queue, sizes, child, rejected⟩
    intro sent
    rcases asked sent with pending | served
    · left
      have notHeld : request argv id ≠ req := by
        rintro rfl
        exact other rfl
      simpa [State.pending, at_, ServerPc.held, notHeld] using pending
    · exact .inr served
  case removed at_ => simp [at_] at serving
  case left errno at_ => simp [at_] at serving

theorem forkStep_ready {s t : State} {id pid : Nat} {data : List Byte} {image : StackImage}
    (ready : Ready files argv id s) (fine : Healthy files id s (.fork pid data image))
    (taken : forkStep s pid data image = some t) : Ready files argv id t := by
  obtain ⟨serving, requests, ⟨bound, free⟩, asked, queue, sizes, child, rejected⟩ := ready
  obtain ⟨req, at_, unused, rfl⟩ := forkStep_some taken
  refine ⟨.inl rfl, requests, ⟨max bound (pid + 1), ?_⟩, ?_, queue, sizes, ?_, rejected⟩
  · intro other large
    have ne : other ≠ pid := by omega
    simp only [State.setChild, Function.update_of_ne ne]
    exact free other (by omega)
  · intro sent
    rcases asked sent with pending | ⟨other, k, present, same⟩
    · simp only [State.pending, at_, ServerPc.held, List.cons_append, List.nil_append,
        List.mem_cons] at pending
      rcases pending with rfl | waiting
      · exact .inr ⟨pid, ⟨.opening, request argv id, ⟨0, data⟩, [], image, []⟩, by simp [State.setChild], rfl⟩
      · exact .inl (by simpa [State.pending, State.setChild, ServerPc.held] using waiting)
    · have ne : other ≠ pid := by
        rintro rfl
        rw [unused] at present
        cases present
      exact .inr ⟨other, k, by simpa [State.setChild, Function.update_of_ne ne] using present, same⟩
  · intro other k present mine
    rcases setChild_some present with ⟨-, rfl⟩ | ⟨-, before⟩
    · exact ⟨fine, by simp, rfl, by simp, fun failed => absurd failed Int.zero_ne_one⟩
    · exact child other k before mine

theorem ChildMove.sound {k k' : Child} {outcome : Outcome} {sent : Option ResponseMsg}
    (move : ChildMove files k outcome k' sent)
    (fine : outcome.isError = true → k.pc = .opening ∧ files k.req.pathname = none) (sound : k.Sound files) :
    k'.Sound files ∧ ∀ msg, sent = some msg → msg.data.length ≤ RESP_MSG_SIZE := by
  obtain ⟨image, running, nothingLost, bound, refused⟩ := sound
  have small : REQ_MSG_SIZE ≤ RESP_MSG_SIZE := by decide
  cases move
  case opened content at_ present =>
    exact ⟨⟨image, by simp, nothingLost, by simp, fun failed => absurd failed DATA_ne_FAILURE⟩, by simp⟩
  case refused errno data at_ =>
    exact ⟨⟨image, by simp, nothingLost, by simp, fun _ => (fine rfl).2⟩, by simp⟩
  case reported at_ =>
    refine ⟨⟨image, by simp, nothingLost, by simp, refused⟩, ?_⟩
    intro msg same
    cases same
    exact (List.length_take_le _ _).trans small
  case filled n at_ positive size available =>
    refine ⟨⟨image, by simp, nothingLost, ?_, refused⟩, by simp⟩
    rintro m same
    cases same
    exact size
  case endOfFile at_ empty =>
    exact ⟨⟨image, by simp [Child.finish], rfl, by simp [Child.finish],
      fun failed => absurd failed END_ne_FAILURE⟩, by simp⟩
  case sent n at_ =>
    refine ⟨⟨image, by simp, nothingLost, by simp, refused⟩, ?_⟩
    intro msg same
    cases same
    exact (List.length_take_le _ _).trans (bound n at_)
  case closed at_ =>
    refine ⟨⟨image, by simp, nothingLost, by simp, refused⟩, ?_⟩
    intro msg same
    cases same
    exact k.image.size.le.trans small
  -- No other call fails.
  case aborted errno at_ => rcases at_ with at_ | at_ <;> simp [at_, Outcome.isError] at fine
  case readFailed errno at_ => simp [at_, Outcome.isError] at fine
  case sendFailed n errno at_ => simp [at_, Outcome.isError] at fine

theorem childStep_ready {s t : State} {id pid : Nat} {outcome : Outcome} (ready : Ready files argv id s)
    (fine : Healthy files id s (.child pid outcome)) (taken : childStep files qbytes s pid outcome = some t) :
    Ready files argv id t := by
  obtain ⟨serving, requests, ⟨bound, free⟩, asked, queue, sizes, child, rejected⟩ := ready
  obtain ⟨k, k', sent, present, move, children, effect⟩ := childStep_some taken
  have mine := fun same => move.sound (fine k present same) (child pid k present same)
  have born : pid < bound := by
    by_contra large
    rw [free pid (by omega)] at present
    cases present
  have unborn : ∀ other, bound ≤ other → t.children other = none := by
    intro other large
    have ne : other ≠ pid := by omega
    rw [children]
    simp only [State.setChild, Function.update_of_ne ne]
    exact free other large
  have served : (∃ pid k, s.children pid = some k ∧ k.req = request argv id) →
      ∃ pid k, t.children pid = some k ∧ k.req = request argv id := by
    rw [children]
    rintro ⟨other, l, there, same⟩
    by_cases moved : other = pid
    · subst moved
      rw [present] at there
      cases there
      exact ⟨other, k', by simp [State.setChild], by rw [move.req, same]⟩
    · exact ⟨other, l, by simpa [State.setChild, Function.update_of_ne moved] using there, same⟩
  have sound : t.AllChildren fun k => k.req.clientId = id → k.Sound files := by
    intro other l there same
    rw [children] at there
    rcases setChild_some there with ⟨-, rfl⟩ | ⟨-, before⟩
    · exact (mine (by rw [← move.req, same])).1
    · exact child other l before same
  rcases effect with ⟨-, rfl⟩ | ⟨msg, before, message, there, -, rfl⟩
  · exact ⟨serving, requests, ⟨bound, unborn⟩, fun sent => (asked sent).imp_right served, queue, sizes,
      sound, rejected⟩
  · refine ⟨serving, requests, ⟨bound, unborn⟩, fun sent => (asked sent).imp_right served, ?_, ?_, sound,
      rejected⟩
    · by_cases same : id = k.req.clientId
      · subst same
        revert queue
        simp only [State.setQueue, State.setChild, Function.update_self, ClientPc.Queued, there]
        split <;> simp
      · simpa [State.setQueue, State.setChild, Function.update_of_ne same] using queue
    · by_cases same : id = k.req.clientId
      · subst same
        simp only [State.setQueue, Function.update_self, Option.some.injEq, forall_eq', List.mem_append,
          List.mem_singleton]
        rintro e (old | rfl)
        · exact sizes before there e old
        · exact (mine rfl).2 msg message
      · simpa [State.setQueue, State.setChild, Function.update_of_ne same] using sizes

theorem clientStep_other {s t : State} {id other : Nat} {outcome : Outcome} (ne : id ≠ other)
    (taken : clientStep argv qbytes s other outcome = some t) :
    t.clients id = s.clients id ∧ t.queues id = s.queues id ∧ t.server = s.server ∧
      t.children = s.children ∧ ∃ added, t.serverQueue = s.serverQueue.map (· ++ added) := by
  cases clientStep_moves taken
  case requested queue at_ present =>
    refine ⟨?_, rfl, rfl, rfl, [request argv other], ?_⟩
    · simp [State.setClient, Function.update_of_ne ne]
    · simp [present]
  all_goals
    refine ⟨?_, ?_, rfl, rfl, [], ?_⟩ <;>
      simp [State.setClient, State.setQueue, Function.update_of_ne ne]

/-- Only the report of a failed `open` has the type of a failure. -/
theorem Child.Progress.failed {k : Child} {msgs : List ResponseMsg} {m : ResponseMsg}
    (progress : k.Progress files msgs) (sound : k.Sound files) (member : m ∈ msgs)
    (type : m.mtype = RESP_MT_FAILURE) : files k.req.pathname = none := by
  have notData : ∀ {data : List ResponseMsg}, AllData data → m ∉ data := by
    intro data all there
    exact DATA_ne_FAILURE ((all m there).symm.trans type)
  unfold Child.Progress at progress
  split at progress
  · simp [progress.1] at member
  · simp [progress.1] at member
  · exact absurd member (notData progress.1.allData)
  · exact absurd member (notData progress.1.allData)
  · exact absurd member (notData progress.allData)
  · rcases progress with ⟨data, rfl, sent⟩ | ⟨-, failed, -⟩
    · rw [List.mem_append, List.mem_singleton] at member
      rcases member with there | rfl
      · exact absurd there (notData sent.allData)
      · have address := sound.image
        have address' : RESP_MT_END < k.image.message.mtype := address
        rw [type] at address'
        exact absurd address' (by decide)
    · exact sound.refused failed
  · rcases progress with sent | ⟨none, -⟩
    · exact absurd member (notData sent.allData)
    · simp [none] at member

theorem Streams.child_of_sent {s : State} {ch : Channels} (streams : Streams files argv qbytes s ch)
    {id : Nat} (sent : (ch id).sent ≠ []) :
    ∃ pid k, s.children pid = some k ∧ k.req = request argv id := by
  by_contra none
  apply sent
  apply streams.silent
  intro pid k present same
  have written := (streams.dispatch.served pid k present).1
  rw [same] at written
  exact none ⟨pid, k, present, written⟩

theorem Streams.rejected {s : State} {ch : Channels} {id : Nat} {e : Envelope} {queue : List Envelope}
    (streams : Streams files argv qbytes s ch) (ready : Ready files argv id s)
    (head : s.queues id = some (e :: queue)) (type : e.msg.mtype = RESP_MT_FAILURE) :
    files (argv id) = none := by
  have inFlight := streams.queued id _ head
  have member : e ∈ (ch id).sent := by
    rw [← (ch id).conserved, inFlight]
    simp
  obtain ⟨pid, k, present, req⟩ := streams.child_of_sent (List.ne_nil_of_mem member)
  have mine : k.req.clientId = id := by rw [req]; rfl
  have progress := streams.progress pid k present
  rw [mine] at progress
  have none := progress.failed (ready.child pid k present mine) (List.mem_map_of_mem member) type
  rwa [req] at none

/-- The client moves on, having sent its request before if it has now. -/
theorem Ready.moved {s : State} {id : Nat} {c : Client} {queue : Option (List Envelope)}
    (ready : Ready files argv id s) (sent : ¬ c.pc.Unsent → ¬ (s.clients id).pc.Unsent)
    (queued : c.pc.Queued queue)
    (sizes : ∀ after, queue = some after → ∀ e ∈ after, e.msg.data.length ≤ RESP_MSG_SIZE)
    (rejected : c.pc.Rejected → files (argv id) = none) :
    Ready files argv id ((s.setClient id c).setQueue id queue) := by
  have client : ((s.setClient id c).setQueue id queue).clients id = c := by
    simp [State.setClient, State.setQueue]
  have there : ((s.setClient id c).setQueue id queue).queues id = queue := by simp [State.setQueue]
  constructor
  case serving => exact ready.serving
  case requests => exact ready.requests
  case free => exact ready.free
  case asked =>
    rw [client]
    exact fun after => ready.asked (sent after)
  case queue =>
    rw [client, there]
    exact queued
  case sizes =>
    rw [there]
    exact sizes
  case child => exact ready.child
  case rejected =>
    rw [client]
    exact rejected

theorem Ready.goto {s : State} {id : Nat} {c : Client} (ready : Ready files argv id s)
    (sent : ¬ c.pc.Unsent → ¬ (s.clients id).pc.Unsent) (queued : c.pc.Queued (s.queues id))
    (rejected : c.pc.Rejected → files (argv id) = none) : Ready files argv id (s.setClient id c) := by
  have moved := ready.moved sent queued ready.sizes rejected
  simpa [State.setClient, State.setQueue] using moved

theorem Ready.received {s : State} {id : Nat} {c : Client} {e : Envelope} {queue : List Envelope}
    (ready : Ready files argv id s) (head : s.queues id = some (e :: queue))
    (sent : ¬ c.pc.Unsent → ¬ (s.clients id).pc.Unsent) (queued : c.pc.Queued (some queue))
    (rejected : c.pc.Rejected → files (argv id) = none) :
    Ready files argv id ((s.setQueue id (some queue)).setClient id c) := by
  apply ready.moved sent queued _ rejected
  intro after same other member
  cases same
  exact ready.sizes _ head other (List.mem_cons_of_mem _ member)

theorem Ready.requested {s : State} {id : Nat} {queue : List RequestMsg} (ready : Ready files argv id s)
    (at_ : (s.clients id).pc = .request) :
    Ready files argv id { s.setClient id { s.clients id with pc := .receiveFirst } with
      serverQueue := some (queue ++ [request argv id]) } := by
  have queued := ready.queue
  have here : ({ s.setClient id { s.clients id with pc := .receiveFirst } with
      serverQueue := some (queue ++ [request argv id]) } : State).clients id =
        { s.clients id with pc := .receiveFirst } := by simp [State.setClient]
  simp only [ClientPc.Queued, at_] at queued
  constructor
  case serving => exact ready.serving
  case requests => exact ⟨_, rfl⟩
  case free => exact ready.free
  case asked => exact fun _ => .inl (by simp [State.pending, State.setClient])
  case queue =>
    rw [here]
    exact queued
  case sizes => exact ready.sizes
  case child => exact ready.child
  case rejected =>
    rw [here]
    simp [ClientPc.Rejected]

theorem ClientDone.ready {s t : State} {ch : Channels} {id : Nat}
    (streams : Streams files argv qbytes s ch) (ready : Ready files argv id s)
    (move : ClientDone argv s id t) : Ready files argv id t := by
  have queued := ready.queue
  have rejected := ready.rejected
  cases move
  case created at_ fresh =>
    apply ready.moved <;> simp [at_, ClientPc.Unsent, ClientPc.Queued, ClientPc.Rejected]
  case requested queue at_ present => exact ready.requested at_
  case receivedFirst e queue at_ head =>
    apply ready.received head
    · simp [at_, ClientPc.Unsent]
    · unfold Client.first
      split <;> simp [ClientPc.Queued]
    · unfold Client.first
      split
      · rename_i failed
        exact fun _ => streams.rejected ready head failed
      · simp [ClientPc.Rejected]
  case receivedNext e queue at_ head =>
    apply ready.received head <;>
      simp [at_, Client.next, ClientPc.Unsent, ClientPc.Queued, ClientPc.Rejected]
  case removed at_ =>
    apply ready.moved <;> simp_all [ClientPc.Unsent, ClientPc.Queued, ClientPc.Rejected]
  case exited status at_ =>
    apply ready.moved <;> simp_all [ClientPc.Unsent, ClientPc.Queued, ClientPc.Rejected]
  case tested at_ =>
    apply ready.goto <;> split <;> simp_all [ClientPc.Unsent, ClientPc.Queued, ClientPc.Rejected]
  case registered at_ =>
    apply ready.goto <;> simp_all [ClientPc.Unsent, ClientPc.Queued, ClientPc.Rejected]
  case reported at_ =>
    apply ready.goto <;> simp_all [ClientPc.Unsent, ClientPc.Queued, ClientPc.Rejected]

theorem clientStep_ready {s t : State} {ch : Channels} {id other : Nat} {outcome : Outcome}
    (streams : Streams files argv qbytes s ch) (ready : Ready files argv id s)
    (fine : Healthy files id s (.client other outcome))
    (taken : clientStep argv qbytes s other outcome = some t) : Ready files argv id t := by
  by_cases mine : other = id
  · subst mine
    exact (clientStep_done (fine rfl) taken).ready streams ready
  · obtain ⟨serving, ⟨requests, waiting⟩, free, asked, queue, sizes, child, rejected⟩ := ready
    obtain ⟨client, queues, server, children, added, serverQueue⟩ := clientStep_other (Ne.symm mine) taken
    refine ⟨by rwa [server], ⟨_, by rw [serverQueue, waiting]; rfl⟩, by rwa [children], ?_,
      by rwa [client, queues], by rwa [queues], ?_, by rwa [client]⟩
    · rw [client, children]
      intro sent
      rcases asked sent with pending | served
      · left
        simp only [State.pending, waiting, server, serverQueue, Option.map_some, Option.getD_some,
          List.mem_append] at pending ⊢
        tauto
      · exact .inr served
    · intro pid k present
      rw [children] at present
      exact child pid k present

theorem step_ready {s t : State} {ch : Channels} {id : Nat} {action : Action}
    (streams : Streams files argv qbytes s ch) (ready : Ready files argv id s)
    (fine : Healthy files id s action) (taken : step files argv qbytes s action = some t) :
    Ready files argv id t := by
  cases action with
  | server outcome => exact serverStep_ready ready fine taken
  | fork pid data image => exact forkStep_ready ready fine taken
  | child pid outcome => exact childStep_ready ready fine taken
  | client other outcome => exact clientStep_ready streams ready fine taken

theorem healthy_ready {s : State} {id : Nat}
    (run : Reaches (step files argv qbytes) (Healthy files id) initial s) :
    ∃ ch, Streams files argv qbytes s ch ∧ Ready files argv id s := by
  apply run.invariant (I := fun s => ∃ ch, Streams files argv qbytes s ch ∧ Ready files argv id s)
    ⟨_, streams_initial, ready_initial id⟩
  rintro s action t ⟨ch, streams, ready⟩ fine taken
  obtain ⟨ch', after⟩ := step_streams streams taken
  exact ⟨ch', after, step_ready streams ready fine taken⟩

end SystemProgramming.FileServer
