import SystemProgramming.FileServer.Dispatch
import SystemProgramming.FileServer.Receiver
import SystemProgramming.Library.Channel

namespace SystemProgramming.FileServer

open Transition

variable {files : List Byte → Option (List Byte)} {argv : Nat → List Byte} {qbytes : Nat}

abbrev Channels := Nat → Channel Envelope

def sentOn (ch : Channel Envelope) : List ResponseMsg := ch.sent.map (·.msg)

structure Streams (files : List Byte → Option (List Byte)) (argv : Nat → List Byte) (qbytes : Nat)
    (s : State) (ch : Channels) : Prop where
  dispatch : Dispatch argv s
  bounded : ∀ id, Channel.Reachable qbytes (ch id)
  received : ∀ id, (ch id).received = (s.clients id).received
  queued : ∀ id queue, s.queues id = some queue → (ch id).inFlight = queue
  silent : ∀ id, (∀ pid k, s.children pid = some k → k.req.clientId ≠ id) → (ch id).sent = []
  progress : ∀ pid k, s.children pid = some k → k.Progress files (sentOn (ch k.req.clientId))
  sender : ∀ pid k, s.children pid = some k → ∀ e ∈ (ch k.req.clientId).sent, e.sender = pid
  view : ∀ id, (s.clients id).View

theorem streams_initial : Streams files argv qbytes initial (fun _ => Channel.empty) := by
  constructor
  case dispatch => exact dispatch_initial
  case bounded => exact fun _ => .refl _
  case received => exact fun _ => rfl
  case queued =>
    intro id queue present
    cases present
  case silent => exact fun _ _ => rfl
  case progress => exact fun pid k present => absurd present (initial_children pid k)
  case sender => exact fun pid k present => absurd present (initial_children pid k)
  case view => exact fun _ => rfl

theorem Channel.inFlight_of_silent {ch : Channel Envelope} (silent : ch.sent = []) :
    ch.inFlight = [] := by
  have whole := ch.conserved
  rw [silent, List.append_eq_nil_iff] at whole
  exact whole.2

theorem Streams.silent_of_unsent {s : State} {ch : Channels} (streams : Streams files argv qbytes s ch)
    {id : Nat} (unsent : (s.clients id).pc.Unsent) : (ch id).sent = [] := by
  apply streams.silent
  intro pid k present same
  have asked := (streams.dispatch.served pid k present).2.1
  rw [same] at asked
  exact asked unsent

theorem serverStep_streams {s t : State} {ch : Channels} {outcome : Outcome}
    (streams : Streams files argv qbytes s ch) (taken : serverStep s outcome = some t)
    (dispatch : Dispatch argv t) : Streams files argv qbytes t ch := by
  obtain ⟨children, clients, queues, -⟩ := serverStep_frame taken
  obtain ⟨-, bounded, received, queued, silent, progress, sender, view⟩ := streams
  rw [← children] at silent progress sender
  rw [← clients] at received view
  rw [← queues] at queued
  exact ⟨dispatch, bounded, received, queued, silent, progress, sender, view⟩

theorem forkStep_streams {s t : State} {ch : Channels} {pid : Nat} {data : List Byte}
    {image : StackImage} (streams : Streams files argv qbytes s ch)
    (taken : forkStep s pid data image = some t) (dispatch : Dispatch argv t) :
    Streams files argv qbytes t ch := by
  obtain ⟨req, at_, free, rfl⟩ := forkStep_some taken
  have nothing : (ch req.clientId).sent = [] := by
    apply streams.silent
    intro other k present same
    have absent := (streams.dispatch.served other k present).2.2
    rw [same] at absent
    exact absent (by simp [State.pending, at_, ServerPc.held])
  constructor
  case dispatch => exact dispatch
  case bounded => exact streams.bounded
  case received => exact streams.received
  case queued => exact streams.queued
  case silent =>
    intro id alone
    apply streams.silent
    intro other k present
    have ne : other ≠ pid := by
      rintro rfl
      rw [free] at present
      cases present
    exact alone other k (by simpa [State.setChild, Function.update_of_ne ne] using present)
  case progress =>
    intro other k present
    rcases setChild_some present with ⟨-, rfl⟩ | ⟨-, before⟩
    · exact ⟨by simp [sentOn, nothing], rfl⟩
    · exact streams.progress other k before
  case sender =>
    intro other k present
    rcases setChild_some present with ⟨-, rfl⟩ | ⟨-, before⟩
    · simp [nothing]
    · exact streams.sender other k before
  case view => exact streams.view

theorem Streams.quiet {s : State} {ch : Channels} {pid : Nat} {k k' : Child} {outcome : Outcome}
    (streams : Streams files argv qbytes s ch) (present : s.children pid = some k)
    (move : ChildMove files k outcome k' none) (dispatch : Dispatch argv (s.setChild pid k')) :
    Streams files argv qbytes (s.setChild pid k') ch := by
  constructor
  case dispatch => exact dispatch
  case bounded => exact streams.bounded
  case received => exact streams.received
  case queued => exact streams.queued
  case silent =>
    intro id alone
    apply streams.silent
    intro other l there
    by_cases same : other = pid
    · subst same
      rw [present] at there
      cases there
      rw [← move.req]
      exact alone other k' (by simp [State.setChild])
    · exact alone other l (by simpa [State.setChild, Function.update_of_ne same] using there)
  case progress =>
    intro other l there
    rcases setChild_some there with ⟨rfl, rfl⟩ | ⟨-, before⟩
    · rw [move.req]
      simpa using move.progress (streams.progress other k present)
    · exact streams.progress other l before
  case sender =>
    intro other l there
    rcases setChild_some there with ⟨rfl, rfl⟩ | ⟨-, before⟩
    · rw [move.req]
      exact streams.sender other k present
    · exact streams.sender other l before
  case view => exact streams.view

theorem Streams.sent {s : State} {ch : Channels} {pid : Nat} {k k' : Child} {outcome : Outcome}
    {msg : ResponseMsg} {queue : List Envelope} (streams : Streams files argv qbytes s ch)
    (present : s.children pid = some k) (move : ChildMove files k outcome k' (some msg))
    (there : s.queues k.req.clientId = some queue) (room : queue.length + 1 ≤ qbytes)
    (dispatch : Dispatch argv
      ((s.setChild pid k').setQueue k.req.clientId (some (queue ++ [⟨pid, msg⟩])))) :
    Streams files argv qbytes
      ((s.setChild pid k').setQueue k.req.clientId (some (queue ++ [⟨pid, msg⟩])))
      (Function.update ch k.req.clientId ((ch k.req.clientId).put [⟨pid, msg⟩])) := by
  have inFlight := streams.queued _ _ there
  have others : ∀ other l, other ≠ pid → s.children other = some l →
      l.req.clientId ≠ k.req.clientId :=
    fun other l ne before same => ne (streams.dispatch.unique other pid l k before present same)
  have reached : Channel.Reachable qbytes ((ch k.req.clientId).put [⟨pid, msg⟩]) := by
    apply (streams.bounded _).tail trivial
    apply Channel.put_step
    rw [inFlight]
    exact room
  constructor
  case dispatch => exact dispatch
  case bounded => exact Parties.forall_update streams.bounded reached
  case received =>
    exact Parties.forall_update (P := fun id (d : Channel Envelope) => d.received = (s.clients id).received)
      streams.received (streams.received _)
  case queued =>
    apply Parties.forall_update₂ (P := fun _ (q : Option (List Envelope)) (d : Channel Envelope) =>
      ∀ after, q = some after → d.inFlight = after) streams.queued
    intro after same
    rw [Channel.put_inFlight, inFlight]
    exact Option.some.inj same
  case silent =>
    intro id alone
    have ne : id ≠ k.req.clientId := by
      intro same
      exact alone pid k' (by simp [State.setQueue, State.setChild]) (by rw [move.req, same])
    rw [Function.update_of_ne ne]
    apply streams.silent
    intro other l before
    by_cases same : other = pid
    · subst same
      rw [present] at before
      cases before
      exact ne.symm
    · exact alone other l (by simpa [State.setQueue, State.setChild, Function.update_of_ne same] using before)
  case progress =>
    intro other l there'
    rcases setChild_some there' with ⟨rfl, rfl⟩ | ⟨ne, before⟩
    · rw [move.req, Function.update_self]
      simpa [sentOn] using move.progress (streams.progress other k present)
    · rw [Function.update_of_ne (others other l ne before)]
      exact streams.progress other l before
  case sender =>
    intro other l there'
    rcases setChild_some there' with ⟨rfl, rfl⟩ | ⟨ne, before⟩
    · rw [move.req, Function.update_self, Channel.put_sent]
      intro e member
      rw [List.mem_append, List.mem_singleton] at member
      rcases member with old | rfl
      · exact streams.sender other k present e old
      · rfl
    · rw [Function.update_of_ne (others other l ne before)]
      exact streams.sender other l before
  case view => exact streams.view

theorem Streams.client {s t : State} {ch : Channels} {id : Nat} {c : Client}
    {queue : Option (List Envelope)} {d : Channel Envelope}
    (streams : Streams files argv qbytes s ch) (dispatch : Dispatch argv t)
    (children : t.children = s.children) (clients : t.clients = Function.update s.clients id c)
    (queues : t.queues = Function.update s.queues id queue) (reached : Channel.Reachable qbytes d)
    (sent : d.sent = (ch id).sent) (received : d.received = c.received)
    (queued : ∀ after, queue = some after → d.inFlight = after) (view : c.View) :
    Streams files argv qbytes t (Function.update ch id d) := by
  have same : ∀ other, (Function.update ch id d other).sent = (ch other).sent :=
    Parties.forall_update (P := fun other (e : Channel Envelope) => e.sent = (ch other).sent)
      (fun _ => rfl) sent
  constructor
  case dispatch => exact dispatch
  case bounded => exact Parties.forall_update streams.bounded reached
  case received =>
    rw [clients]
    exact Parties.forall_update₂ (P := fun _ (e : Channel Envelope) (c : Client) => e.received = c.received)
      streams.received received
  case queued =>
    rw [queues]
    exact Parties.forall_update₂ (P := fun _ (q : Option (List Envelope)) (e : Channel Envelope) =>
      ∀ after, q = some after → e.inFlight = after) streams.queued queued
  case silent =>
    intro other alone
    rw [same]
    rw [children] at alone
    exact streams.silent other alone
  case progress =>
    intro pid k present
    rw [children] at present
    rw [sentOn, same]
    exact streams.progress pid k present
  case sender =>
    intro pid k present
    rw [children] at present
    rw [same]
    exact streams.sender pid k present
  case view =>
    rw [clients]
    exact Parties.forall_update streams.view view

theorem clientStep_streams {s t : State} {ch : Channels} {id : Nat} {outcome : Outcome}
    (streams : Streams files argv qbytes s ch) (taken : clientStep argv qbytes s id outcome = some t)
    (dispatch : Dispatch argv t) : ∃ ch', Streams files argv qbytes t ch' := by
  have view := streams.view id
  have received := streams.received id
  have reached := streams.bounded id
  cases clientStep_moves taken
  case goto pc next =>
    exact ⟨_, streams.client dispatch rfl rfl (Function.update_eq_self _ _).symm reached rfl received
      (streams.queued id) (next.view view)⟩
  case created at_ fresh =>
    have silent := streams.silent_of_unsent (.inl at_)
    have empty := Channel.inFlight_of_silent silent
    refine ⟨_, streams.client dispatch rfl rfl rfl reached rfl received ?_ ?_⟩
    · intro after same
      cases same
      exact empty
    · simpa [Client.View, Client.messages, at_] using view
  case requested queue at_ present =>
    refine ⟨_, streams.client dispatch rfl rfl (Function.update_eq_self _ _).symm reached rfl received
      (streams.queued id) ?_⟩
    simpa [Client.View, Client.messages, at_] using view
  case receivedFirst e queue at_ head =>
    have inFlight := streams.queued id _ head
    refine ⟨_, streams.client (d := (ch id).take 1) dispatch rfl rfl rfl ?_ rfl ?_ ?_
      (Client.first_view e at_ view)⟩
    · exact reached.tail trivial (Channel.take_step (by simp [inFlight]))
    · simp [received, inFlight]
    · intro after same
      cases same
      simp [inFlight]
  case receivedNext e queue at_ head =>
    have inFlight := streams.queued id _ head
    refine ⟨_, streams.client (d := (ch id).take 1) dispatch rfl rfl rfl ?_ rfl ?_ ?_
      (Client.next_view e at_ view)⟩
    · exact reached.tail trivial (Channel.take_step (by simp [inFlight]))
    · simp [received, inFlight]
    · intro after same
      cases same
      simp [inFlight]
  case removed pc next =>
    refine ⟨_, streams.client dispatch rfl rfl rfl reached rfl received ?_ (next.view view)⟩
    intro queue present
    cases present

theorem step_streams {s t : State} {ch : Channels} {action : Action}
    (streams : Streams files argv qbytes s ch) (taken : step files argv qbytes s action = some t) :
    ∃ ch', Streams files argv qbytes t ch' := by
  have dispatch := step_dispatch streams.dispatch taken
  cases action with
  | server outcome => exact ⟨ch, serverStep_streams streams taken dispatch⟩
  | fork pid data image => exact ⟨ch, forkStep_streams streams taken dispatch⟩
  | child pid outcome =>
    obtain ⟨k, k', sent, present, move, -, effect⟩ := childStep_some taken
    rcases effect with ⟨rfl, rfl⟩ | ⟨msg, queue, rfl, there, room, rfl⟩
    · exact ⟨ch, streams.quiet present move dispatch⟩
    · exact ⟨_, streams.sent present move there room dispatch⟩
  | client id outcome => exact clientStep_streams streams taken dispatch

/-- In every run, whatever fails, the private queues refine one bounded channel per client. -/
theorem queues_refine_channels {cond : State → Action → Prop} {s : State}
    (run : Reaches (step files argv qbytes) cond initial s) :
    ∃ ch, Streams files argv qbytes s ch :=
  run.invariant (I := fun s => ∃ ch, Streams files argv qbytes s ch) ⟨_, streams_initial⟩
    (fun _ _ _ ⟨_, streams⟩ _ taken => step_streams streams taken)

end SystemProgramming.FileServer
