import SystemProgramming.FileServer.Service

namespace SystemProgramming.FileServer

open Transition

variable {files : List Byte → Option (List Byte)} {argv : Nat → List Byte} {qbytes : Nat}

def State.backlog (s : State) : Nat := 2 * (s.serverQueue.getD []).length + s.server.held.length

def ClientPc.beforeRequest : ClientPc → Nat
  | .msgget => 5
  | .atexit => 4
  | .request => 3
  | _ => 0

def ClientPc.remaining : ClientPc → Nat
  | .test => 5
  | .receiveFirst | .receive => 4
  | .report | .removing => 3
  | .exiting _ => 2
  | .msgget | .atexit | .request | .exited _ => 0

def Child.remaining (files : List Byte → Option (List Byte)) (k : Child) : Nat :=
  match k.pc with
  | .opening => 5 * ((files k.req.pathname).getD []).length + 6
  | .reading => 5 * k.rest.length + 5
  | .sending _ => 5 * k.rest.length + 9
  | .failing | .closing => 4
  | .exited _ => 0

theorem server_proceeds {s : State} {id : Nat} (ready : Ready files argv id s) (busy : s.pending ≠ []) :
    ∃ action t, Alone files id s action ∧ step files argv qbytes s action = some t ∧
      t.clients = s.clients ∧ t.backlog < s.backlog := by
  obtain ⟨queue, waiting⟩ := ready.requests
  rcases ready.serving with at_ | ⟨req, at_⟩
  · cases queue with
    | nil => simp [State.pending, at_, waiting, ServerPc.held] at busy
    | cons req rest =>
      refine ⟨.server .done, { s with serverQueue := some rest, server := .fork req }, ⟨trivial, trivial⟩,
        ?_, rfl, ?_⟩
      · simp [step, serverStep, at_, waiting]
      · simp only [State.backlog, at_, waiting, ServerPc.held, Option.getD_some, List.length_cons,
          List.length_nil]
        omega
  · obtain ⟨bound, free⟩ := ready.free
    have unused := free bound (Nat.le_refl bound)
    refine ⟨.fork bound [] (stackImage 4096),
      { s with server := .receive }.setChild bound ⟨.opening, req, ⟨0, []⟩, [], stackImage 4096, []⟩,
      ⟨?_, trivial⟩, ?_, rfl, ?_⟩
    · simp only [Healthy, stackImage]
      decide
    · simp [step, forkStep, at_, unused]
    · simp [State.backlog, at_, State.setChild, ServerPc.held]

theorem asks {s : State} {id : Nat} (room : RESP_MSG_SIZE ≤ qbytes) (ready : Ready files argv id s)
    (unserved : ¬ ∃ pid k, s.children pid = some k ∧ k.req = request argv id) :
    ∃ action t, Alone files id s action ∧ step files argv qbytes s action = some t ∧
      (t.clients id).pc.beforeRequest + t.backlog < (s.clients id).pc.beforeRequest + s.backlog := by
  have mine : Alone files id s (.client id .done) := ⟨fun _ => rfl, rfl⟩
  by_cases busy : s.pending = []
  · have queued := ready.queue
    obtain ⟨queue, waiting⟩ := ready.requests
    have nothing : queue = [] := by
      simp only [State.pending, waiting, Option.getD_some, List.append_eq_nil_iff] at busy
      exact busy.2
    by_cases unsent : (s.clients id).pc.Unsent
    · rcases unsent with at_ | at_ | at_
      · simp only [ClientPc.Queued, at_] at queued
        refine ⟨.client id .done, _, mine, by simp [step, clientStep, at_, queued]; rfl, ?_⟩
        simp [State.setQueue, State.setClient, at_, ClientPc.beforeRequest, State.backlog]
      · refine ⟨.client id .done, _, mine, by simp [step, clientStep, at_]; rfl, ?_⟩
        simp [State.setClient, at_, ClientPc.beforeRequest, State.backlog]
      · have fits : Fits qbytes [] REQ_MSG_SIZE := by
          simp only [RESP_MSG_SIZE] at room
          simp only [Fits, REQ_MSG_SIZE, PATH_MAX, List.sum_nil, List.length_nil]
          omega
        refine ⟨.client id .done, _, mine, by simp [step, clientStep, at_, waiting, nothing, fits]; rfl, ?_⟩
        simp [State.setClient, at_, waiting, nothing, ClientPc.beforeRequest, State.backlog]
    · rcases ready.asked unsent with pending | served
      · simp [busy] at pending
      · exact absurd served unserved
  · obtain ⟨action, t, alone, taken, clients, less⟩ := server_proceeds ready busy
    refine ⟨action, t, alone, taken, ?_⟩
    rw [clients]
    omega

/-- Whatever else goes on, `main` gets to the request of the client. -/
theorem reaches_child {s : State} {id : Nat} (room : RESP_MSG_SIZE ≤ qbytes)
    (start : ∃ ch, Streams files argv qbytes s ch ∧ Ready files argv id s) :
    ∃ t, Reaches (step files argv qbytes) (Alone files id) s t ∧
      ∃ pid k, t.children pid = some k ∧ k.req = request argv id := by
  apply exists_reaches (I := fun s => ∃ ch, Streams files argv qbytes s ch ∧ Ready files argv id s)
    (fun s => (s.clients id).pc.beforeRequest + s.backlog) _ start
  rintro s ⟨ch, streams, ready⟩ unserved
  obtain ⟨action, t, alone, taken, less⟩ := asks room ready unserved
  obtain ⟨ch', after⟩ := step_streams streams taken
  exact ⟨action, t, alone, taken, ⟨ch', after, step_ready streams ready alone.1 taken⟩, less⟩

theorem Child.step_read (files : List Byte → Option (List Byte)) {k : Child} (at_ : k.pc = .reading)
    (more : k.rest ≠ []) :
    ∃ n, 0 < n ∧ n ≤ k.rest.length ∧ k.step files (.count n) = some ({ k with
      pc := .sending n
      resp := { k.resp with data := Buffer.overwrite (k.rest.take n) k.resp.data }
      rest := k.rest.drop n }, none) := by
  have size : 0 < k.rest.length := List.length_pos_iff.mpr more
  have chunk : 0 < RESP_MSG_SIZE := by decide
  have positive : 0 < min RESP_MSG_SIZE k.rest.length := by omega
  have valid : min RESP_MSG_SIZE k.rest.length ≤ RESP_MSG_SIZE ∧
      min RESP_MSG_SIZE k.rest.length ≤ k.rest.length ∧
      (min RESP_MSG_SIZE k.rest.length = 0 ↔ k.rest = []) :=
    ⟨by omega, by omega, by omega, fun none => absurd none more⟩
  refine ⟨min RESP_MSG_SIZE k.rest.length, positive, by omega, ?_⟩
  simp only [Child.step, at_, valid, and_self, if_true, positive]

theorem Child.Progress.proceeds {k : Child} {msgs : List ResponseMsg} (progress : k.Progress files msgs)
    (sound : k.Sound files) (live : ∀ status, k.pc ≠ .exited status) :
    ∃ outcome k' sent, k.step files outcome = some (k', sent) ∧
      (outcome.isError = true → k.pc = .opening ∧ files k.req.pathname = none) ∧
      k'.remaining files + 3 * sent.toList.length < k.remaining files ∧
      ∀ msg, sent = some msg → 0 < msg.mtype := by
  unfold Child.Progress at progress
  cases at_ : k.pc with
  | opening =>
    cases asked : files k.req.pathname with
    | none =>
      refine ⟨.error (.other 2), _, _, by simp only [Child.step, at_]; rfl, fun _ => ⟨rfl, rfl⟩, ?_, ?_⟩
      · simp [Child.remaining, at_, asked]
      · simp
    | some content =>
      refine ⟨.done, _, _, by simp only [Child.step, at_, asked]; rfl, by simp [Outcome.isError], ?_, ?_⟩
      · simp [Child.remaining, at_, asked]
      · simp
  | failing =>
    simp only [at_] at progress
    refine ⟨.done, _, _, by simp only [Child.step, at_]; rfl, by simp [Outcome.isError], ?_, ?_⟩
    · simp [Child.remaining, at_]
    · intro msg same
      cases same
      have type := progress.2.2
      simp only [type]
      decide
  | reading =>
    by_cases empty : k.rest = []
    · refine ⟨.count 0, k.finish [], none, by simp [Child.step, at_, empty], by simp [Outcome.isError], ?_,
        by simp⟩
      simp [Child.remaining, at_, empty, Child.finish]
    · obtain ⟨n, positive, available, moved⟩ := Child.step_read files at_ empty
      refine ⟨.count n, _, none, moved, by simp [Outcome.isError], ?_, ?_⟩
      · simp only [Child.remaining, at_, List.length_drop, Option.toList_none, List.length_nil]
        omega
      · simp
  | sending n =>
    simp only [at_] at progress
    refine ⟨.done, _, _, by simp only [Child.step, at_]; rfl, by simp [Outcome.isError], ?_, ?_⟩
    · simp [Child.remaining, at_]
    · intro msg same
      cases same
      have type := progress.2.1
      simp only [type]
      decide
  | closing =>
    refine ⟨.done, _, _, by simp only [Child.step, at_]; rfl, by simp [Outcome.isError], ?_, ?_⟩
    · simp [Child.remaining, at_]
    · intro msg same
      cases same
      have address := sound.image
      simp only [RESP_MT_END] at address
      simp only [StackImage.message]
      omega
  | exited status => exact absurd at_ (live status)

def State.transfer (files : List Byte → Option (List Byte)) (s : State) (id pid : Nat) : Nat :=
  ((s.children pid).elim 0 fun k => k.remaining files) + 3 * ((s.queues id).elim 0 fun queue => queue.length) +
    (s.clients id).pc.remaining

/-- The child finds room on an empty queue for whatever it sends. -/
theorem child_proceeds {s : State} {ch : Channels} {id pid : Nat} {k : Child} (room : RESP_MSG_SIZE ≤ qbytes)
    (streams : Streams files argv qbytes s ch) (ready : Ready files argv id s)
    (present : s.children pid = some k) (mine : k.req.clientId = id) (live : ∀ status, k.pc ≠ .exited status)
    (drained : s.queues id = some []) :
    ∃ action t, Alone files id s action ∧ step files argv qbytes s action = some t ∧
      t.transfer files id pid < s.transfer files id pid := by
  have sound := ready.child pid k present mine
  obtain ⟨outcome, k', sent, moved, fine, less, typed⟩ := (streams.progress pid k present).proceeds sound live
  have small := (Child.step_moves moved).sound fine sound
  have alone : Alone files id s (.child pid outcome) := by
    refine ⟨?_, k, present, mine⟩
    intro l there _
    rw [Option.mem_def, present, Option.some.injEq] at there
    subst there
    exact fine
  cases sent with
  | none =>
    refine ⟨.child pid outcome, s.setChild pid k', alone, by simp [step, childStep, present, moved], ?_⟩
    simp only [State.transfer, State.setChild, Function.update_self, present, Option.elim_some,
      Option.toList_none, List.length_nil] at less ⊢
    omega
  | some msg =>
    have fits : Fits qbytes [] msg.data.length := by
      have size := small.2 msg rfl
      simp only [RESP_MSG_SIZE] at room size
      simp only [Fits, List.sum_nil, List.length_nil]
      omega
    refine ⟨.child pid outcome, (s.setChild pid k').setQueue id (some [⟨pid, msg⟩]), alone, ?_, ?_⟩
    · have there : (s.setChild pid k').queues id = some [] := drained
      simp [step, childStep, present, moved, mine, msgsnd, there, typed msg rfl, fits]
    · simp only [State.transfer, State.setChild, State.setQueue, Function.update_self, present, drained,
        Option.elim_some, Option.toList_some, List.length_singleton, List.length_nil] at less ⊢
      omega

/-- Every message of the stream has been received, and it ended: the client waits for no more. -/
theorem Streams.live {s : State} {ch : Channels} {id pid : Nat} {k : Child}
    (streams : Streams files argv qbytes s ch) (ready : Ready files argv id s)
    (present : s.children pid = some k) (mine : k.req.clientId = id) (drained : s.queues id = some [])
    (waits : (s.clients id).pc = .receiveFirst ∨ (s.clients id).pc = .receive) (status : ExitStatus) :
    k.pc ≠ .exited status := by
  intro at_
  have sound := ready.child pid k present mine
  have progress := streams.progress pid k present
  have all : sentOn (ch id) = (s.clients id).messages := by
    rw [Client.messages, ← streams.received id, (ch id).received_of_drained (streams.queued id [] drained)]
    rfl
  have view := streams.view id
  have data : AllData (s.clients id).messages := by
    rcases waits with at_' | at_'
    · simp only [Client.View, at_'] at view
      simp [view, AllData]
    · simp only [Client.View, at_'] at view
      exact view.1
  cases status with
  | failure => exact sound.running at_
  | success =>
    rw [mine, all] at progress
    simp only [Child.Progress, at_] at progress
    rcases progress with ⟨before, whole, -⟩ | ⟨-, -, m, whole, failed⟩
    · have type := data k.image.message (by simp [whole])
      have address := sound.image
      simp only [StackImage.message, RESP_MT_DATA, RESP_MT_END] at type address
      omega
    · have type := data m (by simp [whole])
      exact DATA_ne_FAILURE (type.symm.trans failed)

theorem Client.first_remaining (c : Client) (e : Envelope) : (c.first e).pc.remaining ≤ 5 := by
  unfold first
  split <;> simp [ClientPc.remaining]

theorem receives {s : State} {id pid : Nat} {e : Envelope} {queue : List Envelope}
    (ready : Ready files argv id s) (head : s.queues id = some (e :: queue))
    (waits : (s.clients id).pc = .receiveFirst ∨ (s.clients id).pc = .receive) :
    ∃ t, step files argv qbytes s (.client id .done) = some t ∧ t.children = s.children ∧
      t.transfer files id pid < s.transfer files id pid := by
  have size := ready.sizes _ head e (List.mem_cons_self ..)
  have received : msgrcv s id = some (e, s.setQueue id (some queue)) := by
    simp [msgrcv, head, size]
  rcases waits with at_ | at_
  · refine ⟨(s.setQueue id (some queue)).setClient id ((s.clients id).first e),
      by simp [step, clientStep, at_, received], rfl, ?_⟩
    have least := Client.first_remaining (s.clients id) e
    simp only [State.transfer, State.setQueue, State.setClient, Function.update_self, head, at_,
      Option.elim_some, List.length_cons] at least ⊢
    simp only [ClientPc.remaining] at least ⊢
    omega
  · refine ⟨(s.setQueue id (some queue)).setClient id ((s.clients id).next e),
      by simp [step, clientStep, at_, received], rfl, ?_⟩
    simp only [State.transfer, State.setQueue, State.setClient, Function.update_self, head, at_,
      Option.elim_some, List.length_cons, ClientPc.remaining, Client.next]
    omega

theorem transfer_proceeds {s : State} {ch : Channels} {id pid : Nat} {k : Child} (room : RESP_MSG_SIZE ≤ qbytes)
    (streams : Streams files argv qbytes s ch) (ready : Ready files argv id s)
    (present : s.children pid = some k) (mine : k.req.clientId = id)
    (unfinished : ∀ status, (s.clients id).pc ≠ .exited status) :
    ∃ action t, Alone files id s action ∧ step files argv qbytes s action = some t ∧
      t.transfer files id pid < s.transfer files id pid := by
  have alone : Alone files id s (.client id .done) := ⟨fun _ => rfl, rfl⟩
  have sent := (streams.dispatch.served pid k present).2.1
  rw [mine] at sent
  have queued := ready.queue
  have waiting : (s.clients id).pc = .receiveFirst ∨ (s.clients id).pc = .receive →
      ∃ action t, Alone files id s action ∧ step files argv qbytes s action = some t ∧
        t.transfer files id pid < s.transfer files id pid := by
    intro waits
    obtain ⟨queue, there⟩ : ∃ queue, s.queues id = some queue := by
      rw [← Option.ne_none_iff_exists']
      rcases waits with at_ | at_ <;> simpa only [ClientPc.Queued, at_] using queued
    cases queue with
    | nil =>
      exact child_proceeds room streams ready present mine
        (streams.live ready present mine there waits) there
    | cons e rest =>
      obtain ⟨t, taken, -, less⟩ := receives ready there waits
      exact ⟨_, t, alone, taken, less⟩
  cases at_ : (s.clients id).pc with
  | msgget | atexit | request => simp [at_, ClientPc.Unsent] at sent
  | receiveFirst => exact waiting (.inl at_)
  | receive => exact waiting (.inr at_)
  | test =>
    refine ⟨_, _, alone, by simp only [step, clientStep, at_]; rfl, ?_⟩
    simp only [State.transfer, State.setClient, Function.update_self, at_]
    by_cases more : (s.clients id).resp.mtype = RESP_MT_DATA <;>
      simp [more, ClientPc.remaining]
  | report =>
    refine ⟨_, _, alone, by simp only [step, clientStep, at_]; rfl, ?_⟩
    simp [State.transfer, State.setClient, at_, ClientPc.remaining]
  | removing =>
    refine ⟨_, _, alone, by simp only [step, clientStep, at_]; rfl, ?_⟩
    simp only [State.transfer, State.setClient, State.setQueue, Function.update_self, at_,
      ClientPc.remaining, Option.elim_none]
    omega
  | exiting status =>
    refine ⟨_, _, alone, by simp only [step, clientStep, at_]; rfl, ?_⟩
    simp only [State.transfer, State.setClient, State.setQueue, Function.update_self, at_,
      ClientPc.remaining, Option.elim_none]
    omega
  | exited status => exact absurd at_ (unfinished status)

theorem step_child {s t : State} {action : Action} {pid : Nat} {k : Child}
    (taken : step files argv qbytes s action = some t) (present : s.children pid = some k) :
    ∃ k', t.children pid = some k' ∧ k'.req = k.req := by
  cases action with
  | server outcome => exact ⟨k, by rw [(serverStep_frame taken).1]; exact present, rfl⟩
  | client id outcome => exact ⟨k, by rw [clientStep_children taken]; exact present, rfl⟩
  | fork other data image =>
    obtain ⟨req, -, unused, rfl⟩ := forkStep_some taken
    have ne : pid ≠ other := by
      rintro rfl
      rw [present] at unused
      cases unused
    exact ⟨k, by simpa [State.setChild, Function.update_of_ne ne] using present, rfl⟩
  | child other outcome =>
    obtain ⟨l, l', sent, there, move, children, -⟩ := childStep_some taken
    rw [children]
    by_cases same : pid = other
    · subst same
      rw [present, Option.some.injEq] at there
      subst there
      exact ⟨l', by simp [State.setChild], move.req⟩
    · exact ⟨k, by simpa [State.setChild, Function.update_of_ne same] using present, rfl⟩

theorem reaches_end {s : State} {id pid : Nat} (room : RESP_MSG_SIZE ≤ qbytes)
    (start : ∃ ch, Streams files argv qbytes s ch ∧ Ready files argv id s)
    (served : ∃ k, s.children pid = some k ∧ k.req = request argv id) :
    ∃ t, Reaches (step files argv qbytes) (Alone files id) s t ∧
      ∃ status, (t.clients id).pc = .exited status := by
  apply exists_reaches (I := fun s => (∃ ch, Streams files argv qbytes s ch ∧ Ready files argv id s) ∧
      ∃ k, s.children pid = some k ∧ k.req = request argv id)
    (fun s => s.transfer files id pid) _ ⟨start, served⟩
  rintro s ⟨⟨ch, streams, ready⟩, k, present, req⟩ unfinished
  have mine : k.req.clientId = id := by rw [req]; rfl
  obtain ⟨action, t, alone, taken, less⟩ := transfer_proceeds room streams ready present mine
    (fun status at_ => unfinished ⟨status, at_⟩)
  obtain ⟨ch', after⟩ := step_streams streams taken
  obtain ⟨k', present', same⟩ := step_child taken present
  exact ⟨action, t, alone, taken,
    ⟨⟨ch', after, step_ready streams ready alone.1 taken⟩, k', present', same.trans req⟩, less⟩

def Client.Served (c : Client) : Option (List Byte) → Prop
  | some content => c.pc = .exited .success ∧ dataBodies c.messages = content
  | none => c.pc = .exited .failure

theorem Ready.served {s : State} {ch : Channels} {id : Nat} {status : ExitStatus}
    (ready : Ready files argv id s) (streams : Streams files argv qbytes s ch)
    (at_ : (s.clients id).pc = .exited status) : (s.clients id).Served (files (argv id)) := by
  cases status with
  | failure =>
    rw [ready.rejected (.inr (.inr at_))]
    exact at_
  | success =>
    obtain ⟨-, pid, k, data, present, req, whole, sent, type⟩ := streams.reported (.inr at_)
    have mine : k.req.clientId = id := by rw [req]; rfl
    have file := sent.whole
    rw [(ready.child pid k present mine).nothingLost, List.append_nil, req] at file
    have asked : files (argv id) = some (bodies data) := file
    rw [asked]
    refine ⟨at_, ?_⟩
    rw [whole, dataBodies_closed sent.allData type]

/-- No client waits for another one: wherever a run has got to, whatever the other clients and their
    children have done and however full their queues are, `main`, the client and its own child can
    bring the transfer to its end by themselves. -/
theorem served_regardless {s : State} (id : Nat) (room : RESP_MSG_SIZE ≤ qbytes)
    (run : Reaches (step files argv qbytes) (Healthy files id) initial s) :
    ∃ t, Reaches (step files argv qbytes) (Alone files id) s t ∧
      (t.clients id).Served (files (argv id)) ∧ t.queues id = none := by
  obtain ⟨m, first, pid, k, present, req⟩ := reaches_child room (healthy_ready run)
  have before := run.trans (first.weaken fun _ _ alone => alone.1)
  obtain ⟨t, second, status, at_⟩ := reaches_end room (healthy_ready before) ⟨k, present, req⟩
  obtain ⟨ch, streams, ready⟩ := healthy_ready (before.trans (second.weaken fun _ _ alone => alone.1))
  refine ⟨t, first.trans second, ready.served streams at_, ?_⟩
  simpa only [ClientPc.Queued, at_] using ready.queue

def stalled : List Action :=
  [.client 7 .done, .client 9 .done, .client 7 .done, .client 7 .done, .server .done,
    .fork 1 [] (stackImage 4096), .child 1 .done, .child 1 (.count 3), .child 1 .done, .child 1 (.count 0),
    .client 9 .done]

theorem served_regardless_stalled :
    ∃ s, exec (step twoFiles twoArgs 8192) stalled initial = some s ∧
      ∃ t, Reaches (step twoFiles twoArgs 8192) (Alone twoFiles 9) s t ∧
        (t.clients 9).Served (some []) ∧ t.queues 9 = none := by
  obtain ⟨s, run⟩ := Option.isSome_iff_exists.mp
    (show (exec (step twoFiles twoArgs 8192) stalled initial).isSome = true by decide +kernel)
  exact ⟨s, run, served_regardless 9 (by decide) ⟨stalled, by decide +kernel, run⟩⟩

end SystemProgramming.FileServer
