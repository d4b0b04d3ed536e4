import SystemProgramming.FifoSeqnum.Routing

namespace SystemProgramming.FifoSeqnum

open Records Transition

variable {argv : Pid → BitVec 32} {capacity : Nat} {serverFifo : Bool} {left : Pid → Bool}
  {req : List Byte} {rsp : BitVec 32}

def MkfifoChecked (s : State) : Action → Prop
  | .client pid (.error errno) => (s.clients pid).pc = .mkfifo → errno = .EEXIST
  | _ => True

instance (s : State) : (action : Action) → Decidable (MkfifoChecked s action)
  | .client _ (.error errno) => inferInstanceAs (Decidable (_ → errno = .EEXIST))
  | .client _ .done | .client _ (.count _) | .server _ => isTrue trivial

def State.Owned (s : State) : Prop := ∀ pid, (s.clients pid).pc.Owns → (s.fifos pid).isSome

theorem ClientGoto.owns {pc next : ClientPc} {outcome : Outcome} (goto : ClientGoto pc outcome next)
    (checked : ∀ errno, outcome = .error errno → pc = .mkfifo → errno = .EEXIST) (owns : next.Owns) :
    pc.Owns := by
  cases goto with
  | unmade errno other => exact absurd (checked errno rfl rfl) other
  | failed pc errno at_ => rcases at_ with rfl | rfl | rfl <;> trivial
  | connected => exact owns
  | notConnected => exact owns
  | alreadyThere => exact owns
  | _ => trivial

theorem State.Owned.setClient {s : State} (owned : s.Owned) {pid : Pid} {c : Client}
    (owns : c.pc.Owns → (s.fifos pid).isSome) : (s.setClient pid c).Owned :=
  Parties.forall_update (P := fun pid (c : Client) => c.pc.Owns → (s.fifos pid).isSome) owned owns

theorem State.Owned.setFifo {s : State} (owned : s.Owned) {pid : Pid} {c : Client}
    {fifo : Option (List Byte)} (owns : c.pc.Owns → fifo.isSome) :
    ((s.setClient pid c).setFifo pid fifo).Owned :=
  Parties.forall_update₂ (P := fun _ (c : Client) (fifo : Option (List Byte)) => c.pc.Owns → fifo.isSome)
    owned owns

theorem step_owned {s t : State} {action : Action} (owned : s.Owned) (checked : MkfifoChecked s action)
    (stepped : step argv capacity s action = some t) : t.Owned := by
  cases action with
  | server outcome =>
    cases serverStep_moves stepped with
    | taken n at_ available positive =>
      unfold readRequest
      dsimp only
      split <;> exact owned
    | answered pid fds content at_ clientFd =>
      exact Parties.forall_update
        (P := fun pid (fifo : Option (List Byte)) => (s.clients pid).pc.Owns → fifo.isSome) owned fun _ => rfl
    | _ => exact owned
  | client pid outcome =>
    cases clientStep_moves stepped with
    | goto _ pc next =>
      apply owned.setClient
      intro owns
      apply owned pid (next.owns _ owns)
      rintro errno rfl at_
      exact checked at_
    | created at_ fresh => exact owned.setFifo fun _ => rfl
    | took n pc rsp content at_ next => exact owned.setFifo fun _ => rfl
    | requested at_ room =>
      apply State.Owned.setClient owned
      intro _
      exact owned pid (by rw [at_]; trivial)
    | removed status at_ => exact owned.setFifo fun owns => owns.elim

theorem checked_owned {s : State}
    (run : Reaches (step argv capacity) MkfifoChecked (initial serverFifo left req rsp) s) : s.Owned :=
  run.invariant (I := State.Owned) (fun _ owns => nomatch owns)
    (fun _ _ _ owned checked stepped => step_owned owned checked stepped)

/-- The requests are read as they were written, in order and whole; the FIFO is there whenever the
    server opens it for a client that has not exited; and a FIFO gets one response at most, the one
    computed for the request of its client. -/
structure Faithful (argv : Pid → BitVec 32) (s : State) : Prop where
  inOrder : ∃ waiting, s.taken ++ waiting = s.requested ∧ s.pipe = requestCodec.frames waiting
  once : (s.requested.map (·.pid)).Nodup ∧ ∀ r ∈ s.requested, r = request argv r.pid
  fifoExists : s.server.pc = .openClient →
    (∀ status, (s.clients s.server.request.pid).pc ≠ .exited status) →
      (s.fifos s.server.request.pid).isSome
  oneResponse : (s.answers.map (·.fifo)).Nodup
  ownResponse : ∀ a ∈ s.answers, a.req = request argv a.fifo ∧ (a.req, a.seqNum) ∈ s.computed
  oneComputed : (s.computed.map (·.1.pid)).Nodup

theorem State.Serving.answered {s : State} (serving : s.Serving) : s.Answered s.taken s.taken := by
  unfold State.Serving at serving
  split at serving
  · rcases serving with ⟨past, whole, answered⟩
    have wider := answered.widen (r := s.server.request)
    rwa [← whole] at wider
  · rcases serving with ⟨past, whole, answered, -⟩
    have wider := answered.widen (r := s.server.request)
    rwa [← whole] at wider
  · rcases serving with ⟨past, whole, answered, -⟩
    have wider := answered.written.trans (List.sublist_append_left past [s.server.request])
    rw [← whole] at wider
    exact ⟨answered.computed, wider, answered.routed⟩
  · exact serving

theorem reaches_serving {cond : State → Action → Prop} {s : State}
    (run : Reaches (step argv capacity) cond (initial serverFifo left req rsp) s) :
    (∃ ch, Framed capacity s ch) ∧ Asked argv s ∧ s.Serving := by
  apply run.invariant (I := fun s => (∃ ch, Framed capacity s ch) ∧ Asked argv s ∧ s.Serving)
  · exact ⟨⟨_, framed_initial serverFifo left req rsp⟩, ⟨nofun, List.nodup_nil⟩, .slnil, .slnil, nofun⟩
  · rintro s action t ⟨⟨ch, framed⟩, asked, serving⟩ - stepped
    exact ⟨step_framed framed stepped, step_asked asked stepped, step_serving framed serving stepped⟩

theorem protocol_faithful {s : State}
    (run : Reaches (step argv capacity) MkfifoChecked (initial serverFifo left req rsp) s) :
    Faithful argv s := by
  rcases reaches_serving run with ⟨⟨ch, framed⟩, asked, serving⟩
  have answered := serving.answered
  have order : s.taken ++ ch.inFlight = s.requested := by
    rw [← framed.received, ← framed.sent]
    exact ch.conserved
  have isPrefix : s.taken.Sublist s.requested := by
    rw [← order]
    exact List.sublist_append_left _ _
  have pids : (s.taken.map (·.pid)).Nodup := asked.distinct.sublist (isPrefix.map _)
  constructor
  case inOrder => exact ⟨ch.inFlight, order, framed.bytes⟩
  case once => exact ⟨asked.distinct, fun r member => (asked.written r member).1⟩
  case fifoExists =>
    intro at_ running
    simp only [State.Serving, at_] at serving
    rcases serving with ⟨past, whole, -⟩
    have member : s.server.request ∈ s.requested := isPrefix.subset (by rw [whole]; simp)
    have sent := (asked.written _ member).2
    exact checked_owned run _ (ClientPc.owns_of_sent sent running)
  case oneResponse =>
    have same : s.answers.map (·.fifo) = (s.answers.map (·.req)).map (·.pid) := by
      rw [List.map_map]
      exact List.map_congr_left fun a member => (answered.routed a member).1
    rw [same]
    exact pids.sublist (answered.written.map _)
  case ownResponse =>
    intro a member
    have routed := answered.routed a member
    have taken : a.req ∈ s.taken := answered.written.subset (List.mem_map_of_mem member)
    refine ⟨?_, routed.2⟩
    rw [routed.1]
    exact (asked.written _ (isPrefix.subset taken)).1
  case oneComputed =>
    have split : s.computed.map (·.1.pid) = (s.computed.map (·.1)).map (·.pid) := by
      rw [List.map_map]
      rfl
    rw [split]
    exact pids.sublist (answered.computed.map _)

def oneServed : List Action :=
  [.server .done, .client 7 .done, .client 9 .done, .server .done, .server .done, .client 7 .done,
    .client 9 (.error .EEXIST), .client 7 .done, .client 7 .done, .server (.count 8), .client 7 .done,
    .server .done, .server .done, .server .done]

theorem protocol_oneServed :
    ∃ s, exec (step (fun _ => 5) 4096) oneServed (initial false (· == 9) (List.replicate 8 0) 0) = some s ∧
      s.answers = [⟨7, ⟨5, 7⟩, 5⟩] ∧ Faithful (fun _ => 5) s := by
  have run : Reaches (step (fun _ => 5) 4096) MkfifoChecked
      (initial false (· == 9) (List.replicate 8 0) 0) _ := ⟨oneServed, by decide, rfl⟩
  exact ⟨_, rfl, by decide, protocol_faithful run⟩

def unmadeFifo : List Action :=
  [.server .done, .client 7 .done, .server .done, .server .done, .client 7 (.error (.other 28)),
    .client 7 .done, .client 7 .done, .server (.count 8)]

theorem unmadeFifo_opened :
    ¬ ∀ s, Reaches (step (fun _ => 5) 4096) (fun _ _ => True)
      (initial false (fun _ => false) (List.replicate 8 0) 0) s → Faithful (fun _ => 5) s := by
  intro always
  have faithful := always _ ⟨unmadeFifo, along_true _ _, rfl⟩
  have there := faithful.fifoExists rfl (fun status => by cases status <;> decide)
  exact absurd there (by decide)

end SystemProgramming.FifoSeqnum
