import SystemProgramming.FifoSeqnum.Gaps
import SystemProgramming.FifoSeqnum.Reply

namespace SystemProgramming.FifoSeqnum

open Records Transition

variable {argv : Pid → BitVec 32} {capacity : Nat} {s t : State} {pid : Pid} {outcome : Outcome} {ids : List Pid}

def Serves (ids : List Pid) : Action → Prop
  | .server outcome => outcome.isError = false
  | .client pid outcome => outcome.isError = false ∧ pid ∈ ids

instance (ids : List Pid) : (action : Action) → Decidable (Serves ids action)
  | .server outcome => inferInstanceAs (Decidable (outcome.isError = false))
  | .client pid outcome => inferInstanceAs (Decidable (outcome.isError = false ∧ pid ∈ ids))

inductive ServerWork (s : State) : State → Prop where
  | created (at_ : s.server.pc = .mkfifo) : ServerWork s { s.serverAt .openServer with serverFifo := true }
  | opened (at_ : s.server.pc = .openServer) : ServerWork s (s.serverAt .openDummy)
  | ready (at_ : s.server.pc = .openDummy) : ServerWork s (s.serverAt .read)
  | taken (n : Nat) (at_ : s.server.pc = .read) (available : n = min sizeofRequest s.pipe.length)
      (positive : 0 < n) : ServerWork s (readRequest s n)
  | openedClient (at_ : s.server.pc = .openClient) :
      ServerWork s { s with
        server := { s.server with pc := .update, fds := s.server.request.pid :: s.server.fds } }
  | updated (at_ : s.server.pc = .update) : ServerWork s (updateSeqNum s)
  | answered (pid : Pid) (fds : List Pid) (content : List Byte) (at_ : s.server.pc = .write)
      (clientFd : s.server.fds = pid :: fds) :
      ServerWork s { (s.serverAt .read).setFifo pid
        (some (content ++ word32.encode s.server.rspSeqNum)) with
          answers := s.answers ++ [⟨pid, s.server.request, s.server.rspSeqNum⟩] }

theorem serverStep_works (succeeds : outcome.isError = false) (stepped : serverStep s outcome = some t) :
    ServerWork s t := by
  unfold serverStep at stepped
  cases outcome with
  | error errno => cases succeeds
  | count n =>
    cases at_ : s.server.pc with
    | read =>
      rw [at_] at stepped
      dsimp only at stepped
      split at stepped
      · rename_i available
        cases stepped
        exact .taken n at_ available.1 available.2
      · cases stepped
    | _ =>
      rw [at_] at stepped
      cases stepped
  | done =>
    split at stepped
    case h_1 at_ =>
      dsimp only at stepped
      split at stepped
      · cases stepped
      · cases stepped
        exact .created at_
    case h_2 at_ =>
      dsimp only at stepped
      split at stepped
      · cases stepped
        exact .opened at_
      · cases stepped
    case h_3 at_ =>
      dsimp only at stepped
      split at stepped
      · cases stepped
        exact .ready at_
      · cases stepped
    case h_4 => cases stepped
    case h_5 at_ =>
      dsimp only at stepped
      split at stepped
      · cases stepped
        exact .openedClient at_
      · cases stepped
    case h_6 at_ =>
      cases stepped
      exact .updated at_
    case h_7 at_ =>
      dsimp only at stepped
      split at stepped
      · rename_i pid fds clientFd
        split at stepped
        · rename_i content there
          split at stepped
          · cases stepped
            exact .answered pid fds content at_ clientFd
          · cases stepped
        · cases stepped
      · cases stepped
    case h_8 => cases stepped

inductive ClientWork (argv : Pid → BitVec 32) (capacity : Nat) (s : State) (pid : Pid) : State → Prop where
  | connected (at_ : (s.clients pid).pc = .openServer) :
      ClientWork argv capacity s pid (s.setClient pid { s.clients pid with pc := .mkfifo })
  | created (at_ : (s.clients pid).pc = .mkfifo) :
      ClientWork argv capacity s pid
        ((s.setClient pid { s.clients pid with pc := .atexit }).setFifo pid (some []))
  | registered (at_ : (s.clients pid).pc = .atexit) :
      ClientWork argv capacity s pid (s.setClient pid { s.clients pid with pc := .write })
  | requested (at_ : (s.clients pid).pc = .write) :
      ClientWork argv capacity s pid { s.setClient pid { s.clients pid with pc := .openFifo } with
        pipe := s.pipe ++ requestCodec.encode (request argv pid)
        requested := s.requested ++ [request argv pid] }
  | opened (at_ : (s.clients pid).pc = .openFifo) :
      ClientWork argv capacity s pid (s.setClient pid { s.clients pid with pc := .read })
  | took (n : Nat) (rsp content : List Byte) (at_ : (s.clients pid).pc = .read)
      (there : s.fifos pid = some content) (some_ : content ≠ []) :
      ClientWork argv capacity s pid
        ((s.setClient pid ⟨.exiting .failure, rsp⟩).setFifo pid (some (content.drop n)))
  | reported (at_ : (s.clients pid).pc = .report) :
      ClientWork argv capacity s pid (s.setClient pid { s.clients pid with pc := .exiting .success })
  | removed (status : ExitStatus) (at_ : (s.clients pid).pc = .exiting status) :
      ClientWork argv capacity s pid
        ((s.setClient pid { s.clients pid with pc := .exited status }).setFifo pid none)

theorem ClientGoto.works {pc : ClientPc} (succeeds : outcome.isError = false)
    (goto : ClientGoto (s.clients pid).pc outcome pc) :
    ClientWork argv capacity s pid (s.setClient pid { s.clients pid with pc }) := by
  generalize at_ : (s.clients pid).pc = before at goto
  cases goto with
  | connected => exact .connected at_
  | registered => exact .registered at_
  | opened => exact .opened at_
  | reported => exact .reported at_
  | _ => cases succeeds

theorem read_works {n : Nat} (at_ : (s.clients pid).pc = .read)
    (stepped : clientStep argv capacity s pid (.count n) = some t) : ClientWork argv capacity s pid t := by
  unfold clientStep at stepped
  dsimp only at stepped
  rw [at_] at stepped
  dsimp only at stepped
  split at stepped
  · rename_i content there
    split at stepped
    · rename_i counted
      have wider : sizeofResponse < sizeofRequest := by decide
      have other : n ≠ sizeofRequest := by omega
      have some_ : content ≠ [] := by
        rintro rfl
        rw [List.length_nil] at counted
        omega
      rw [if_neg other] at stepped
      cases stepped
      exact .took n _ content at_ there some_
    · cases stepped
  · cases stepped

theorem clientStep_works (succeeds : outcome.isError = false)
    (stepped : clientStep argv capacity s pid outcome = some t) : ClientWork argv capacity s pid t := by
  cases clientStep_moves stepped with
  | goto outcome pc next => exact next.works succeeds
  | created at_ fresh => exact .created at_
  | requested at_ room => exact .requested at_
  | took n pc rsp content at_ next => exact read_works at_ stepped
  | removed status at_ => exact .removed status at_

def State.current (s : State) : List Request :=
  match s.server.pc with
  | .openClient | .update | .write => [s.server.request]
  | _ => []

def State.Counts (s : State) : Prop :=
  match s.server.pc with
  | .write => s.server.rspSeqNum = s.server.seqNum ∧
      s.server.seqNum = lastGranted 0 s.answers + s.server.request.seqLen
  | _ => s.server.seqNum = lastGranted 0 s.answers

structure Accounted (s : State) : Prop where
  taken : s.taken = s.answers.map (·.req) ++ s.current
  clientFd : s.server.pc = .update ∨ s.server.pc = .write → s.server.fds.head? = some s.server.request.pid
  routed : ∀ a ∈ s.answers, a.fifo = a.req.pid ∧ a.fifo ∈ s.server.fds
  running : s.server.pc ≠ .exited
  made : s.serverFifo = true ↔ s.server.pc ≠ .mkfifo
  consecutive : Consecutive 0 s.answers
  counts : s.Counts

theorem Accounted.frame (accounted : Accounted s) (server : t.server = s.server) (made : t.serverFifo = s.serverFifo)
    (taken : t.taken = s.taken) (answers : t.answers = s.answers) : Accounted t := by
  obtain ⟨whole, clientFd, routed, running, exists_, consecutive, counts⟩ := accounted
  unfold State.Counts at counts
  unfold State.current at whole
  rw [← server] at whole clientFd routed running exists_ counts
  rw [← made] at exists_
  rw [← taken, ← answers] at whole
  rw [← answers] at routed consecutive counts
  exact ⟨whole, clientFd, routed, running, exists_, consecutive, counts⟩

theorem Accounted.goto (pc : ServerPc) (accounted : Accounted s) (idle : s.current = [])
    (next : pc = .openServer ∨ pc = .openDummy ∨ pc = .read) (counts : s.server.pc ≠ .write) :
    Accounted { s.serverAt pc with serverFifo := true } := by
  have before := accounted.counts
  unfold State.Counts at before
  have counter : s.server.seqNum = lastGranted 0 s.answers := by
    split at before
    · contradiction
    · exact before
  have whole := accounted.taken
  rw [idle] at whole
  rcases next with rfl | rfl | rfl <;>
    exact ⟨whole, by simp [State.serverAt], accounted.routed, by simp [State.serverAt], by simp [State.serverAt],
      accounted.consecutive, counter⟩

theorem ServerWork.accounted {ch : Channel Request} (framed : Framed capacity s ch) (accounted : Accounted s)
    (work : ServerWork s t) : Accounted t := by
  cases work with
  | created at_ => exact accounted.goto .openServer (by simp [State.current, at_]) (.inl rfl) (by simp [at_])
  | opened at_ =>
    have made : s.serverFifo = true := accounted.made.mpr (by simp [at_])
    have next := accounted.goto .openDummy (by simp [State.current, at_]) (.inr (.inl rfl)) (by simp [at_])
    exact next.frame rfl made rfl rfl
  | ready at_ =>
    have made : s.serverFifo = true := accounted.made.mpr (by simp [at_])
    have next := accounted.goto .read (by simp [State.current, at_]) (.inr (.inr rfl)) (by simp [at_])
    exact next.frame rfl made rfl rfl
  | taken n at_ available positive =>
    obtain ⟨r, rest, req, -, decoded, whole⟩ := framed.readRequest available positive
    have before := accounted.taken
    have counts := accounted.counts
    have made := accounted.made
    simp only [State.current, at_, List.append_nil] at before
    simp only [State.Counts, at_] at counts
    simp only [at_] at made
    rw [whole]
    refine ⟨?_, by simp, accounted.routed, by simp, by simpa using made, accounted.consecutive, counts⟩
    show s.taken ++ [r] = s.answers.map (·.req) ++ [requestCodec.decode req]
    rw [before, decoded]
  | openedClient at_ =>
    have before := accounted.taken
    have counts := accounted.counts
    have made := accounted.made
    simp only [State.current, at_] at before
    simp only [State.Counts, at_] at counts
    simp only [at_] at made
    refine ⟨before, fun _ => rfl, ?_, by simp, by simpa using made, accounted.consecutive, counts⟩
    intro a member
    exact ⟨(accounted.routed a member).1, List.mem_cons_of_mem _ (accounted.routed a member).2⟩
  | updated at_ =>
    have before := accounted.taken
    have counts := accounted.counts
    have made := accounted.made
    simp only [State.current, at_] at before
    simp only [State.Counts, at_] at counts
    simp only [at_] at made
    refine ⟨before, fun _ => accounted.clientFd (.inl at_), accounted.routed, by simp [updateSeqNum],
      by simpa [updateSeqNum] using made, accounted.consecutive, rfl, ?_⟩
    show s.server.seqNum + s.server.request.seqLen = _
    rw [counts]
    rfl
  | answered pid fds content at_ clientFd =>
    have before := accounted.taken
    have counts := accounted.counts
    have made := accounted.made
    simp only [State.current, at_] at before
    simp only [State.Counts, at_] at counts
    simp only [at_] at made
    have head := accounted.clientFd (.inr at_)
    rw [clientFd, List.head?_cons, Option.some.injEq] at head
    refine ⟨?_, by simp [State.serverAt, State.setFifo], ?_, by simp [State.serverAt, State.setFifo],
      by simpa [State.serverAt, State.setFifo] using made, ?_, ?_⟩
    · show s.taken = (s.answers ++ [_]).map Answer.req ++ []
      rw [before, List.map_append, List.append_nil]
      rfl
    · intro a member
      rcases List.mem_append.mp member with old | new
      · exact accounted.routed a old
      · rw [List.mem_singleton] at new
        subst new
        refine ⟨head, ?_⟩
        show pid ∈ s.server.fds
        rw [clientFd]
        exact List.mem_cons_self
    · apply consecutive_concat accounted.consecutive
      rw [← counts.2]
      exact counts.1
    · show s.server.seqNum = lastGranted 0 (s.answers ++ [_])
      rw [lastGranted_concat]
      exact counts.1.symm

def Phase (answered : Prop) (fifo : Option (List Byte)) : ClientPc → Prop
  | .openServer | .mkfifo => fifo = none
  | .atexit | .write => fifo = some []
  | .openFifo | .read => ∃ content, fifo = some content ∧ (content ≠ [] ↔ answered)
  | .exiting .failure => answered ∧ fifo.isSome
  | .exited .failure => answered ∧ fifo = none
  | .report | .exiting .success | .exited .success => False

theorem Phase.congr {before after : Prop} {fifo : Option (List Byte)} {pc : ClientPc} (same : before ↔ after)
    (phase : Phase before fifo pc) : Phase after fifo pc := by
  rwa [propext same] at phase

def State.IsAnswered (s : State) (pid : Pid) : Prop := pid ∈ s.answers.map (·.fifo)

structure Served (argv : Pid → BitVec 32) (capacity : Nat) (ids : List Pid) (s : State) : Prop where
  framed : ∃ ch, Framed capacity s ch
  asked : Asked argv s
  sent : ∀ pid, ¬ (s.clients pid).pc.Unsent → request argv pid ∈ s.requested
  members : ∀ pid, (s.clients pid).pc ≠ .openServer → pid ∈ ids
  accounted : Accounted s
  phases : ∀ pid ∈ ids, Phase (s.IsAnswered pid) (s.fifos pid) (s.clients pid).pc

theorem Served.order (served : Served argv capacity ids s) :
    ∃ waiting, s.requested = s.answers.map (·.req) ++ s.current ++ waiting ∧ s.pipe = requestCodec.frames waiting := by
  obtain ⟨ch, framed⟩ := served.framed
  refine ⟨ch.inFlight, ?_, framed.bytes⟩
  rw [← served.accounted.taken, ← framed.received, ← framed.sent]
  exact ch.conserved.symm

theorem Accounted.fifos (accounted : Accounted s) : s.answers.map (·.fifo) = (s.answers.map (·.req)).map (·.pid) := by
  rw [List.map_map]
  exact List.map_congr_left fun a member => (accounted.routed a member).1

theorem Served.unanswered (served : Served argv capacity ids s) {r : Request} (member : r ∈ s.current) :
    ¬ s.IsAnswered r.pid := by
  obtain ⟨waiting, order, -⟩ := served.order
  have distinct := served.asked.distinct
  rw [order, List.map_append, List.map_append] at distinct
  rw [State.IsAnswered, served.accounted.fifos]
  intro answered
  exact List.disjoint_of_nodup_append distinct.of_append_left answered (List.mem_map_of_mem member)

theorem Served.unsent (served : Served argv capacity ids s) (unsent : (s.clients pid).pc.Unsent) :
    ¬ s.IsAnswered pid := by
  obtain ⟨waiting, order, -⟩ := served.order
  rw [State.IsAnswered, served.accounted.fifos]
  intro answered
  obtain ⟨r, member, same⟩ := List.mem_map.mp answered
  have requested : r ∈ s.requested := by
    rw [order, List.append_assoc]
    exact List.mem_append_left _ member
  have sent := (served.asked.written r requested).2
  rw [same] at sent
  exact sent unsent

/-- A client that has written its request and is not answered waits for the response. -/
theorem Served.waits (served : Served argv capacity ids s) (sent : ¬ (s.clients pid).pc.Unsent)
    (unanswered : ¬ s.IsAnswered pid) : pid ∈ ids ∧ s.HasReader pid ∧ s.fifos pid = some [] := by
  have member : pid ∈ ids := by
    apply served.members
    intro at_
    exact sent (.inl at_)
  refine ⟨member, ?_⟩
  have phase := served.phases pid member
  unfold State.HasReader
  cases at_ : (s.clients pid).pc with
  | openFifo | read =>
    rw [at_] at phase
    obtain ⟨content, there, iff⟩ := phase
    have empty : content = [] := Classical.not_not.mp (mt iff.mp unanswered)
    rw [there, empty]
    simp
  | openServer | mkfifo | atexit | write => simp [at_, ClientPc.Unsent] at sent
  | report =>
    rw [at_] at phase
    exact phase.elim
  | exiting status | exited status =>
    rw [at_] at phase
    cases status with
    | success => exact phase.elim
    | failure => exact absurd phase.1 unanswered

theorem Served.inHand (served : Served argv capacity ids s) (member : s.server.request ∈ s.current) :
    s.server.request.pid ∈ ids ∧ s.HasReader s.server.request.pid ∧ s.fifos s.server.request.pid = some [] := by
  apply served.waits ?_ (served.unanswered member)
  obtain ⟨waiting, order, -⟩ := served.order
  apply (served.asked.written s.server.request _).2
  rw [order]
  exact List.mem_append_left _ (List.mem_append_right _ member)

theorem ServerWork.phases (served : Served argv capacity ids s) (work : ServerWork s t) :
    ∀ pid ∈ ids, Phase (t.IsAnswered pid) (t.fifos pid) (t.clients pid).pc := by
  cases work with
  | taken n at_ available positive =>
    unfold readRequest
    dsimp only
    split <;> exact served.phases
  | answered pid fds content at_ clientFd =>
    have head := served.accounted.clientFd (.inr at_)
    rw [clientFd, List.head?_cons, Option.some.injEq] at head
    obtain ⟨-, reader, -⟩ := served.inHand (by simp [State.current, at_])
    rw [← head] at reader
    intro other member
    have now : State.IsAnswered
        { (s.serverAt .read).setFifo pid (some (content ++ word32.encode s.server.rspSeqNum)) with
          answers := s.answers ++ [⟨pid, s.server.request, s.server.rspSeqNum⟩] } other ↔
        s.IsAnswered other ∨ other = pid := by
      simp [State.IsAnswered]
    apply Phase.congr now.symm
    show Phase _ (Function.update s.fifos pid _ other) (s.clients other).pc
    by_cases same : other = pid
    · subst same
      rw [Function.update_self]
      have waits : ∃ content', some (content ++ word32.encode s.server.rspSeqNum) = some content' ∧
          (content' ≠ [] ↔ s.IsAnswered other ∨ other = other) := by
        refine ⟨_, rfl, iff_of_true ?_ (.inr rfl)⟩
        intro nothing
        exact absurd (List.append_eq_nil_iff.mp nothing).2 (by simp [word32])
      rcases reader with at_ | at_
      · rw [at_]
        exact waits
      · rw [at_]
        exact waits
    · rw [Function.update_of_ne same]
      exact (served.phases other member).congr (by simp [same])
  | _ => exact served.phases

theorem ClientWork.phases (served : Served argv capacity ids s) (member : pid ∈ ids)
    (work : ClientWork argv capacity s pid t) :
    ∀ other ∈ ids, Phase (t.IsAnswered other) (t.fifos other) (t.clients other).pc := by
  have phase := served.phases pid member
  have client : ∀ c : Client, Phase (s.IsAnswered pid) (s.fifos pid) c.pc →
      ∀ other, other ∈ ids →
        Phase (s.IsAnswered other) (s.fifos other) ((Function.update s.clients pid c) other).pc := by
    intro c moved
    exact Parties.forall_update (P := fun other (c : Client) => other ∈ ids →
      Phase (s.IsAnswered other) (s.fifos other) c.pc) served.phases fun _ => moved
  have both : ∀ (c : Client) (fifo : Option (List Byte)), Phase (s.IsAnswered pid) fifo c.pc →
      ∀ other, other ∈ ids → Phase (s.IsAnswered other) (Function.update s.fifos pid fifo other)
        ((Function.update s.clients pid c) other).pc := by
    intro c fifo moved
    exact Parties.forall_update₂ (P := fun other (c : Client) fifo => other ∈ ids →
      Phase (s.IsAnswered other) fifo c.pc) served.phases fun _ => moved
  cases work with
  | connected at_ =>
    rw [at_] at phase
    exact client _ phase
  | created at_ => exact both _ _ rfl
  | registered at_ =>
    rw [at_] at phase
    exact client _ phase
  | requested at_ =>
    rw [at_] at phase
    have unanswered : ¬ s.IsAnswered pid := served.unsent (by simp [at_, ClientPc.Unsent])
    exact client _ ⟨[], phase, iff_of_false (fun some_ => some_ rfl) unanswered⟩
  | opened at_ =>
    rw [at_] at phase
    exact client _ phase
  | took n rsp content at_ there some_ =>
    rw [at_] at phase
    obtain ⟨content', there', iff⟩ := phase
    rw [there, Option.some.injEq] at there'
    subst there'
    exact both _ _ ⟨iff.mp some_, rfl⟩
  | reported at_ =>
    rw [at_] at phase
    exact phase.elim
  | removed status at_ =>
    rw [at_] at phase
    cases status with
    | success => exact phase.elim
    | failure => exact both _ _ ⟨phase.1, rfl⟩

theorem ClientWork.sent (served : Served argv capacity ids s) (work : ClientWork argv capacity s pid t) :
    ∀ other, ¬ (t.clients other).pc.Unsent → request argv other ∈ t.requested := by
  have client : ∀ c : Client, (¬ c.pc.Unsent → request argv pid ∈ s.requested) →
      ∀ other, ¬ ((Function.update s.clients pid c) other).pc.Unsent → request argv other ∈ s.requested := by
    intro c moved
    exact Parties.forall_update (P := fun other (c : Client) => ¬ c.pc.Unsent → request argv other ∈ s.requested)
      served.sent moved
  have before := served.sent pid
  cases work with
  | requested at_ =>
    intro other sent
    by_cases same : other = pid
    · subst same
      exact List.mem_append_right _ (List.mem_singleton.mpr rfl)
    · simp only [State.setClient, Function.update_of_ne same] at sent
      exact List.mem_append_left _ (served.sent other sent)
  | connected at_ | created at_ | registered at_ => exact client _ (by simp [ClientPc.Unsent])
  | opened at_ | took n rsp content at_ there some_ | reported at_ | removed status at_ =>
    apply client
    intro _
    exact before (by simp [at_, ClientPc.Unsent])

theorem ClientWork.members (served : Served argv capacity ids s) (member : pid ∈ ids)
    (work : ClientWork argv capacity s pid t) : ∀ other, (t.clients other).pc ≠ .openServer → other ∈ ids := by
  have client : ∀ c : Client, ∀ other, ((Function.update s.clients pid c) other).pc ≠ .openServer → other ∈ ids := by
    intro c
    exact Parties.forall_update (P := fun other (c : Client) => c.pc ≠ .openServer → other ∈ ids)
      served.members fun _ => member
  cases work <;> exact client _

theorem step_served {action : Action} (served : Served argv capacity ids s) (serves : Serves ids action)
    (stepped : step argv capacity s action = some t) : Served argv capacity ids t := by
  obtain ⟨ch, framed⟩ := served.framed
  have framed' := step_framed framed stepped
  have asked' := step_asked served.asked stepped
  cases action with
  | server outcome =>
    have work := serverStep_works serves stepped
    obtain ⟨clients, requested⟩ := (serverStep_moves stepped).clients
    refine ⟨framed', asked', ?_, ?_, work.accounted framed served.accounted, work.phases served⟩
    · rw [clients, requested]
      exact served.sent
    · rw [clients]
      exact served.members
  | client pid outcome =>
    have work := clientStep_works serves.1 stepped
    obtain ⟨server, taken, -, answers⟩ := (clientStep_moves stepped).server
    have made : t.serverFifo = s.serverFifo := by cases work <;> rfl
    exact ⟨framed', asked', work.sent served, work.members served serves.2,
      served.accounted.frame server made taken answers, work.phases served serves.2⟩

theorem served_initial {left : Pid → Bool} {req : List Byte} {rsp : BitVec 32}
    (fresh : ∀ pid ∈ ids, left pid = false) : Served argv capacity ids (initial false left req rsp) := by
  refine ⟨⟨_, framed_initial false left req rsp⟩, ⟨by simp [initial], List.nodup_nil⟩, ?_, ?_, ?_, ?_⟩
  · simp [initial, ClientPc.Unsent]
  · simp [initial]
  · exact ⟨rfl, by simp [initial], by simp [initial], by simp [initial], by simp [initial], trivial, rfl⟩
  · intro pid member
    show (if left pid = true then some [] else none) = none
    rw [fresh pid member]
    rfl

end SystemProgramming.FifoSeqnum
