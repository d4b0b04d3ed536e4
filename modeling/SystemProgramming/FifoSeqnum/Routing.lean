import SystemProgramming.FifoSeqnum.Framing
import SystemProgramming.Library.Parties

namespace SystemProgramming.FifoSeqnum

open Records Transition

variable {argv : Pid → BitVec 32} {capacity : Nat}

def ClientPc.Unsent (pc : ClientPc) : Prop :=
  pc = .openServer ∨ pc = .mkfifo ∨ pc = .atexit ∨ pc = .write

def ClientPc.Owns : ClientPc → Prop
  | .openServer | .mkfifo | .exited _ => False
  | _ => True

theorem ClientPc.owns_of_sent {pc : ClientPc} (sent : ¬ pc.Unsent) (running : ∀ status, pc ≠ .exited status) :
    pc.Owns := by
  unfold Unsent at sent
  cases pc <;> simp_all [Owns]

theorem ClientGoto.unsent {pc next : ClientPc} {outcome : Outcome} (goto : ClientGoto pc outcome next)
    (sent : ¬ pc.Unsent) : ¬ next.Unsent := by
  unfold ClientPc.Unsent at *
  cases goto <;> simp_all

structure Asked (argv : Pid → BitVec 32) (s : State) : Prop where
  written : ∀ r ∈ s.requested, r = request argv r.pid ∧ ¬ (s.clients r.pid).pc.Unsent
  distinct : (s.requested.map (·.pid)).Nodup

theorem Asked.frame {s t : State} (asked : Asked argv s) (requested : t.requested = s.requested)
    (sent : ∀ pid, ¬ (s.clients pid).pc.Unsent → ¬ (t.clients pid).pc.Unsent) : Asked argv t := by
  refine ⟨?_, by rw [requested]; exact asked.distinct⟩
  intro r member
  rw [requested] at member
  exact ⟨(asked.written r member).1, sent _ (asked.written r member).2⟩

theorem setClient_unsent {s : State} {pid : Pid} {c : Client}
    (sent : ¬ (s.clients pid).pc.Unsent → ¬ c.pc.Unsent) (other : Pid)
    (before : ¬ (s.clients other).pc.Unsent) : ¬ ((s.setClient pid c).clients other).pc.Unsent :=
  Parties.update_rel (R := fun c d : Client => ¬ c.pc.Unsent → ¬ d.pc.Unsent) (fun _ same => same) sent
    other before

theorem ServerMove.clients {s t : State} (move : ServerMove s t) :
    t.clients = s.clients ∧ t.requested = s.requested := by
  cases move with
  | taken n at_ available positive =>
    unfold readRequest
    dsimp only
    split <;> exact ⟨rfl, rfl⟩
  | _ => exact ⟨rfl, rfl⟩

theorem ClientMove.asked {s t : State} {pid : Pid} {outcome : Outcome} (asked : Asked argv s)
    (move : ClientMove argv capacity s pid outcome t) : Asked argv t := by
  cases move with
  | goto _ pc next => exact asked.frame rfl (setClient_unsent next.unsent)
  | created at_ fresh =>
    refine asked.frame rfl (setClient_unsent ?_)
    intro sent
    exact absurd (.inr (.inl at_)) sent
  | took n pc rsp content at_ next =>
    refine asked.frame rfl (setClient_unsent ?_)
    rcases next with rfl | rfl <;> simp [ClientPc.Unsent]
  | removed status at_ =>
    refine asked.frame rfl (setClient_unsent ?_)
    simp [ClientPc.Unsent]
  | requested at_ room =>
    have unsent : (s.clients pid).pc.Unsent := .inr (.inr (.inr at_))
    have new : pid ∉ s.requested.map (·.pid) := by
      intro member
      rcases List.mem_map.mp member with ⟨r, before, same⟩
      exact (asked.written r before).2 (by rw [same]; exact unsent)
    constructor
    · intro r member
      rw [List.mem_append, List.mem_singleton] at member
      rcases member with before | rfl
      · have old := asked.written r before
        exact ⟨old.1, setClient_unsent (fun sent => absurd unsent sent) _ old.2⟩
      · exact ⟨rfl, by simp [State.setClient, request, ClientPc.Unsent]⟩
    · rw [List.map_append, List.nodup_append]
      refine ⟨asked.distinct, by simp, ?_⟩
      intro first before second after equal
      rw [List.map_singleton, List.mem_singleton] at after
      rw [equal, after] at before
      exact new before

theorem step_asked {s t : State} {action : Action} (asked : Asked argv s)
    (stepped : step argv capacity s action = some t) : Asked argv t := by
  cases action with
  | server outcome =>
    rcases (serverStep_moves stepped).clients with ⟨clients, requested⟩
    exact asked.frame requested (fun pid before => by rwa [clients])
  | client pid outcome => exact (clientStep_moves stepped).asked asked

structure State.Answered (s : State) (computed written : List Request) : Prop where
  computed : (s.computed.map (·.1)).Sublist computed
  written : (s.answers.map (·.req)).Sublist written
  routed : ∀ a ∈ s.answers, a.fifo = a.req.pid ∧ (a.req, a.seqNum) ∈ s.computed

def State.Serving (s : State) : Prop :=
  match s.server.pc with
  | .openClient => ∃ past, s.taken = past ++ [s.server.request] ∧ s.Answered past past
  | .update => ∃ past, s.taken = past ++ [s.server.request] ∧ s.Answered past past ∧
      s.server.fds.head? = some s.server.request.pid
  | .write => ∃ past, s.taken = past ++ [s.server.request] ∧ s.Answered s.taken past ∧
      s.server.fds.head? = some s.server.request.pid ∧
      (s.server.request, s.server.rspSeqNum) ∈ s.computed
  | _ => s.Answered s.taken s.taken

theorem State.Answered.widen {s : State} {past : List Request} {r : Request}
    (answered : s.Answered past past) : s.Answered (past ++ [r]) (past ++ [r]) :=
  ⟨answered.computed.trans (List.sublist_append_left _ _),
    answered.written.trans (List.sublist_append_left _ _), answered.routed⟩

theorem ServerGoto.serving {s : State} {pc : ServerPc} (next : ServerGoto s.server.pc pc)
    (serving : s.Serving) : (s.serverAt pc).Serving := by
  generalize at_ : s.server.pc = before at next
  cases next with
  | unmade pc next =>
    simp only [State.Serving, at_] at serving
    rcases next with rfl | rfl <;> exact ⟨serving.computed, serving.written, serving.routed⟩
  | gaveUp pc which =>
    rcases which with rfl | rfl <;>
      · simp only [State.Serving, at_] at serving
        exact ⟨serving.computed, serving.written, serving.routed⟩
  | skipped pc which =>
    rcases which with rfl | rfl
    · simp only [State.Serving, at_] at serving
      rcases serving with ⟨past, taken, answered⟩
      have wider := answered.widen (r := s.server.request)
      rw [← taken] at wider
      exact ⟨wider.computed, wider.written, wider.routed⟩
    · simp only [State.Serving, at_] at serving
      rcases serving with ⟨past, taken, answered, -, -⟩
      have wider := answered.written.trans (List.sublist_append_left past [s.server.request])
      rw [← taken] at wider
      exact ⟨answered.computed, wider, answered.routed⟩
  | _ =>
    simp only [State.Serving, at_] at serving
    exact ⟨serving.computed, serving.written, serving.routed⟩

theorem ServerMove.serving {s t : State} {ch : Channel Request} (framed : Framed capacity s ch)
    (serving : s.Serving) (move : ServerMove s t) : t.Serving := by
  cases move with
  | goto pc next => exact next.serving serving
  | discarded at_ => exact serving
  | created at_ =>
    simp only [State.Serving, at_] at serving
    exact ⟨serving.computed, serving.written, serving.routed⟩
  | taken n at_ available positive =>
    rcases framed.readRequest available positive with ⟨r, rest, req, -, decoded, whole⟩
    rw [whole]
    simp only [State.Serving, at_] at serving
    refine ⟨s.taken, ?_, serving.computed, serving.written, serving.routed⟩
    rw [← decoded]
    rfl
  | openedClient at_ =>
    simp only [State.Serving, at_] at serving
    rcases serving with ⟨past, taken, answered⟩
    exact ⟨past, taken, ⟨answered.computed, answered.written, answered.routed⟩, rfl⟩
  | updated at_ =>
    simp only [State.Serving, at_] at serving
    rcases serving with ⟨past, taken, answered, head⟩
    refine ⟨past, taken, ⟨?_, answered.written, ?_⟩, head, ?_⟩
    · show (List.map _ (s.computed ++ [_])).Sublist s.taken
      rw [taken, List.map_append]
      exact answered.computed.append (List.Sublist.refl _)
    · intro a member
      exact ⟨(answered.routed a member).1, List.mem_append_left _ (answered.routed a member).2⟩
    · exact List.mem_append_right _ (List.mem_singleton.mpr rfl)
  | answered pid fds content at_ clientFd =>
    simp only [State.Serving, at_] at serving
    rcases serving with ⟨past, taken, answered, head, computed⟩
    rw [clientFd, List.head?_cons, Option.some.injEq] at head
    refine ⟨answered.computed, ?_, ?_⟩
    · show (List.map _ (s.answers ++ [_])).Sublist s.taken
      rw [taken, List.map_append]
      exact answered.written.append (List.Sublist.refl _)
    · intro a member
      rcases List.mem_append.mp member with before | new
      · exact answered.routed a before
      · rw [List.mem_singleton] at new
        subst new
        exact ⟨head, computed⟩

theorem step_serving {s t : State} {ch : Channel Request} {action : Action}
    (framed : Framed capacity s ch) (serving : s.Serving)
    (stepped : step argv capacity s action = some t) : t.Serving := by
  cases action with
  | server outcome => exact (serverStep_moves stepped).serving framed serving
  | client pid outcome =>
    rcases (clientStep_moves stepped).server with ⟨server, taken, computed, answers⟩
    have same : ∀ now written, s.Answered now written → t.Answered now written := by
      intro now written answered
      exact ⟨by rw [computed]; exact answered.computed, by rw [answers]; exact answered.written,
        by rw [answers, computed]; exact answered.routed⟩
    unfold State.Serving at serving ⊢
    rw [server, taken]
    split at serving
    · rcases serving with ⟨past, whole, answered⟩
      exact ⟨past, whole, same _ _ answered⟩
    · rcases serving with ⟨past, whole, answered, head⟩
      exact ⟨past, whole, same _ _ answered, head⟩
    · rcases serving with ⟨past, whole, answered, head, member⟩
      exact ⟨past, whole, same _ _ answered, head, by rw [computed]; exact member⟩
    · exact same _ _ serving

end SystemProgramming.FifoSeqnum
