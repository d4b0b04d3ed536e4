import SystemProgramming.FifoSeqnum.Routing

namespace SystemProgramming.FifoSeqnum

open Records Transition

variable {argv : Pid → BitVec 32} {capacity : Nat} {s t : State} {pid : Pid}

def Reported (argv : Pid → BitVec 32) (capacity : Nat) (s : State) (pid : Pid) (seqNum : BitVec 32) : Prop :=
  ∃ actions t, exec (step argv capacity) actions s = some t ∧ (t.clients pid).pc = .exited .success ∧
    word32.decode (t.clients pid).rsp = seqNum

def ClientPc.unserved : ClientPc → Bool
  | .openFifo | .read | .exiting .failure | .exited .failure => true
  | _ => false

theorem ClientGoto.unserved {pc next : ClientPc} {outcome : Outcome} (goto : ClientGoto pc outcome next)
    (before : pc.unserved = true) : next.unserved = true := by
  cases goto with
  | kept status errno =>
    cases status with
    | success => cases before
    | failure => rfl
  | opened | failed pc errno at_ => rfl
  | _ => cases before

/-- `read` is asked for a response, and what it returns is compared with the size of a request. -/
theorem read_rejects {n : Nat} (at_ : (s.clients pid).pc = .read)
    (stepped : clientStep argv capacity s pid (.count n) = some t) :
    (t.clients pid).pc = .exiting .failure := by
  unfold clientStep at stepped
  dsimp only at stepped
  rw [at_] at stepped
  dsimp only at stepped
  split at stepped
  · split at stepped
    · rename_i content there counted
      have short : n ≤ sizeofResponse := by
        rw [counted.1]
        exact Nat.min_le_left _ _
      have wider : sizeofResponse < sizeofRequest := by decide
      have other : n ≠ sizeofRequest := by omega
      rw [if_neg other] at stepped
      cases stepped
      show (Function.update s.clients pid _ pid).pc = _
      rw [Function.update_self]
    · cases stepped
  · cases stepped

theorem clientStep_unserved {outcome : Outcome} (before : (s.clients pid).pc.unserved = true)
    (stepped : clientStep argv capacity s pid outcome = some t) : (t.clients pid).pc.unserved = true := by
  cases clientStep_moves stepped with
  | goto outcome pc next =>
    show (Function.update s.clients pid _ pid).pc.unserved = true
    rw [Function.update_self]
    exact next.unserved before
  | took n pc rsp content at_ next =>
    rw [read_rejects at_ stepped]
    rfl
  | removed status at_ =>
    show (Function.update s.clients pid _ pid).pc.unserved = true
    rw [Function.update_self]
    rw [at_] at before
    cases status with
    | success => cases before
    | failure => rfl
  | created at_ fresh | requested at_ room =>
    rw [at_] at before
    cases before

theorem ClientMove.other {outcome : Outcome} (move : ClientMove argv capacity s pid outcome t) {other : Pid}
    (apart : other ≠ pid) : t.clients other = s.clients other := by
  cases move with
  | _ => exact Function.update_of_ne apart _ _

theorem step_unserved {action : Action} (before : (s.clients pid).pc.unserved = true)
    (stepped : step argv capacity s action = some t) : (t.clients pid).pc.unserved = true := by
  cases action with
  | server outcome =>
    rw [(serverStep_moves stepped).clients.1]
    exact before
  | client other outcome =>
    by_cases same : other = pid
    · subst same
      exact clientStep_unserved before stepped
    · rw [(clientStep_moves stepped).other (Ne.symm same)]
      exact before

theorem written_hasReader (at_ : s.server.pc = .write) (clientFd : s.server.fds.head? = some pid)
    (written : serverStep s .done = some t) : s.HasReader pid := by
  unfold serverStep at written
  rw [at_] at written
  dsimp only at written
  split at written
  · rename_i first fds opened
    rw [opened] at clientFd
    cases clientFd
    split at written
    · split at written
      · rename_i content there waiting
        exact waiting
      · cases written
    · cases written
  · cases written

theorem not_reported (at_ : s.server.pc = .write) (clientFd : s.server.fds.head? = some pid)
    (written : serverStep s .done = some t) (seqNum : BitVec 32) : ¬ Reported argv capacity t pid seqNum := by
  rintro ⟨actions, u, run, exited, -⟩
  have before : (t.clients pid).pc.unserved = true := by
    rw [(serverStep_moves written).clients.1]
    rcases written_hasReader at_ clientFd written with opening | reading
    · rw [opening]
      rfl
    · rw [reading]
      rfl
  have kept : ∀ r action r', (r.clients pid).pc.unserved = true → True → step argv capacity r action = some r' →
      (r'.clients pid).pc.unserved = true := fun r action r' holds _ stepped => step_unserved holds stepped
  have after := exec_invariant (I := fun r => (r.clients pid).pc.unserved = true) kept before
    (along_true actions t) run
  rw [exited] at after
  cases after

/-- Whatever number it holds, a response that the server has written whole makes its client fail. -/
theorem reply_rejected (at_ : s.server.pc = .write) (clientFd : s.server.fds.head? = some pid)
    (written : serverStep s .done = some t) :
    ¬ Reported argv capacity t pid s.server.rspSeqNum ∧
      ∀ actions u n v, exec (step argv capacity) actions t = some u → (u.clients pid).pc = .read →
        clientStep argv capacity u pid (.count n) = some v → (v.clients pid).pc = .exiting .failure := by
  constructor
  · exact not_reported at_ clientFd written _
  · intro actions u n v _ reading stepped
    exact read_rejects reading stepped

def beforeReply : List Action :=
  [.server .done, .server .done, .server .done] ++ List.replicate 4 (.client 7 .done) ++
    [.server (.count 8), .server .done, .server .done, .client 7 .done]

def noServer : State := initial false (fun _ => false) (List.replicate 8 0) 0

theorem exec_beforeReply :
    ∃ s t, exec (step (fun pid => pid) 4096) beforeReply noServer = some s ∧ s.server.pc = .write ∧
      s.server.fds.head? = some 7 ∧ s.server.rspSeqNum = 7 ∧ serverStep s .done = some t := by
  obtain ⟨s, run, at_, fds, seqNum, written⟩ : ∃ s, exec (step (fun pid => pid) 4096) beforeReply noServer = some s ∧
      s.server.pc = .write ∧ s.server.fds.head? = some 7 ∧ s.server.rspSeqNum = 7 ∧
      (serverStep s .done).isSome := ⟨_, rfl, rfl, rfl, rfl, rfl⟩
  obtain ⟨t, written⟩ := Option.isSome_iff_exists.mp written
  exact ⟨s, t, run, at_, fds, seqNum, written⟩

theorem reply_rejected_seven :
    ∃ s t, exec (step (fun pid => pid) 4096) beforeReply noServer = some s ∧
      serverStep s .done = some t ∧ s.server.rspSeqNum = 7 ∧
      ¬ Reported (fun pid => pid) 4096 t 7 s.server.rspSeqNum := by
  obtain ⟨s, t, run, at_, fds, seqNum, written⟩ := exec_beforeReply
  exact ⟨s, t, run, written, seqNum, (reply_rejected at_ fds written).1⟩

theorem response_not_reported :
    ¬ ∀ s t pid, Reaches (step (fun pid => pid) 4096) (fun _ _ => True) noServer s →
      s.server.pc = .write → s.server.fds.head? = some pid → serverStep s .done = some t →
        Reported (fun pid => pid) 4096 t pid s.server.rspSeqNum := by
  intro always
  obtain ⟨s, t, run, at_, fds, -, written⟩ := exec_beforeReply
  have reported := always s t 7 ⟨beforeReply, along_true _ _, run⟩ at_ fds written
  exact not_reported at_ fds written _ reported

end SystemProgramming.FifoSeqnum
