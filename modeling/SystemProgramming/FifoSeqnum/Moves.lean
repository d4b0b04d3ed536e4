import SystemProgramming.FifoSeqnum.Model

namespace SystemProgramming.FifoSeqnum

open Records

variable {argv : Pid → BitVec 32} {capacity : Nat}

inductive ServerGoto : ServerPc → ServerPc → Prop where
  | unmade (pc : ServerPc) (next : pc = .exited ∨ pc = .openServer) : ServerGoto .mkfifo pc
  | opened : ServerGoto .openServer .openDummy
  | ready : ServerGoto .openDummy .read
  | gaveUp (pc : ServerPc) (at_ : pc = .openServer ∨ pc = .openDummy) : ServerGoto pc .exited
  | skipped (pc : ServerPc) (at_ : pc = .openClient ∨ pc = .write) : ServerGoto pc .read

inductive ServerMove (s : State) : State → Prop where
  | goto (pc : ServerPc) (next : ServerGoto s.server.pc pc) : ServerMove s (s.serverAt pc)
  | created (at_ : s.server.pc = .mkfifo) :
      ServerMove s { s.serverAt .openServer with serverFifo := true }
  | discarded (at_ : s.server.pc = .read) : ServerMove s s
  | taken (n : Nat) (at_ : s.server.pc = .read) (available : n = min sizeofRequest s.pipe.length)
      (positive : 0 < n) : ServerMove s (readRequest s n)
  | openedClient (at_ : s.server.pc = .openClient) :
      ServerMove s { s with
        server := { s.server with pc := .update, fds := s.server.request.pid :: s.server.fds } }
  | updated (at_ : s.server.pc = .update) : ServerMove s (updateSeqNum s)
  | answered (pid : Pid) (fds : List Pid) (content : List Byte) (at_ : s.server.pc = .write)
      (clientFd : s.server.fds = pid :: fds) :
      ServerMove s { (s.serverAt .read).setFifo pid
        (some (content ++ word32.encode s.server.rspSeqNum)) with
          answers := s.answers ++ [⟨pid, s.server.request, s.server.rspSeqNum⟩] }

theorem serverStep_moves {s t : State} {outcome : Outcome} (stepped : serverStep s outcome = some t) :
    ServerMove s t := by
  unfold serverStep at stepped
  split at stepped
  case h_1 at_ =>
    cases outcome with
    | done =>
      dsimp only at stepped
      split at stepped
      · cases stepped
      · cases stepped
        exact .created at_
    | count n => cases stepped
    | error errno =>
      cases stepped
      apply ServerMove.goto
      rw [at_]
      apply ServerGoto.unmade
      split
      · exact .inl rfl
      · exact .inr rfl
  case h_2 at_ =>
    cases outcome with
    | done =>
      dsimp only at stepped
      split at stepped
      · cases stepped
        exact .goto _ (at_ ▸ .opened)
      · cases stepped
    | count n => cases stepped
    | error errno =>
      cases stepped
      exact .goto _ (.gaveUp _ (.inl at_))
  case h_3 at_ =>
    cases outcome with
    | done =>
      dsimp only at stepped
      split at stepped
      · cases stepped
        exact .goto _ (at_ ▸ .ready)
      · cases stepped
    | count n => cases stepped
    | error errno =>
      cases stepped
      exact .goto _ (.gaveUp _ (.inr at_))
  case h_4 at_ =>
    cases outcome with
    | done => cases stepped
    | count n =>
      dsimp only at stepped
      split at stepped
      · rename_i available
        cases stepped
        exact .taken n at_ available.1 available.2
      · cases stepped
    | error errno =>
      cases stepped
      exact .discarded at_
  case h_5 at_ =>
    cases outcome with
    | done =>
      dsimp only at stepped
      split at stepped
      · cases stepped
        exact .openedClient at_
      · cases stepped
    | count n => cases stepped
    | error errno =>
      cases stepped
      exact .goto _ (.skipped _ (.inl at_))
  case h_6 at_ =>
    cases outcome with
    | done =>
      cases stepped
      exact .updated at_
    | _ => cases stepped
  case h_7 at_ =>
    cases outcome with
    | done =>
      dsimp only at stepped
      split at stepped
      · rename_i pid fds clientFd
        split at stepped
        · rename_i content there
          split at stepped
          · cases stepped
            exact .answered pid fds content at_ clientFd
          · cases stepped
        · cases stepped
      · cases stepped
    | count n => cases stepped
    | error errno =>
      cases stepped
      exact .goto _ (.skipped _ (.inr at_))
  case h_8 => cases stepped

inductive ClientGoto : ClientPc → Outcome → ClientPc → Prop where
  | connected : ClientGoto .openServer .done .mkfifo
  | notConnected (errno : Errno) : ClientGoto .openServer (.error errno) (.exited .failure)
  | alreadyThere : ClientGoto .mkfifo (.error .EEXIST) (.exited .failure)
  | unmade (errno : Errno) (other : errno ≠ .EEXIST) : ClientGoto .mkfifo (.error errno) .atexit
  | registered : ClientGoto .atexit .done .write
  | unregistered (errno : Errno) : ClientGoto .atexit (.error errno) (.exited .failure)
  | opened : ClientGoto .openFifo .done .read
  | failed (pc : ClientPc) (errno : Errno) (at_ : pc = .write ∨ pc = .openFifo ∨ pc = .read) :
      ClientGoto pc (.error errno) (.exiting .failure)
  | reported : ClientGoto .report .done (.exiting .success)
  | kept (status : ExitStatus) (errno : Errno) :
      ClientGoto (.exiting status) (.error errno) (.exited status)

inductive ClientMove (argv : Pid → BitVec 32) (capacity : Nat) (s : State) (pid : Pid) :
    Outcome → State → Prop where
  | goto (outcome : Outcome) (pc : ClientPc) (next : ClientGoto (s.clients pid).pc outcome pc) :
      ClientMove argv capacity s pid outcome (s.setClient pid { s.clients pid with pc })
  | created (at_ : (s.clients pid).pc = .mkfifo) (fresh : s.fifos pid = none) :
      ClientMove argv capacity s pid .done
        ((s.setClient pid { s.clients pid with pc := .atexit }).setFifo pid (some []))
  | requested (at_ : (s.clients pid).pc = .write)
      (room : s.pipe.length + sizeofRequest ≤ capacity) :
      ClientMove argv capacity s pid .done { s.setClient pid { s.clients pid with pc := .openFifo } with
        pipe := s.pipe ++ requestCodec.encode (request argv pid)
        requested := s.requested ++ [request argv pid] }
  | took (n : Nat) (pc : ClientPc) (rsp content : List Byte) (at_ : (s.clients pid).pc = .read)
      (next : pc = .report ∨ pc = .exiting .failure) :
      ClientMove argv capacity s pid (.count n)
        ((s.setClient pid ⟨pc, rsp⟩).setFifo pid (some (content.drop n)))
  | removed (status : ExitStatus) (at_ : (s.clients pid).pc = .exiting status) :
      ClientMove argv capacity s pid .done
        ((s.setClient pid { s.clients pid with pc := .exited status }).setFifo pid none)

theorem clientStep_moves {s t : State} {pid : Pid} {outcome : Outcome}
    (stepped : clientStep argv capacity s pid outcome = some t) :
    ClientMove argv capacity s pid outcome t := by
  unfold clientStep at stepped
  dsimp only at stepped
  split at stepped
  case h_1 at_ =>
    cases outcome with
    | done =>
      dsimp only at stepped
      split at stepped
      · cases stepped
        exact .goto _ _ (at_ ▸ .connected)
      · cases stepped
    | count n => cases stepped
    | error errno =>
      cases stepped
      exact .goto _ _ (at_ ▸ .notConnected errno)
  case h_2 at_ =>
    cases outcome with
    | done =>
      dsimp only at stepped
      split at stepped
      · rename_i fresh
        cases stepped
        exact .created at_ fresh
      · cases stepped
    | count n => cases stepped
    | error errno =>
      cases stepped
      apply ClientMove.goto
      rw [at_]
      split
      · rename_i same
        subst same
        exact .alreadyThere
      · rename_i other
        exact .unmade errno other
  case h_3 at_ =>
    cases outcome with
    | done =>
      cases stepped
      exact .goto _ _ (at_ ▸ .registered)
    | count n => cases stepped
    | error errno =>
      cases stepped
      exact .goto _ _ (at_ ▸ .unregistered errno)
  case h_4 at_ =>
    cases outcome with
    | done =>
      dsimp only at stepped
      split at stepped
      · rename_i room
        cases stepped
        exact .requested at_ room
      · cases stepped
    | count n => cases stepped
    | error errno =>
      cases stepped
      exact .goto _ _ (.failed _ errno (.inl at_))
  case h_5 at_ =>
    cases outcome with
    | done =>
      dsimp only at stepped
      split at stepped
      · cases stepped
        exact .goto _ _ (at_ ▸ .opened)
      · cases stepped
    | count n => cases stepped
    | error errno =>
      cases stepped
      exact .goto _ _ (.failed _ errno (.inr (.inl at_)))
  case h_6 at_ =>
    cases outcome with
    | done => cases stepped
    | count n =>
      dsimp only at stepped
      split at stepped
      · rename_i content there
        split at stepped
        · cases stepped
          apply ClientMove.took n _ _ content at_
          split
          · exact .inl rfl
          · exact .inr rfl
        · cases stepped
      · cases stepped
    | error errno =>
      cases stepped
      exact .goto _ _ (.failed _ errno (.inr (.inr at_)))
  case h_7 at_ =>
    cases outcome with
    | done =>
      cases stepped
      exact .goto _ _ (at_ ▸ .reported)
    | _ => cases stepped
  case h_8 status at_ =>
    cases outcome with
    | done =>
      dsimp only at stepped
      split at stepped
      · cases stepped
        exact .removed status at_
      · cases stepped
    | count n => cases stepped
    | error errno =>
      cases stepped
      exact .goto _ _ (at_ ▸ .kept status errno)
  case h_9 => cases stepped

theorem ClientMove.server {s t : State} {pid : Pid} {outcome : Outcome}
    (move : ClientMove argv capacity s pid outcome t) :
    t.server = s.server ∧ t.taken = s.taken ∧ t.computed = s.computed ∧ t.answers = s.answers := by
  cases move <;> exact ⟨rfl, rfl, rfl, rfl⟩

end SystemProgramming.FifoSeqnum
