import SystemProgramming.FileServer.Model

namespace SystemProgramming.FileServer

variable {files : List Byte → Option (List Byte)} {argv : Nat → List Byte} {qbytes : Nat}

inductive ChildMove (files : List Byte → Option (List Byte)) (k : Child) :
    Outcome → Child → Option ResponseMsg → Prop where
  | opened (content : List Byte) (at_ : k.pc = .opening)
      (present : files k.req.pathname = some content) :
      ChildMove files k .done
        { k with pc := .reading, rest := content, resp := { k.resp with mtype := RESP_MT_DATA } } none
  | refused (errno : Errno) (data : List Byte) (at_ : k.pc = .opening) :
      ChildMove files k (.error errno) { k with pc := .failing, resp := ⟨RESP_MT_FAILURE, data⟩ } none
  | reported (at_ : k.pc = .failing) :
      ChildMove files k .done { k with pc := .exited .success }
        (some ⟨k.resp.mtype, k.resp.data.take REQ_MSG_SIZE⟩)
  | aborted (errno : Errno) (at_ : k.pc = .failing ∨ k.pc = .closing) :
      ChildMove files k (.error errno) { k with pc := .exited .failure } none
  | filled (n : Nat) (at_ : k.pc = .reading) (positive : 0 < n) (bound : n ≤ RESP_MSG_SIZE)
      (available : n ≤ k.rest.length) :
      ChildMove files k (.count n)
        { k with
          pc := .sending n
          resp := { k.resp with data := Buffer.overwrite (k.rest.take n) k.resp.data }
          rest := k.rest.drop n } none
  | endOfFile (at_ : k.pc = .reading) (empty : k.rest = []) :
      ChildMove files k (.count 0) (k.finish []) none
  | readFailed (errno : Errno) (at_ : k.pc = .reading) :
      ChildMove files k (.error errno) (k.finish k.rest) none
  | sent (n : Nat) (at_ : k.pc = .sending n) :
      ChildMove files k .done { k with pc := .reading } (some ⟨k.resp.mtype, k.resp.data.take n⟩)
  | sendFailed (n : Nat) (errno : Errno) (at_ : k.pc = .sending n) :
      ChildMove files k (.error errno) (k.finish (k.resp.data.take n ++ k.rest)) none
  | closed (at_ : k.pc = .closing) :
      ChildMove files k .done { k with pc := .exited .success } (some k.image.message)

theorem Child.step_moves {k k' : Child} {outcome : Outcome} {sent : Option ResponseMsg}
    (taken : k.step files outcome = some (k', sent)) : ChildMove files k outcome k' sent := by
  unfold Child.step at taken
  split at taken
  case h_1 at_ =>
    cases outcome with
    | done =>
      simp only [Option.map_eq_some_iff] at taken
      obtain ⟨content, present, same⟩ := taken
      cases same
      exact .opened content at_ present
    | count n => cases taken
    | error errno =>
      cases taken
      exact .refused errno _ at_
  case h_2 at_ =>
    cases outcome with
    | done =>
      cases taken
      exact .reported at_
    | count n => cases taken
    | error errno =>
      cases taken
      exact .aborted errno (.inl at_)
  case h_3 at_ =>
    cases outcome with
    | done => cases taken
    | count n =>
      dsimp only at taken
      split at taken
      · rename_i valid
        obtain ⟨bound, available, zero⟩ := valid
        split at taken
        · rename_i positive
          cases taken
          exact .filled n at_ positive bound available
        · rename_i none
          cases taken
          have n_zero : n = 0 := by omega
          subst n_zero
          exact .endOfFile at_ (zero.mp rfl)
      · cases taken
    | error errno =>
      cases taken
      exact .readFailed errno at_
  case h_4 n at_ =>
    cases outcome with
    | done =>
      cases taken
      exact .sent n at_
    | count n => cases taken
    | error errno =>
      cases taken
      exact .sendFailed n errno at_
  case h_5 at_ =>
    cases outcome with
    | done =>
      cases taken
      exact .closed at_
    | count n => cases taken
    | error errno =>
      cases taken
      exact .aborted errno (.inr at_)
  case h_6 => cases taken

theorem ChildMove.req {k k' : Child} {outcome : Outcome} {sent : Option ResponseMsg}
    (move : ChildMove files k outcome k' sent) : k'.req = k.req := by
  cases move <;> rfl

theorem ChildMove.image {k k' : Child} {outcome : Outcome} {sent : Option ResponseMsg}
    (move : ChildMove files k outcome k' sent) : k'.image = k.image := by
  cases move <;> rfl

theorem ChildMove.live {k k' : Child} {outcome : Outcome} {sent : Option ResponseMsg}
    (move : ChildMove files k outcome k' sent) (status : ExitStatus) : k.pc ≠ .exited status := by
  cases move <;> simp_all
  rename_i at_
  rcases at_ with at_ | at_ <;> simp [at_]

inductive ServerMove (s : State) : Outcome → State → Prop where
  | took (req : RequestMsg) (queue : List RequestMsg) (at_ : s.server = .receive)
      (waiting : s.serverQueue = some (req :: queue)) :
      ServerMove s .done { s with serverQueue := some queue, server := .fork req }
  | interrupted (errno : Errno) (at_ : s.server = .receive) :
      ServerMove s (.error errno) { s with server := if errno = .EINTR then .receive else .removing }
  | refused (req : RequestMsg) (errno : Errno) (at_ : s.server = .fork req) :
      ServerMove s (.error errno) { s with server := .receive }
  | removed (at_ : s.server = .removing) :
      ServerMove s .done { s with serverQueue := none, server := .exited }
  | left (errno : Errno) (at_ : s.server = .removing) :
      ServerMove s (.error errno) { s with server := .exited }

theorem serverStep_moves {s t : State} {outcome : Outcome} (taken : serverStep s outcome = some t) :
    ServerMove s outcome t := by
  unfold serverStep at taken
  split at taken
  case h_1 at_ =>
    cases outcome with
    | done =>
      dsimp only at taken
      split at taken
      · rename_i req queue waiting
        cases taken
        exact .took req queue at_ waiting
      · cases taken
    | count n => cases taken
    | error errno =>
      cases taken
      exact .interrupted errno at_
  case h_2 req at_ =>
    cases outcome with
    | error errno =>
      cases taken
      exact .refused req errno at_
    | _ => cases taken
  case h_3 at_ =>
    cases outcome with
    | done =>
      cases taken
      exact .removed at_
    | count n => cases taken
    | error errno =>
      cases taken
      exact .left errno at_
  case h_4 => cases taken

inductive ClientGoto (c : Client) : ClientPc → Prop where
  | abandoned (at_ : c.pc = .msgget ∨ c.pc = .atexit) : ClientGoto c (.exited .failure)
  | registered (at_ : c.pc = .atexit) : ClientGoto c .request
  | failed (at_ : c.pc = .request ∨ c.pc = .receiveFirst ∨ c.pc = .receive ∨ c.pc = .removing) :
      ClientGoto c (.exiting .failure)
  | again (at_ : c.pc = .test) (more : c.resp.mtype = RESP_MT_DATA) : ClientGoto c .receive
  | ended (at_ : c.pc = .test) (last : c.resp.mtype ≠ RESP_MT_DATA) : ClientGoto c .report
  | reported (at_ : c.pc = .report) : ClientGoto c (.exiting .success)
  | exited (status : ExitStatus) (at_ : c.pc = .exiting status) : ClientGoto c (.exited status)

inductive ClientMove (argv : Nat → List Byte) (s : State) (id : Nat) : State → Prop where
  | goto (pc : ClientPc) (next : ClientGoto (s.clients id) pc) :
      ClientMove argv s id (s.setClient id { s.clients id with pc })
  | created (at_ : (s.clients id).pc = .msgget) (fresh : s.queues id = none) :
      ClientMove argv s id ((s.setClient id { s.clients id with pc := .atexit }).setQueue id (some []))
  | requested (queue : List RequestMsg) (at_ : (s.clients id).pc = .request)
      (present : s.serverQueue = some queue) :
      ClientMove argv s id { s.setClient id { s.clients id with pc := .receiveFirst } with
        serverQueue := some (queue ++ [request argv id]) }
  | receivedFirst (e : Envelope) (queue : List Envelope) (at_ : (s.clients id).pc = .receiveFirst)
      (head : s.queues id = some (e :: queue)) :
      ClientMove argv s id ((s.setQueue id (some queue)).setClient id ((s.clients id).first e))
  | receivedNext (e : Envelope) (queue : List Envelope) (at_ : (s.clients id).pc = .receive)
      (head : s.queues id = some (e :: queue)) :
      ClientMove argv s id ((s.setQueue id (some queue)).setClient id ((s.clients id).next e))
  | removed (pc : ClientPc) (next : ClientGoto (s.clients id) pc) :
      ClientMove argv s id ((s.setClient id { s.clients id with pc }).setQueue id none)

theorem msgrcv_some {s t : State} {id : Nat} {e : Envelope} (taken : msgrcv s id = some (e, t)) :
    ∃ queue, s.queues id = some (e :: queue) ∧ t = s.setQueue id (some queue) := by
  unfold msgrcv at taken
  split at taken
  · rename_i head queue present
    split at taken
    · cases taken
      exact ⟨queue, present, rfl⟩
    · cases taken
  · cases taken

theorem clientStep_moves {s t : State} {id : Nat} {outcome : Outcome}
    (taken : clientStep argv qbytes s id outcome = some t) : ClientMove argv s id t := by
  unfold clientStep at taken
  dsimp only at taken
  split at taken
  case h_1 at_ =>
    cases outcome with
    | done =>
      dsimp only at taken
      split at taken
      · rename_i fresh
        cases taken
        exact .created at_ fresh
      · cases taken
    | count n => cases taken
    | error errno =>
      cases taken
      exact .goto _ (.abandoned (.inl at_))
  case h_2 at_ =>
    cases outcome with
    | done =>
      cases taken
      exact .goto _ (.registered at_)
    | count n => cases taken
    | error errno =>
      cases taken
      exact .goto _ (.abandoned (.inr at_))
  case h_3 at_ =>
    cases outcome with
    | done =>
      obtain ⟨queue, present, sent⟩ := Option.bind_eq_some_iff.mp taken
      split at sent
      · cases sent
        exact .requested queue at_ present
      · cases sent
    | count n => cases taken
    | error errno =>
      cases taken
      exact .goto _ (.failed (.inl at_))
  case h_4 at_ =>
    cases outcome with
    | done =>
      obtain ⟨⟨e, t'⟩, received, same⟩ := Option.map_eq_some_iff.mp taken
      obtain ⟨queue, head, rfl⟩ := msgrcv_some received
      cases same
      exact .receivedFirst e queue at_ head
    | count n => cases taken
    | error errno =>
      cases taken
      exact .goto _ (.failed (.inr (.inl at_)))
  case h_5 at_ =>
    cases outcome with
    | done =>
      cases taken
      split
      · rename_i more
        exact .goto _ (.again at_ more)
      · rename_i last
        exact .goto _ (.ended at_ last)
    | _ => cases taken
  case h_6 at_ =>
    cases outcome with
    | done =>
      obtain ⟨⟨e, t'⟩, received, same⟩ := Option.map_eq_some_iff.mp taken
      obtain ⟨queue, head, rfl⟩ := msgrcv_some received
      cases same
      exact .receivedNext e queue at_ head
    | count n => cases taken
    | error errno =>
      cases taken
      exact .goto _ (.failed (.inr (.inr (.inl at_))))
  case h_7 at_ =>
    cases outcome with
    | done =>
      cases taken
      exact .goto _ (.reported at_)
    | _ => cases taken
  case h_8 at_ =>
    cases outcome with
    | done =>
      cases taken
      exact .removed _ (.failed (.inr (.inr (.inr at_))))
    | count n => cases taken
    | error errno =>
      cases taken
      exact .goto _ (.failed (.inr (.inr (.inr at_))))
  case h_9 status at_ =>
    cases outcome with
    | done =>
      cases taken
      exact .removed _ (.exited status at_)
    | count n => cases taken
    | error errno =>
      cases taken
      exact .goto _ (.exited status at_)
  case h_10 => cases taken

end SystemProgramming.FileServer
