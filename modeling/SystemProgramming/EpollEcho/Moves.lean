import SystemProgramming.EpollEcho.Model

namespace SystemProgramming.EpollEcho

variable {sockets : Sockets}

inductive ServerMove (sockets : Sockets) (s : State) : Outcome → State → Prop where
  | stopped (errno : Errno) (at_ : s.pc = .waiting) :
      ServerMove sockets s (.error errno) (s.goto .exited)
  | looped (at_ : s.pc = .dispatching []) : ServerMove sockets s .done (s.goto .waiting)
  | accepted (e : Event) (events : List Event) (cfd : Fd) (at_ : s.pc = .dispatching (e :: events))
      (listening : e.fd = sockets.lfd) (absent : s.conns cfd = none) (notListening : cfd ≠ sockets.lfd)
      (notUdp : cfd ≠ sockets.udpfd) :
      ServerMove sockets s (.count cfd)
        { (s.goto (.adding cfd events)).setConn cfd (some ⟨false, [], false, []⟩) with
          connections := s.connections - 1 }
  | notAccepted (errno : Errno) (e : Event) (events : List Event)
      (at_ : s.pc = .dispatching (e :: events)) (listening : e.fd = sockets.lfd) :
      ServerMove sockets s (.error errno) (s.goto (.dispatching events))
  | datagram (e : Event) (events : List Event) (d : Datagram) (datagrams : List Datagram) (n : Nat)
      (at_ : s.pc = .dispatching (e :: events)) (notListening : e.fd ≠ sockets.lfd)
      (udp : e.fd = sockets.udpfd) (arrived : s.datagrams = d :: datagrams)
      (length : n = min d.payload.length UDP_BUFFER_SIZE) :
      ServerMove sockets s (.count n) { s with
        pc := if 0 < n then .replying d.sender events else .aborted events
        datagrams := datagrams
        udpbuf := Buffer.overwrite (d.payload.take n) (zeros UDP_BUFFER_SIZE) }
  | noDatagram (errno : Errno) (e : Event) (events : List Event)
      (at_ : s.pc = .dispatching (e :: events)) (notListening : e.fd ≠ sockets.lfd) :
      ServerMove sockets s (.error errno)
        { s with pc := .aborted (e :: events), udpbuf := zeros UDP_BUFFER_SIZE }
  | passed (e : Event) (events : List Event) (at_ : s.pc = .dispatching (e :: events))
      (notListening : e.fd ≠ sockets.lfd) (notUdp : e.fd ≠ sockets.udpfd) :
      ServerMove sockets s .done
        (s.goto (if e.epollin then .receiving e.fd events else .dispatching events))
  | added (cfd : Fd) (events : List Event) (c : Conn) (at_ : s.pc = .adding cfd events)
      (present : s.conns cfd = some c) :
      ServerMove sockets s .done
        (((s.goto (.dispatching events)).setConn cfd (some { c with registered := true })).setReady cfd
          (!c.data.isEmpty || c.peerClosed))
  | notAdded (errno : Errno) (cfd : Fd) (events : List Event) (at_ : s.pc = .adding cfd events) :
      ServerMove sockets s (.error errno) (s.goto (.dispatching events))
  | replied (sender : Nat) (events : List Event) (at_ : s.pc = .replying sender events) :
      ServerMove sockets s .done { s.goto (.dispatching events) with
        replies := s.replies ++ [⟨sender, s.udpbuf.take UDP_BUFFER_SIZE⟩] }
  | notReplied (errno : Errno) (sender : Nat) (events : List Event)
      (at_ : s.pc = .replying sender events) :
      ServerMove sockets s (.error errno) (s.goto (.aborted events))
  | received (fd : Fd) (events : List Event) (n : Nat) (c : Conn) (at_ : s.pc = .receiving fd events)
      (present : s.conns fd = some c) (some_bytes : 0 < n) (fits : n ≤ TCP_BUFFER_SIZE)
      (available : n ≤ c.data.length) :
      ServerMove sockets s (.count n)
        { (s.goto (.sending fd events)).setConn fd (some { c with data := c.data.drop n }) with
          tcpbuf := Buffer.overwrite (c.data.take n) (zeros TCP_BUFFER_SIZE) }
  | ended (fd : Fd) (events : List Event) (c : Conn) (at_ : s.pc = .receiving fd events)
      (present : s.conns fd = some c) :
      ServerMove sockets s (.count 0)
        { s.goto (.closing fd true events) with tcpbuf := zeros TCP_BUFFER_SIZE }
  | again (errno : Errno) (fd : Fd) (events : List Event) (at_ : s.pc = .receiving fd events) :
      ServerMove sockets s (.error errno)
        { s.goto (.dispatching events) with tcpbuf := zeros TCP_BUFFER_SIZE }
  | failed (errno : Errno) (fd : Fd) (events : List Event) (at_ : s.pc = .receiving fd events) :
      ServerMove sockets s (.error errno)
        { s.goto (.closing fd false events) with tcpbuf := zeros TCP_BUFFER_SIZE }
  | sent (fd : Fd) (events : List Event) (n : Nat) (c : Conn) (at_ : s.pc = .sending fd events)
      (present : s.conns fd = some c) :
      ServerMove sockets s (.count n) ((s.goto (.receiving fd events)).setConn fd
        (some { c with echoed := c.echoed ++ s.tcpbuf.take n }))
  | notSent (errno : Errno) (fd : Fd) (events : List Event) (at_ : s.pc = .sending fd events) :
      ServerMove sockets s (.error errno) (s.goto (.receiving fd events))
  | closed (fd : Fd) (again : Bool) (events : List Event) (c : Conn)
      (at_ : s.pc = .closing fd again events) (present : s.conns fd = some c) :
      ServerMove sockets s .done
        (((s.goto (if again then .receiving fd events else .dispatching events)).setConn fd none).setReady
          fd false)
  | notClosed (errno : Errno) (fd : Fd) (again : Bool) (events : List Event)
      (at_ : s.pc = .closing fd again events) :
      ServerMove sockets s (.error errno)
        (s.goto (if again then .receiving fd events else .dispatching events))

theorem dispatch_moves {s t : State} {e : Event} {events : List Event} {outcome : Outcome}
    (at_ : s.pc = .dispatching (e :: events)) (taken : dispatch sockets s e events outcome = some t) :
    ServerMove sockets s outcome t := by
  unfold dispatch at taken
  by_cases listening : e.fd = sockets.lfd
  · rw [if_pos listening] at taken
    cases outcome with
    | done => cases taken
    | count cfd =>
      dsimp only at taken
      split at taken
      · rename_i valid
        rcases valid with ⟨-, absent, notListening, notUdp⟩
        cases taken
        exact .accepted e events cfd at_ listening absent notListening notUdp
      · cases taken
    | error errno =>
      cases taken
      exact .notAccepted errno e events at_ listening
  · rw [if_neg listening] at taken
    by_cases udp : e.fd = sockets.udpfd
    · rw [if_pos udp] at taken
      cases outcome with
      | done => cases taken
      | count n =>
        dsimp only at taken
        split at taken
        · rename_i d datagrams arrived
          split at taken
          · rename_i length
            cases taken
            exact .datagram e events d datagrams n at_ listening udp arrived length
          · cases taken
        · cases taken
      | error errno =>
        cases taken
        exact .noDatagram errno e events at_ listening
    · rw [if_neg udp] at taken
      cases outcome with
      | done =>
        cases taken
        exact .passed e events at_ listening udp
      | count n => cases taken
      | error errno => cases taken

theorem receive_moves {s t : State} {fd : Fd} {events : List Event} {outcome : Outcome}
    (at_ : s.pc = .receiving fd events) (taken : receive s fd events outcome = some t) :
    ServerMove sockets s outcome t := by
  unfold receive at taken
  cases outcome with
  | done => cases taken
  | count n =>
    rcases Option.bind_eq_some_iff.mp taken with ⟨c, present, moved⟩
    split at moved
    · rename_i read
      rcases read with ⟨some_bytes, fits, available⟩
      cases moved
      exact .received fd events n c at_ present some_bytes fits available
    · split at moved
      · rename_i ended
        rcases ended with ⟨rfl, -⟩
        cases moved
        exact .ended fd events c at_ present
      · cases moved
  | error errno =>
    dsimp only at taken
    split at taken
    · rcases Option.bind_eq_some_iff.mp taken with ⟨c, -, moved⟩
      split at moved
      · cases moved
        exact .again errno fd events at_
      · cases moved
    · cases taken
      exact .failed errno fd events at_

theorem serverStep_moves {s t : State} {outcome : Outcome}
    (taken : serverStep sockets s outcome = some t) : ServerMove sockets s outcome t := by
  unfold serverStep at taken
  split at taken
  case h_1 at_ =>
    cases outcome with
    | error errno =>
      cases taken
      exact .stopped errno at_
    | _ => cases taken
  case h_2 at_ =>
    cases outcome with
    | done =>
      cases taken
      exact .looped at_
    | _ => cases taken
  case h_3 e events at_ => exact dispatch_moves at_ taken
  case h_4 cfd events at_ =>
    cases outcome with
    | done =>
      rcases Option.map_eq_some_iff.mp taken with ⟨c, present, rfl⟩
      exact .added cfd events c at_ present
    | count n => cases taken
    | error errno =>
      cases taken
      exact .notAdded errno cfd events at_
  case h_5 sender events at_ =>
    cases outcome with
    | done =>
      cases taken
      exact .replied sender events at_
    | count n => cases taken
    | error errno =>
      cases taken
      exact .notReplied errno sender events at_
  case h_6 fd events at_ => exact receive_moves at_ taken
  case h_7 fd events at_ =>
    cases outcome with
    | done => cases taken
    | count n =>
      rcases Option.bind_eq_some_iff.mp taken with ⟨c, present, moved⟩
      split at moved
      · cases moved
        exact .sent fd events n c at_ present
      · cases moved
    | error errno =>
      cases taken
      exact .notSent errno fd events at_
  case h_8 fd again events at_ =>
    cases outcome with
    | done =>
      rcases Option.map_eq_some_iff.mp taken with ⟨c, present, rfl⟩
      exact .closed fd again events c at_ present
    | count n => cases taken
    | error errno =>
      cases taken
      exact .notClosed errno fd again events at_
  case h_9 => cases taken
  case h_10 => cases taken

end SystemProgramming.EpollEcho
