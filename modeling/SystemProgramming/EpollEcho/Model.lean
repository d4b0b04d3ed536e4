import Mathlib.Logic.Function.Basic
import Mathlib.Tactic.Common
import SystemProgramming.Kernel
import SystemProgramming.Library.Buffer
import SystemProgramming.Library.Transition

namespace SystemProgramming.EpollEcho

def MAX_EVENT_NUMBER : Nat := 1024
def TCP_BUFFER_SIZE : Nat := 512
def UDP_BUFFER_SIZE : Nat := 1024

abbrev Fd := Nat

structure Sockets where
  lfd : Fd
  udpfd : Fd
  distinct : lfd ≠ udpfd

structure Event where
  fd : Fd
  epollin : Bool
  deriving DecidableEq

structure Datagram where
  sender : Nat
  payload : List Byte
  deriving DecidableEq

structure Conn where
  registered : Bool
  data : List Byte
  peerClosed : Bool
  echoed : List Byte
  deriving DecidableEq

/-- `again` marks the `close` after which the receive loop goes on. A failed `assert` ends the
    program with the rest of `evlist` in it. -/
inductive Pc where
  | waiting
  | dispatching (events : List Event)
  | adding (cfd : Fd) (events : List Event)
  | replying (sender : Nat) (events : List Event)
  | receiving (fd : Fd) (events : List Event)
  | sending (fd : Fd) (events : List Event)
  | closing (fd : Fd) (again : Bool) (events : List Event)
  | aborted (events : List Event)
  | exited
  deriving DecidableEq

/-- `ready` says which watched descriptors have an edge that `epoll_wait` has not reported. -/
structure State where
  pc : Pc
  ready : Fd → Bool
  connections : Nat
  datagrams : List Datagram
  conns : Fd → Option Conn
  udpbuf : List Byte
  tcpbuf : List Byte
  replies : List Datagram

inductive Action where
  | connect
  | datagram (d : Datagram)
  | data (fd : Fd) (bytes : List Byte)
  | hangup (fd : Fd)
  | report (batch : List Event)
  | server (outcome : Outcome)

namespace State

def goto (s : State) (pc : Pc) : State := { s with pc }

def setReady (s : State) (fd : Fd) (ready : Bool) : State :=
  { s with ready := Function.update s.ready fd ready }

def setConn (s : State) (fd : Fd) (c : Option Conn) : State :=
  { s with conns := Function.update s.conns fd c }

end State

def zeros (n : Nat) : List Byte := List.replicate n 0

variable (sockets : Sockets)

def arriveAt (s : State) (fd : Fd) (f : Conn → Conn) : Option State :=
  (s.conns fd).map fun c =>
    (s.setConn fd (some (f c))).setReady fd (s.ready fd || c.registered)

def reportStep (s : State) (batch : List Event) : Option State :=
  match s.pc with
  | .waiting =>
    if batch ≠ [] ∧ batch.length ≤ MAX_EVENT_NUMBER ∧ (batch.map (·.fd)).Nodup ∧
        ∀ e ∈ batch, s.ready e.fd = true then
      some { s with
        pc := .dispatching batch
        ready := fun fd => s.ready fd && !decide (fd ∈ batch.map (·.fd)) }
    else none
  | _ => none

def dispatch (s : State) (e : Event) (events : List Event) (outcome : Outcome) : Option State :=
  if e.fd = sockets.lfd then
    match outcome with
    | .count cfd =>
      if 0 < s.connections ∧ s.conns cfd = none ∧ cfd ≠ sockets.lfd ∧ cfd ≠ sockets.udpfd then
        some { (s.goto (.adding cfd events)).setConn cfd (some ⟨false, [], false, []⟩) with
          connections := s.connections - 1 }
      else none
    | .error _ => some (s.goto (.dispatching events))
    | .done => none
  else if e.fd = sockets.udpfd then
    match outcome with
    | .count n =>
      match s.datagrams with
      | d :: datagrams =>
        if n = min d.payload.length UDP_BUFFER_SIZE then
          some { s with
            pc := if 0 < n then .replying d.sender events else .aborted events
            datagrams := datagrams
            udpbuf := Buffer.overwrite (d.payload.take n) (zeros UDP_BUFFER_SIZE) }
        else none
      | [] => none
    | .error _ => some { s with pc := .aborted (e :: events), udpbuf := zeros UDP_BUFFER_SIZE }
    | .done => none
  else
    match outcome with
    | .done => some (s.goto (if e.epollin then .receiving e.fd events else .dispatching events))
    | _ => none

def receive (s : State) (fd : Fd) (events : List Event) (outcome : Outcome) : Option State :=
  match outcome with
  | .count n =>
    (s.conns fd).bind fun c =>
      if 0 < n ∧ n ≤ TCP_BUFFER_SIZE ∧ n ≤ c.data.length then
        some { (s.goto (.sending fd events)).setConn fd (some { c with data := c.data.drop n }) with
          tcpbuf := Buffer.overwrite (c.data.take n) (zeros TCP_BUFFER_SIZE) }
      else if n = 0 ∧ c.data = [] ∧ c.peerClosed = true then
        some { s.goto (.closing fd true events) with tcpbuf := zeros TCP_BUFFER_SIZE }
      else none
  | .error errno =>
    if errno = .EAGAIN then
      (s.conns fd).bind fun c =>
        if c.data = [] ∧ c.peerClosed = false then
          some { s.goto (.dispatching events) with tcpbuf := zeros TCP_BUFFER_SIZE }
        else none
    else some { s.goto (.closing fd false events) with tcpbuf := zeros TCP_BUFFER_SIZE }
  | .done => none

def serverStep (s : State) (outcome : Outcome) : Option State :=
  match s.pc with
  | .waiting =>
    match outcome with
    | .error _ => some (s.goto .exited)
    | _ => none
  | .dispatching [] =>
    match outcome with
    | .done => some (s.goto .waiting)
    | _ => none
  | .dispatching (e :: events) => dispatch sockets s e events outcome
  | .adding cfd events =>
    match outcome with
    | .done => (s.conns cfd).map fun c =>
        ((s.goto (.dispatching events)).setConn cfd (some { c with registered := true })).setReady cfd
          (!c.data.isEmpty || c.peerClosed)
    | .error _ => some (s.goto (.dispatching events))
    | .count _ => none
  | .replying sender events =>
    match outcome with
    | .done => some { s.goto (.dispatching events) with
        replies := s.replies ++ [⟨sender, s.udpbuf.take UDP_BUFFER_SIZE⟩] }
    | .error _ => some (s.goto (.aborted events))
    | .count _ => none
  | .receiving fd events => receive s fd events outcome
  | .sending fd events =>
    match outcome with
    | .count n =>
      (s.conns fd).bind fun c =>
        if n ≤ TCP_BUFFER_SIZE then
          some ((s.goto (.receiving fd events)).setConn fd
            (some { c with echoed := c.echoed ++ s.tcpbuf.take n }))
        else none
    | .error _ => some (s.goto (.receiving fd events))
    | .done => none
  | .closing fd again events =>
    let next : Pc := if again then .receiving fd events else .dispatching events
    match outcome with
    | .done => (s.conns fd).map fun _ => ((s.goto next).setConn fd none).setReady fd false
    | .error _ => some (s.goto next)
    | .count _ => none
  | .aborted _ => none
  | .exited => none

def step (s : State) : Action → Option State
  | .connect => some (({ s with connections := s.connections + 1 }).setReady sockets.lfd true)
  | .datagram d => some (({ s with datagrams := s.datagrams ++ [d] }).setReady sockets.udpfd true)
  | .data fd bytes => arriveAt s fd fun c => { c with data := c.data ++ bytes }
  | .hangup fd => arriveAt s fd fun c => { c with peerClosed := true }
  | .report batch => reportStep s batch
  | .server outcome => serverStep sockets s outcome

def initial (connections : Nat) (datagrams : List Datagram) : State where
  pc := .waiting
  ready := fun fd => decide ((fd = sockets.lfd ∧ 0 < connections) ∨ (fd = sockets.udpfd ∧ datagrams ≠ []))
  connections := connections
  datagrams := datagrams
  conns := fun _ => none
  udpbuf := []
  tcpbuf := []
  replies := []

end SystemProgramming.EpollEcho
