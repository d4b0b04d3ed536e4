import SystemProgramming.Kernel
import SystemProgramming.Library.PeerAddress
import SystemProgramming.Library.Transition

namespace SystemProgramming.UcaseService

open PeerAddress

def BUF_SIZE : Nat := 10

def sockaddrIn6 : Nat := 28

abbrev SockAddr := Address Byte sockaddrIn6

abbrev Datagram := SockAddr × List Byte

def toupper (c : Byte) : Byte := if 97 ≤ c.toNat ∧ c.toNat ≤ 122 then c - 32 else c

def upperCase (numRead : Nat) (buf : List Byte) : List Byte :=
  (List.range numRead).foldl (fun buf j => buf.modify j toupper) buf

inductive ServerPc where
  | receiving
  | converting
  | sending
  | exited (status : ExitStatus)
  deriving DecidableEq

structure Server where
  pc : ServerPc
  buf : List Byte
  numRead : Nat
  caddr : Holder Byte

inductive ClientPc where
  | sending
  | receiving
  | printing
  | exited (status : ExitStatus)
  deriving DecidableEq

structure Client where
  pc : ClientPc
  i : Nat
  args : List CString
  rsp : List Byte
  numRead : Nat
  printed : List (Nat × List Byte)

/-- `requests` and `replies` are the datagrams under way; any of them may arrive next. -/
structure State where
  server : Server
  clients : SockAddr → Client
  requests : List Datagram
  replies : List Datagram

inductive Action where
  | server (arrived : Datagram) (outcome : Outcome)
  | client (caddr : SockAddr) (arrived : List Byte) (outcome : Outcome)

namespace State

def setServer (s : State) (server : Server) : State := { s with server := server }

def setClient (s : State) (caddr : SockAddr) (c : Client) : State :=
  { s with clients := Function.update s.clients caddr c }

end State

def serverStep (s : State) (arrived : Datagram) (outcome : Outcome) : Option State :=
  let v := s.server
  match v.pc with
  | .receiving =>
    match outcome with
    | .count n =>
      if arrived ∈ s.requests ∧ n = min arrived.2.length BUF_SIZE then
        some { s.setServer { v with
            pc := .converting
            buf := Buffer.overwrite (arrived.2.take n) v.buf
            numRead := n
            caddr := v.caddr.store arrived.1 } with
          requests := s.requests.erase arrived }
      else none
    | .error _ => some (s.setServer { v with pc := .exited .failure })
    | .done => none
  | .converting =>
    match outcome with
    | .done => some (s.setServer { v with pc := .sending, buf := upperCase v.numRead v.buf })
    | _ => none
  | .sending =>
    match outcome with
    | .count n =>
      (v.caddr.peer sockaddrIn6).bind fun peer =>
        if n = v.numRead then
          some { s.setServer { v with pc := .receiving } with
            replies := s.replies ++ [(peer, v.buf.take n)] }
        else none
    | .error _ => some (s.setServer { v with pc := .exited .failure })
    | .done => none
  | .exited _ => none

def clientStep (s : State) (caddr : SockAddr) (arrived : List Byte) (outcome : Outcome) :
    Option State :=
  let c := s.clients caddr
  match c.pc with
  | .sending =>
    match c.args, outcome with
    | [], .done => some (s.setClient caddr { c with pc := .exited .success })
    | msg :: _, .count n =>
      if n = msg.val.length then
        some { s.setClient caddr { c with pc := .receiving } with
          requests := s.requests ++ [(caddr, msg.val)] }
      else none
    | _ :: _, .error _ => some (s.setClient caddr { c with pc := .exited .failure })
    | _, _ => none
  | .receiving =>
    match outcome with
    | .count n =>
      if (caddr, arrived) ∈ s.replies ∧ n = min arrived.length BUF_SIZE then
        some { s.setClient caddr { c with
            pc := .printing
            rsp := Buffer.overwrite (arrived.take n) c.rsp
            numRead := n } with
          replies := s.replies.erase (caddr, arrived) }
      else none
    | .error _ => some (s.setClient caddr { c with pc := .exited .failure })
    | .done => none
  | .printing =>
    match outcome with
    | .done => some (s.setClient caddr { c with
        pc := .sending
        i := c.i + 1
        args := c.args.tail
        printed := c.printed ++ [(c.i - 1, formatString c.numRead c.rsp)] })
    | _ => none
  | .exited _ => none

def step (s : State) : Action → Option State
  | .server arrived outcome => serverStep s arrived outcome
  | .client caddr arrived outcome => clientStep s caddr arrived outcome

/-- What the variables hold before the first call fills them. -/
structure Junk where
  buf : List Byte
  caddr : List Byte
  numRead : Nat
  rsp : SockAddr → List Byte
  rspRead : SockAddr → Nat

def initial (args : SockAddr → List CString) (junk : Junk) : State where
  server := ⟨.receiving, junk.buf, junk.numRead, ⟨junk.caddr, sockaddrIn6⟩⟩
  clients := fun caddr => ⟨.sending, 2, args caddr, junk.rsp caddr, junk.rspRead caddr, []⟩
  requests := []
  replies := []

end SystemProgramming.UcaseService
