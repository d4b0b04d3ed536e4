import SystemProgramming.Kernel
import SystemProgramming.Library.Descriptors
import SystemProgramming.Library.PeerAddress
import SystemProgramming.Library.Transition

namespace SystemProgramming.IdEcho

open PeerAddress

def BUF_SIZE : Nat := 500

def sockaddrStorage : Nat := 128

structure Family where
  size : Nat
  fits : size ≤ sockaddrStorage

inductive File where
  | socket
  | inherited
  deriving DecidableEq

/-- The `int` that `result == -1` is; `none` stands for the result -1. -/
def equalsMinusOne {α : Type} (result : Option α) : Nat :=
  match result with
  | none => 1
  | some _ => 0

inductive ClientPc where
  | connecting
  | writing
  | reading
  | printing
  | exited (status : ExitStatus)
  deriving DecidableEq

structure Client where
  pc : ClientPc
  files : Descriptors File
  fd : Nat
  args : List CString
  buf : List Byte
  numRead : BitVec 64
  requests : List (List Byte)
  replies : List (List Byte)
  printed : List (Int × List Byte)

inductive ServerPc where
  | receiving
  | sending
  deriving DecidableEq

variable (family : Family)

abbrev Addr := Address Byte family.size

/-- `taken` and `echoed` are the datagrams that the server has received and sent, with the client
    that each came from or went to. -/
structure State where
  pc : ServerPc
  numRead : Nat
  addr : Holder Byte
  buf : List Byte
  clients : Addr family → Client
  taken : List (Addr family × List Byte)
  echoed : List (Addr family × List Byte)

inductive Action where
  | server (sender : Addr family) (outcome : Outcome)
  | client (addr : Addr family) (outcome : Outcome) (bytes : List Byte)

variable {family}

def State.setClient (s : State family) (addr : Addr family) (c : Client) : State family :=
  { s with clients := Function.update s.clients addr c }

def serverStep (s : State family) (sender : Addr family) (outcome : Outcome) : Option (State family) :=
  match s.pc with
  | .receiving =>
    match outcome with
    | .count n =>
      match (s.clients sender).requests with
      | datagram :: requests =>
        if n = min datagram.length BUF_SIZE then
          let numRead := equalsMinusOne (some n)
          some { s.setClient sender { s.clients sender with requests := requests } with
            numRead := numRead
            addr := s.addr.store sender
            buf := Buffer.overwrite (datagram.take n) s.buf
            taken := s.taken ++ [(sender, datagram)]
            pc := if numRead ≠ 0 then .receiving else .sending }
        else none
      | [] => none
    | .error _ =>
      let numRead := equalsMinusOne (none : Option Nat)
      some { s with numRead := numRead, pc := if numRead ≠ 0 then .receiving else .sending }
    | .done => none
  | .sending =>
    match outcome with
    | .count n =>
      (s.addr.peer family.size).bind fun peer =>
        if n = s.numRead then
          some { s.setClient peer { s.clients peer with
              replies := (s.clients peer).replies ++ [s.buf.take n] } with
            echoed := s.echoed ++ [(peer, s.buf.take n)]
            pc := .receiving }
        else none
    | .error _ => some { s with pc := .receiving }
    | .done => none

/-- `inetConnect` opens the socket; what `fd` gets is the comparison of its result with -1. -/
def connect (c : Client) (outcome : Outcome) : Option Client :=
  match outcome with
  | .done =>
    let fd := equalsMinusOne (some c.files.lowest)
    some { c with
      files := c.files.install c.files.lowest .socket
      fd := fd
      pc := if fd ≠ 0 then .exited .failure else .writing }
  | .error _ =>
    let fd := equalsMinusOne (none : Option Nat)
    some { c with fd := fd, pc := if fd ≠ 0 then .exited .failure else .writing }
  | .count _ => none

def write (c : Client) (outcome : Outcome) : Option Client :=
  match c.args, outcome with
  | [], .done => some { c with pc := .exited .success }
  | arg :: _, .count n =>
    match c.files.file c.fd with
    | some .socket =>
      if n = arg.val.length then
        some { c with pc := .reading, requests := c.requests ++ [arg.val] }
      else none
    | some .inherited =>
      if n ≤ arg.val.length then
        some { c with pc := if n ≠ arg.val.length then .exited .failure else .reading }
      else none
    | none => none
  | _ :: _, .error _ => some { c with pc := .exited .failure }
  | _, _ => none

def read (c : Client) (outcome : Outcome) (bytes : List Byte) : Option Client :=
  match outcome with
  | .count n =>
    match c.files.file c.fd with
    | some .socket =>
      match c.replies with
      | datagram :: replies =>
        if n = min datagram.length BUF_SIZE then
          some { c with
            pc := .printing
            buf := Buffer.overwrite (datagram.take n) c.buf
            replies := replies }
        else none
      | [] => none
    | some .inherited =>
      if n = bytes.length ∧ n ≤ BUF_SIZE then
        some { c with pc := .printing, buf := Buffer.overwrite bytes c.buf }
      else none
    | none => none
  | .error _ => some { c with pc := .exited .failure }
  | .done => none

/-- The line shows `numRead`, to which nothing was ever assigned. -/
def print (c : Client) (outcome : Outcome) : Option Client :=
  match outcome with
  | .done => some { c with
      pc := .writing
      args := c.args.tail
      printed := c.printed ++
        [(c.numRead.toInt, formatString (c.numRead.setWidth 32).toInt c.buf)] }
  | _ => none

def clientStep (c : Client) (outcome : Outcome) (bytes : List Byte) : Option Client :=
  match c.pc with
  | .connecting => connect c outcome
  | .writing => write c outcome
  | .reading => read c outcome bytes
  | .printing => print c outcome
  | .exited _ => none

def step (s : State family) : Action family → Option (State family)
  | .server sender outcome => serverStep s sender outcome
  | .client addr outcome bytes => (clientStep (s.clients addr) outcome bytes).map (s.setClient addr)

structure Start where
  args : List CString
  fits : ∀ arg ∈ args, arg.val.length ≤ BUF_SIZE
  files : Descriptors File
  inherited : ∀ fd, files.file fd ≠ some .socket
  buf : List Byte
  numRead : BitVec 64

def Start.client (start : Start) : Client :=
  ⟨.connecting, start.files, 0, start.args, start.buf, start.numRead, [], [], []⟩

def initial (starts : Addr family → Start) (buf addr : List Byte) (numRead : Nat) : State family where
  pc := .receiving
  numRead := numRead
  addr := ⟨addr, sockaddrStorage⟩
  buf := buf
  clients := fun addr => (starts addr).client
  taken := []
  echoed := []

end SystemProgramming.IdEcho
