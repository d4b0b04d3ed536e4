import SystemProgramming.Kernel
import SystemProgramming.Library.Buffer
import SystemProgramming.Library.Channel

namespace SystemProgramming.UsXfr

def BUF_SIZE : Nat := 100
def BACKLOG : Nat := 5

def SIZE_MAX : Nat := 18446744073709551615

abbrev Id := Nat

inductive ClientPc where
  | connecting
  | reading
  | writing
  | exited (status : ExitStatus)
  deriving DecidableEq

structure Client where
  pc : ClientPc
  stdin : List Byte
  buf : List Byte
  numRead : Nat
  conn : Channel Byte

inductive ServerPc where
  | accepting
  | reading (id : Id)
  | writing (id : Id)
  | closing (id : Id)
  | exited (status : ExitStatus)
  deriving DecidableEq

/-- `accepted` and `closed` are the clients whose connections the server has accepted and closed. -/
structure State where
  pc : ServerPc
  buf : List Byte
  numRead : Nat
  stdout : List Byte
  backlog : List Id
  accepted : List Id
  closed : List Id
  clients : Id → Client

inductive Action where
  | client (id : Id) (outcome : Outcome)
  | server (outcome : Outcome)

namespace State

def goto (s : State) (pc : ServerPc) : State := { s with pc := pc }

def setClient (s : State) (id : Id) (c : Client) : State :=
  { s with clients := Function.update s.clients id c }

end State

def returned : Outcome → Nat
  | .count n => n
  | .done | .error _ => SIZE_MAX

/-- A failed `read` makes `numRead` positive, so that the loop goes on to `write`. -/
def clientRead (c : Client) (outcome : Outcome) : Option Client :=
  match outcome with
  | .count n =>
    if 0 < n ∧ n ≤ BUF_SIZE ∧ n ≤ c.stdin.length then
      some { c with
        pc := .writing
        stdin := c.stdin.drop n
        buf := Buffer.overwrite (c.stdin.take n) c.buf
        numRead := n }
    else if n = 0 ∧ c.stdin = [] then some { c with pc := .exited .success, numRead := 0 }
    else none
  | .error _ => some { c with pc := .writing, numRead := SIZE_MAX }
  | .done => none

def clientWrite (c : Client) (outcome : Outcome) : Option Client :=
  let pc := if returned outcome ≠ c.numRead then .exited .failure else .reading
  match outcome with
  | .count n =>
    if n ≤ c.numRead ∧ n ≤ BUF_SIZE then
      some { c with pc := pc, conn := c.conn.put (c.buf.take n) }
    else none
  | .error _ => some { c with pc := pc }
  | .done => none

def clientStep (s : State) (id : Id) (outcome : Outcome) : Option State :=
  let c := s.clients id
  match c.pc with
  | .connecting =>
    match outcome with
    | .done =>
      if s.backlog.length ≤ BACKLOG then
        some { s.setClient id { c with pc := .reading } with backlog := s.backlog ++ [id] }
      else none
    | .error _ => some (s.setClient id { c with pc := .exited .failure })
    | .count _ => none
  | .reading => (clientRead c outcome).map (s.setClient id)
  | .writing => (clientWrite c outcome).map (s.setClient id)
  | .exited _ => none

def ClientPc.hasExited : ClientPc → Bool
  | .exited _ => true
  | .connecting | .reading | .writing => false

def serverStep (s : State) (outcome : Outcome) : Option State :=
  match s.pc with
  | .accepting =>
    match outcome, s.backlog with
    | .done, id :: backlog =>
      some { s.goto (.reading id) with backlog := backlog, accepted := s.accepted ++ [id] }
    | .error _, _ => some (s.goto (.exited .failure))
    | _, _ => none
  | .reading id =>
    let c := s.clients id
    match outcome with
    | .count n =>
      if 0 < n ∧ n ≤ BUF_SIZE ∧ n ≤ c.conn.inFlight.length then
        some { (s.goto (.writing id)).setClient id { c with conn := c.conn.take n } with
          buf := Buffer.overwrite (c.conn.inFlight.take n) s.buf
          numRead := n }
      else if n = 0 ∧ c.conn.inFlight = [] ∧ c.pc.hasExited = true then
        some { s.goto (.closing id) with numRead := 0 }
      else none
    | .error _ => some { s.goto (.writing id) with numRead := SIZE_MAX }
    | .done => none
  | .writing id =>
    let pc := if returned outcome ≠ s.numRead then .exited .failure else .reading id
    match outcome with
    | .count n =>
      if n ≤ s.numRead ∧ n ≤ BUF_SIZE then
        some { s.goto pc with stdout := s.stdout ++ s.buf.take n }
      else none
    | .error _ => some (s.goto pc)
    | .done => none
  | .closing id =>
    match outcome with
    | .done => some { s.goto .accepting with closed := s.closed ++ [id] }
    | .error _ => some (s.goto (.exited .failure))
    | .count _ => none
  | .exited _ => none

def step (s : State) : Action → Option State
  | .client id outcome => clientStep s id outcome
  | .server outcome => serverStep s outcome

def initial (input : Id → List Byte) (buf : List Byte) (junk : Id → List Byte) : State where
  pc := .accepting
  buf := buf
  numRead := 0
  stdout := []
  backlog := []
  accepted := []
  closed := []
  clients := fun id => ⟨.connecting, input id, junk id, 0, Channel.empty⟩

end SystemProgramming.UsXfr
