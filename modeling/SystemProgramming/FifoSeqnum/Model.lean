import Mathlib.Logic.Function.Basic
import SystemProgramming.Kernel
import SystemProgramming.Library.Buffer
import SystemProgramming.Library.Records
import SystemProgramming.Library.Transition

namespace SystemProgramming.FifoSeqnum

open Records

abbrev Pid := BitVec 32

structure Request where
  seqLen : BitVec 32
  pid : Pid
  deriving DecidableEq

def requestCodec : Codec Request Byte where
  width := 8
  encode r := word32.encode r.seqLen ++ word32.encode r.pid
  decode bytes := ⟨word32.decode bytes, word32.decode (bytes.drop word32.width)⟩
  width_pos := by decide
  length_encode _ := rfl
  decode_encode r rest := by
    rw [List.append_assoc, word32.decode_encode, List.drop_left' (word32.length_encode _),
      word32.decode_encode]

def sizeofRequest : Nat := requestCodec.width
def sizeofResponse : Nat := word32.width

inductive ServerPc where
  | mkfifo
  | openServer
  | openDummy
  | read
  | openClient
  | update
  | write
  | exited
  deriving DecidableEq, Repr

/-- `req` is the memory of the variable of that name. `fds` lists the client FIFOs that the server
    has opened, named by their pids: the first is `clientFd`, and no statement closes one. -/
structure Server where
  pc : ServerPc
  req : List Byte
  rspSeqNum : BitVec 32
  seqNum : BitVec 32
  fds : List Pid

def Server.request (server : Server) : Request := requestCodec.decode server.req

inductive ClientPc where
  | openServer
  | mkfifo
  | atexit
  | write
  | openFifo
  | read
  | report
  | exiting (status : ExitStatus)
  | exited (status : ExitStatus)
  deriving DecidableEq, Repr

structure Client where
  pc : ClientPc
  rsp : List Byte

/-- A response that was written to the FIFO of `fifo`, with the request it was computed for. -/
structure Answer where
  fifo : Pid
  req : Request
  seqNum : BitVec 32
  deriving DecidableEq

/-- Clients and their FIFOs are indexed by pid. The last four fields list the requests written and
    read and the responses computed and written; no statement looks at them. -/
structure State where
  server : Server
  serverFifo : Bool
  pipe : List Byte
  clients : Pid → Client
  fifos : Pid → Option (List Byte)
  requested : List Request
  taken : List Request
  computed : List (Request × BitVec 32)
  answers : List Answer

inductive Action where
  | server (outcome : Outcome)
  | client (pid : Pid) (outcome : Outcome)

namespace State

def serverAt (s : State) (pc : ServerPc) : State := { s with server := { s.server with pc } }

def setClient (s : State) (pid : Pid) (c : Client) : State :=
  { s with clients := Function.update s.clients pid c }

def setFifo (s : State) (pid : Pid) (content : Option (List Byte)) : State :=
  { s with fifos := Function.update s.fifos pid content }

def HasReader (s : State) (pid : Pid) : Prop :=
  (s.clients pid).pc = .openFifo ∨ (s.clients pid).pc = .read

def HasWriter (s : State) (pid : Pid) : Prop :=
  (s.server.pc = .openClient ∧ s.server.request.pid = pid) ∨ pid ∈ s.server.fds

instance (s : State) (pid : Pid) : Decidable (s.HasReader pid) := inferInstanceAs (Decidable (_ ∨ _))
instance (s : State) (pid : Pid) : Decidable (s.HasWriter pid) := inferInstanceAs (Decidable (_ ∨ _))

end State

def readRequest (s : State) (n : Nat) : State :=
  let req := Buffer.overwrite (s.pipe.take n) s.server.req
  if n = sizeofRequest then
    { s with
      server := { s.server with pc := .openClient, req }
      pipe := s.pipe.drop n
      taken := s.taken ++ [requestCodec.decode req] }
  else { s with server := { s.server with req }, pipe := s.pipe.drop n }

def updateSeqNum (s : State) : State :=
  let seqNum := s.server.seqNum + s.server.request.seqLen
  { s with
    server := { s.server with pc := .write, seqNum, rspSeqNum := seqNum }
    computed := s.computed ++ [(s.server.request, seqNum)] }

def serverStep (s : State) (outcome : Outcome) : Option State :=
  match s.server.pc with
  | .mkfifo =>
    match outcome with
    | .done => if s.serverFifo then none else some { s.serverAt .openServer with serverFifo := true }
    | .error errno => some (s.serverAt (if errno = .EEXIST then .exited else .openServer))
    | .count _ => none
  | .openServer =>
    match outcome with
    | .done => if s.serverFifo then some (s.serverAt .openDummy) else none
    | .error _ => some (s.serverAt .exited)
    | .count _ => none
  | .openDummy =>
    match outcome with
    | .done => if s.serverFifo then some (s.serverAt .read) else none
    | .error _ => some (s.serverAt .exited)
    | .count _ => none
  | .read =>
    match outcome with
    | .count n => if n = min sizeofRequest s.pipe.length ∧ 0 < n then some (readRequest s n) else none
    | .error _ => some s
    | .done => none
  | .openClient =>
    match outcome with
    | .done =>
      let pid := s.server.request.pid
      if (s.fifos pid).isSome ∧ s.HasReader pid then
        some { s with server := { s.server with pc := .update, fds := pid :: s.server.fds } }
      else none
    | .error _ => some (s.serverAt .read)
    | .count _ => none
  | .update =>
    match outcome with
    | .done => some (updateSeqNum s)
    | _ => none
  | .write =>
    match outcome with
    | .done =>
      match s.server.fds with
      | pid :: _ =>
        match s.fifos pid with
        | some content =>
          if s.HasReader pid then
            some { (s.serverAt .read).setFifo pid (some (content ++ word32.encode s.server.rspSeqNum)) with
              answers := s.answers ++ [⟨pid, s.server.request, s.server.rspSeqNum⟩] }
          else none
        | none => none
      | [] => none
    | .error _ => some (s.serverAt .read)
    | .count _ => none
  | .exited => none

variable (argv : Pid → BitVec 32) (capacity : Nat)

def request (pid : Pid) : Request := ⟨argv pid, pid⟩

def clientStep (s : State) (pid : Pid) (outcome : Outcome) : Option State :=
  let c := s.clients pid
  let goto (pc : ClientPc) := s.setClient pid { c with pc }
  match c.pc with
  | .openServer =>
    match outcome with
    | .done =>
      if s.serverFifo ∧ s.server.pc ≠ .mkfifo ∧ s.server.pc ≠ .exited then some (goto .mkfifo) else none
    | .error _ => some (goto (.exited .failure))
    | .count _ => none
  | .mkfifo =>
    match outcome with
    | .done => if s.fifos pid = none then some ((goto .atexit).setFifo pid (some [])) else none
    | .error errno => some (goto (if errno = .EEXIST then .exited .failure else .atexit))
    | .count _ => none
  | .atexit =>
    match outcome with
    | .done => some (goto .write)
    | .error _ => some (goto (.exited .failure))
    | .count _ => none
  | .write =>
    match outcome with
    | .done =>
      if s.pipe.length + sizeofRequest ≤ capacity then
        some { goto .openFifo with
          pipe := s.pipe ++ requestCodec.encode (request argv pid)
          requested := s.requested ++ [request argv pid] }
      else none
    | .error _ => some (goto (.exiting .failure))
    | .count _ => none
  | .openFifo =>
    match outcome with
    | .done => if (s.fifos pid).isSome ∧ s.HasWriter pid then some (goto .read) else none
    | .error _ => some (goto (.exiting .failure))
    | .count _ => none
  | .read =>
    match outcome with
    | .count n =>
      match s.fifos pid with
      | some content =>
        if n = min sizeofResponse content.length ∧ 0 < n then
          let pc := if n = sizeofRequest then .report else .exiting .failure
          some ((s.setClient pid ⟨pc, Buffer.overwrite (content.take n) c.rsp⟩).setFifo pid
            (some (content.drop n)))
        else none
      | none => none
    | .error _ => some (goto (.exiting .failure))
    | .done => none
  | .report =>
    match outcome with
    | .done => some (goto (.exiting .success))
    | _ => none
  | .exiting status =>
    match outcome with
    | .done =>
      if (s.fifos pid).isSome then some ((goto (.exited status)).setFifo pid none) else none
    | .error _ => some (goto (.exited status))
    | .count _ => none
  | .exited _ => none

def step (s : State) : Action → Option State
  | .server outcome => serverStep s outcome
  | .client pid outcome => clientStep argv capacity s pid outcome

def initial (serverFifo : Bool) (left : Pid → Bool) (req : List Byte) (rsp : BitVec 32) : State where
  server := ⟨.mkfifo, req, rsp, 0, []⟩
  serverFifo := serverFifo
  pipe := []
  clients := fun _ => ⟨.openServer, []⟩
  fifos := fun pid => if left pid then some [] else none
  requested := []
  taken := []
  computed := []
  answers := []

end SystemProgramming.FifoSeqnum
