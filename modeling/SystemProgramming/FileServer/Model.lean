import Mathlib.Algebra.Group.Int.Defs
import Mathlib.Algebra.Group.Nat.Defs
import Mathlib.Algebra.GroupWithZero.Nat
import Mathlib.Tactic.Common
import SystemProgramming.Kernel
import SystemProgramming.Library.Buffer
import SystemProgramming.Library.Transition

namespace SystemProgramming.FileServer

def PATH_MAX : Nat := 4096
def REQ_MSG_SIZE : Nat := 4 + PATH_MAX
def RESP_MSG_SIZE : Nat := 8192

def RESP_MT_FAILURE : Int := 1
def RESP_MT_DATA : Int := 2
def RESP_MT_END : Int := 3

structure RequestMsg where
  mtype : Int
  clientId : Nat
  pathname : List Byte
  deriving DecidableEq

structure ResponseMsg where
  mtype : Int
  data : List Byte
  deriving DecidableEq

/-- What `msgsnd` finds at `&req`: the pointer itself where a message type belongs, and behind
    it the stack above the parameter. -/
structure StackImage where
  pointer : Int
  above : List Byte
  size : above.length = REQ_MSG_SIZE

def StackImage.message (image : StackImage) : ResponseMsg := ⟨image.pointer, image.above⟩

def stackImage (pointer : Int) : StackImage := ⟨pointer, List.replicate REQ_MSG_SIZE 0, by simp⟩

inductive ChildPc where
  | opening
  | failing
  | reading
  | sending (numRead : Nat)
  | closing
  | exited (status : ExitStatus)
  deriving DecidableEq, Repr

/-- A child in `serveRequest`. `rest` is the file behind the offset of `fd`, and `lost` is what
    an early end of the loop leaves unsent; no statement looks at `lost`. -/
structure Child where
  pc : ChildPc
  req : RequestMsg
  resp : ResponseMsg
  rest : List Byte
  image : StackImage
  lost : List Byte

def text (s : String) : List Byte := s.toList.map fun c => BitVec.ofNat 8 c.toNat

def snprintf (buf : List Byte) (size : Nat) (output : List Byte) : List Byte :=
  Buffer.overwrite (output.take (size - 1) ++ [0]) buf

namespace Child

def finish (k : Child) (lost : List Byte) : Child :=
  { k with
    pc := .closing
    resp := ⟨RESP_MT_END, snprintf k.resp.data RESP_MSG_SIZE
      (text "file " ++ k.req.pathname ++ text " is completed\n")⟩
    lost := lost }

def step (files : List Byte → Option (List Byte)) (k : Child) (outcome : Outcome) :
    Option (Child × Option ResponseMsg) :=
  match k.pc with
  | .opening =>
    match outcome with
    | .done => (files k.req.pathname).map fun content =>
        ({ k with pc := .reading, rest := content, resp := { k.resp with mtype := RESP_MT_DATA } }, none)
    | .error _ => some ({ k with
        pc := .failing
        resp := ⟨RESP_MT_FAILURE, snprintf k.resp.data RESP_MSG_SIZE
          (text "file " ++ k.req.pathname ++ text " couldn't open\n")⟩ }, none)
    | .count _ => none
  | .failing =>
    match outcome with
    | .done => some ({ k with pc := .exited .success },
        some ⟨k.resp.mtype, k.resp.data.take REQ_MSG_SIZE⟩)
    | .error _ => some ({ k with pc := .exited .failure }, none)
    | .count _ => none
  | .reading =>
    match outcome with
    | .count n =>
      if n ≤ RESP_MSG_SIZE ∧ n ≤ k.rest.length ∧ (n = 0 ↔ k.rest = []) then
        if 0 < n then
          some ({ k with
            pc := .sending n
            resp := { k.resp with data := Buffer.overwrite (k.rest.take n) k.resp.data }
            rest := k.rest.drop n }, none)
        else some (k.finish [], none)
      else none
    | .error _ => some (k.finish k.rest, none)
    | .done => none
  | .sending n =>
    match outcome with
    | .done => some ({ k with pc := .reading }, some ⟨k.resp.mtype, k.resp.data.take n⟩)
    | .error _ => some (k.finish (k.resp.data.take n ++ k.rest), none)
    | .count _ => none
  | .closing =>
    match outcome with
    | .done => some ({ k with pc := .exited .success }, some k.image.message)
    | .error _ => some ({ k with pc := .exited .failure }, none)
    | .count _ => none
  | .exited _ => none

end Child

inductive ClientPc where
  | msgget
  | atexit
  | request
  | receiveFirst
  | test
  | receive
  | report
  | removing
  | exiting (status : ExitStatus)
  | exited (status : ExitStatus)
  deriving DecidableEq, Repr

structure Envelope where
  sender : Nat
  msg : ResponseMsg
  deriving DecidableEq

structure Client where
  pc : ClientPc
  resp : ResponseMsg
  numTotal : Nat
  numMsgs : Nat
  received : List Envelope

namespace Client

def first (c : Client) (e : Envelope) : Client :=
  if e.msg.mtype = RESP_MT_FAILURE then
    { c with pc := .removing, resp := e.msg, received := c.received ++ [e] }
  else
    ⟨.test, e.msg, e.msg.data.length, 1, c.received ++ [e]⟩

def next (c : Client) (e : Envelope) : Client :=
  ⟨.test, e.msg, c.numTotal + e.msg.data.length, c.numMsgs + 1, c.received ++ [e]⟩

end Client

inductive ServerPc where
  | receive
  | fork (req : RequestMsg)
  | removing
  | exited
  deriving DecidableEq

structure State where
  serverQueue : Option (List RequestMsg)
  server : ServerPc
  children : Nat → Option Child
  clients : Nat → Client
  queues : Nat → Option (List Envelope)

inductive Action where
  | server (outcome : Outcome)
  | fork (pid : Nat) (data : List Byte) (image : StackImage)
  | child (pid : Nat) (outcome : Outcome)
  | client (id : Nat) (outcome : Outcome)

namespace State

def setChild (s : State) (pid : Nat) (k : Child) : State :=
  { s with children := Function.update s.children pid (some k) }

def setClient (s : State) (id : Nat) (c : Client) : State :=
  { s with clients := Function.update s.clients id c }

def setQueue (s : State) (id : Nat) (queue : Option (List Envelope)) : State :=
  { s with queues := Function.update s.queues id queue }

end State

variable (files : List Byte → Option (List Byte)) (argv : Nat → List Byte) (qbytes : Nat)

def request (id : Nat) : RequestMsg := ⟨1, id, argv id⟩

def Fits (sizes : List Nat) (size : Nat) : Prop :=
  sizes.sum + size ≤ qbytes ∧ sizes.length < qbytes

instance (sizes : List Nat) (size : Nat) : Decidable (Fits qbytes sizes size) :=
  inferInstanceAs (Decidable (_ ∧ _))

/-- `msgsnd` on a private queue: a type below 1 is refused, and a full queue blocks. -/
def msgsnd (s : State) (id : Nat) (e : Envelope) : Option State :=
  match s.queues id with
  | some queue =>
    if 0 < e.msg.mtype ∧ Fits qbytes (queue.map (·.msg.data.length)) e.msg.data.length then
      some (s.setQueue id (some (queue ++ [e])))
    else none
  | none => none

def msgrcv (s : State) (id : Nat) : Option (Envelope × State) :=
  match s.queues id with
  | some (e :: queue) =>
    if e.msg.data.length ≤ RESP_MSG_SIZE then some (e, s.setQueue id (some queue)) else none
  | _ => none

/-- One statement of the dispatch loop; a failed `fork` goes on to the next request. -/
def serverStep (s : State) (outcome : Outcome) : Option State :=
  match s.server with
  | .receive =>
    match outcome with
    | .done =>
      match s.serverQueue with
      | some (req :: queue) => some { s with serverQueue := some queue, server := .fork req }
      | _ => none
    | .error errno => some { s with server := if errno = .EINTR then .receive else .removing }
    | .count _ => none
  | .fork _ =>
    match outcome with
    | .error _ => some { s with server := .receive }
    | _ => none
  | .removing =>
    match outcome with
    | .done => some { s with serverQueue := none, server := .exited }
    | .error _ => some { s with server := .exited }
    | .count _ => none
  | .exited => none

def forkStep (s : State) (pid : Nat) (data : List Byte) (image : StackImage) : Option State :=
  match s.server, s.children pid with
  | .fork req, none =>
    some ({ s with server := .receive }.setChild pid ⟨.opening, req, ⟨0, data⟩, [], image, []⟩)
  | _, _ => none

def childStep (s : State) (pid : Nat) (outcome : Outcome) : Option State :=
  (s.children pid).bind fun k =>
    (k.step files outcome).bind fun (k', sent) =>
      match sent with
      | none => some (s.setChild pid k')
      | some msg => msgsnd qbytes (s.setChild pid k') k.req.clientId ⟨pid, msg⟩

def clientStep (s : State) (id : Nat) (outcome : Outcome) : Option State :=
  let c := s.clients id
  let goto (pc : ClientPc) := s.setClient id { c with pc }
  match c.pc with
  | .msgget =>
    match outcome with
    | .done => if s.queues id = none then some ((goto .atexit).setQueue id (some [])) else none
    | .error _ => some (goto (.exited .failure))
    | .count _ => none
  | .atexit =>
    match outcome with
    | .done => some (goto .request)
    | .error _ => some (goto (.exited .failure))
    | .count _ => none
  | .request =>
    match outcome with
    | .done => s.serverQueue.bind fun queue =>
        if Fits qbytes (queue.map fun _ => REQ_MSG_SIZE) REQ_MSG_SIZE then
          some { goto .receiveFirst with serverQueue := some (queue ++ [request argv id]) }
        else none
    | .error _ => some (goto (.exiting .failure))
    | .count _ => none
  | .receiveFirst =>
    match outcome with
    | .done => (msgrcv s id).map fun (e, s') => s'.setClient id (c.first e)
    | .error _ => some (goto (.exiting .failure))
    | .count _ => none
  | .test =>
    match outcome with
    | .done => some (goto (if c.resp.mtype = RESP_MT_DATA then .receive else .report))
    | _ => none
  | .receive =>
    match outcome with
    | .done => (msgrcv s id).map fun (e, s') => s'.setClient id (c.next e)
    | .error _ => some (goto (.exiting .failure))
    | .count _ => none
  | .report =>
    match outcome with
    | .done => some (goto (.exiting .success))
    | _ => none
  | .removing =>
    match outcome with
    | .done => some ((goto (.exiting .failure)).setQueue id none)
    | .error _ => some (goto (.exiting .failure))
    | .count _ => none
  | .exiting status =>
    match outcome with
    | .done => some ((goto (.exited status)).setQueue id none)
    | .error _ => some (goto (.exited status))
    | .count _ => none
  | .exited _ => none

def step (s : State) : Action → Option State
  | .server outcome => serverStep s outcome
  | .fork pid data image => forkStep s pid data image
  | .child pid outcome => childStep files qbytes s pid outcome
  | .client id outcome => clientStep argv qbytes s id outcome

def initial : State where
  serverQueue := some []
  server := .receive
  children := fun _ => none
  clients := fun _ => ⟨.msgget, ⟨0, []⟩, 0, 0, []⟩
  queues := fun _ => none

end SystemProgramming.FileServer
