import SystemProgramming.CommandLine
import SystemProgramming.Library.Buffer
import SystemProgramming.Library.CMemory
import SystemProgramming.Library.CNumber
import SystemProgramming.Library.MessageQueue
import SystemProgramming.Library.Transition

namespace SystemProgramming.SvmsgTools

open Getopt CNumber

def MAX_MTEXT : Nat := 1024
def IPC_NOWAIT : BitVec 32 := 2048
def MSG_NOERROR : BitVec 32 := 4096

/-- A message on a queue. `text` is the argument that it was made from; no statement looks at it. -/
structure Message where
  mtype : Int
  mtext : List Byte
  text : CString
  deriving DecidableEq

def noText : CString := ⟨[], List.not_mem_nil⟩

structure Sending where
  msqid : BitVec 32
  msg : Message
  flags : BitVec 32
  deriving DecidableEq

def sendOption (flags : BitVec 32) : Event → Option (BitVec 32)
  | .option 110 _ => some (flags ||| IPC_NOWAIT)
  | _ => none

def svmsg_send (line : CommandLine) : Option Sending :=
  let (events, operands) := line.parse [110]
  (events.foldlM sendOption 0).bind fun flags =>
    match operands with
    | [msqid, mtype] => some ⟨atoi msqid.1, ⟨atol mtype.1, [], noText⟩, flags⟩
    | [msqid, mtype, text] =>
      let msgLen := text.1.length + 1
      if MAX_MTEXT < msgLen then none else some ⟨atoi msqid.1, ⟨atol mtype.1, text.1 ++ [0], text⟩, flags⟩
    | _ => none

structure Options where
  flags : BitVec 32
  type : BitVec 32
  deriving DecidableEq

/-- `x` is as bad as an unknown letter, since `MSG_EXCEPT` is defined. -/
def receiveOption (o : Options) : Event → Option Options
  | .option 101 _ => some { o with flags := o.flags ||| MSG_NOERROR }
  | .option 110 _ => some { o with flags := o.flags ||| IPC_NOWAIT }
  | .option 116 (some optarg) => some { o with type := atoi optarg }
  | _ => none

structure Receiving where
  msqid : BitVec 32
  maxBytes : BitVec 32
  type : BitVec 32
  flags : BitVec 32
  deriving DecidableEq

/-- `svmsg_receive` up to its `msgrcv`. The option string is `ent:x`. -/
def svmsg_receive (line : CommandLine) : Option Receiving :=
  let (events, operands) := line.parse [101, 110, 116, 58, 120]
  (events.foldlM receiveOption ⟨0, 0⟩).bind fun o =>
    match operands with
    | [msqid] => some ⟨atoi msqid.1, BitVec.ofNat 32 MAX_MTEXT, o.type, o.flags⟩
    | [msqid, maxBytes] => some ⟨atoi msqid.1, atoi maxBytes.1, o.type, o.flags⟩
    | _ => none

structure Received where
  msg : Message
  stored : List Byte
  rest : List Message
  deriving DecidableEq

/-- `msgrcv`: a negative size is refused, and so is a message that is too long, unless it may be cut. -/
def msgrcv (queue : List Message) (r : Receiving) : Option Received :=
  if r.maxBytes.toInt < 0 then none
  else
    (MessageQueue.take (·.mtype) queue r.type.toInt).bind fun (msg, rest) =>
      if r.maxBytes.toNat < msg.mtext.length then
        if r.flags &&& MSG_NOERROR ≠ 0 then some ⟨msg, msg.mtext.take r.maxBytes.toNat, rest⟩ else none
      else some ⟨msg, msg.mtext, rest⟩

def printString (memory : List Byte) : Option (List Byte) :=
  if memory.contains 0 then some (CMemory.text 0 memory) else none

/-- The text behind `; body=`, none printed for length 0. `memory` lies at `msg.mtext` before the call
    of `msgrcv`, and goes on behind the buffer. -/
def body (memory stored : List Byte) : Option (List Byte) :=
  if 0 < stored.length then printString (Buffer.overwrite stored memory) else some []

abbrev State := BitVec 32 → List Message

def receive (s : State) (line : CommandLine) : Option (Receiving × Received) :=
  (svmsg_receive line).bind fun r => (msgrcv (s r.msqid) r).map fun received => (r, received)

inductive Action where
  | send (line : CommandLine) (outcome : Outcome)
  | receive (line : CommandLine) (outcome : Outcome)

def step (s : State) : Action → Option State
  | .send line outcome =>
    match outcome with
    | .done =>
      (svmsg_send line).bind fun sending =>
        if 0 < sending.msg.mtype then
          some (Function.update s sending.msqid (s sending.msqid ++ [sending.msg]))
        else none
    | .error _ => some s
    | .count _ => none
  | .receive line outcome =>
    match outcome with
    | .done => (receive s line).map fun (r, received) => Function.update s r.msqid received.rest
    | .error _ => some s
    | .count _ => none

def empty : State := fun _ => []

end SystemProgramming.SvmsgTools
