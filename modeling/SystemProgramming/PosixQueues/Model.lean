import SystemProgramming.CommandLine
import SystemProgramming.Library.CNumber
import SystemProgramming.Library.PriorityQueue
import SystemProgramming.Library.Transition
import SystemProgramming.PosixQueueTools

namespace SystemProgramming.PosixQueues

open Getopt CNumber PosixQueueTools

def O_CREAT : BitVec 32 := 64
def O_EXCL : BitVec 32 := 128
def MQ_PRIO_MAX : Nat := 32768

def ownerReadWrite : BitVec 32 := 384

structure Message where
  text : Text
  prio : BitVec 32
  deriving DecidableEq

def urgency (m : Message) : Nat := m.prio.toNat

structure Queue where
  maxmsg : Nat
  msgsize : Nat
  messages : PriorityQueue urgency
  bounded : messages.items.length ≤ maxmsg
  fits : ∀ m ∈ messages.items, m.text.length ≤ msgsize

/-- `mq_send` waits while the queue is full, and refuses what is too long or too urgent. -/
def Queue.send (q : Queue) (m : Message) : Option Queue :=
  if accepted : m.text.length ≤ q.msgsize ∧ m.prio.toNat < MQ_PRIO_MAX ∧ q.messages.items.length < q.maxmsg then
    some { q with
      messages := q.messages.insert m
      bounded := by
        rw [PriorityQueue.length_insert]
        exact accepted.2.2
      fits := by
        intro x member
        rcases PriorityQueue.mem_insert.mp member with rfl | old
        · exact accepted.1
        · exact q.fits x old }
  else none

/-- `mq_receive` into `len` bytes waits while the queue is empty, and refuses a buffer that a message
    might not fit in. -/
def Queue.receive (q : Queue) (len : Nat) : Option (Message × Queue) :=
  if len < q.msgsize then none
  else
    match popped : q.messages.pop with
    | none => none
    | some (m, messages) =>
      some (m, { q with
        messages := messages
        bounded := by
          have whole := q.bounded
          rw [PriorityQueue.pop_items popped, List.length_cons] at whole
          omega
        fits := by
          intro x member
          apply q.fits
          rw [PriorityQueue.pop_items popped]
          exact List.mem_cons_of_mem _ member })

abbrev State := Text → Option Queue

structure Creating where
  name : Text
  flags : BitVec 32
  mode : BitVec 32
  maxmsg : Int
  msgsize : Int
  deriving DecidableEq

def createOption (c : Creating) : Event → Option Creating
  | .option 99 _ => some { c with flags := c.flags ||| O_CREAT }
  | .option 109 (some optarg) => some { c with maxmsg := atol optarg }
  | .option 115 (some optarg) => some { c with msgsize := atol optarg }
  | .option 120 _ => some { c with flags := c.flags ||| O_EXCL }
  | _ => none

/-- `pmsg_create` up to its `mq_open`. The option string is `cm:s:x`, and the permissions are read as a
    decimal number. -/
def pmsg_create (line : CommandLine) : Option Creating :=
  let (events, operands) := line.parse [99, 109, 58, 115, 58, 120]
  (events.foldlM createOption ⟨[], O_RDWR, ownerReadWrite, 50, 2048⟩).bind fun c =>
    match operands with
    | [] => none
    | [name] => some { c with name := name.val }
    | name :: perms :: _ => some { c with name := name.val, mode := atoi perms.val }

/-- What the system allows: the names of queues, how many messages one holds, and how long these are. -/
structure Limits where
  named : Text → Bool
  maxmsg : Nat
  msgsize : Nat

def mq_open (limits : Limits) (s : State) (c : Creating) : Option State :=
  match s c.name with
  | some _ => if c.flags &&& O_CREAT ≠ 0 ∧ c.flags &&& O_EXCL ≠ 0 then none else some s
  | none =>
    if c.flags &&& O_CREAT ≠ 0 ∧ limits.named c.name ∧ 0 < c.maxmsg ∧ c.maxmsg ≤ limits.maxmsg ∧
        0 < c.msgsize ∧ c.msgsize ≤ limits.msgsize then
      some (Function.update s c.name
        (some ⟨c.maxmsg.toNat, c.msgsize.toNat, .empty, Nat.zero_le _, fun _ member => nomatch member⟩))
    else none

/-- The option loop of a tool, which comes round only when `getopt` has gone past a `--`. -/
def toolLoop (tool : Tool) (line : CommandLine) (fuel : Nat) : Option (LoopResult Reading) :=
  optionLoop (line.mode.next optstring) tool.switch fuel O_RDWR (.start line.texts)

def readOperands (tool : Tool) (line : CommandLine) (parsed : Parsed Reading) : Option (List Text) :=
  let remaining := parsed.scan.remaining
  let optind := argc line.texts - remaining.length
  (tool.operands (argc line.texts) optind).bind fun indices => indices.mapM fun i => remaining[i - optind]?

def operands (tool : Tool) (line : CommandLine) : Option (List Text) :=
  match toolLoop tool line (line.args.length + 1) with
  | some (.left parsed) => readOperands tool line parsed
  | _ => none

structure Sending where
  name : Text
  msg : Message
  deriving DecidableEq

def pmsg_send (line : CommandLine) : Option Sending :=
  match operands PosixQueueTools.pmsg_send line with
  | some [name, prio, text] => some ⟨name, text, atoi prio⟩
  | some [name, text] => some ⟨name, text, 0⟩
  | _ => none

def pmsg_receive (line : CommandLine) : Option Text :=
  match operands PosixQueueTools.pmsg_receive line with
  | some [_, name] => some name
  | some [name] => some name
  | _ => none

def receive (s : State) (line : CommandLine) : Option (Text × Message × Queue) :=
  (pmsg_receive line).bind fun name =>
    (s name).bind fun q => (q.receive q.msgsize).map fun (m, rest) => (name, m, rest)

inductive Action where
  | create (line : CommandLine) (outcome : Outcome)
  | send (line : CommandLine) (outcome : Outcome)
  | receive (line : CommandLine) (outcome : Outcome)

def step (limits : Limits) (s : State) : Action → Option State
  | .create line .done => (pmsg_create line).bind (mq_open limits s)
  | .send line .done =>
    (pmsg_send line).bind fun sending =>
      (s sending.name).bind fun q => (q.send sending.msg).map fun q => Function.update s sending.name (some q)
  | .receive line .done => (receive s line).map fun (name, _, rest) => Function.update s name (some rest)
  | .create _ (.error _) | .send _ (.error _) | .receive _ (.error _) => some s
  | .create _ (.count _) | .send _ (.count _) | .receive _ (.count _) => none

def empty : State := fun _ => none

end SystemProgramming.PosixQueues
