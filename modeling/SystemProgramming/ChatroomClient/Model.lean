import Mathlib.Tactic.Common
import SystemProgramming.Kernel
import SystemProgramming.Library.Buffer
import SystemProgramming.Library.Transition

namespace SystemProgramming.ChatroomClient

def BUF_SIZE : Nat := 1024
def SPLICE_LEN : Nat := 32768

def EPIPE : Errno := .other 32

structure Revents where
  stdin : Bool
  pollin : Bool
  rdhup : Bool
  deriving DecidableEq

inductive Pc where
  | polling
  | receiving
  | filling
  | draining
  | closing
  | exited
  | aborted
  deriving DecidableEq

inductive Line where
  | received (num : Int) (text : List Byte)
  | closed
  deriving DecidableEq

/-- `buf` is the memory at the array and behind it, `input` what is typed and not read yet, `pipe` what is
    between the two `splice` calls, and `unread` what the server has sent and `recv` has not returned. -/
structure State where
  pc : Pc
  buf : List Byte
  stdout : List Line
  input : List Byte
  inputEnded : Bool
  pipe : List Byte
  sent : List Byte
  unread : List Byte
  serverClosed : Bool

inductive Result where
  | revents (r : Revents)
  | call (outcome : Outcome)

inductive Action where
  | typed (bytes : List Byte)
  | inputEnds
  | data (bytes : List Byte)
  | serverCloses
  | client (result : Result)

/-- What `poll` can report. The end of the stream is something to read, and once the server has closed
    both bits of the socket are set in every report. A report of nothing stands for one of other bits only. -/
def Reports (s : State) (r : Revents) : Prop :=
  (r.stdin = true → s.input ≠ [] ∨ s.inputEnded = true) ∧
  (r.pollin = true → s.unread ≠ [] ∨ s.serverClosed = true) ∧
  (r.rdhup = true → s.serverClosed = true) ∧
  (s.serverClosed = true → r.pollin = true ∧ r.rdhup = true)

instance (s : State) (r : Revents) : Decidable (Reports s r) := inferInstanceAs (Decidable (_ ∧ _ ∧ _ ∧ _))

def dispatch (s : State) (r : Revents) : State :=
  if r.pollin = true then { s with pc := .receiving }
  else if r.stdin = true then { s with pc := .filling }
  else if r.rdhup = true then { s with pc := .closing, stdout := s.stdout ++ [.closed] }
  else s

/-- `memset(buf, 1024, 0)` has its last two arguments swapped and clears nothing. -/
def memset (buf : List Byte) (value : Byte) (n : Nat) : List Byte :=
  Buffer.overwrite (List.replicate n value) buf

def received (s : State) (num : Int) (buf : List Byte) : State :=
  { s with pc := .polling, buf, stdout := s.stdout ++ [.received num (formatString (-1) buf)] }

def receive (s : State) (outcome : Outcome) : Option State :=
  let buf := memset s.buf (BitVec.ofNat 8 1024) 0
  match outcome with
  | .count n =>
    if n ≤ BUF_SIZE ∧ n ≤ s.unread.length ∧ (n = 0 → s.unread = [] ∧ s.serverClosed = true) then
      some { received s n (Buffer.overwrite (s.unread.take n) buf) with unread := s.unread.drop n }
    else none
  | .error _ => if s.serverClosed = false then some (received s (-1) buf) else none
  | .done => none

variable (capacity : Nat)

def clientStep (s : State) (result : Result) : Option State :=
  match s.pc, result with
  | .polling, .revents r => if Reports s r then some (dispatch s r) else none
  | .polling, .call (.error _) => some { s with pc := .aborted }
  | .receiving, .call outcome => receive s outcome
  | .filling, .call (.count n) =>
    if n ≤ SPLICE_LEN ∧ n ≤ s.input.length ∧ s.pipe.length + n ≤ capacity ∧
        (n = 0 → s.input = [] ∧ s.inputEnded = true) then
      some { s with pc := .draining, input := s.input.drop n, pipe := s.pipe ++ s.input.take n }
    else none
  | .filling, .call (.error _) => some { s with pc := .draining }
  | .draining, .call (.count n) =>
    -- The pipe has a writer, so that the call blocks while the pipe is empty.
    if 0 < n ∧ n ≤ SPLICE_LEN ∧ n ≤ s.pipe.length then
      some { s with pc := .polling, pipe := s.pipe.drop n, sent := s.sent ++ s.pipe.take n }
    else none
  | .draining, .call (.error errno) =>
    some { s with pc := if errno = EPIPE then .aborted else .polling }
  | .closing, .call .done => some { s with pc := .exited }
  | .closing, .call (.error _) => some { s with pc := .exited }
  | _, _ => none

def step (s : State) : Action → Option State
  | .typed bytes => if s.inputEnded = false then some { s with input := s.input ++ bytes } else none
  | .inputEnds => some { s with inputEnded := true }
  | .data bytes => if s.serverClosed = false then some { s with unread := s.unread ++ bytes } else none
  | .serverCloses => some { s with serverClosed := true }
  | .client result => clientStep capacity s result

def initial (buf : List Byte) : State where
  pc := .polling
  buf := buf
  stdout := []
  input := []
  inputEnded := false
  pipe := []
  sent := []
  unread := []
  serverClosed := false

end SystemProgramming.ChatroomClient
