import SystemProgramming.IdEcho.Model
import SystemProgramming.Library.Parties

namespace SystemProgramming.IdEcho

open Transition PeerAddress

variable {family : Family}

def payloads (log : List (Addr family × List Byte)) (addr : Addr family) : List (List Byte) :=
  (log.filter (·.1 = addr)).map (·.2)

@[simp] theorem payloads_concat_self (log : List (Addr family × List Byte)) (addr : Addr family)
    (datagram : List Byte) : payloads (log ++ [(addr, datagram)]) addr = payloads log addr ++ [datagram] := by
  simp [payloads]

@[simp] theorem payloads_concat_of_ne (log : List (Addr family × List Byte)) {addr other : Addr family}
    (datagram : List Byte) (different : other ≠ addr) :
    payloads (log ++ [(addr, datagram)]) other = payloads log other := by
  simp [payloads, different.symm]

def line (arg : CString) : Int × List Byte := (arg.val.length, arg.val)

def NoFailure (_ : State family) : Action family → Prop
  | .server _ outcome | .client _ outcome _ => outcome.isError = false

/-- The service echoes: what the server sends is what it received, it received what the clients were
    given to send, and a client prints a message only after the server has sent it back. -/
structure Echoes (starts : Addr family → Start) (s : State family) : Prop where
  server : s.pc = .receiving → s.echoed = s.taken
  requests : ∀ addr, payloads s.taken addr <+: (starts addr).args.map (·.val)
  inTurn : ∀ addr, (s.clients addr).printed.length ≤ (payloads s.echoed addr).length
  printed : ∀ addr, (s.clients addr).printed <+: (starts addr).args.map line
  finished : ∀ addr status, (s.clients addr).pc = .exited status →
    status = .success ∧ (s.clients addr).printed = (starts addr).args.map line

/-- The client was given nothing to send, or only empty messages, and then descriptor 0 was free for
    its socket and `numRead` happened to be 0. -/
def Start.Fortunate (start : Start) : Prop :=
  start.args ≠ [] → start.files.file 0 = none ∧ (∀ arg ∈ start.args, arg.val = []) ∧ start.numRead = 0

def ClientPc.awaiting : ClientPc → Nat
  | .reading | .printing => 1
  | .connecting | .writing | .exited _ => 0

def ClientPc.received : ClientPc → Nat
  | .printing => 1
  | .connecting | .writing | .reading | .exited _ => 0

structure Client.Quiet (c : Client) (start : Start) (taken echoed : List (List Byte)) : Prop where
  args : ∃ done, start.args = done ++ c.args ∧ c.printed = done.map line
  free : c.pc = .connecting → c.files.file 0 = start.files.file 0
  socket : c.pc ≠ .connecting → start.args ≠ [] → c.fd = 0 ∧ c.files.file 0 = some .socket
  numRead : c.numRead = start.numRead
  sent : taken ++ c.requests = List.replicate (c.printed.length + c.pc.awaiting) []
  answered : echoed.length = c.replies.length + c.printed.length + c.pc.received
  current : c.pc.awaiting = 1 → c.args ≠ []
  finished : ∀ status, c.pc = .exited status → status = .success ∧ c.args = []

def Serving (s : State family) : Prop :=
  match s.pc with
  | .receiving => s.echoed = s.taken
  | .sending => s.numRead = 0 ∧ ∃ peer, s.addr.peer family.size = some peer ∧
      s.taken = s.echoed ++ [(peer, [])]

structure Quiet (starts : Addr family → Start) (s : State family) : Prop where
  room : family.size ≤ s.addr.length
  server : Serving s
  clients : ∀ addr, (s.clients addr).Quiet (starts addr) (payloads s.taken addr) (payloads s.echoed addr)

theorem lowest_of_free {files : Descriptors File} (free : files.file 0 = none) : files.lowest = 0 :=
  Nat.le_zero.mp (files.lowest_le free)

theorem formatString_zero (buf : List Byte) : formatString 0 buf = [] := by
  simp [formatString]

theorem connect_quiet {c d : Client} {start : Start} {taken echoed : List (List Byte)} {outcome : Outcome}
    (fortunate : start.Fortunate) (before : c.Quiet start taken echoed) (at_ : c.pc = .connecting)
    (succeeds : outcome.isError = false) (stepped : connect c outcome = some d) :
    d.Quiet start taken echoed := by
  cases outcome with
  | done =>
    cases stepped
    have sent := before.sent
    have answered := before.answered
    rw [at_] at sent answered
    refine ⟨before.args, ?_, ?_, before.numRead, sent, answered, ?_, ?_⟩
    · intro impossible
      cases impossible
    · intro _ given
      have free : c.files.file 0 = none := (before.free at_).trans (fortunate given).1
      refine ⟨rfl, ?_⟩
      simp only [lowest_of_free free]
      exact Descriptors.file_install_self c.files 0 .socket
    · intro impossible
      cases impossible
    · intro status impossible
      cases impossible
  | error errno => cases succeeds
  | count n => cases stepped

theorem Client.Quiet.given {c : Client} {start : Start} {taken echoed : List (List Byte)}
    (quiet : c.Quiet start taken echoed) (left : c.args ≠ []) : start.args ≠ [] := by
  rcases quiet.args with ⟨done, same, -⟩
  rw [same]
  exact List.append_ne_nil_of_right_ne_nil done left

theorem write_quiet {c d : Client} {start : Start} {taken echoed : List (List Byte)} {outcome : Outcome}
    (fortunate : start.Fortunate) (before : c.Quiet start taken echoed) (at_ : c.pc = .writing)
    (succeeds : outcome.isError = false) (stepped : write c outcome = some d) :
    d.Quiet start taken echoed := by
  have sent := before.sent
  have answered := before.answered
  have running : c.pc ≠ .connecting := by
    rw [at_]
    decide
  rw [at_] at sent answered
  unfold write at stepped
  split at stepped
  · rename_i none
    cases stepped
    refine ⟨before.args, ?_, fun _ => before.socket running, before.numRead, sent, answered, ?_, ?_⟩
    · intro impossible
      cases impossible
    · intro impossible
      cases impossible
    · intro status exited
      cases exited
      exact ⟨rfl, none⟩
  · rename_i arg rest n next
    have left : c.args ≠ [] := by
      rw [next]
      exact List.cons_ne_nil arg rest
    have given := before.given left
    have socket := before.socket running given
    have member : arg ∈ start.args := by
      rcases before.args with ⟨done, same, -⟩
      rw [same, next]
      simp
    have empty := (fortunate given).2.1 arg member
    simp only [socket.1, socket.2] at stepped
    split at stepped
    · cases stepped
      refine ⟨before.args, ?_, fun _ _ => ⟨rfl, socket.2⟩, before.numRead, ?_, answered, fun _ => left, ?_⟩
      · intro impossible
        cases impossible
      · rw [← List.append_assoc, sent, empty]
        exact (List.replicate_succ' ..).symm
      · intro status impossible
        cases impossible
    · cases stepped
  · cases succeeds
  · cases stepped

theorem read_quiet {c d : Client} {start : Start} {taken echoed : List (List Byte)} {outcome : Outcome}
    {bytes : List Byte} (before : c.Quiet start taken echoed) (at_ : c.pc = .reading)
    (succeeds : outcome.isError = false) (stepped : read c outcome bytes = some d) :
    d.Quiet start taken echoed := by
  have sent := before.sent
  have answered := before.answered
  have left : c.args ≠ [] := before.current (by rw [at_]; rfl)
  have running : c.pc ≠ .connecting := by
    rw [at_]
    decide
  have socket := before.socket running (before.given left)
  rw [at_] at sent answered
  cases outcome with
  | done => cases stepped
  | error errno => cases succeeds
  | count n =>
    simp only [read, socket.1, socket.2] at stepped
    split at stepped
    · rename_i datagram replies arrived
      split at stepped
      · cases stepped
        refine ⟨before.args, ?_, fun _ _ => ⟨rfl, socket.2⟩, before.numRead, sent, ?_, fun _ => left, ?_⟩
        · intro impossible
          cases impossible
        · rw [arrived, List.length_cons] at answered
          simp only [ClientPc.received] at answered ⊢
          omega
        · intro status impossible
          cases impossible
      · cases stepped
    · cases stepped

theorem print_quiet {c d : Client} {start : Start} {taken echoed : List (List Byte)} {outcome : Outcome}
    (fortunate : start.Fortunate) (before : c.Quiet start taken echoed) (at_ : c.pc = .printing)
    (stepped : print c outcome = some d) : d.Quiet start taken echoed := by
  have sent := before.sent
  have answered := before.answered
  have left : c.args ≠ [] := before.current (by rw [at_]; rfl)
  have given := before.given left
  have running : c.pc ≠ .connecting := by
    rw [at_]
    decide
  rw [at_] at sent answered
  cases outcome with
  | count n => cases stepped
  | error errno => cases stepped
  | done =>
    cases stepped
    rcases before.args with ⟨done, same, printed⟩
    rcases List.exists_cons_of_ne_nil left with ⟨arg, rest, next⟩
    have empty : arg.val = [] := by
      apply (fortunate given).2.1
      rw [same, next]
      simp
    have zero : c.numRead = 0 := before.numRead.trans (fortunate given).2.2
    have shown : (c.numRead.toInt, formatString (c.numRead.setWidth 32).toInt c.buf) = line arg := by
      have text : formatString (BitVec.setWidth 32 (0 : BitVec 64)).toInt c.buf = [] :=
        formatString_zero c.buf
      rw [zero, text, line, empty]
      rfl
    refine ⟨⟨done ++ [arg], ?_, ?_⟩, ?_, fun _ => before.socket running, before.numRead, ?_, ?_, ?_, ?_⟩
    · rw [same, next, List.tail_cons, List.append_assoc, List.singleton_append]
    · rw [printed, shown, List.map_append, List.map_singleton]
    · intro impossible
      cases impossible
    · rw [List.length_append, List.length_singleton]
      exact sent
    · rw [List.length_append, List.length_singleton]
      simp only [ClientPc.received] at answered ⊢
      omega
    · intro impossible
      cases impossible
    · intro status impossible
      cases impossible

theorem clientStep_quiet {c d : Client} {start : Start} {taken echoed : List (List Byte)}
    {outcome : Outcome} {bytes : List Byte} (fortunate : start.Fortunate)
    (before : c.Quiet start taken echoed) (succeeds : outcome.isError = false)
    (stepped : clientStep c outcome bytes = some d) : d.Quiet start taken echoed := by
  unfold clientStep at stepped
  split at stepped
  · rename_i at_
    exact connect_quiet fortunate before at_ succeeds stepped
  · rename_i at_
    exact write_quiet fortunate before at_ succeeds stepped
  · rename_i at_
    exact read_quiet before at_ succeeds stepped
  · rename_i at_
    exact print_quiet fortunate before at_ stepped
  · cases stepped

variable {starts : Addr family → Start}

theorem Client.Quiet.taken {c : Client} {start : Start} {taken echoed : List (List Byte)}
    {datagram : List Byte} {requests : List (List Byte)} (quiet : c.Quiet start taken echoed)
    (arrived : c.requests = datagram :: requests) :
    datagram = [] ∧ Client.Quiet { c with requests := requests } start (taken ++ [datagram]) echoed := by
  have sent := quiet.sent
  rw [arrived] at sent
  constructor
  · apply List.eq_of_mem_replicate (n := c.printed.length + c.pc.awaiting)
    rw [← sent]
    simp
  · refine ⟨quiet.args, quiet.free, quiet.socket, quiet.numRead, ?_, quiet.answered, quiet.current,
      quiet.finished⟩
    rw [List.append_assoc, List.singleton_append]
    exact sent

theorem Client.Quiet.echoed {c : Client} {start : Start} {taken echoed : List (List Byte)}
    (quiet : c.Quiet start taken echoed) (datagram : List Byte) :
    Client.Quiet { c with replies := c.replies ++ [datagram] } start taken (echoed ++ [datagram]) := by
  refine ⟨quiet.args, quiet.free, quiet.socket, quiet.numRead, quiet.sent, ?_, quiet.current,
    quiet.finished⟩
  have answered := quiet.answered
  simp only [List.length_append, List.length_singleton]
  omega

theorem serverStep_quiet {s t : State family} {sender : Addr family} {outcome : Outcome}
    (before : Quiet starts s) (succeeds : outcome.isError = false)
    (taken : serverStep s sender outcome = some t) : Quiet starts t := by
  have serving := before.server
  unfold serverStep at taken
  split at taken
  · rename_i at_
    rw [Serving, at_] at serving
    cases outcome with
    | done => cases taken
    | error errno => cases succeeds
    | count n =>
      dsimp only at taken
      split at taken
      · rename_i datagram requests arrived
        split at taken
        · cases taken
          rcases (before.clients sender).taken arrived with ⟨empty, moved⟩
          subst empty
          refine ⟨(Holder.length_store s.addr sender).ge, ?_, ?_⟩
          · have logged : s.taken = s.echoed := serving.symm
            exact ⟨rfl, sender, Holder.peer_store sender before.room,
              congrArg (· ++ [(sender, [])]) logged⟩
          · intro addr
            by_cases same : addr = sender
            · subst same
              simpa [State.setClient] using moved
            · simpa [State.setClient, same] using before.clients addr
        · cases taken
      · cases taken
  · rename_i at_
    rw [Serving, at_] at serving
    rcases serving with ⟨zero, peer, addressed, logged⟩
    cases outcome with
    | done => cases taken
    | error errno => cases succeeds
    | count n =>
      simp only [addressed, Option.bind_some, zero] at taken
      split at taken
      · rename_i none
        cases taken
        subst none
        refine ⟨before.room, ?_, ?_⟩
        · exact logged.symm
        · intro addr
          by_cases same : addr = peer
          · subst same
            simpa [State.setClient] using (before.clients addr).echoed []
          · simpa [State.setClient, same] using before.clients addr
      · cases taken

theorem step_quiet {s t : State family} {action : Action family} (fortunate : ∀ addr, (starts addr).Fortunate)
    (before : Quiet starts s) (succeeds : NoFailure s action) (taken : step s action = some t) :
    Quiet starts t := by
  cases action with
  | server sender outcome => exact serverStep_quiet before succeeds taken
  | client addr outcome bytes =>
    rcases Option.map_eq_some_iff.mp taken with ⟨d, stepped, rfl⟩
    refine ⟨before.room, before.server, ?_⟩
    have moved := clientStep_quiet (fortunate addr) (before.clients addr) succeeds stepped
    exact Parties.forall_update (P := fun other (c : Client) =>
      c.Quiet (starts other) (payloads s.taken other) (payloads s.echoed other)) before.clients moved

theorem quiet_initial (starts : Addr family → Start) (buf addr : List Byte) (numRead : Nat) :
    Quiet starts (initial starts buf addr numRead) := by
  refine ⟨family.fits, rfl, fun addr => ⟨⟨[], rfl, rfl⟩, fun _ => rfl, ?_, rfl, rfl, rfl, ?_, ?_⟩⟩
  · intro connected
    exact absurd rfl connected
  · intro impossible
    cases impossible
  · intro status impossible
    cases impossible

theorem Start.Fortunate.messages {start : Start} (fortunate : start.Fortunate) :
    start.args.map (·.val) = List.replicate start.args.length [] := by
  rw [List.eq_replicate_iff]
  refine ⟨List.length_map _, ?_⟩
  intro message member
  rcases List.mem_map.mp member with ⟨arg, given, rfl⟩
  exact (fortunate (List.ne_nil_of_mem given)).2.1 arg given

theorem Client.Quiet.requests_begin {c : Client} {start : Start} {taken echoed : List (List Byte)}
    (quiet : c.Quiet start taken echoed) (fortunate : start.Fortunate) :
    taken <+: start.args.map (·.val) := by
  rcases quiet.args with ⟨done, same, printed⟩
  have written : c.printed.length + c.pc.awaiting ≤ start.args.length := by
    have current : c.pc.awaiting ≤ c.args.length := by
      have left := quiet.current
      cases at_ : c.pc <;> simp_all [ClientPc.awaiting, Nat.one_le_iff_ne_zero]
    rw [printed, same, List.length_map, List.length_append]
    omega
  rw [fortunate.messages, ← Nat.add_sub_cancel' written, ← List.replicate_append_replicate, ← quiet.sent,
    List.append_assoc]
  exact List.prefix_append _ _

theorem Quiet.echoes {s : State family} (fortunate : ∀ addr, (starts addr).Fortunate)
    (quiet : Quiet starts s) : Echoes starts s := by
  refine ⟨?_, ?_, ?_, ?_, ?_⟩
  · intro at_
    have serving := quiet.server
    rw [Serving, at_] at serving
    exact serving
  · intro addr
    exact (quiet.clients addr).requests_begin (fortunate addr)
  · intro addr
    have answered := (quiet.clients addr).answered
    omega
  · intro addr
    rcases (quiet.clients addr).args with ⟨done, same, printed⟩
    rw [printed, same, List.map_append]
    exact List.prefix_append _ _
  · intro addr status exited
    rcases (quiet.clients addr).args with ⟨done, same, printed⟩
    rcases (quiet.clients addr).finished status exited with ⟨success, none⟩
    refine ⟨success, ?_⟩
    rw [printed, same, none, List.append_nil]

structure Client.Stage (c : Client) (pc : ClientPc) (requests replies : List (List Byte))
    (args : List CString) (printed : List (Int × List Byte)) (numRead : BitVec 64) : Prop where
  pc : c.pc = pc
  fd : c.fd = 0
  socket : c.files.file 0 = some .socket
  args : c.args = args
  requests : c.requests = requests
  replies : c.replies = replies
  printed : c.printed = printed
  numRead : c.numRead = numRead

section Exchange

variable {addr : Addr family} {arg : CString} {rest : List CString} {printed : List (Int × List Byte)}
  {numRead : BitVec 64} {s : State family}

theorem client_writes {c : Client} (stage : c.Stage .writing [] [] (arg :: rest) printed numRead) :
    ∃ d, clientStep c (.count arg.val.length) [] = some d ∧
      d.Stage .reading [arg.val] [] (arg :: rest) printed numRead := by
  refine ⟨{ c with pc := .reading, requests := c.requests ++ [arg.val] }, ?_, ?_⟩
  · simp [clientStep, write, stage.pc, stage.fd, stage.socket, stage.args]
  · exact ⟨rfl, stage.fd, stage.socket, stage.args, by rw [stage.requests]; rfl, stage.replies,
      stage.printed, stage.numRead⟩

theorem client_reads {c : Client} {datagram : List Byte}
    (stage : c.Stage .reading [] [datagram] (arg :: rest) printed numRead) :
    ∃ d, clientStep c (.count (min datagram.length BUF_SIZE)) [] = some d ∧
      d.Stage .printing [] [] (arg :: rest) printed numRead := by
  refine ⟨{ c with
    pc := .printing
    buf := Buffer.overwrite (datagram.take (min datagram.length BUF_SIZE)) c.buf
    replies := [] }, ?_, ?_⟩
  · simp [clientStep, read, stage.pc, stage.fd, stage.socket, stage.replies]
  · exact ⟨rfl, stage.fd, stage.socket, stage.args, stage.requests, rfl, stage.printed, stage.numRead⟩

theorem client_prints {c : Client} (stage : c.Stage .printing [] [] (arg :: rest) printed numRead) :
    ∃ d text, clientStep c .done [] = some d ∧
      d.Stage .writing [] [] rest (printed ++ [(numRead.toInt, text)]) numRead := by
  refine ⟨_, formatString (c.numRead.setWidth 32).toInt c.buf, by rw [clientStep, stage.pc]; rfl, ?_⟩
  refine ⟨rfl, stage.fd, stage.socket, ?_, stage.requests, stage.replies, ?_, stage.numRead⟩
  · simp only [stage.args, List.tail_cons]
  · simp only [stage.printed, stage.numRead]

structure Turn (addr : Addr family) (pc : ClientPc) (replies : List (List Byte)) (args : List CString)
    (printed : List (Int × List Byte)) (numRead : BitVec 64) (s : State family) : Prop where
  idle : s.pc = .receiving
  room : family.size ≤ s.addr.length
  client : (s.clients addr).Stage pc [] replies args printed numRead

theorem client_step {c d : Client} {outcome : Outcome} {bytes : List Byte} (same : s.clients addr = c)
    (stepped : clientStep c outcome bytes = some d) :
    step s (.client addr outcome bytes) = some (s.setClient addr d) := by
  rw [step, same, stepped, Option.map_some]

theorem server_takes {message : List Byte} (idle : s.pc = .receiving) (room : family.size ≤ s.addr.length)
    (stage : (s.clients addr).Stage .reading [message] [] (arg :: rest) printed numRead) :
    ∃ t, step s (.server addr (.count (min message.length BUF_SIZE))) = some t ∧
      t.taken = s.taken ++ [(addr, message)] ∧ t.echoed = s.echoed ∧ t.pc = .sending ∧ t.numRead = 0 ∧
      t.addr.peer family.size = some addr ∧ family.size ≤ t.addr.length ∧
      (t.clients addr).Stage .reading [] [] (arg :: rest) printed numRead := by
  refine ⟨{ s.setClient addr { s.clients addr with requests := [] } with
    numRead := 0
    addr := s.addr.store addr
    buf := Buffer.overwrite (message.take (min message.length BUF_SIZE)) s.buf
    taken := s.taken ++ [(addr, message)]
    pc := .sending }, ?_, rfl, rfl, rfl, rfl, ?_, ?_, ?_⟩
  · simp [step, serverStep, idle, stage.requests, equalsMinusOne]
  · exact Holder.peer_store addr room
  · exact (Holder.length_store s.addr addr).ge
  · simp only [State.setClient, Function.update_self]
    exact ⟨stage.pc, stage.fd, stage.socket, stage.args, rfl, stage.replies, stage.printed, stage.numRead⟩

theorem server_echoes (serving : s.pc = .sending) (zero : s.numRead = 0)
    (peer : s.addr.peer family.size = some addr)
    (stage : (s.clients addr).Stage .reading [] [] (arg :: rest) printed numRead) :
    ∃ t, step s (.server addr (.count 0)) = some t ∧ t.taken = s.taken ∧
      t.echoed = s.echoed ++ [(addr, [])] ∧ t.pc = .receiving ∧ t.addr = s.addr ∧
      (t.clients addr).Stage .reading [] [[]] (arg :: rest) printed numRead := by
  refine ⟨{ s.setClient addr { s.clients addr with replies := (s.clients addr).replies ++ [[]] } with
    echoed := s.echoed ++ [(addr, [])]
    pc := .receiving }, ?_, rfl, rfl, rfl, rfl, ?_⟩
  · simp [step, serverStep, serving, zero, peer]
  · simp only [State.setClient, Function.update_self]
    refine ⟨stage.pc, stage.fd, stage.socket, stage.args, stage.requests, ?_, stage.printed, stage.numRead⟩
    rw [stage.replies]
    rfl

theorem then_step {t u : State family} {action : Action family} (reached : Reaches step NoFailure s t)
    (taken : step t action = some u) (succeeds : NoFailure t action) : Reaches step NoFailure s u :=
  reached.tail succeeds taken

theorem exchange (turn : Turn addr .writing [] (arg :: rest) printed numRead s) :
    ∃ t, Reaches step NoFailure s t ∧ t.taken = s.taken ++ [(addr, arg.val)] ∧
      t.echoed = s.echoed ++ [(addr, [])] ∧ Turn addr .reading [[]] (arg :: rest) printed numRead t := by
  rcases client_writes turn.client with ⟨d, wrote, written⟩
  have first := then_step (.refl s) (client_step rfl wrote) rfl
  have same : (s.setClient addr d).clients addr = d := by simp [State.setClient]
  rcases server_takes (s := s.setClient addr d) turn.idle turn.room (same ▸ written)
    with ⟨t, second, taken, echoed, serving, zero, peer, room, stage⟩
  rcases server_echoes serving zero peer stage with ⟨u, third, kept, replied, idle, holder, last⟩
  refine ⟨u, ?_, ?_, ?_, idle, holder ▸ room, last⟩
  · exact then_step (then_step first second rfl) third rfl
  · rw [kept, taken]
    rfl
  · rw [replied, echoed]
    rfl

theorem finish_turn (turn : Turn addr .reading [[]] (arg :: rest) printed numRead s) :
    ∃ t text, Reaches step NoFailure s t ∧
      Turn addr .writing [] rest (printed ++ [(numRead.toInt, text)]) numRead t := by
  rcases client_reads turn.client with ⟨d, read, stage⟩
  rcases client_prints stage with ⟨e, text, shown, next⟩
  have first := then_step (.refl s) (client_step rfl read) rfl
  have same : (s.setClient addr d).clients addr = d := by simp [State.setClient]
  have second := client_step same shown
  refine ⟨(s.setClient addr d).setClient addr e, text, ?_, turn.idle, turn.room, ?_⟩
  · exact then_step first second rfl
  · have last : ((s.setClient addr d).setClient addr e).clients addr = e := by simp [State.setClient]
    rw [last]
    exact next

end Exchange

theorem messages_empty {start s : State family} {addr : Addr family} {args : List CString}
    {printed : List (Int × List Byte)} {numRead : BitVec 64}
    (always : ∀ t, Reaches step NoFailure start t → Echoes starts t) (reached : Reaches step NoFailure start s)
    (turn : Turn addr .writing [] args printed numRead s) : ∀ arg ∈ args, arg.val = [] := by
  induction args generalizing s printed with
  | nil =>
    intro arg member
    cases member
  | cons arg rest ih =>
    rcases exchange turn with ⟨t, exchanged, taken, echoed, answered⟩
    rcases finish_turn answered with ⟨u, text, finished, next⟩
    have before := (always s reached).server turn.idle
    have after := (always t (reached.trans exchanged)).server answered.idle
    rw [taken, echoed, before, List.append_cancel_left_eq, List.cons.injEq, Prod.mk.injEq] at after
    intro message member
    rcases List.mem_cons.mp member with rfl | member
    · exact after.1.2.symm
    · exact ih ((reached.trans exchanged).trans finished) next message member

def Start.connected (start : Start) : Client :=
  { start.client with
    pc := .writing
    fd := 0
    files := start.files.install start.files.lowest .socket }

theorem connects (starts : Addr family → Start) (buf junk : List Byte) (numRead : Nat) (addr : Addr family) :
    Reaches step NoFailure (initial starts buf junk numRead)
      ((initial starts buf junk numRead).setClient addr (starts addr).connected) :=
  then_step (.refl _)
    (client_step rfl (show clientStep (starts addr).client .done [] = some _ from rfl)) rfl

theorem connected_turn (starts : Addr family → Start) (buf junk : List Byte) (numRead : Nat)
    {addr : Addr family} (free : (starts addr).files.file 0 = none) :
    Turn addr .writing [] (starts addr).args [] (starts addr).numRead
      ((initial starts buf junk numRead).setClient addr (starts addr).connected) := by
  refine ⟨rfl, family.fits, ?_⟩
  have same : ((initial starts buf junk numRead).setClient addr (starts addr).connected).clients addr =
      (starts addr).connected := by
    simp [State.setClient]
  rw [same]
  refine ⟨rfl, rfl, ?_, rfl, rfl, rfl, rfl, rfl⟩
  simp only [Start.connected, lowest_of_free free]
  exact Descriptors.file_install_self _ 0 File.socket

/-- A client that started with descriptor 0 open talks to that file, and prints an answer that the
    server has not sent. -/
theorem talks_to_inherited (starts : Addr family → Start) (buf junk : List Byte) (numRead : Nat)
    (addr : Addr family) (given : (starts addr).args ≠ [])
    (present : (starts addr).files.file 0 = some .inherited) :
    ∃ s, Reaches step NoFailure (initial starts buf junk numRead) s ∧
      (s.clients addr).printed ≠ [] ∧ s.echoed = [] := by
  rcases List.exists_cons_of_ne_nil given with ⟨arg, rest, args⟩
  have file : (starts addr).connected.files.file 0 = some .inherited := by
    have other : (starts addr).files.lowest ≠ 0 := by
      intro zero
      have free := (starts addr).files.file_lowest
      rw [zero, present] at free
      cases free
    rw [← present]
    exact Descriptors.file_install_of_ne _ File.socket other.symm
  have wrote : clientStep (starts addr).connected (.count arg.val.length) [] =
      some { (starts addr).connected with pc := .reading } := by
    have next : (starts addr).connected.args = arg :: rest := args
    have zero : (starts addr).connected.fd = 0 := rfl
    have at_ : (starts addr).connected.pc = .writing := rfl
    simp [clientStep, write, at_, next, zero, file]
  have read : clientStep { (starts addr).connected with pc := .reading } (.count 0) [] =
      some { (starts addr).connected with pc := .printing } := by
    have zero : (starts addr).connected.fd = 0 := rfl
    simp [clientStep, IdEcho.read, zero, file, Buffer.overwrite]
  have start := connects starts buf junk numRead addr
  have here (s : State family) (c : Client) : (s.setClient addr c).clients addr = c := by
    simp [State.setClient]
  have first := then_step start (client_step (here _ _) wrote) rfl
  have second := then_step first (client_step (here _ _) read) rfl
  have shown : clientStep { (starts addr).connected with pc := .printing } .done [] = some _ := rfl
  have third := then_step second (client_step (here _ _) shown) rfl
  refine ⟨_, third, ?_, rfl⟩
  rw [here]
  exact List.concat_ne_nil _ _

/-- The service echoes in every run just when every client is fortunate. -/
theorem echoes_iff (starts : Addr family → Start) (buf junk : List Byte) (numRead : Nat) :
    (∀ s, Reaches step NoFailure (initial starts buf junk numRead) s → Echoes starts s) ↔
      ∀ addr, (starts addr).Fortunate := by
  constructor
  · intro always addr given
    have free : (starts addr).files.file 0 = none := by
      cases present : (starts addr).files.file 0 with
      | none => rfl
      | some file =>
        cases file with
        | socket => exact absurd present ((starts addr).inherited 0)
        | inherited =>
          rcases talks_to_inherited starts buf junk numRead addr given present with ⟨s, reached, printed, nothing⟩
          have inTurn := (always s reached).inTurn addr
          rw [nothing] at inTurn
          exact absurd (List.length_eq_zero_iff.mp (Nat.le_zero.mp inTurn)) printed
    have start := connects starts buf junk numRead addr
    have turn := connected_turn starts buf junk numRead free
    have empty := messages_empty always start turn
    refine ⟨free, empty, ?_⟩
    rcases List.exists_cons_of_ne_nil given with ⟨arg, rest, args⟩
    rw [args] at turn
    rcases exchange turn with ⟨t, exchanged, -, -, answered⟩
    rcases finish_turn answered with ⟨u, text, finished, next⟩
    have lines := (always u ((start.trans exchanged).trans finished)).printed addr
    rw [next.client.printed, args, List.nil_append, List.map_cons, List.cons_prefix_cons, line,
      Prod.mk.injEq, empty arg (args ▸ List.mem_cons_self)] at lines
    exact BitVec.eq_of_toInt_eq lines.1.1
  · intro fortunate s reached
    have quiet : Quiet starts s := reached.invariant (quiet_initial starts buf junk numRead)
      fun _ _ _ holds succeeds taken => step_quiet fortunate holds succeeds taken
    exact quiet.echoes fortunate

def ipv4 : Family := ⟨16, by decide⟩

def fromShell : Start where
  args := [⟨[97], by decide⟩]
  fits := by decide
  files := ⟨fun fd => if fd < 3 then some .inherited else none, 3, fun _ far => if_neg (Nat.not_lt.mpr far)⟩
  inherited := by
    intro fd
    dsimp only
    split
    · decide
    · decide
  buf := []
  numRead := 0

theorem fromShell_not_echoed :
    ¬ ∀ s, Reaches step NoFailure (initial (fun _ : Addr ipv4 => fromShell) [] [] 0) s →
      Echoes (fun _ => fromShell) s := by
  intro always
  let addr : Addr ipv4 := ⟨List.replicate 16 0, rfl⟩
  have given : fromShell.args ≠ [] := List.cons_ne_nil _ _
  rcases talks_to_inherited (fun _ => fromShell) [] [] 0 addr given rfl
    with ⟨s, reached, printed, nothing⟩
  have inTurn := (always s reached).inTurn addr
  rw [nothing] at inTurn
  exact printed (List.length_eq_zero_iff.mp (Nat.le_zero.mp inTurn))

end SystemProgramming.IdEcho
