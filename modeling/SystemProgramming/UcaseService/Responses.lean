import SystemProgramming.Library.Parties
import SystemProgramming.Library.StopAndWait
import SystemProgramming.UcaseService.Model

namespace SystemProgramming.UcaseService

open Transition StopAndWait PeerAddress

def response (msg : List Byte) : List Byte := (msg.take BUF_SIZE).map toupper

def responses (msgs : List CString) : List (Nat × List Byte) :=
  (msgs.zipIdx 1).map fun (msg, number) => (number, response msg.val)

theorem responses_concat (msgs : List CString) (msg : CString) :
    responses (msgs ++ [msg]) = responses msgs ++ [(msgs.length + 1, response msg.val)] := by
  simp [responses, List.zipIdx_append, Nat.add_comm]

theorem responses_begin (done rest : List CString) : responses done <+: responses (done ++ rest) := by
  rw [responses, responses, List.zipIdx_append, List.map_append]
  exact List.prefix_append _ _

theorem getElem?_upperCase (numRead : Nat) (buf : List Byte) (j : Nat) :
    (upperCase numRead buf)[j]? = if j < numRead then buf[j]?.map toupper else buf[j]? := by
  induction numRead with
  | zero => rfl
  | succ n ih =>
    have unfolded : upperCase (n + 1) buf = (upperCase n buf).modify n toupper := by
      simp only [upperCase, List.range_succ, List.foldl_append, List.foldl_cons, List.foldl_nil]
    rw [unfolded, List.getElem?_modify, ih]
    by_cases here : n = j
    · subst here
      simp
    · have bound : j < n ↔ j < n + 1 := by omega
      simp [here, bound]

theorem take_upperCase (numRead : Nat) (buf : List Byte) :
    (upperCase numRead buf).take numRead = (buf.take numRead).map toupper := by
  apply List.ext_getElem?
  intro j
  rw [List.getElem?_map, List.getElem?_take, List.getElem?_take, getElem?_upperCase]
  split <;> rfl

theorem toupper_ne_zero {c : Byte} (nonzero : c ≠ 0) : toupper c ≠ 0 := by
  unfold toupper
  split
  · rename_i lower
    bv_omega
  · exact nonzero

theorem response_plain (msg : CString) : 0 ∉ response msg.val := by
  intro zero
  rcases List.mem_map.mp zero with ⟨c, member, equal⟩
  refine toupper_ne_zero ?_ equal
  rintro rfl
  exact msg.property (List.mem_of_mem_take member)

theorem length_response (msg : List Byte) : (response msg).length ≤ BUF_SIZE := by
  simp only [response, List.length_map]
  exact List.length_take_le _ _

def Server.held (v : Server) : List Datagram :=
  match v.pc with
  | .converting =>
    (v.caddr.peer sockaddrIn6).toList.map fun peer => (peer, (v.buf.take v.numRead).map toupper)
  | .sending => (v.caddr.peer sockaddrIn6).toList.map fun peer => (peer, v.buf.take v.numRead)
  | .receiving | .exited _ => []

def answered (request : Datagram) : Datagram := (request.1, response request.2)

def State.pending (s : State) : List Datagram :=
  s.requests.map answered ++ (s.server.held ++ s.replies)

def Client.awaits (c : Client) : Option (List Byte) :=
  match c.pc with
  | .receiving | .exited .failure => c.args.head?.map fun msg => response msg.val
  | .sending | .printing | .exited .success => none

structure Carries (s t : State) : Prop where
  room : sockaddrIn6 ≤ t.server.caddr.length
  pending : t.pending.Subperm s.pending
  clients : t.clients = s.clients

/-- A server that exits drops what it holds. -/
theorem carries_exit {s : State} (room : sockaddrIn6 ≤ s.server.caddr.length) :
    Carries s (s.setServer { s.server with pc := .exited .failure }) := by
  refine ⟨room, ?_, rfl⟩
  apply List.Sublist.subperm
  apply List.Sublist.append_left
  exact List.sublist_append_right _ _

theorem carries_received {s : State} {arrived : Datagram} {n : Nat}
    (room : sockaddrIn6 ≤ s.server.caddr.length) (at_ : s.server.pc = .receiving)
    (member : arrived ∈ s.requests) (length : n = min arrived.2.length BUF_SIZE) :
    Carries s { s.setServer { s.server with
        pc := .converting
        buf := Buffer.overwrite (arrived.2.take n) s.server.buf
        numRead := n
        caddr := s.server.caddr.store arrived.1 } with
      requests := s.requests.erase arrived } := by
  refine ⟨(Holder.length_store s.server.caddr arrived.1).ge, ?_, rfl⟩
  have before : s.server.held = [] := by simp only [Server.held, at_]
  have stored : (Buffer.overwrite (arrived.2.take n) s.server.buf).take n =
      arrived.2.take BUF_SIZE := by
    have short : (arrived.2.take n).length = n := by
      rw [List.length_take]
      omega
    rw [Buffer.take_overwrite_of_length _ _ short, length, List.take_eq_take_iff]
    omega
  have after : Server.held { s.server with
      pc := .converting
      buf := Buffer.overwrite (arrived.2.take n) s.server.buf
      numRead := n
      caddr := s.server.caddr.store arrived.1 } = [answered arrived] := by
    simp only [Server.held, Holder.peer_store arrived.1 room, stored, Option.toList_some,
      List.map_cons, List.map_nil, answered, response]
  simp only [State.pending, State.setServer, before, after, List.nil_append, List.singleton_append]
  apply List.Perm.subperm
  apply List.perm_middle.trans
  exact ((List.perm_cons_erase member).symm.map answered).append_right s.replies

theorem serverStep_carries {s t : State} {arrived : Datagram} {outcome : Outcome}
    (room : sockaddrIn6 ≤ s.server.caddr.length) (taken : serverStep s arrived outcome = some t) :
    Carries s t := by
  unfold serverStep at taken
  dsimp only at taken
  split at taken
  · rename_i at_
    cases outcome with
    | done => cases taken
    | error errno =>
      cases taken
      exact carries_exit room
    | count n =>
      dsimp only at taken
      split at taken
      · rename_i valid
        cases taken
        exact carries_received room at_ valid.1 valid.2
      · cases taken
  · rename_i at_
    cases outcome with
    | done =>
      cases taken
      refine ⟨room, ?_, rfl⟩
      have same : (s.server.held : List Datagram) = Server.held
          { s.server with pc := .sending, buf := upperCase s.server.numRead s.server.buf } := by
        simp only [Server.held, at_, take_upperCase]
      simp only [State.pending, State.setServer, ← same]
      exact List.Subperm.refl _
    | count n => cases taken
    | error errno => cases taken
  · rename_i at_
    cases outcome with
    | done => cases taken
    | error errno =>
      cases taken
      exact carries_exit room
    | count n =>
      rcases Option.bind_eq_some_iff.mp taken with ⟨peer, addressed, rest⟩
      split at rest
      · rename_i length
        cases rest
        refine ⟨room, ?_, rfl⟩
        have before : s.server.held = [(peer, s.server.buf.take n)] := by
          simp only [Server.held, at_, addressed, length, Option.toList_some, List.map_cons, List.map_nil]
        have after : Server.held { s.server with pc := .receiving } = [] := rfl
        simp only [State.pending, State.setServer, before, after, List.nil_append]
        apply List.Perm.subperm
        exact List.perm_append_comm.append_left _
      · cases rest
  · cases taken

structure Client.Follows (c : Client) (msgs done : List CString) : Prop where
  msgs : msgs = done ++ c.args
  number : c.i = done.length + 2
  printed : c.printed = responses done
  answered : c.pc = .printing → ∃ msg ∈ c.args.head?, c.rsp.take c.numRead = response msg.val
  finished : c.pc = .exited .success → c.args = []

structure Invariant (msgs : SockAddr → List CString) (s : State) : Prop where
  room : sockaddrIn6 ≤ s.server.caddr.length
  matched : Matched s.pending fun caddr => (s.clients caddr).awaits
  clients : ∀ caddr, ∃ done, (s.clients caddr).Follows (msgs caddr) done

theorem awaits_setClient (s : State) (caddr : SockAddr) (c : Client) :
    (fun other => ((s.setClient caddr c).clients other).awaits) =
      Function.update (fun other => (s.clients other).awaits) caddr c.awaits := by
  funext other
  by_cases same : other = caddr
  · subst same
    simp [State.setClient]
  · simp [State.setClient, same]

variable {msgs : SockAddr → List CString}

theorem Invariant.client {s t : State} (before : Invariant msgs s) {caddr : SockAddr} {c : Client}
    (server : t.server = s.server) (clients : t.clients = (s.setClient caddr c).clients)
    (matched : Matched t.pending (Function.update (fun other => (s.clients other).awaits) caddr c.awaits))
    (follows : ∃ done, c.Follows (msgs caddr) done) : Invariant msgs t := by
  refine ⟨?_, ?_, ?_⟩
  · rw [server]
    exact before.room
  · rw [clients, awaits_setClient]
    exact matched
  · rw [clients]
    exact Parties.forall_update (P := fun other (now : Client) => ∃ done, now.Follows (msgs other) done)
      before.clients follows

theorem Client.Follows.goto {c : Client} {msgs done : List CString} (follows : c.Follows msgs done)
    {pc : ClientPc} (working : pc ≠ .printing) (running : pc ≠ .exited .success) :
    Client.Follows { c with pc := pc } msgs done :=
  ⟨follows.msgs, follows.number, follows.printed, fun equal => absurd equal working,
    fun equal => absurd equal running⟩

inductive ClientMove (s : State) (caddr : SockAddr) (arrived : List Byte) : State → Prop where
  | finished (at_ : (s.clients caddr).pc = .sending) (nothing : (s.clients caddr).args = []) :
      ClientMove s caddr arrived (s.setClient caddr { s.clients caddr with pc := .exited .success })
  | sent (msg : CString) (rest : List CString) (at_ : (s.clients caddr).pc = .sending)
      (next : (s.clients caddr).args = msg :: rest) :
      ClientMove s caddr arrived { s.setClient caddr { s.clients caddr with pc := .receiving } with
        requests := s.requests ++ [(caddr, msg.val)] }
  | notSent (at_ : (s.clients caddr).pc = .sending) :
      ClientMove s caddr arrived (s.setClient caddr { s.clients caddr with pc := .exited .failure })
  | answered (n : Nat) (at_ : (s.clients caddr).pc = .receiving)
      (member : (caddr, arrived) ∈ s.replies) (length : n = min arrived.length BUF_SIZE) :
      ClientMove s caddr arrived { s.setClient caddr { s.clients caddr with
          pc := .printing
          rsp := Buffer.overwrite (arrived.take n) (s.clients caddr).rsp
          numRead := n } with
        replies := s.replies.erase (caddr, arrived) }
  | notAnswered (at_ : (s.clients caddr).pc = .receiving) :
      ClientMove s caddr arrived (s.setClient caddr { s.clients caddr with pc := .exited .failure })
  | printed (at_ : (s.clients caddr).pc = .printing) :
      ClientMove s caddr arrived (s.setClient caddr { s.clients caddr with
        pc := .sending
        i := (s.clients caddr).i + 1
        args := (s.clients caddr).args.tail
        printed := (s.clients caddr).printed ++
          [((s.clients caddr).i - 1, formatString (s.clients caddr).numRead (s.clients caddr).rsp)] })

theorem clientStep_moves {s t : State} {caddr : SockAddr} {arrived : List Byte} {outcome : Outcome}
    (taken : clientStep s caddr arrived outcome = some t) : ClientMove s caddr arrived t := by
  unfold clientStep at taken
  dsimp only at taken
  split at taken
  · rename_i at_
    split at taken
    · rename_i nothing
      cases taken
      exact .finished at_ nothing
    · rename_i msg rest n next
      split at taken
      · cases taken
        exact .sent msg rest at_ next
      · cases taken
    · cases taken
      exact .notSent at_
    · cases taken
  · rename_i at_
    cases outcome with
    | done => cases taken
    | error errno =>
      cases taken
      exact .notAnswered at_
    | count n =>
      dsimp only at taken
      split at taken
      · rename_i valid
        cases taken
        exact .answered n at_ valid.1 valid.2
      · cases taken
  · rename_i at_
    cases outcome with
    | done =>
      cases taken
      exact .printed at_
    | count n => cases taken
    | error errno => cases taken
  · cases taken

/-- The response that a client receives is the one to its message. -/
theorem Invariant.answered {s : State} (before : Invariant msgs s) {caddr : SockAddr}
    {arrived : List Byte} {n : Nat} (at_ : (s.clients caddr).pc = .receiving)
    (member : (caddr, arrived) ∈ s.replies) (length : n = min arrived.length BUF_SIZE) :
    Invariant msgs { s.setClient caddr { s.clients caddr with
        pc := .printing
        rsp := Buffer.overwrite (arrived.take n) (s.clients caddr).rsp
        numRead := n } with
      replies := s.replies.erase (caddr, arrived) } := by
  rcases before.clients caddr with ⟨done, follows⟩
  have underWay : (caddr, arrived) ∈ s.pending :=
    List.mem_append_right _ (List.mem_append_right _ member)
  have awaited : (s.clients caddr).awaits = some arrived := before.matched.awaited underWay
  simp only [Client.awaits, at_, Option.map_eq_some_iff] at awaited
  rcases awaited with ⟨msg, next, rfl⟩
  have whole : n = (response msg.val).length := by
    have short := length_response msg.val
    omega
  refine before.client rfl rfl ?_ ⟨done, follows.msgs, follows.number, follows.printed, ?_, ?_⟩
  · apply before.matched.answer (r := response msg.val)
    simp only [State.pending, State.setClient, ← List.append_assoc]
    exact ((List.perm_cons_erase member).append_left _).trans List.perm_middle
  · intro _
    refine ⟨msg, next, ?_⟩
    simp only [whole, List.take_length]
    exact Buffer.take_overwrite _ _
  · intro impossible
    cases impossible

theorem Client.Follows.print {c : Client} {msgs done : List CString} (follows : c.Follows msgs done)
    (at_ : c.pc = .printing) :
    ∃ done, Client.Follows { c with
      pc := .sending
      i := c.i + 1
      args := c.args.tail
      printed := c.printed ++ [(c.i - 1, formatString c.numRead c.rsp)] } msgs done := by
  rcases follows.answered at_ with ⟨msg, next, text⟩
  rcases List.head?_eq_some_iff.mp next with ⟨rest, args⟩
  have plain : 0 ∉ c.rsp.take c.numRead := by
    rw [text]
    exact response_plain msg
  refine ⟨done ++ [msg], ?_, ?_, ?_, ?_, ?_⟩
  · rw [follows.msgs, args, List.tail_cons, List.append_assoc, List.singleton_append]
  · rw [List.length_append, List.length_singleton, follows.number]
  · rw [follows.printed, responses_concat, formatString_of_plain plain, text, follows.number]
    rfl
  · intro impossible
    cases impossible
  · intro impossible
    cases impossible

theorem ClientMove.invariant {s t : State} {caddr : SockAddr} {arrived : List Byte}
    (before : Invariant msgs s) (move : ClientMove s caddr arrived t) : Invariant msgs t := by
  rcases before.clients caddr with ⟨done, follows⟩
  cases move with
  | finished at_ nothing =>
    have idle : (s.clients caddr).awaits = none := by rw [Client.awaits, at_]
    refine before.client rfl rfl (before.matched.await idle _) ⟨done, follows.msgs, follows.number,
      follows.printed, ?_, fun _ => nothing⟩
    intro impossible
    cases impossible
  | sent msg rest at_ next =>
    have idle : (s.clients caddr).awaits = none := by rw [Client.awaits, at_]
    refine before.client rfl rfl ?_ ⟨done, follows.goto (by decide) (by decide)⟩
    have called := before.matched.call idle (response msg.val)
    have awaits : Client.awaits { s.clients caddr with pc := .receiving } =
        some (response msg.val) := by
      simp only [Client.awaits, next, List.head?_cons, Option.map_some]
    rw [awaits]
    apply called.carry
    apply List.Perm.subperm
    simp only [State.pending, State.setClient, List.map_append, List.append_assoc]
    exact List.perm_middle
  | notSent at_ =>
    have idle : (s.clients caddr).awaits = none := by rw [Client.awaits, at_]
    exact before.client rfl rfl (before.matched.await idle _)
      ⟨done, follows.goto (by decide) (by decide)⟩
  | answered n at_ member length => exact before.answered at_ member length
  | notAnswered at_ =>
    refine before.client rfl rfl ?_ ⟨done, follows.goto (by decide) (by decide)⟩
    have same : Client.awaits { s.clients caddr with pc := .exited .failure } =
        (s.clients caddr).awaits := by
      simp only [Client.awaits, at_]
    rw [same, Function.update_eq_self]
    exact before.matched
  | printed at_ =>
    have idle : (s.clients caddr).awaits = none := by rw [Client.awaits, at_]
    exact before.client rfl rfl (before.matched.await idle _) (follows.print at_)

theorem step_invariant {s t : State} {action : Action} (before : Invariant msgs s)
    (taken : step s action = some t) : Invariant msgs t := by
  cases action with
  | server arrived outcome =>
    have carries := serverStep_carries before.room taken
    refine ⟨carries.room, ?_, ?_⟩
    · rw [carries.clients]
      exact before.matched.carry carries.pending
    · rw [carries.clients]
      exact before.clients
  | client caddr arrived outcome => exact (clientStep_moves taken).invariant before

theorem invariant_initial (msgs : SockAddr → List CString) (junk : Junk) :
    Invariant msgs (initial msgs junk) := by
  refine ⟨le_rfl, matched_nil _, fun caddr => ⟨[], rfl, rfl, rfl, ?_, ?_⟩⟩
  · intro impossible
    cases impossible
  · intro impossible
    cases impossible

/-- Whatever the server handles in between, each client prints the upper-cased beginnings of its own
    messages, in order, and one that exits with success has printed them all. -/
theorem responses_own (msgs : SockAddr → List CString) (junk : Junk) {s : State}
    (reached : Reaches step (fun _ _ => True) (initial msgs junk) s) (caddr : SockAddr) :
    (s.clients caddr).printed <+: responses (msgs caddr) ∧
      ((s.clients caddr).pc = .exited .success →
        (s.clients caddr).printed = responses (msgs caddr)) := by
  have invariant : Invariant msgs s :=
    reached.invariant (invariant_initial msgs junk) fun _ _ _ holds _ taken => step_invariant holds taken
  rcases invariant.clients caddr with ⟨done, follows⟩
  constructor
  · rw [follows.printed, follows.msgs]
    exact responses_begin done _
  · intro exited
    rw [follows.printed, follows.msgs, follows.finished exited, List.append_nil]

def sockAddr (port : Byte) : SockAddr := ⟨List.replicate sockaddrIn6 port, List.length_replicate⟩

def twoMessages (caddr : SockAddr) : List CString :=
  if caddr = sockAddr 1 then [⟨[104, 101, 108, 108, 111, 32, 119, 111, 114, 108, 100, 33], by decide⟩]
  else if caddr = sockAddr 2 then [⟨[97, 98], by decide⟩]
  else []

def noJunk : Junk where
  buf := List.replicate BUF_SIZE 0
  caddr := List.replicate sockaddrIn6 0
  numRead := 0
  rsp := fun _ => List.replicate BUF_SIZE 0
  rspRead := fun _ => 0

def interleaved : List Action :=
  let hello : List Byte := [104, 101, 108, 108, 111, 32, 119, 111, 114, 108, 100, 33]
  let loud : List Byte := [72, 69, 76, 76, 79, 32, 87, 79, 82, 76]
  [.client (sockAddr 1) [] (.count 12), .client (sockAddr 2) [] (.count 2),
    .server (sockAddr 1, hello) (.count 10), .server (sockAddr 1, []) .done,
    .server (sockAddr 1, []) (.count 10), .server (sockAddr 2, [97, 98]) (.count 2),
    .server (sockAddr 1, []) .done, .server (sockAddr 1, []) (.count 2),
    .client (sockAddr 2) [65, 66] (.count 2), .client (sockAddr 2) [] .done,
    .client (sockAddr 2) [] .done, .client (sockAddr 1) loud (.count 10)]

theorem responses_own_interleaved :
    ∃ s, exec step interleaved (initial twoMessages noJunk) = some s ∧
      (s.clients (sockAddr 2)).printed = [(1, [65, 66])] := by
  have ends : (exec step interleaved (initial twoMessages noJunk)).any
      (fun s => (s.clients (sockAddr 2)).pc = .exited .success) = true := by decide +kernel
  rcases (Option.any_eq_true _ _).mp ends with ⟨s, run, at_⟩
  rw [decide_eq_true_eq] at at_
  have own := responses_own twoMessages noJunk ⟨interleaved, along_true _ _, run⟩ (sockAddr 2)
  exact ⟨s, run, own.2 at_⟩

end SystemProgramming.UcaseService
