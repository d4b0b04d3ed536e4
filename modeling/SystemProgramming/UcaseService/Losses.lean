import SystemProgramming.UcaseService.Responses

namespace SystemProgramming.UcaseService

open Transition StopAndWait PeerAddress

instance : LawfulBEq Datagram := inferInstance

inductive Event where
  | party (action : Action)
  | loseRequest (d : Datagram)
  | loseReply (d : Datagram)

def netStep (s : State) : Event → Option State
  | .party action => step s action
  | .loseRequest d => if d ∈ s.requests then some { s with requests := s.requests.erase d } else none
  | .loseReply d => if d ∈ s.replies then some { s with replies := s.replies.erase d } else none

def Event.Succeeds : Event → Prop
  | .party (.server _ outcome) | .party (.client _ _ outcome) => outcome.isError = false
  | .loseRequest _ | .loseReply _ => True

instance : (event : Event) → Decidable event.Succeeds
  | .party (.server _ outcome) | .party (.client _ _ outcome) => inferInstanceAs (Decidable (outcome.isError = false))
  | .loseRequest _ | .loseReply _ => isTrue trivial

def Event.Keeps (caddr : SockAddr) : Event → Prop
  | .party _ => True
  | .loseRequest d | .loseReply d => d.1 ≠ caddr

instance (caddr : SockAddr) : (event : Event) → Decidable (event.Keeps caddr)
  | .party _ => isTrue trivial
  | .loseRequest _ | .loseReply _ => inferInstanceAs (Decidable (_ ≠ _))

variable {msgs : SockAddr → List CString} {s t : State} {caddr other : SockAddr} {event : Event} {d : Datagram}

def Outstanding (s : State) (caddr : SockAddr) : Prop := ∃ d ∈ s.pending, d.1 = caddr

def Unlost (caddr : SockAddr) (s : State) : Prop :=
  (s.clients caddr).pc = .receiving → Outstanding s caddr

structure Serving (msgs : SockAddr → List CString) (s : State) : Prop where
  invariant : Invariant msgs s
  running : ∀ status, s.server.pc ≠ .exited status
  addressed : s.server.pc ≠ .receiving → (s.server.caddr.peer sockaddrIn6).isSome
  unfailed : ∀ caddr, (s.clients caddr).pc ≠ .exited .failure

inductive ServerMove (s : State) : State → Prop where
  | received (arrived : Datagram) (n : Nat) (at_ : s.server.pc = .receiving) (member : arrived ∈ s.requests)
      (length : n = min arrived.2.length BUF_SIZE) :
      ServerMove s { s.setServer { s.server with
          pc := .converting
          buf := Buffer.overwrite (arrived.2.take n) s.server.buf
          numRead := n
          caddr := s.server.caddr.store arrived.1 } with
        requests := s.requests.erase arrived }
  | converted (at_ : s.server.pc = .converting) :
      ServerMove s (s.setServer { s.server with
        pc := .sending
        buf := upperCase s.server.numRead s.server.buf })
  | replied (peer : SockAddr) (at_ : s.server.pc = .sending)
      (addressed : s.server.caddr.peer sockaddrIn6 = some peer) :
      ServerMove s { s.setServer { s.server with pc := .receiving } with
        replies := s.replies ++ [(peer, s.server.buf.take s.server.numRead)] }

theorem serverStep_moves {arrived : Datagram} {outcome : Outcome} (succeeds : outcome.isError = false)
    (taken : serverStep s arrived outcome = some t) : ServerMove s t := by
  unfold serverStep at taken
  dsimp only at taken
  split at taken
  · rename_i at_
    cases outcome with
    | done => cases taken
    | error errno => cases succeeds
    | count n =>
      dsimp only at taken
      split at taken
      · rename_i valid
        cases taken
        exact .received arrived n at_ valid.1 valid.2
      · cases taken
  · rename_i at_
    cases outcome with
    | done =>
      cases taken
      exact .converted at_
    | count n => cases taken
    | error errno => cases succeeds
  · rename_i at_
    cases outcome with
    | done => cases taken
    | error errno => cases succeeds
    | count n =>
      obtain ⟨peer, addressed, rest⟩ := Option.bind_eq_some_iff.mp taken
      split at rest
      · rename_i length
        subst length
        cases rest
        exact .replied peer at_ addressed
      · cases rest
  · cases taken

theorem length_held (serving : Serving msgs s) :
    s.server.held.length = if s.server.pc = .receiving then 0 else 1 := by
  have addressed := serving.addressed
  unfold Server.held
  cases at_ : s.server.pc with
  | receiving => rfl
  | converting =>
    obtain ⟨peer, found⟩ := Option.isSome_iff_exists.mp (addressed (by simp [at_]))
    simp [found]
  | sending =>
    obtain ⟨peer, found⟩ := Option.isSome_iff_exists.mp (addressed (by simp [at_]))
    simp [found]
  | exited status => exact absurd at_ (serving.running status)

theorem ServerMove.addressed (serving : Serving msgs s) (move : ServerMove s t) :
    (∀ status, t.server.pc ≠ .exited status) ∧
      (t.server.pc ≠ .receiving → (t.server.caddr.peer sockaddrIn6).isSome) := by
  cases move with
  | received arrived n at_ member length =>
    refine ⟨by simp [State.setServer], fun _ => ?_⟩
    simp only [State.setServer, Holder.peer_store arrived.1 serving.invariant.room, Option.isSome_some]
  | converted at_ => exact ⟨by simp [State.setServer], fun _ => serving.addressed (by simp [at_])⟩
  | replied peer at_ addressed => exact ⟨by simp [State.setServer], by simp [State.setServer]⟩

theorem serverStep_serving {arrived : Datagram} {outcome : Outcome} (serving : Serving msgs s)
    (succeeds : outcome.isError = false) (taken : serverStep s arrived outcome = some t) : Serving msgs t := by
  have invariant : Invariant msgs t :=
    step_invariant serving.invariant (show step s (.server arrived outcome) = some t from taken)
  have clients := (serverStep_carries serving.invariant.room taken).clients
  obtain ⟨running, addressed⟩ := (serverStep_moves succeeds taken).addressed serving
  exact ⟨invariant, running, addressed, by rw [clients]; exact serving.unfailed⟩

/-- A server that does not fail loses nothing. -/
theorem serverStep_pending {arrived : Datagram} {outcome : Outcome} (serving : Serving msgs s)
    (succeeds : outcome.isError = false) (taken : serverStep s arrived outcome = some t) :
    t.pending.Perm s.pending := by
  have less := (serverStep_carries serving.invariant.room taken).pending
  have before := length_held serving
  have after := length_held (serverStep_serving serving succeeds taken)
  apply less.perm_of_length_le
  simp only [State.pending, List.length_append, List.length_map, before, after]
  cases serverStep_moves succeeds taken with
  | received arrived n at_ member length =>
    have one := List.length_erase_of_mem member
    have some_ := List.length_pos_of_mem member
    simp only [State.setServer, at_, one]
    simp
    omega
  | converted at_ => simp [State.setServer, at_]
  | replied peer at_ addressed => simp [State.setServer, at_, Nat.add_comm]

theorem clientStep_unfailed {arrived : List Byte} {outcome : Outcome} (succeeds : outcome.isError = false)
    (taken : clientStep s caddr arrived outcome = some t) : (t.clients caddr).pc ≠ .exited .failure := by
  unfold clientStep at taken
  dsimp only at taken
  split at taken
  · split at taken
    · cases taken
      simp [State.setClient]
    · split at taken
      · cases taken
        simp [State.setClient]
      · cases taken
    · cases succeeds
    · cases taken
  · cases outcome with
    | done => cases taken
    | error errno => cases succeeds
    | count n =>
      dsimp only at taken
      split at taken
      · cases taken
        simp [State.setClient]
      · cases taken
  · cases outcome with
    | done =>
      cases taken
      simp [State.setClient]
    | count n => cases taken
    | error errno => cases succeeds
  · cases taken

theorem clientStep_frame {arrived : List Byte} {outcome : Outcome}
    (taken : clientStep s caddr arrived outcome = some t) :
    t.server = s.server ∧ ∀ other, other ≠ caddr → t.clients other = s.clients other := by
  cases clientStep_moves taken <;>
    exact ⟨rfl, fun other apart => Function.update_of_ne apart _ _⟩

theorem clientStep_serving {arrived : List Byte} {outcome : Outcome} (serving : Serving msgs s)
    (succeeds : outcome.isError = false) (taken : clientStep s caddr arrived outcome = some t) :
    Serving msgs t := by
  have invariant : Invariant msgs t :=
    step_invariant serving.invariant (show step s (.client caddr arrived outcome) = some t from taken)
  obtain ⟨server, others⟩ := clientStep_frame taken
  refine ⟨invariant, by rw [server]; exact serving.running, by rw [server]; exact serving.addressed, ?_⟩
  intro other
  by_cases same : other = caddr
  · rw [same]
    exact clientStep_unfailed succeeds taken
  · rw [others other same]
    exact serving.unfailed other

theorem pending_loseRequest (member : d ∈ s.requests) :
    s.pending.Perm (answered d :: { s with requests := s.requests.erase d }.pending) := by
  have moved := (List.perm_cons_erase member).map answered
  exact moved.append_right _

theorem pending_loseReply (member : d ∈ s.replies) :
    s.pending.Perm (d :: { s with replies := s.replies.erase d }.pending) := by
  simp only [State.pending, ← List.append_assoc]
  exact ((List.perm_cons_erase member).append_left _).trans List.perm_middle

theorem Serving.lost (serving : Serving msgs s) (less : t.pending.Subperm s.pending) (server : t.server = s.server)
    (clients : t.clients = s.clients) : Serving msgs t := by
  refine ⟨⟨?_, ?_, ?_⟩, ?_, ?_, ?_⟩
  · rw [server]
    exact serving.invariant.room
  · rw [clients]
    exact serving.invariant.matched.carry less
  · rw [clients]
    exact serving.invariant.clients
  · rw [server]
    exact serving.running
  · rw [server]
    exact serving.addressed
  · rw [clients]
    exact serving.unfailed

theorem netStep_serving (serving : Serving msgs s) (succeeds : event.Succeeds) (taken : netStep s event = some t) :
    Serving msgs t := by
  cases event with
  | party action =>
    cases action with
    | server arrived outcome => exact serverStep_serving serving succeeds taken
    | client caddr arrived outcome => exact clientStep_serving serving succeeds taken
  | loseRequest d =>
    simp only [netStep] at taken
    split at taken
    · rename_i member
      cases taken
      exact serving.lost ((List.sublist_cons_self _ _).subperm.trans (pending_loseRequest member).symm.subperm) rfl rfl
    · cases taken
  | loseReply d =>
    simp only [netStep] at taken
    split at taken
    · rename_i member
      cases taken
      exact serving.lost ((List.sublist_cons_self _ _).subperm.trans (pending_loseReply member).symm.subperm) rfl rfl
    · cases taken

theorem serving_initial (msgs : SockAddr → List CString) (junk : Junk) : Serving msgs (initial msgs junk) := by
  refine ⟨invariant_initial msgs junk, ?_, ?_, ?_⟩ <;> simp [initial]

theorem outstanding_iff_of_perm {x : Datagram} (moved : s.pending.Perm (x :: t.pending)) (apart : x.1 ≠ caddr) :
    Outstanding s caddr ↔ Outstanding t caddr := by
  constructor
  · rintro ⟨d, member, rfl⟩
    rcases List.mem_cons.mp (moved.mem_iff.mp member) with rfl | there
    · exact absurd rfl apart
    · exact ⟨d, there, rfl⟩
  · rintro ⟨d, member, rfl⟩
    exact ⟨d, moved.mem_iff.mpr (List.mem_cons_of_mem _ member), rfl⟩

/-- A client waits for one datagram, so that it has nothing more to come when that is lost. -/
theorem Serving.bereft {x : Datagram} (serving : Serving msgs s) (moved : s.pending.Perm (x :: t.pending))
    (same : x.1 = caddr) : (s.clients caddr).pc = .receiving ∧ ¬ Outstanding t caddr := by
  subst same
  have awaited := serving.invariant.matched.awaited (moved.mem_iff.mpr List.mem_cons_self)
  constructor
  · cases at_ : (s.clients x.1).pc with
    | receiving => rfl
    | exited status =>
      cases status with
      | failure => exact absurd at_ (serving.unfailed x.1)
      | success => simp [Client.awaits, at_] at awaited
    | _ => simp [Client.awaits, at_] at awaited
  · rintro ⟨d, member, address⟩
    have rest := serving.invariant.matched.answer moved
    have none := rest.awaited (i := d.1) (r := d.2) member
    rw [address, Function.update_self] at none
    cases none

theorem unlost_congr (client : t.clients caddr = s.clients caddr)
    (outstanding : Outstanding t caddr ↔ Outstanding s caddr) :
    Unlost caddr t ↔ Unlost caddr s := by
  rw [Unlost, Unlost, client, outstanding]

theorem clientStep_unlost {arrived : List Byte} {outcome : Outcome} (succeeds : outcome.isError = false)
    (taken : clientStep s other arrived outcome = some t) : Unlost caddr t ↔ Unlost caddr s := by
  obtain ⟨-, frame⟩ := clientStep_frame taken
  have unfailed := clientStep_unfailed succeeds taken
  by_cases same : caddr = other
  · subst same
    -- before and behind such a step the client is not waiting, or what it waits for is there
    have both : Unlost caddr t ∧ Unlost caddr s := by
      cases clientStep_moves taken with
      | finished at_ nothing => exact ⟨by simp [Unlost, State.setClient], by simp [Unlost, at_]⟩
      | sent msg rest at_ next =>
        refine ⟨fun _ => ?_, by simp [Unlost, at_]⟩
        exact ⟨answered (caddr, msg.val), by simp [State.pending], rfl⟩
      | notSent at_ => exact absurd (by simp [State.setClient]) unfailed
      | answered n at_ member length =>
        refine ⟨by simp [Unlost, State.setClient], fun _ => ⟨(caddr, arrived), ?_, rfl⟩⟩
        simp [State.pending, member]
      | notAnswered at_ => exact absurd (by simp [State.setClient]) unfailed
      | printed at_ => exact ⟨by simp [Unlost, State.setClient], by simp [Unlost, at_]⟩
    exact iff_of_true both.1 both.2
  · apply unlost_congr (frame caddr same)
    cases clientStep_moves taken with
    | sent msg rest at_ next =>
      apply outstanding_iff_of_perm (x := answered (other, msg.val)) ?_ (fun equal => same equal.symm)
      simp only [State.pending, State.setClient, List.map_append, List.append_assoc]
      exact List.perm_middle
    | answered n at_ member length =>
      exact (outstanding_iff_of_perm (x := (other, arrived)) (pending_loseReply member)
        (fun equal => same equal.symm)).symm
    | _ => exact Iff.rfl

theorem netStep_unlost (serving : Serving msgs s) (succeeds : event.Succeeds) (taken : netStep s event = some t) :
    Unlost caddr t ↔ Unlost caddr s ∧ event.Keeps caddr := by
  have lost : ∀ x : Datagram, s.pending.Perm (x :: t.pending) → t.clients = s.clients →
      (Unlost caddr t ↔ Unlost caddr s ∧ x.1 ≠ caddr) := by
    intro x moved clients
    by_cases same : x.1 = caddr
    · obtain ⟨waits, none⟩ := serving.bereft moved same
      refine iff_of_false ?_ fun both => both.2 same
      intro unlost
      exact none (unlost (by rw [clients]; exact waits))
    · rw [and_iff_left same]
      exact unlost_congr (by rw [clients]) (outstanding_iff_of_perm moved same).symm
  cases event with
  | party action =>
    rw [Event.Keeps, and_true]
    cases action with
    | server arrived outcome =>
      have moved := serverStep_pending serving succeeds taken
      have clients := (serverStep_carries serving.invariant.room taken).clients
      apply unlost_congr (by rw [clients])
      simp only [Outstanding, moved.mem_iff]
    | client other arrived outcome => exact clientStep_unlost succeeds taken
  | loseRequest d =>
    simp only [netStep] at taken
    split at taken
    · rename_i member
      cases taken
      exact lost (answered d) (pending_loseRequest member) rfl
    · cases taken
  | loseReply d =>
    simp only [netStep] at taken
    split at taken
    · rename_i member
      cases taken
      exact lost d (pending_loseReply member) rfl
    · cases taken

def ServerPc.rank : ServerPc → Nat
  | .converting => 2
  | .sending => 1
  | .receiving | .exited _ => 0

/-- How far the datagram is that the client waits for: with the client, with the server, or in front of
    the server, which may be at work for somebody else. -/
def distance (s : State) (caddr : SockAddr) : Nat :=
  if ∃ d ∈ s.replies, d.1 = caddr then 0
  else if ∃ d ∈ s.server.held, d.1 = caddr then s.server.pc.rank
  else s.server.pc.rank + 3

def Client.work (c : Client) (distance : Nat) : Nat :=
  9 * c.args.length +
    match c.pc with
    | .sending => 8
    | .receiving => 2 + distance
    | .printing => 1
    | .exited _ => 0

def remaining (caddr : SockAddr) (s : State) : Nat := (s.clients caddr).work (distance s caddr)

theorem distance_le (pc : ServerPc) (at_ : t.server.pc = pc) (caddr : SockAddr) : distance t caddr ≤ pc.rank + 3 := by
  unfold distance
  rw [at_]
  split
  · omega
  · split <;> omega

theorem exists_mem_map_peer (peer : Option SockAddr) (bytes : List Byte) (caddr : SockAddr) :
    (∃ d ∈ peer.toList.map fun address => (address, bytes), d.1 = caddr) ↔ peer = some caddr := by
  cases peer with
  | none => simp
  | some address => simp only [Option.toList_some, List.map_cons, List.map_nil, List.mem_singleton,
      exists_eq_left, Option.some.injEq]

theorem exists_held_iff (v : Server) (caddr : SockAddr) :
    (∃ d ∈ v.held, d.1 = caddr) ↔
      (v.pc = .converting ∨ v.pc = .sending) ∧ v.caddr.peer sockaddrIn6 = some caddr := by
  cases at_ : v.pc with
  | converting => simp only [Server.held, at_, exists_mem_map_peer, true_or, true_and]
  | sending => simp only [Server.held, at_, exists_mem_map_peer, or_true, true_and]
  | receiving => simp [Server.held, at_]
  | exited status => simp [Server.held, at_]

theorem distance_of_held (pc : ServerPc) (at_ : t.server.pc = pc) (busy : pc = .converting ∨ pc = .sending)
    (peer : t.server.caddr.peer sockaddrIn6 = some caddr) : distance t caddr ≤ pc.rank := by
  have held := (exists_held_iff t.server caddr).mpr ⟨at_ ▸ busy, peer⟩
  unfold distance
  rw [at_]
  split
  · omega
  · exact Nat.le_refl _

theorem distance_of_replied (replied : ∃ d ∈ t.replies, d.1 = caddr) : distance t caddr = 0 := if_pos replied

theorem rank_le (pc : ServerPc) : pc.rank ≤ 2 := by cases pc <;> simp [ServerPc.rank]

def Nearer (caddr : SockAddr) (s : State) : Prop :=
  ∃ event t, event.Succeeds ∧ event.Keeps caddr ∧ netStep s event = some t ∧ remaining caddr t < remaining caddr s

theorem remaining_of_receiving (at_ : (s.clients caddr).pc = .receiving) :
    remaining caddr s = 9 * (s.clients caddr).args.length + (2 + distance s caddr) := by
  rw [remaining, Client.work, at_]

theorem nearer_server {arrived : Datagram} {outcome : Outcome} (at_ : (s.clients caddr).pc = .receiving)
    (succeeds : outcome.isError = false) (taken : serverStep s arrived outcome = some t)
    (clients : t.clients = s.clients) (less : distance t caddr < distance s caddr) : Nearer caddr s := by
  refine ⟨.party (.server arrived outcome), t, succeeds, trivial, taken, ?_⟩
  rw [remaining_of_receiving at_, remaining_of_receiving (by rw [clients]; exact at_), clients]
  omega

theorem serverStep_receiving (at_ : s.server.pc = .receiving) (member : d ∈ s.requests) :
    serverStep s d (.count (min d.2.length BUF_SIZE)) =
      some { s.setServer { s.server with
          pc := .converting
          buf := Buffer.overwrite (d.2.take (min d.2.length BUF_SIZE)) s.server.buf
          numRead := min d.2.length BUF_SIZE
          caddr := s.server.caddr.store d.1 } with
        requests := s.requests.erase d } := by
  rw [serverStep, at_]
  exact if_pos ⟨member, rfl⟩

theorem serverStep_converting (at_ : s.server.pc = .converting) (arrived : Datagram) :
    serverStep s arrived .done =
      some (s.setServer { s.server with pc := .sending, buf := upperCase s.server.numRead s.server.buf }) := by
  rw [serverStep, at_]

theorem serverStep_sending {peer : SockAddr} (at_ : s.server.pc = .sending)
    (addressed : s.server.caddr.peer sockaddrIn6 = some peer) (arrived : Datagram) :
    serverStep s arrived (.count s.server.numRead) =
      some { s.setServer { s.server with pc := .receiving } with
        replies := s.replies ++ [(peer, s.server.buf.take s.server.numRead)] } := by
  rw [serverStep, at_]
  dsimp only
  rw [addressed, Option.bind_some, if_pos rfl]

theorem nearer_sending (at_ : s.server.pc = .sending) (addressed : (s.server.caddr.peer sockaddrIn6).isSome)
    (waits : (s.clients caddr).pc = .receiving)
    (less : ∀ peer, s.server.caddr.peer sockaddrIn6 = some peer →
      distance { s.setServer { s.server with pc := .receiving } with
        replies := s.replies ++ [(peer, s.server.buf.take s.server.numRead)] } caddr < distance s caddr) :
    Nearer caddr s := by
  obtain ⟨peer, found⟩ := Option.isSome_iff_exists.mp addressed
  exact nearer_server waits rfl (serverStep_sending at_ found (caddr, [])) rfl (less peer found)

/-- A reply that the server is preparing comes closer. -/
theorem nearer_held (at_ : (s.clients caddr).pc = .receiving) (unreplied : ¬ ∃ d ∈ s.replies, d.1 = caddr)
    (held : ∃ d ∈ s.server.held, d.1 = caddr) : Nearer caddr s := by
  have here : distance s caddr = s.server.pc.rank := by rw [distance, if_neg unreplied, if_pos held]
  obtain ⟨busy, addressed⟩ := (exists_held_iff _ _).mp held
  rcases busy with busy | busy
  · apply nearer_server at_ rfl (serverStep_converting busy (caddr, [])) rfl
    rw [here, busy]
    apply Nat.lt_of_le_of_lt
    · exact distance_of_held .sending rfl (.inr rfl) addressed
    · decide
  · apply nearer_sending busy (by simp [addressed]) at_
    intro peer found
    rw [addressed, Option.some.injEq] at found
    rw [here, busy, distance_of_replied ⟨(peer, s.server.buf.take s.server.numRead), by simp, found.symm⟩]
    decide

/-- The server goes on with what it has, and takes the request of the client when it has nothing. -/
theorem nearer_requested (serving : Serving msgs s) (at_ : (s.clients caddr).pc = .receiving)
    (unreplied : ¬ ∃ d ∈ s.replies, d.1 = caddr) (unheld : ¬ ∃ d ∈ s.server.held, d.1 = caddr)
    (outstanding : Outstanding s caddr) : Nearer caddr s := by
  have here : distance s caddr = s.server.pc.rank + 3 := by rw [distance, if_neg unreplied, if_neg unheld]
  have requested : ∃ d ∈ s.requests, d.1 = caddr := by
    obtain ⟨d, member, address⟩ := outstanding
    rw [State.pending, List.mem_append, List.mem_append, List.mem_map] at member
    rcases member with ⟨request, there, rfl⟩ | there | there
    · exact ⟨request, there, address⟩
    · exact absurd ⟨d, there, address⟩ unheld
    · exact absurd ⟨d, there, address⟩ unreplied
  cases busy : s.server.pc with
  | receiving =>
    obtain ⟨d, member, rfl⟩ := requested
    apply nearer_server at_ rfl (serverStep_receiving busy member) rfl
    rw [here, busy]
    apply Nat.lt_of_le_of_lt
    · exact distance_of_held .converting rfl (.inl rfl) (Holder.peer_store d.1 serving.invariant.room)
    · decide
  | converting =>
    apply nearer_server at_ rfl (serverStep_converting busy (caddr, [])) rfl
    rw [here, busy]
    exact Nat.lt_of_le_of_lt (distance_le .sending rfl caddr) (by decide)
  | sending =>
    apply nearer_sending busy (serving.addressed (by simp [busy])) at_
    intro peer found
    rw [here, busy]
    exact Nat.lt_of_le_of_lt (distance_le .receiving rfl caddr) (by decide)
  | exited status => exact absurd busy (serving.running status)

theorem nearer_receiving (serving : Serving msgs s) (at_ : (s.clients caddr).pc = .receiving)
    (outstanding : Outstanding s caddr) : Nearer caddr s := by
  by_cases replied : ∃ d ∈ s.replies, d.1 = caddr
  · obtain ⟨⟨peer, arrived⟩, member, rfl⟩ := replied
    refine ⟨.party (.client peer arrived (.count (min arrived.length BUF_SIZE))), { s.setClient peer
        { s.clients peer with
          pc := .printing
          rsp := Buffer.overwrite (arrived.take (min arrived.length BUF_SIZE)) (s.clients peer).rsp
          numRead := min arrived.length BUF_SIZE } with
        replies := s.replies.erase (peer, arrived) }, rfl, trivial, ?_, ?_⟩
    · simp only [netStep, step, clientStep, at_, and_true]
      exact if_pos member
    · rw [remaining_of_receiving at_]
      simp [remaining, Client.work, State.setClient]
      omega
  · by_cases held : ∃ d ∈ s.server.held, d.1 = caddr
    · exact nearer_held at_ replied held
    · exact nearer_requested serving at_ replied held outstanding

theorem nearer (serving : Serving msgs s) (unlost : Unlost caddr s)
    (unfinished : (s.clients caddr).pc ≠ .exited .success) : Nearer caddr s := by
  cases at_ : (s.clients caddr).pc with
  | receiving => exact nearer_receiving serving at_ (unlost at_)
  | sending =>
    cases next : (s.clients caddr).args with
    | nil =>
      refine ⟨.party (.client caddr [] .done), s.setClient caddr { s.clients caddr with pc := .exited .success },
        rfl, trivial, ?_, ?_⟩
      · simp only [netStep, step, clientStep, at_, next]
      · simp [remaining, Client.work, State.setClient, at_, next]
    | cons msg rest =>
      refine ⟨.party (.client caddr [] (.count msg.val.length)),
        { s.setClient caddr { s.clients caddr with pc := .receiving } with
          requests := s.requests ++ [(caddr, msg.val)] }, rfl, trivial, ?_, ?_⟩
      · simp only [netStep, step, clientStep, at_, next, if_true]
      · have far := distance_le (t := { s.setClient caddr { s.clients caddr with pc := .receiving } with
          requests := s.requests ++ [(caddr, msg.val)] }) s.server.pc rfl caddr
        have rank := rank_le s.server.pc
        rw [remaining_of_receiving (by simp [State.setClient])]
        simp only [State.setClient, Function.update_self, remaining, Client.work, at_] at far ⊢
        omega
  | printing =>
    obtain ⟨done, follows⟩ := serving.invariant.clients caddr
    obtain ⟨msg, head, -⟩ := follows.answered at_
    obtain ⟨rest, args⟩ := List.head?_eq_some_iff.mp head
    refine ⟨.party (.client caddr [] .done), s.setClient caddr { s.clients caddr with
        pc := .sending
        i := (s.clients caddr).i + 1
        args := (s.clients caddr).args.tail
        printed := (s.clients caddr).printed ++
          [((s.clients caddr).i - 1, formatString (s.clients caddr).numRead (s.clients caddr).rsp)] },
      rfl, trivial, ?_, ?_⟩
    · simp only [netStep, step, clientStep, at_]
    · simp [remaining, Client.work, State.setClient, at_, args]
      omega
  | exited status =>
    cases status with
    | success => exact absurd at_ unfinished
    | failure => exact absurd at_ (serving.unfailed caddr)

theorem Serving.printed (serving : Serving msgs s) (caddr : SockAddr) :
    (s.clients caddr).printed <+: responses (msgs caddr) ∧
      ((s.clients caddr).pc = .exited .success → (s.clients caddr).printed = responses (msgs caddr)) := by
  obtain ⟨done, follows⟩ := serving.invariant.clients caddr
  constructor
  · rw [follows.printed, follows.msgs]
    exact responses_begin done _
  · intro exited
    rw [follows.printed, follows.msgs, follows.finished exited, List.append_nil]

/-- On a network that loses datagrams a client still prints nothing but its own responses, in order, and
    it can get to its end exactly where none of its own datagrams has been lost, whatever others lose. -/
theorem finishes_iff (msgs : SockAddr → List CString) (junk : Junk) {events : List Event}
    (succeed : Along netStep (fun _ event => event.Succeeds) events (initial msgs junk))
    (run : exec netStep events (initial msgs junk) = some s) (caddr : SockAddr) :
    (s.clients caddr).printed <+: responses (msgs caddr) ∧
    ((∃ t, Reaches netStep (fun _ event => event.Succeeds) s t ∧ (t.clients caddr).pc = .exited .success ∧
        (t.clients caddr).printed = responses (msgs caddr)) ↔
      Along netStep (fun _ event => event.Keeps caddr) events (initial msgs junk)) := by
  have kept : ∀ s event t, Serving msgs s → event.Succeeds → netStep s event = some t → Serving msgs t :=
    fun s event t serving succeeds taken => netStep_serving serving succeeds taken
  have serving : Serving msgs s := exec_invariant kept (serving_initial msgs junk) succeed run
  refine ⟨(serving.printed caddr).1, ?_⟩
  have tracked : ∀ {events s t}, Serving msgs s → Along netStep (fun _ event => event.Succeeds) events s →
      exec netStep events s = some t →
      (Unlost caddr t ↔ Unlost caddr s ∧ Along netStep (fun _ event => event.Keeps caddr) events s) :=
    fun serving succeed run => along_iff_of_along kept
      (fun s event t serving succeeds taken => netStep_unlost serving succeeds taken) serving succeed run
  have start : Unlost caddr (initial msgs junk) := by simp [Unlost, initial]
  have here := tracked (serving_initial msgs junk) succeed run
  rw [and_iff_right start] at here
  rw [← here]
  constructor
  · rintro ⟨t, ⟨later, succeeds, reached⟩, exited, -⟩
    exact ((tracked serving succeeds reached).mp (by simp [Unlost, exited])).1
  · intro unlost
    have ends : ∃ t, Reaches netStep (fun _ event => event.Succeeds) s t ∧
        (t.clients caddr).pc = .exited .success := by
      apply exists_reaches (I := fun s => Serving msgs s ∧ Unlost caddr s) (remaining caddr) ?_ ⟨serving, unlost⟩
      intro s ⟨serving, unlost⟩ unfinished
      obtain ⟨event, t, succeeds, keeps, taken, less⟩ := nearer serving unlost unfinished
      have still := (netStep_unlost serving succeeds taken).mpr ⟨unlost, keeps⟩
      exact ⟨event, t, succeeds, taken, ⟨kept s event t serving succeeds taken, still⟩, less⟩
    obtain ⟨t, reached, exited⟩ := ends
    have served : Serving msgs t := reached.invariant serving kept
    exact ⟨t, reached, exited, (served.printed caddr).2 exited⟩

def oneLost : List Event :=
  let hello : List Byte := [104, 101, 108, 108, 111, 32, 119, 111, 114, 108, 100, 33]
  let loud : List Byte := [72, 69, 76, 76, 79, 32, 87, 79, 82, 76]
  [.party (.client (sockAddr 1) [] (.count 12)), .party (.client (sockAddr 2) [] (.count 2)),
    .party (.server (sockAddr 1, hello) (.count 10)), .party (.server (sockAddr 1, []) .done),
    .party (.server (sockAddr 1, []) (.count 10)), .loseReply (sockAddr 1, loud)]

theorem finishes_iff_oneLost :
    ∃ s, exec netStep oneLost (initial twoMessages noJunk) = some s ∧
      (∃ t, Reaches netStep (fun _ event => event.Succeeds) s t ∧
        (t.clients (sockAddr 2)).pc = .exited .success ∧
        (t.clients (sockAddr 2)).printed = responses (twoMessages (sockAddr 2))) ∧
      ¬ ∃ t, Reaches netStep (fun _ event => event.Succeeds) s t ∧
        (t.clients (sockAddr 1)).pc = .exited .success ∧
        (t.clients (sockAddr 1)).printed = responses (twoMessages (sockAddr 1)) := by
  obtain ⟨s, run⟩ : ∃ s, exec netStep oneLost (initial twoMessages noJunk) = some s :=
    Option.isSome_iff_exists.mp (by decide +kernel)
  have finishes := fun caddr => (finishes_iff twoMessages noJunk (by decide +kernel) run caddr).2
  refine ⟨s, run, ?_, ?_⟩
  · rw [finishes]
    decide +kernel
  · rw [finishes]
    decide +kernel

end SystemProgramming.UcaseService
