import Mathlib.Data.List.Nodup
import SystemProgramming.Library.Parties
import SystemProgramming.UsXfr.Model

namespace SystemProgramming.UsXfr

open Transition

def ClientPc.writes : ClientPc → Bool
  | .writing => true
  | .connecting | .reading | .exited _ => false

def ServerPc.writes : ServerPc → Bool
  | .writing _ => true
  | .accepting | .reading _ | .closing _ | .exited _ => false

def Works (s : State) : Action → Prop
  | .client id outcome => outcome.isError = false ∧
      ((s.clients id).pc.writes = true → returned outcome = (s.clients id).numRead)
  | .server outcome => outcome.isError = false ∧ (s.pc.writes = true → returned outcome = s.numRead)

instance (s : State) : (action : Action) → Decidable (Works s action)
  | .client _ _ | .server _ => inferInstanceAs (Decidable (_ ∧ (_ → _)))

def ServerPc.current : ServerPc → Option Id
  | .reading id | .writing id | .closing id => some id
  | .accepting | .exited _ => none

def Client.held (c : Client) : List Byte := if c.pc = .writing then c.buf.take c.numRead else []

structure Client.Sends (c : Client) (input : List Byte) : Prop where
  conserved : input = c.conn.sent ++ (c.held ++ c.stdin)
  finished : c.pc.hasExited = true → c.stdin = []

def Copies (input : Id → List Byte) (s : State) : Prop :=
  match s.pc with
  | .accepting => s.stdout = s.closed.flatMap input
  | .reading id => s.stdout = s.closed.flatMap input ++ (s.clients id).conn.received
  | .writing id =>
    ∃ part, s.stdout = s.closed.flatMap input ++ part ∧
      (s.clients id).conn.received = part ++ s.buf.take s.numRead
  | .closing id => s.stdout = s.closed.flatMap input ++ input id
  | .exited _ => False

structure Invariant (input : Id → List Byte) (s : State) : Prop where
  clients : ∀ id, (s.clients id).Sends (input id)
  order : s.accepted = s.closed ++ s.pc.current.toList
  distinct : (s.accepted ++ s.backlog).Nodup
  connecting : ∀ id, (s.clients id).pc = .connecting → id ∉ s.accepted ++ s.backlog
  untouched : ∀ id, id ∉ s.accepted → (s.clients id).conn.received = []
  copies : Copies input s

theorem clientRead_sends {c d : Client} {input : List Byte} {outcome : Outcome} (before : c.Sends input)
    (at_ : c.pc = .reading) (succeeds : outcome.isError = false) (stepped : clientRead c outcome = some d) :
    d.Sends input ∧ d.conn = c.conn ∧ d.pc ≠ .connecting := by
  have conserved := before.conserved
  have none : c.held = [] := by simp [Client.held, at_]
  rw [none, List.nil_append] at conserved
  cases outcome with
  | done => cases stepped
  | error errno => cases succeeds
  | count n =>
    simp only [clientRead] at stepped
    split at stepped
    · rename_i read
      rcases read with ⟨-, -, available⟩
      cases stepped
      refine ⟨⟨?_, ?_⟩, rfl, by simp⟩
      · have length : (c.stdin.take n).length = n := List.length_take_of_le available
        simp only [Client.held, if_true, Buffer.take_overwrite_of_length _ _ length,
          List.take_append_drop]
        exact conserved
      · intro impossible
        cases impossible
    · split at stepped
      · rename_i ended
        cases stepped
        refine ⟨⟨?_, fun _ => ended.2⟩, rfl, by simp⟩
        simpa [Client.held] using conserved
      · cases stepped

theorem clientWrite_sends {c d : Client} {input : List Byte} {outcome : Outcome} (before : c.Sends input)
    (at_ : c.pc = .writing) (succeeds : outcome.isError = false) (whole : returned outcome = c.numRead)
    (stepped : clientWrite c outcome = some d) :
    d.Sends input ∧ d.conn.received = c.conn.received ∧ d.pc ≠ .connecting := by
  have conserved := before.conserved
  have held : c.held = c.buf.take c.numRead := by simp [Client.held, at_]
  cases outcome with
  | done => cases stepped
  | error errno => cases succeeds
  | count n =>
    simp only [clientWrite, whole, ne_eq, not_true_eq_false, if_false] at stepped
    split at stepped
    · cases stepped
      refine ⟨⟨?_, ?_⟩, rfl, by simp⟩
      · have same : n = c.numRead := whole
        rw [held, ← same, ← List.append_assoc] at conserved
        simpa [Client.held] using conserved
      · intro impossible
        cases impossible
    · cases stepped

variable {input : Id → List Byte}

theorem received_setClient {s : State} {id : Id} {d : Client}
    (received : d.conn.received = (s.clients id).conn.received) (other : Id) :
    ((s.setClient id d).clients other).conn.received = (s.clients other).conn.received := by
  by_cases same : other = id
  · subst same
    simp [State.setClient, received]
  · simp [State.setClient, same]

theorem Invariant.client {s : State} (before : Invariant input s) {id : Id} {d : Client}
    (sends : d.Sends (input id)) (received : d.conn.received = (s.clients id).conn.received)
    (connected : d.pc ≠ .connecting) : Invariant input (s.setClient id d) := by
  have same : ∀ other, ((s.setClient id d).clients other).conn.received =
      (s.clients other).conn.received := received_setClient received
  refine ⟨?_, before.order, before.distinct, ?_, ?_, ?_⟩
  · exact Parties.forall_update (P := fun other (c : Client) => c.Sends (input other))
      before.clients sends
  · intro other at_
    by_cases moved : other = id
    · subst moved
      simp only [State.setClient, Function.update_self] at at_
      exact absurd at_ connected
    · simp only [State.setClient, Function.update_of_ne moved] at at_
      exact before.connecting other at_
  · intro other never
    rw [same]
    exact before.untouched other never
  · have copies := before.copies
    unfold Copies at copies ⊢
    simp only [same]
    exact copies

theorem clientStep_invariant {s t : State} {id : Id} {outcome : Outcome} (before : Invariant input s)
    (works : Works s (.client id outcome)) (taken : clientStep s id outcome = some t) :
    Invariant input t := by
  rcases works with ⟨succeeds, whole⟩
  have sends := before.clients id
  unfold clientStep at taken
  dsimp only at taken
  split at taken
  · rename_i at_
    cases outcome with
    | count n => cases taken
    | error errno => cases succeeds
    | done =>
      dsimp only at taken
      split at taken
      · cases taken
        have quiet : Client.Sends { s.clients id with pc := .reading } (input id) := by
          refine ⟨?_, ?_⟩
          · have conserved := sends.conserved
            simpa [Client.held, at_] using conserved
          · intro impossible
            cases impossible
        have moved := before.client quiet rfl (by simp)
        have fresh := before.connecting id at_
        refine ⟨moved.clients, moved.order, ?_, ?_, moved.untouched, moved.copies⟩
        · rw [← List.append_assoc, ← List.concat_eq_append]
          exact before.distinct.concat fresh
        · intro other here
          have apart : other ≠ id := by
            rintro rfl
            simp [State.setClient] at here
          have never := moved.connecting other here
          rw [← List.append_assoc, List.mem_append, List.mem_singleton]
          rintro (before | same)
          · exact never before
          · exact apart same
      · cases taken
  · rename_i at_
    rcases Option.map_eq_some_iff.mp taken with ⟨d, stepped, rfl⟩
    rcases clientRead_sends sends at_ succeeds stepped with ⟨sends, conn, connected⟩
    exact before.client sends (by rw [conn]) connected
  · rename_i at_
    rcases Option.map_eq_some_iff.mp taken with ⟨d, stepped, rfl⟩
    rcases clientWrite_sends sends at_ succeeds (whole (by rw [at_]; rfl)) stepped
      with ⟨sends, received, connected⟩
    exact before.client sends received connected
  · cases taken

theorem held_of_exited {c : Client} (exited : c.pc.hasExited = true) : c.held = [] := by
  unfold Client.held
  split
  · rename_i at_
    rw [at_] at exited
    cases exited
  · rfl

theorem Invariant.server {s t : State} (before : Invariant input s) (clients : t.clients = s.clients)
    (order : t.accepted = t.closed ++ t.pc.current.toList)
    (same : t.accepted ++ t.backlog = s.accepted ++ s.backlog)
    (grown : ∀ id, id ∈ s.accepted → id ∈ t.accepted) (copies : Copies input t) : Invariant input t := by
  refine ⟨?_, order, ?_, ?_, ?_, copies⟩
  · rw [clients]
    exact before.clients
  · rw [same]
    exact before.distinct
  · rw [clients, same]
    exact before.connecting
  · intro id never
    rw [clients]
    exact before.untouched id fun member => never (grown id member)

inductive ServerMove (s : State) : State → Prop where
  | accepted (id : Id) (backlog : List Id) (at_ : s.pc = .accepting)
      (waiting : s.backlog = id :: backlog) :
      ServerMove s
        { s.goto (.reading id) with backlog := backlog, accepted := s.accepted ++ [id] }
  | filled (id : Id) (n : Nat) (at_ : s.pc = .reading id)
      (available : n ≤ (s.clients id).conn.inFlight.length) :
      ServerMove s { (s.goto (.writing id)).setClient id
          { s.clients id with conn := (s.clients id).conn.take n } with
        buf := Buffer.overwrite ((s.clients id).conn.inFlight.take n) s.buf
        numRead := n }
  | ended (id : Id) (at_ : s.pc = .reading id) (drained : (s.clients id).conn.inFlight = [])
      (exited : (s.clients id).pc.hasExited = true) :
      ServerMove s { s.goto (.closing id) with numRead := 0 }
  | wrote (id : Id) (at_ : s.pc = .writing id) :
      ServerMove s { s.goto (.reading id) with stdout := s.stdout ++ s.buf.take s.numRead }
  | closed (id : Id) (at_ : s.pc = .closing id) :
      ServerMove s { s.goto .accepting with closed := s.closed ++ [id] }

theorem serverStep_moves {s t : State} {outcome : Outcome} (works : Works s (.server outcome))
    (taken : serverStep s outcome = some t) : ServerMove s t := by
  rcases works with ⟨succeeds, whole⟩
  unfold serverStep at taken
  cases outcome with
  | error errno => cases succeeds
  | done =>
    cases at_ : s.pc with
    | accepting =>
      rw [at_] at taken
      cases waiting : s.backlog with
      | nil =>
        rw [waiting] at taken
        cases taken
      | cons id backlog =>
        rw [waiting] at taken
        cases taken
        exact .accepted id backlog at_ waiting
    | closing id =>
      rw [at_] at taken
      cases taken
      exact .closed id at_
    | reading id | writing id | exited status =>
      rw [at_] at taken
      cases taken
  | count n =>
    cases at_ : s.pc with
    | reading id =>
      rw [at_] at taken
      dsimp only at taken
      split at taken
      · rename_i read
        cases taken
        exact .filled id n at_ read.2.2
      · split at taken
        · rename_i ended
          cases taken
          exact .ended id at_ ended.2.1 ended.2.2
        · cases taken
    | writing id =>
      have same : n = s.numRead := whole (by rw [at_]; rfl)
      subst same
      rw [at_] at taken
      simp only [returned, ne_eq, not_true_eq_false, if_false] at taken
      split at taken
      · cases taken
        exact .wrote id at_
      · cases taken
    | accepting | closing id | exited status =>
      rw [at_] at taken
      cases taken

theorem Invariant.filled {s : State} (before : Invariant input s) {id : Id} {n : Nat}
    (at_ : s.pc = .reading id) (available : n ≤ (s.clients id).conn.inFlight.length) :
    Invariant input { (s.goto (.writing id)).setClient id
        { s.clients id with conn := (s.clients id).conn.take n } with
      buf := Buffer.overwrite ((s.clients id).conn.inFlight.take n) s.buf
      numRead := n } := by
  have order := before.order
  have copies := before.copies
  rw [at_] at order
  rw [Copies, at_] at copies
  have length : ((s.clients id).conn.inFlight.take n).length = n := List.length_take_of_le available
  refine ⟨?_, order, before.distinct, ?_, ?_, ?_⟩
  · exact Parties.forall_update (P := fun other (c : Client) => c.Sends (input other))
      before.clients ⟨(before.clients id).conserved, (before.clients id).finished⟩
  · intro other here
    apply before.connecting other
    by_cases same : other = id
    · subst same
      simpa [State.setClient] using here
    · simpa [State.setClient, State.goto, same] using here
  · intro other never
    have apart : other ≠ id := by
      rintro rfl
      apply never
      rw [State.setClient, State.goto, order]
      simp [ServerPc.current]
    simp only [State.setClient, State.goto, Function.update_of_ne apart]
    exact before.untouched other never
  · refine ⟨(s.clients id).conn.received, copies, ?_⟩
    simp only [State.setClient, State.goto, Function.update_self, Channel.take_received,
      Buffer.take_overwrite_of_length _ _ length]

theorem ServerMove.invariant {s t : State} (before : Invariant input s) (move : ServerMove s t) :
    Invariant input t := by
  have order := before.order
  have copies := before.copies
  unfold Copies at copies
  cases move with
  | accepted id backlog at_ waiting =>
    rw [at_] at order copies
    refine before.server rfl ?_ ?_ ?_ ?_
    · rw [order]
      simp [State.goto, ServerPc.current]
    · rw [waiting, List.append_assoc, List.singleton_append]
    · intro other member
      exact List.mem_append_left _ member
    · have fresh : id ∉ s.accepted := by
        have distinct := before.distinct
        rw [waiting] at distinct
        intro member
        exact (List.disjoint_of_nodup_append distinct) member List.mem_cons_self
      have nothing := before.untouched id fresh
      simp only [Copies, State.goto, nothing, List.append_nil]
      exact copies
  | filled id n at_ available => exact before.filled at_ available
  | ended id at_ drained exited =>
    rw [at_] at order copies
    refine before.server rfl order rfl (fun _ member => member) ?_
    have sends := before.clients id
    have whole : (s.clients id).conn.received = input id := by
      rw [sends.conserved, sends.finished exited, Channel.received_of_drained _ drained]
      rw [held_of_exited exited, List.append_nil, List.append_nil]
    simp only [Copies, State.goto, ← whole]
    exact copies
  | wrote id at_ =>
    rw [at_] at order copies
    refine before.server rfl order rfl (fun _ member => member) ?_
    rcases copies with ⟨part, output, received⟩
    simp only [Copies, State.goto, output, received, List.append_assoc]
  | closed id at_ =>
    rw [at_] at order copies
    refine before.server rfl ?_ rfl (fun _ member => member) ?_
    · simp only [State.goto, ServerPc.current, Option.toList_none, List.append_nil]
      exact order
    · simp only [Copies, State.goto, List.flatMap_append, List.flatMap_singleton]
      exact copies

theorem serverStep_invariant {s t : State} {outcome : Outcome} (before : Invariant input s)
    (works : Works s (.server outcome)) (taken : serverStep s outcome = some t) : Invariant input t :=
  (serverStep_moves works taken).invariant before

theorem invariant_initial (input : Id → List Byte) (buf : List Byte) (junk : Id → List Byte) :
    Invariant input (initial input buf junk) := by
  refine ⟨fun id => ⟨rfl, ?_⟩, rfl, List.nodup_nil, ?_, fun _ _ => rfl, rfl⟩
  · intro impossible
    cases impossible
  · intro id _ member
    cases member

theorem step_invariant {s t : State} {action : Action} (before : Invariant input s)
    (works : Works s action) (taken : step s action = some t) : Invariant input t := by
  cases action with
  | client id outcome => exact clientStep_invariant before works taken
  | server outcome => exact serverStep_invariant before works taken

theorem Client.Sends.received_begin {c : Client} {sent : List Byte} (sends : c.Sends sent) :
    c.conn.received <+: sent := by
  rw [sends.conserved]
  exact c.conn.received_isPrefix.trans (List.prefix_append _ _)

theorem Invariant.output {s : State} (invariant : Invariant input s) :
    ∃ part, s.stdout = s.closed.flatMap input ++ part ∧ part <+: s.pc.current.elim [] input := by
  have copies := invariant.copies
  unfold Copies at copies
  split at copies
  · rename_i at_
    exact ⟨[], by rw [copies, List.append_nil], List.nil_prefix⟩
  · rename_i id at_
    refine ⟨_, copies, ?_⟩
    rw [at_]
    exact (invariant.clients id).received_begin
  · rename_i id at_
    rcases copies with ⟨part, output, received⟩
    refine ⟨part, output, ?_⟩
    have whole : part <+: (s.clients id).conn.received := received ▸ List.prefix_append part _
    rw [at_]
    exact whole.trans (invariant.clients id).received_begin
  · rename_i id at_
    refine ⟨_, copies, ?_⟩
    rw [at_]
    exact List.prefix_rfl
  · cases copies

/-- The output is the input of one client after the other, in the order in which the server accepts
    them, however the three copies cut the streams. -/
theorem stdout_concatenated (input : Id → List Byte) (buf : List Byte) (junk : Id → List Byte) {s : State}
    (reached : Reaches step Works (initial input buf junk) s) :
    s.accepted = s.closed ++ s.pc.current.toList ∧ s.accepted.Nodup ∧
      ∃ part, s.stdout = s.closed.flatMap input ++ part ∧ part <+: s.pc.current.elim [] input := by
  have invariant : Invariant input s := reached.invariant (invariant_initial input buf junk)
    fun _ _ _ holds works taken => step_invariant holds works taken
  exact ⟨invariant.order, invariant.distinct.of_append_left, invariant.output⟩

def twoInputs : Id → List Byte
  | 1 => [1, 2, 3]
  | 2 => [9]
  | _ => []

def oneAfterTheOther : List Action :=
  [.client 1 .done, .client 2 .done, .client 1 (.count 2), .client 1 (.count 2), .client 2 (.count 1),
    .server .done, .server (.count 1), .client 2 (.count 1), .client 1 (.count 1), .server (.count 1),
    .client 1 (.count 1), .client 1 (.count 0), .server (.count 2), .server (.count 2),
    .server (.count 0), .server .done, .server .done, .server (.count 1)]

theorem stdout_concatenated_oneAfterTheOther :
    ∃ s, exec step oneAfterTheOther (initial twoInputs [] fun _ => []) = some s ∧
      ∃ part, s.stdout = [1, 2, 3] ++ part ∧ part <+: [9] := by
  have ends : (exec step oneAfterTheOther (initial twoInputs [] fun _ => [])).any
      (fun s => s.closed = [1] ∧ s.pc = .writing 2) = true := by decide +kernel
  rcases (Option.any_eq_true _ _).mp ends with ⟨s, run, both⟩
  rw [decide_eq_true_eq] at both
  have copied := stdout_concatenated twoInputs [] (fun _ => [])
    ⟨oneAfterTheOther, by decide +kernel, run⟩
  rw [both.1, both.2] at copied
  exact ⟨s, run, copied.2.2⟩

end SystemProgramming.UsXfr
