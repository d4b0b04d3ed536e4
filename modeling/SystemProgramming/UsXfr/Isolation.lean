import SystemProgramming.UsXfr.Concatenation

namespace SystemProgramming.UsXfr

open Transition

variable {input : Id → List Byte} {s t : State} {id : Id} {outcome : Outcome}

def ServerWorks (s : State) : Action → Prop
  | .server outcome => Works s (.server outcome)
  | .client _ _ => True

def Unharmed (id : Id) (s : State) : Action → Prop
  | .client other outcome => other = id → Works s (.client other outcome)
  | .server _ => True

instance (s : State) : (action : Action) → Decidable (ServerWorks s action)
  | .server outcome => inferInstanceAs (Decidable (Works s (.server outcome)))
  | .client _ _ => isTrue trivial

instance (id : Id) (s : State) : (action : Action) → Decidable (Unharmed id s action)
  | .client _ _ => inferInstanceAs (Decidable (_ → _))
  | .server _ => isTrue trivial

namespace State

def received (s : State) (id : Id) : List Byte := (s.clients id).conn.received

def sent (s : State) (id : Id) : List Byte := (s.clients id).conn.sent

def pending (s : State) : List Byte :=
  match s.pc with
  | .writing _ => s.buf.take s.numRead
  | _ => []

end State

/-- Whatever the clients do, the server copies the connections one after the other. -/
structure Relayed (s : State) : Prop where
  order : s.accepted = s.closed ++ s.pc.current.toList
  distinct : (s.accepted ++ s.backlog).Nodup
  connecting : ∀ id, (s.clients id).pc = .connecting → id ∉ s.accepted ++ s.backlog
  untouched : ∀ id, id ∉ s.accepted → s.received id = []
  ended : ∀ id, id ∈ s.closed ∨ s.pc = .closing id →
    (s.clients id).pc.hasExited = true ∧ (s.clients id).conn.inFlight = []
  copies : ∃ part, s.stdout = s.closed.flatMap s.received ++ part ∧
    s.pc.current.elim [] s.received = part ++ s.pending

/-- A client that does something is still there, and takes nothing from its connection. -/
theorem clientStep_keeps (taken : clientStep s id outcome = some t) :
    ∃ d, t = { s.setClient id d with backlog := t.backlog } ∧ d.conn.received = (s.clients id).conn.received ∧
      d.pc ≠ .connecting ∧ (s.clients id).pc.hasExited = false ∧
      (t.backlog = s.backlog ∨ (s.clients id).pc = .connecting ∧ t.backlog = s.backlog ++ [id]) := by
  unfold clientStep at taken
  dsimp only at taken
  split at taken
  · rename_i at_
    have running : (s.clients id).pc.hasExited = false := by
      rw [at_]
      rfl
    cases outcome with
    | count n => cases taken
    | error errno =>
      cases taken
      exact ⟨_, rfl, rfl, by simp, running, .inl rfl⟩
    | done =>
      dsimp only at taken
      split at taken
      · cases taken
        exact ⟨_, rfl, rfl, by simp, running, .inr ⟨at_, rfl⟩⟩
      · cases taken
  · rename_i at_
    obtain ⟨d, stepped, rfl⟩ := Option.map_eq_some_iff.mp taken
    have moved : d.conn.received = (s.clients id).conn.received ∧ d.pc ≠ .connecting := by
      unfold clientRead at stepped
      split at stepped
      · split at stepped
        · cases stepped
          exact ⟨rfl, by simp⟩
        · split at stepped
          · cases stepped
            exact ⟨rfl, by simp⟩
          · cases stepped
      · cases stepped
        exact ⟨rfl, by simp⟩
      · cases stepped
    exact ⟨d, rfl, moved.1, moved.2, by rw [at_]; rfl, .inl rfl⟩
  · rename_i at_
    obtain ⟨d, stepped, rfl⟩ := Option.map_eq_some_iff.mp taken
    have moved : d.conn.received = (s.clients id).conn.received ∧ d.pc ≠ .connecting := by
      unfold clientWrite at stepped
      dsimp only at stepped
      split at stepped
      · split at stepped
        · cases stepped
          exact ⟨rfl, by split <;> simp⟩
        · cases stepped
      · cases stepped
        exact ⟨rfl, by split <;> simp⟩
      · cases stepped
    exact ⟨d, rfl, moved.1, moved.2, by rw [at_]; rfl, .inl rfl⟩
  · cases taken

theorem clientStep_relayed (relayed : Relayed s) (taken : clientStep s id outcome = some t) : Relayed t := by
  obtain ⟨d, whole, received, connected, running, queued⟩ := clientStep_keeps taken
  have same : t.received = s.received := by
    funext other
    rw [whole]
    exact received_setClient received other
  have parts : t.pc = s.pc ∧ t.accepted = s.accepted ∧ t.closed = s.closed ∧ t.stdout = s.stdout ∧
      t.pending = s.pending := by
    rw [whole]
    exact ⟨rfl, rfl, rfl, rfl, rfl⟩
  obtain ⟨pc, accepted, closed, stdout, pending⟩ := parts
  have clients : t.clients = Function.update s.clients id d := by rw [whole]; rfl
  refine ⟨by rw [pc, accepted, closed]; exact relayed.order, ?_, ?_, ?_, ?_, ?_⟩
  · rw [accepted]
    rcases queued with same | ⟨at_, grown⟩
    · rw [same]
      exact relayed.distinct
    · rw [grown, ← List.append_assoc, ← List.concat_eq_append]
      exact relayed.distinct.concat (relayed.connecting id at_)
  · intro other here
    have apart : other ≠ id := by
      rintro rfl
      rw [clients, Function.update_self] at here
      exact connected here
    rw [clients, Function.update_of_ne apart] at here
    have never := relayed.connecting other here
    rw [accepted]
    rcases queued with same | ⟨-, grown⟩
    · rwa [same]
    · rw [grown, ← List.append_assoc, List.mem_append, List.mem_singleton]
      rintro (before | same)
      · exact never before
      · exact apart same
  · rw [accepted, same]
    exact relayed.untouched
  · rw [closed, pc, clients]
    intro other over_
    have before := relayed.ended other over_
    have apart : other ≠ id := by
      rintro rfl
      rw [running] at before
      exact Bool.false_ne_true before.1
    rwa [Function.update_of_ne apart]
  · rw [stdout, closed, pc, pending, same]
    exact relayed.copies

theorem Relayed.fresh (relayed : Relayed s) (at_ : s.pc.current = some id) : id ∉ s.closed := by
  have distinct := relayed.distinct.of_append_left
  rw [relayed.order, at_, Option.toList_some] at distinct
  intro member
  exact List.disjoint_of_nodup_append distinct member (List.mem_singleton.mpr rfl)

theorem Relayed.server (relayed : Relayed s) (clients : t.clients = s.clients)
    (order : t.accepted = t.closed ++ t.pc.current.toList)
    (same : t.accepted ++ t.backlog = s.accepted ++ s.backlog) (grown : ∀ id, id ∈ s.accepted → id ∈ t.accepted)
    (ended : ∀ id, id ∈ t.closed ∨ t.pc = .closing id →
      (s.clients id).pc.hasExited = true ∧ (s.clients id).conn.inFlight = [])
    (copies : ∃ part, t.stdout = t.closed.flatMap s.received ++ part ∧
      t.pc.current.elim [] s.received = part ++ t.pending) : Relayed t := by
  have received : t.received = s.received := by
    funext id
    rw [State.received, State.received, clients]
  refine ⟨order, by rw [same]; exact relayed.distinct, by rw [clients, same]; exact relayed.connecting, ?_,
    by rw [clients]; exact ended, by rw [received]; exact copies⟩
  intro id never
  rw [received]
  exact relayed.untouched id fun member => never (grown id member)

theorem Relayed.filled {n : Nat} (relayed : Relayed s) (at_ : s.pc = .reading id)
    (available : n ≤ (s.clients id).conn.inFlight.length) :
    Relayed { (s.goto (.writing id)).setClient id
        { s.clients id with conn := (s.clients id).conn.take n } with
      buf := Buffer.overwrite ((s.clients id).conn.inFlight.take n) s.buf
      numRead := n } := by
  obtain ⟨part, output, current⟩ := relayed.copies
  have order := relayed.order
  have fresh := relayed.fresh (show s.pc.current = some id by rw [at_]; rfl)
  rw [at_] at order current
  have length : ((s.clients id).conn.inFlight.take n).length = n := List.length_take_of_le available
  have others : ∀ other, other ≠ id → Function.update s.clients id
      { s.clients id with conn := (s.clients id).conn.take n } other = s.clients other :=
    fun other apart => Function.update_of_ne apart _ _
  refine ⟨order, relayed.distinct, ?_, ?_, ?_, s.received id, ?_, ?_⟩
  · intro other here
    apply relayed.connecting other
    by_cases same : other = id
    · subst same
      simpa [State.setClient] using here
    · simpa [State.setClient, State.goto, same] using here
  · intro other never
    have apart : other ≠ id := by
      rintro rfl
      apply never
      show other ∈ s.accepted
      rw [order]
      simp [ServerPc.current]
    simp only [State.received, State.setClient, State.goto, others other apart]
    exact relayed.untouched other never
  · intro other over_
    have closed : other ∈ s.closed := by
      rcases over_ with closed | closing
      · exact closed
      · cases closing
    have apart : other ≠ id := by
      rintro rfl
      exact fresh closed
    simp only [State.setClient, State.goto, others other apart]
    exact relayed.ended other (.inl closed)
  · have same : s.closed.flatMap (fun other => (Function.update s.clients id
        { s.clients id with conn := (s.clients id).conn.take n } other).conn.received) =
        s.closed.flatMap s.received := by
      apply List.flatMap_congr
      intro other closed
      have apart : other ≠ id := by
        rintro rfl
        exact fresh closed
      rw [others other apart, State.received]
    show s.stdout = s.closed.flatMap _ ++ _
    rw [State.pending, at_, List.append_nil] at current
    rw [output, ← current]
    exact congrArg (· ++ s.received id) same.symm
  · show (Function.update s.clients id _ id).conn.received = s.received id ++ _
    simp only [State.pending, State.setClient, State.goto, Function.update_self, Channel.take_received,
      Buffer.take_overwrite_of_length _ _ length, State.received]

theorem ServerMove.relayed (relayed : Relayed s) (move : ServerMove s t) : Relayed t := by
  obtain ⟨part, output, current⟩ := relayed.copies
  have order := relayed.order
  have ended := relayed.ended
  cases move with
  | accepted id backlog at_ waiting =>
    have distinct := relayed.distinct
    rw [waiting] at distinct
    have fresh : id ∉ s.accepted :=
      fun member => List.disjoint_of_nodup_append distinct member List.mem_cons_self
    rw [at_] at order current ended
    have nothing : part = [] := (List.append_eq_nil_iff.mp current.symm).1
    rw [nothing] at output
    refine relayed.server rfl ?_ ?_ (fun _ member => List.mem_append_left _ member) ?_ ⟨[], output, ?_⟩
    · rw [order]
      simp [State.goto, ServerPc.current]
    · rw [waiting, List.append_assoc, List.singleton_append]
    · rintro other (closed | closing)
      · exact ended other (.inl closed)
      · cases closing
    · exact relayed.untouched id fresh
  | filled id n at_ available => exact relayed.filled at_ available
  | ended id at_ drained exited =>
    rw [at_] at order
    rw [State.pending, at_] at current
    refine relayed.server rfl order rfl (fun _ member => member) ?_ ⟨part, output, current⟩
    rintro other (closed | closing)
    · exact ended other (.inl closed)
    · cases closing
      exact ⟨exited, drained⟩
  | wrote id at_ =>
    rw [at_] at order
    rw [State.pending, at_] at current
    refine relayed.server rfl order rfl (fun _ member => member) ?_ ⟨part ++ s.buf.take s.numRead, ?_, ?_⟩
    · rw [at_] at ended
      rintro other (closed | closing)
      · exact ended other (.inl closed)
      · cases closing
    · show s.stdout ++ s.buf.take s.numRead = _
      rw [output, List.append_assoc]
      rfl
    · exact current.trans (List.append_nil _).symm
  | closed id at_ =>
    rw [at_] at order ended
    rw [State.pending, at_, List.append_nil] at current
    refine relayed.server rfl ?_ rfl (fun _ member => member) ?_ ⟨[], ?_, rfl⟩
    · show s.accepted = s.closed ++ [id] ++ []
      rw [order, List.append_nil]
      rfl
    · rintro other (closed | closing)
      · rcases List.mem_append.mp closed with before | now
        · exact ended other (.inl before)
        · rw [List.mem_singleton] at now
          exact ended other (.inr (by rw [now]))
      · cases closing
    · show s.stdout = (s.closed ++ [id]).flatMap s.received ++ []
      rw [List.append_nil, List.flatMap_append, List.flatMap_singleton, output, ← current]
      rfl

theorem step_relayed {action : Action} (relayed : Relayed s) (works : ServerWorks s action)
    (taken : step s action = some t) : Relayed t := by
  cases action with
  | server outcome => exact (serverStep_moves works taken).relayed relayed
  | client id outcome => exact clientStep_relayed relayed taken

theorem relayed_initial (buf : List Byte) (junk : Id → List Byte) : Relayed (initial input buf junk) :=
  ⟨rfl, List.nodup_nil, by simp [initial], fun _ _ => rfl, by simp [initial], [], rfl, rfl⟩

theorem clientStep_sends (sends : (s.clients id).Sends (input id)) (works : Works s (.client id outcome))
    (taken : clientStep s id outcome = some t) : (t.clients id).Sends (input id) := by
  obtain ⟨succeeds, whole⟩ := works
  unfold clientStep at taken
  dsimp only at taken
  split at taken
  · rename_i at_
    cases outcome with
    | count n => cases taken
    | error errno => cases succeeds
    | done =>
      dsimp only at taken
      split at taken
      · cases taken
        show (Function.update s.clients id _ id).Sends (input id)
        rw [Function.update_self]
        refine ⟨?_, by simp [ClientPc.hasExited]⟩
        have conserved := sends.conserved
        simpa [Client.held, at_] using conserved
      · cases taken
  · rename_i at_
    obtain ⟨d, stepped, rfl⟩ := Option.map_eq_some_iff.mp taken
    show (Function.update s.clients id _ id).Sends (input id)
    rw [Function.update_self]
    exact (clientRead_sends sends at_ succeeds stepped).1
  · rename_i at_
    obtain ⟨d, stepped, rfl⟩ := Option.map_eq_some_iff.mp taken
    show (Function.update s.clients id _ id).Sends (input id)
    rw [Function.update_self]
    exact (clientWrite_sends sends at_ succeeds (whole (by rw [at_]; rfl)) stepped).1
  · cases taken

/-- What happens to the others does not concern a client for which nothing fails. -/
theorem step_sends {action : Action} (sends : (s.clients id).Sends (input id)) (works : ServerWorks s action)
    (unharmed : Unharmed id s action) (taken : step s action = some t) : (t.clients id).Sends (input id) := by
  cases action with
  | server outcome =>
    cases serverStep_moves works taken with
    | filled other n at_ available =>
      show (Function.update s.clients other _ id).Sends (input id)
      by_cases same : id = other
      · subst same
        rw [Function.update_self]
        exact ⟨sends.conserved, sends.finished⟩
      · rwa [Function.update_of_ne same]
    | _ => exact sends
  | client other outcome =>
    by_cases same : other = id
    · subst same
      exact clientStep_sends sends (unharmed rfl) taken
    · obtain ⟨d, whole, -⟩ := clientStep_keeps taken
      rw [whole]
      show (Function.update s.clients other d id).Sends (input id)
      rwa [Function.update_of_ne (Ne.symm same)]

/-- The server puts what the clients send one after the other whatever the clients do, and a client for which
    nothing fails gets its whole input there, whatever happens to the others. -/
theorem clients_isolated (input : Id → List Byte) (buf : List Byte) (junk : Id → List Byte)
    {actions : List Action} (works : Along step ServerWorks actions (initial input buf junk))
    (run : exec step actions (initial input buf junk) = some s) :
    s.accepted = s.closed ++ s.pc.current.toList ∧ s.accepted.Nodup ∧
    (∃ part, s.stdout = s.closed.flatMap s.sent ++ part ∧ part <+: s.pc.current.elim [] s.sent) ∧
    ∀ id, Along step (Unharmed id) actions (initial input buf junk) →
      s.sent id <+: input id ∧ (id ∈ s.closed → s.sent id = input id) := by
  have relayed : Relayed s := exec_invariant
    (fun _ _ _ relayed works taken => step_relayed relayed works taken) (relayed_initial buf junk) works run
  obtain ⟨part, output, current⟩ := relayed.copies
  refine ⟨relayed.order, relayed.distinct.of_append_left, ⟨part, ?_, ?_⟩, ?_⟩
  · rw [output]
    congr 1
    apply List.flatMap_congr
    intro id closed
    exact Channel.received_of_drained _ (relayed.ended id (.inl closed)).2
  · cases at_ : s.pc.current with
    | none =>
      rw [at_] at current
      rw [(List.append_eq_nil_iff.mp current.symm).1]
      exact List.nil_prefix
    | some id =>
      rw [at_] at current
      have begun : part <+: s.received id := ⟨s.pending, current.symm⟩
      exact begun.trans (s.clients id).conn.received_isPrefix
  · intro id unharmed
    have both := (along_and step actions _).mpr ⟨works, unharmed⟩
    have sends : (s.clients id).Sends (input id) := exec_invariant (I := fun s => (s.clients id).Sends (input id))
      (fun _ _ _ sends both taken => step_sends sends both.1 both.2 taken) ⟨rfl, by simp [initial, ClientPc.hasExited]⟩
      both run
    refine ⟨?_, ?_⟩
    · rw [sends.conserved]
      exact List.prefix_append _ _
    · intro closed
      obtain ⟨exited, -⟩ := relayed.ended id (.inl closed)
      rw [sends.conserved, held_of_exited exited, sends.finished exited, List.append_nil, List.append_nil]
      rfl

def firstFails : List Action :=
  [.client 1 .done, .client 2 .done, .client 1 (.count 2), .client 1 (.count 2), .client 2 (.count 1),
    .server .done, .server (.count 1), .client 2 (.count 1), .client 1 (.count 1), .server (.count 1),
    .client 1 (.error (.other 4)), .client 2 (.count 0), .server (.count 1), .server (.count 1),
    .server (.count 0), .server .done, .server .done, .server (.count 1), .server (.count 1),
    .server (.count 0), .server .done]

theorem clients_isolated_firstFails :
    ∃ s, exec step firstFails (initial twoInputs [] fun _ => []) = some s ∧ s.stdout = [1, 2, 9] ∧
      s.sent 2 = [9] := by
  have ends : (exec step firstFails (initial twoInputs [] fun _ => [])).any
      (fun s => s.closed = [1, 2] ∧ s.stdout = [1, 2, 9]) = true := by decide +kernel
  obtain ⟨s, run, both⟩ := (Option.any_eq_true _ _).mp ends
  rw [decide_eq_true_eq] at both
  have second := (clients_isolated twoInputs [] (fun _ => []) (by decide +kernel) run).2.2.2 2 (by decide +kernel)
  exact ⟨s, run, both.2, second.2 (by rw [both.1]; decide)⟩

end SystemProgramming.UsXfr
