import SystemProgramming.ChatroomClient.Shutdown

namespace SystemProgramming.ChatroomClient

open Transition

variable {capacity : Nat} {buf : List Byte} {s t : State} {actions : List Action} {action : Action} {result : Result}

def Result.Succeeds : Result → Prop
  | .revents _ => True
  | .call outcome => outcome.isError = false

def Action.Succeeds : Action → Prop
  | .client result => result.Succeeds
  | .typed _ | .inputEnds | .data _ | .serverCloses => True

instance : (result : Result) → Decidable result.Succeeds
  | .revents _ => isTrue trivial
  | .call outcome => inferInstanceAs (Decidable (outcome.isError = false))

instance : (action : Action) → Decidable action.Succeeds
  | .client result => inferInstanceAs (Decidable result.Succeeds)
  | .typed _ | .inputEnds | .data _ | .serverCloses => isTrue trivial

/-- The second `splice` waits for bytes that only the first one brings. -/
def State.Blocked (s : State) : Prop := s.pc = .draining ∧ s.pipe = []

inductive Move (capacity : Nat) (s : State) : Result → State → Prop where
  | nothing (r : Revents) (at_ : s.pc = .polling) : Move capacity s (.revents r) s
  | receives (r : Revents) (at_ : s.pc = .polling) (there : s.unread ≠ [] ∨ s.serverClosed = true) :
      Move capacity s (.revents r) { s with pc := .receiving }
  | fills (r : Revents) (at_ : s.pc = .polling) (there : s.input ≠ [] ∨ s.inputEnded = true) :
      Move capacity s (.revents r) { s with pc := .filling }
  | received (n : Nat) (at_ : s.pc = .receiving) (there : n ≤ s.unread.length) :
      Move capacity s (.call (.count n)) { received s n (Buffer.overwrite (s.unread.take n) s.buf) with
        unread := s.unread.drop n }
  | filled (n : Nat) (at_ : s.pc = .filling) (there : n ≤ s.input.length)
      (room : s.pipe.length + n ≤ capacity) (none_ : n = 0 → s.input = [] ∧ s.inputEnded = true) :
      Move capacity s (.call (.count n)) { s with
        pc := .draining
        input := s.input.drop n
        pipe := s.pipe ++ s.input.take n }
  | drained (n : Nat) (at_ : s.pc = .draining) (some_ : 0 < n) (there : n ≤ s.pipe.length) :
      Move capacity s (.call (.count n)) { s with
        pc := .polling
        pipe := s.pipe.drop n
        sent := s.sent ++ s.pipe.take n }

theorem dispatch_moves {r : Revents} (at_ : s.pc = .polling) (reports : Reports s r) :
    Move capacity s (.revents r) (dispatch s r) := by
  obtain ⟨stdin, pollin, hungUp, both⟩ := reports
  unfold dispatch
  by_cases readable : r.pollin = true
  · rw [if_pos readable]
    exact .receives r at_ (pollin readable)
  · have connected : ¬ r.rdhup = true := fun rdhup => readable (both (hungUp rdhup)).1
    rw [if_neg readable, if_neg connected]
    split
    · rename_i typed
      exact .fills r at_ (stdin typed)
    · exact .nothing r at_

theorem clientStep_moves (inLoop : InLoop s) (succeeds : result.Succeeds)
    (taken : clientStep capacity s result = some t) :
    Move capacity s result t := by
  unfold clientStep at taken
  split at taken
  case h_1 r at_ =>
    split at taken
    · rename_i reports
      cases taken
      exact dispatch_moves at_ reports
    · cases taken
  case h_2 | h_5 | h_7 => cases succeeds
  case h_3 outcome at_ =>
    unfold receive at taken
    cases outcome with
    | done => cases taken
    | error errno => cases succeeds
    | count n =>
      dsimp only at taken
      split at taken
      · rename_i fits
        cases taken
        exact .received n at_ fits.2.1
      · cases taken
  case h_4 n at_ =>
    split at taken
    · rename_i fits
      cases taken
      exact .filled n at_ fits.2.1 fits.2.2.1 fits.2.2.2
    · cases taken
  case h_6 n at_ =>
    split at taken
    · rename_i fits
      cases taken
      exact .drained n at_ fits.1 fits.2.2
    · cases taken
  case h_8 at_ | h_9 errno at_ => exact absurd at_ inLoop.open_
  case h_10 => cases taken

structure Ready (capacity : Nat) (s : State) : Prop where
  inLoop : InLoop s
  unaborted : s.pc ≠ .aborted
  receiving : s.pc = .receiving → s.unread ≠ [] ∨ s.serverClosed = true
  filling : s.pc = .filling → s.input ≠ [] ∨ s.inputEnded = true
  blocked : s.Blocked → s.inputEnded = true ∧ s.input = []
  within : s.pipe.length ≤ capacity
  room : s.pc ≠ .draining → s.pipe.length < capacity

theorem ready_initial (positive : 0 < capacity) (buf : List Byte) : Ready capacity (initial buf) where
  inLoop := ⟨nofun, nofun⟩
  unaborted := nofun
  receiving := nofun
  filling := nofun
  blocked := fun blocked => nomatch blocked.1
  within := Nat.zero_le _
  room := fun _ => positive

theorem Move.ready (ready : Ready capacity s) (move : Move capacity s result t) : Ready capacity t := by
  cases move with
  | nothing r at_ => exact ready
  | receives r at_ there =>
    have room := ready.room (by simp [at_])
    exact ⟨⟨nofun, nofun⟩, nofun, fun _ => there, nofun, fun blocked => (nomatch blocked.1), ready.within,
      fun _ => room⟩
  | fills r at_ there =>
    have room := ready.room (by simp [at_])
    exact ⟨⟨nofun, nofun⟩, nofun, nofun, fun _ => there, fun blocked => (nomatch blocked.1), ready.within,
      fun _ => room⟩
  | received n at_ there =>
    have room := ready.room (by simp [at_])
    exact ⟨⟨nofun, nofun⟩, nofun, nofun, nofun, fun blocked => (nomatch blocked.1), ready.within,
      fun _ => room⟩
  | drained n at_ some_ there =>
    have within := ready.within
    have less : (s.pipe.drop n).length < capacity := by
      rw [List.length_drop]
      omega
    exact ⟨⟨nofun, nofun⟩, nofun, nofun, nofun, fun blocked => (nomatch blocked.1), Nat.le_of_lt less,
      fun _ => less⟩
  | filled n at_ there room none_ =>
    have within : (s.pipe ++ s.input.take n).length ≤ capacity := by
      rw [List.length_append, List.length_take]
      omega
    refine ⟨⟨nofun, nofun⟩, nofun, nofun, nofun, ?_, within, fun other => absurd rfl other⟩
    rintro ⟨-, empty⟩
    have nothing : s.input.take n = [] := (List.append_eq_nil_iff.mp empty).2
    rcases List.take_eq_nil_iff.mp nothing with zero | none
    · obtain ⟨done, ended⟩ := none_ zero
      exact ⟨ended, by rw [done, List.drop_nil]⟩
    · have zero : n = 0 := by
        rw [none, List.length_nil] at there
        omega
      obtain ⟨done, ended⟩ := none_ zero
      exact ⟨ended, by rw [done, List.drop_nil]⟩

theorem step_ready (ready : Ready capacity s) (succeeds : action.Succeeds)
    (taken : step capacity s action = some t) : Ready capacity t := by
  cases action with
  | client result => exact (clientStep_moves ready.inLoop succeeds taken).ready ready
  | typed bytes =>
    dsimp only [step] at taken
    split at taken
    · rename_i open_
      cases taken
      refine ⟨⟨ready.inLoop.open_, ready.inLoop.running⟩, ready.unaborted, ready.receiving, fun at_ => ?_,
        fun blocked => ?_, ready.within, ready.room⟩
      · have still := ready.filling at_
        rw [open_] at still
        exact .inl (by simp [still.resolve_right nofun])
      · have ended := (ready.blocked blocked).1
        rw [open_] at ended
        cases ended
    · cases taken
  | inputEnds =>
    cases taken
    exact ⟨⟨ready.inLoop.open_, ready.inLoop.running⟩, ready.unaborted, ready.receiving, fun _ => .inr rfl,
      fun blocked => ⟨rfl, (ready.blocked blocked).2⟩, ready.within, ready.room⟩
  | data bytes =>
    dsimp only [step] at taken
    split at taken
    · rename_i open_
      cases taken
      refine ⟨⟨ready.inLoop.open_, ready.inLoop.running⟩, ready.unaborted, fun at_ => ?_, ready.filling,
        ready.blocked, ready.within, ready.room⟩
      have still := ready.receiving at_
      rw [open_] at still
      exact .inl (by simp [still.resolve_right nofun])
    · cases taken
  | serverCloses =>
    cases taken
    exact ⟨⟨ready.inLoop.open_, ready.inLoop.running⟩, ready.unaborted, fun _ => .inr rfl, ready.filling,
      ready.blocked, ready.within, ready.room⟩

theorem eq_nil_of_min_eq_zero {bytes : List Byte} {limit : Nat} (positive : 0 < limit)
    (zero : min limit bytes.length = 0) : bytes = [] := by
  apply List.length_eq_zero_iff.mp
  omega

/-- The client can go on wherever it is not blocked. -/
theorem blocked_iff (ready : Ready capacity s) :
    s.Blocked ↔ ¬ ∃ result t, Result.Succeeds result ∧ clientStep capacity s result = some t := by
  constructor
  · rintro ⟨at_, empty⟩ ⟨result, t, succeeds, taken⟩
    cases clientStep_moves ready.inLoop succeeds taken with
    | drained n _ some_ there =>
      rw [empty, List.length_nil] at there
      omega
    | nothing r at' | receives r at' | fills r at' | received n at' | filled n at' =>
      rw [at_] at at'
      cases at'
  · intro stuck
    by_contra free
    have goes : ∀ result, Result.Succeeds result → (clientStep capacity s result).isSome → False :=
      fun result succeeds enabled => stuck ⟨result, _, succeeds, (Option.some_get enabled).symm⟩
    cases at_ : s.pc with
    | polling =>
      have reports : Reports s ⟨false, s.serverClosed, s.serverClosed⟩ :=
        ⟨nofun, .inr, id, fun closed => ⟨closed, closed⟩⟩
      apply goes (.revents ⟨false, s.serverClosed, s.serverClosed⟩) trivial
      simp only [clientStep, at_, if_pos reports, Option.isSome_some]
    | receiving =>
      have fits : min BUF_SIZE s.unread.length ≤ BUF_SIZE ∧ min BUF_SIZE s.unread.length ≤ s.unread.length ∧
          (min BUF_SIZE s.unread.length = 0 → s.unread = [] ∧ s.serverClosed = true) := by
        refine ⟨Nat.min_le_left _ _, Nat.min_le_right _ _, fun zero => ?_⟩
        have none := eq_nil_of_min_eq_zero (show 0 < BUF_SIZE by decide) zero
        exact ⟨none, (ready.receiving at_).resolve_left (absurd none)⟩
      apply goes (.call (.count (min BUF_SIZE s.unread.length))) rfl
      simp only [clientStep, at_, receive, if_pos fits, Option.isSome_some]
    | filling =>
      have room := ready.room (by simp [at_])
      let free := min SPLICE_LEN (capacity - s.pipe.length)
      have some_ : 0 < free := Nat.lt_min.mpr ⟨by decide, by omega⟩
      have fits : min free s.input.length ≤ SPLICE_LEN ∧ min free s.input.length ≤ s.input.length ∧
          s.pipe.length + min free s.input.length ≤ capacity ∧
          (min free s.input.length = 0 → s.input = [] ∧ s.inputEnded = true) := by
        refine ⟨(Nat.min_le_left _ _).trans (Nat.min_le_left _ _), Nat.min_le_right _ _, ?_, fun zero => ?_⟩
        · have most := (Nat.min_le_left free s.input.length).trans (Nat.min_le_right _ _)
          omega
        · have none := eq_nil_of_min_eq_zero some_ zero
          exact ⟨none, (ready.filling at_).resolve_left (absurd none)⟩
      apply goes (.call (.count (min free s.input.length))) rfl
      simp only [clientStep, at_, if_pos fits, Option.isSome_some]
    | draining =>
      have some_ : s.pipe ≠ [] := fun empty => free ⟨at_, empty⟩
      have fits : 0 < min SPLICE_LEN s.pipe.length ∧ min SPLICE_LEN s.pipe.length ≤ SPLICE_LEN ∧
          min SPLICE_LEN s.pipe.length ≤ s.pipe.length := by
        refine ⟨Nat.pos_of_ne_zero fun zero => ?_, Nat.min_le_left _ _, Nat.min_le_right _ _⟩
        exact some_ (eq_nil_of_min_eq_zero (show 0 < SPLICE_LEN by decide) zero)
      apply goes (.call (.count (min SPLICE_LEN s.pipe.length))) rfl
      simp only [clientStep, at_, if_pos fits, Option.isSome_some]
    | closing => exact absurd at_ ready.inLoop.open_
    | exited => exact absurd at_ ready.inLoop.running
    | aborted => exact absurd at_ ready.unaborted

theorem step_blocked (ready : Ready capacity s) (blocked : s.Blocked) (succeeds : action.Succeeds)
    (taken : step capacity s action = some t) : t.Blocked ∧ t.sent = s.sent ∧ t.stdout = s.stdout := by
  cases action with
  | client result => exact absurd ⟨result, t, succeeds, taken⟩ ((blocked_iff ready).mp blocked)
  | typed bytes | data bytes =>
    dsimp only [step] at taken
    split at taken
    · cases taken
      exact ⟨blocked, rfl, rfl⟩
    · cases taken
  | inputEnds | serverCloses =>
    cases taken
    exact ⟨blocked, rfl, rfl⟩

def Action.input : Action → List Byte
  | .typed bytes => bytes
  | _ => []

def Action.output : Action → List Byte
  | .data bytes => bytes
  | _ => []

def chunk (s : State) : Action → List (List Byte)
  | .client (.call (.count n)) => if s.pc = .receiving then [s.unread.take n] else []
  | _ => []

def printed (buf : List Byte) : List (List Byte) → List Line
  | [] => []
  | chunk :: chunks =>
    .received chunk.length (formatString (-1) (Buffer.overwrite chunk buf)) ::
      printed (Buffer.overwrite chunk buf) chunks

def stored (buf : List Byte) (chunks : List (List Byte)) : List Byte :=
  chunks.foldl (fun buf chunk => Buffer.overwrite chunk buf) buf

theorem printed_concat (buf : List Byte) (chunks : List (List Byte)) (last : List Byte) :
    printed buf (chunks ++ [last]) = printed buf chunks ++
      [.received last.length (formatString (-1) (Buffer.overwrite last (stored buf chunks)))] := by
  induction chunks generalizing buf with
  | nil => rfl
  | cons chunk chunks ih =>
    rw [List.cons_append, printed, printed, ih, List.cons_append, stored, stored, List.foldl_cons]

theorem stored_concat (buf : List Byte) (chunks : List (List Byte)) (last : List Byte) :
    stored buf (chunks ++ [last]) = Buffer.overwrite last (stored buf chunks) := by
  rw [stored, List.foldl_append]
  rfl

/-- What goes to the server is in order what was typed, and nothing of it is lost. -/
theorem step_sent {typed : List Byte} (ready : Ready capacity s) (succeeds : action.Succeeds)
    (relayed : s.sent ++ s.pipe ++ s.input = typed) (taken : step capacity s action = some t) :
    t.sent ++ t.pipe ++ t.input = typed ++ action.input := by
  cases action with
  | typed bytes =>
    dsimp only [step] at taken
    split at taken
    · cases taken
      rw [← relayed, Action.input, List.append_assoc _ s.input]
    · cases taken
  | data bytes =>
    dsimp only [step] at taken
    split at taken
    · cases taken
      exact relayed.trans (List.append_nil _).symm
    · cases taken
  | inputEnds | serverCloses =>
    cases taken
    exact relayed.trans (List.append_nil _).symm
  | client result =>
    rw [show Action.input (.client result) = [] from rfl, List.append_nil, ← relayed]
    cases clientStep_moves ready.inLoop succeeds taken with
    | nothing | receives | fills | received => rfl
    | filled n at_ there =>
      show s.sent ++ (s.pipe ++ s.input.take n) ++ s.input.drop n = _
      simp only [List.append_assoc, List.take_append_drop]
    | drained n at_ some_ there =>
      show s.sent ++ s.pipe.take n ++ s.pipe.drop n ++ s.input = _
      rw [List.append_assoc s.sent, List.take_append_drop]

structure Shown (buf : List Byte) (chunks : List (List Byte)) (s : State) : Prop where
  stdout : s.stdout = printed buf chunks
  buffer : s.buf = stored buf chunks

theorem Shown.same {chunks : List (List Byte)} (shown : Shown buf chunks s) (stdout : t.stdout = s.stdout)
    (buffer : t.buf = s.buf) : Shown buf (chunks ++ []) t := by
  rw [List.append_nil]
  exact ⟨stdout.trans shown.stdout, buffer.trans shown.buffer⟩

theorem step_shown {chunks : List (List Byte)} (ready : Ready capacity s) (shown : Shown buf chunks s)
    (succeeds : action.Succeeds) (taken : step capacity s action = some t) :
    Shown buf (chunks ++ chunk s action) t := by
  cases action with
  | typed bytes | data bytes =>
    dsimp only [step] at taken
    split at taken
    · cases taken
      exact shown.same rfl rfl
    · cases taken
  | inputEnds | serverCloses =>
    cases taken
    exact shown.same rfl rfl
  | client result =>
    cases clientStep_moves ready.inLoop succeeds taken with
    | nothing | receives | fills => exact shown.same rfl rfl
    | filled n at_ there =>
      rw [chunk, at_]
      exact shown.same rfl rfl
    | drained n at_ some_ there =>
      rw [chunk, at_]
      exact shown.same rfl rfl
    | received n at_ there =>
      rw [chunk, if_pos at_]
      have length : (s.unread.take n).length = n := List.length_take_of_le there
      refine ⟨?_, ?_⟩
      · rw [printed_concat, ← shown.stdout, ← shown.buffer, length]
        rfl
      · rw [stored_concat, ← shown.buffer]
        rfl

theorem step_unread {chunks : List (List Byte)} {data : List Byte} (ready : Ready capacity s)
    (read : chunks.flatten ++ s.unread = data) (succeeds : action.Succeeds) (taken : step capacity s action = some t) :
    (chunks ++ chunk s action).flatten ++ t.unread = data ++ action.output := by
  rw [List.flatten_append]
  cases action with
  | data bytes =>
    dsimp only [step] at taken
    split at taken
    · cases taken
      rw [← read, Action.output, List.append_assoc _ s.unread]
      simp [chunk]
    · cases taken
  | typed bytes =>
    dsimp only [step] at taken
    split at taken
    · cases taken
      simpa [chunk, Action.output] using read
    · cases taken
  | inputEnds | serverCloses =>
    cases taken
    simpa [chunk, Action.output] using read
  | client result =>
    rw [show Action.output (.client result) = [] from rfl, List.append_nil, ← read]
    cases clientStep_moves ready.inLoop succeeds taken with
    | nothing | receives | fills => simp [chunk]
    | filled n at_ there | drained n at_ some_ there => simp [chunk, at_]
    | received n at_ there =>
      rw [chunk, if_pos at_, List.flatten_singleton, List.append_assoc, List.take_append_drop]

/-- Where no call fails the client relays both streams in order and can always go on, except that it blocks for
    ever once it has come upon the end of its input with nothing in the pipe. -/
theorem relays_until_blocked (positive : 0 < capacity)
    (succeed : Along (step capacity) (fun _ action => action.Succeeds) actions (initial buf))
    (run : exec (step capacity) actions (initial buf) = some s) :
    s.sent ++ s.pipe ++ s.input = actions.flatMap Action.input ∧
      s.stdout = printed buf (trace (step capacity) chunk actions (initial buf)) ∧
      (trace (step capacity) chunk actions (initial buf)).flatten ++ s.unread = actions.flatMap Action.output ∧
      (s.Blocked ↔ ¬ ∃ result t, Result.Succeeds result ∧ clientStep capacity s result = some t) ∧
      (s.Blocked → s.inputEnded = true ∧ s.sent = actions.flatMap Action.input ∧
        ∀ more t, Along (step capacity) (fun _ action => action.Succeeds) more s →
          exec (step capacity) more s = some t →
          t.Blocked ∧ t.sent = s.sent ∧ t.stdout = s.stdout) := by
  have kept : ∀ s action t, Ready capacity s → Action.Succeeds action → step capacity s action = some t →
      Ready capacity t :=
    fun s action t ready succeeds taken => step_ready ready succeeds taken
  have ready := exec_invariant kept (ready_initial positive buf) succeed run
  have sent : s.sent ++ s.pipe ++ s.input = actions.flatMap Action.input := by
    have both := exec_history
      (I := fun before s => Ready capacity s ∧ s.sent ++ s.pipe ++ s.input = before.flatMap Action.input) ?_
      ⟨ready_initial positive buf, rfl⟩ succeed run
    · exact both.2
    · rintro before r action t - ⟨ready, relayed⟩ succeeds taken
      rw [List.flatMap_append, List.flatMap_singleton]
      exact ⟨kept r action t ready succeeds taken, step_sent ready succeeds relayed taken⟩
  have shown : Ready capacity s ∧ Shown buf (trace (step capacity) chunk actions (initial buf)) s := by
    refine exec_trace (I := fun chunks s => Ready capacity s ∧ Shown buf chunks s) ?_
      ⟨ready_initial positive buf, rfl, rfl⟩ succeed run
    rintro chunks r action t ⟨ready, shown⟩ succeeds taken
    exact ⟨kept r action t ready succeeds taken, step_shown ready shown succeeds taken⟩
  have read : Ready capacity s ∧
      (trace (step capacity) chunk actions (initial buf)).flatten ++ s.unread = actions.flatMap Action.output := by
    refine exec_history (I := fun before s => Ready capacity s ∧
      (trace (step capacity) chunk before (initial buf)).flatten ++ s.unread = before.flatMap Action.output) ?_
      ⟨ready_initial positive buf, rfl⟩ succeed run
    rintro before r action t here ⟨ready, read⟩ succeeds taken
    rw [trace_concat action here, List.flatMap_append, List.flatMap_singleton]
    exact ⟨kept r action t ready succeeds taken, step_unread ready read succeeds taken⟩
  refine ⟨sent, shown.2.stdout, read.2, blocked_iff ready, fun blocked => ?_⟩
  obtain ⟨ended, nothing⟩ := ready.blocked blocked
  refine ⟨ended, ?_, ?_⟩
  · rw [blocked.2, nothing, List.append_nil, List.append_nil] at sent
    exact sent
  · intro more t fine later
    have still : Ready capacity t ∧ t.Blocked ∧ t.sent = s.sent ∧ t.stdout = s.stdout := by
      refine exec_invariant (I := fun t => Ready capacity t ∧ t.Blocked ∧ t.sent = s.sent ∧ t.stdout = s.stdout) ?_
        ⟨ready, blocked, rfl, rfl⟩ fine later
      rintro r action t ⟨ready, blocked, sent, stdout⟩ succeeds taken
      obtain ⟨next, sent', stdout'⟩ := step_blocked ready blocked succeeds taken
      exact ⟨kept r action t ready succeeds taken, next, sent'.trans sent, stdout'.trans stdout⟩
    exact still.2

def endOfInput : List Action :=
  [.typed [104], .client (.revents ⟨true, false, false⟩), .client (.call (.count 1)), .client (.call (.count 1)),
    .inputEnds, .client (.revents ⟨true, false, false⟩), .client (.call (.count 0))]

theorem relays_until_blocked_endOfInput :
    ∃ s, exec (step 65536) endOfInput (initial memory) = some s ∧ s.sent = [104] ∧
      ∀ more t, Along (step 65536) (fun _ action => action.Succeeds) more s → exec (step 65536) more s = some t →
        t.Blocked ∧ t.sent = s.sent ∧ t.stdout = s.stdout := by
  have reached : ∃ s, exec (step 65536) endOfInput (initial memory) = some s ∧ s.Blocked := ⟨_, rfl, rfl, rfl⟩
  obtain ⟨s, run, blocked⟩ := reached
  obtain ⟨-, -, -, -, stuck⟩ := relays_until_blocked (by decide) (by decide +kernel) run
  exact ⟨s, run, (stuck blocked).2.1, (stuck blocked).2.2⟩

end SystemProgramming.ChatroomClient
