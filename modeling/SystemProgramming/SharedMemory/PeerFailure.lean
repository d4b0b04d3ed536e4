import SystemProgramming.SharedMemory.Handover

namespace SystemProgramming.SharedMemory

open BinarySems Transition

def TransferFails (s : State) : Action → Prop
  | .writer (.error _) => s.writer.pc = .read
  | .reader (.error _) => s.reader.pc = .write
  | _ => False

def TransferMayFail (s : State) (action : Action) : Prop :=
  NoFailure s action ∨ TransferFails s action

instance (s : State) : (action : Action) → Decidable (TransferFails s action)
  | .writer (.error _) => inferInstanceAs (Decidable (_ = _))
  | .reader (.error _) => inferInstanceAs (Decidable (_ = _))
  | .writer .done | .writer (.count _) | .reader .done | .reader (.count _) => isFalse id

instance (s : State) (action : Action) : Decidable (TransferMayFail s action) :=
  inferInstanceAs (Decidable (_ ∨ _))

def State.Blocked (s : State) : Prop :=
  ((∃ status, s.writer.pc = .exited status) ∧ s.reader.pc = .reserve ∧ s.sems.value READ_SEM = 0) ∨
    ((∃ status, s.reader.pc = .exited status) ∧
      (s.writer.pc = .reserve ∨ s.writer.pc = .reserveLast) ∧ s.sems.value WRITE_SEM = 0)

def State.Failed (s : State) : Prop :=
  s.writer.pc = .exited .failure ∨ s.reader.pc = .exited .failure

/-- A writer whose `read` fails keeps the semaphore that it has reserved, so what the hand-over
    guarantees the reader is what it guarantees while the writer is in `read`. -/
inductive State.Sound (s : State) : Prop where
  | running (held : s.handover) (alive : s.writer.pc ≠ .exited .failure)
  | frozen (held : (s.writerAt .read).handover) (failed : s.writer.pc = .exited .failure)

theorem sound_initial (stdin : List Byte) (seg : Shmseg) (value : Nat → Nat) :
    (initial stdin seg value).Sound :=
  .running (handover_initial stdin seg value) (by simp [initial])

theorem ReaderMove.framed {s t : State} {outcome : Outcome} (move : ReaderMove s outcome t)
    (pc : WriterPc) : ReaderMove (s.writerAt pc) outcome (t.writerAt pc) := by
  cases move with
  | interrupted errno => exact .interrupted errno
  | reserved at_ available => exact .reserved at_ available
  | ended at_ zero => exact .ended at_ zero
  | continued at_ nonzero => exact .continued at_ nonzero
  | wrote n at_ whole => exact .wrote n at_ whole
  | cutShort n at_ fits short => exact .cutShort n at_ fits short
  | released at_ => exact .released at_
  | counted at_ => exact .counted at_
  | detached at_ => exact .detached at_
  | releasedLast at_ => exact .releasedLast at_
  | finished at_ => exact .finished at_

theorem ReaderMove.writer {s t : State} {outcome : Outcome} (move : ReaderMove s outcome t) :
    t.writer = s.writer := by
  cases move <;> rfl

theorem WriterMove.alive {s t : State} {outcome : Outcome} (move : WriterMove s outcome t)
    (alive : s.writer.pc ≠ .exited .failure) : t.writer.pc ≠ .exited .failure := by
  cases move with
  | interrupted errno => exact alive
  | _ => simp [storeRead]

/-- A `write` that fails is to the hand-over one that writes nothing. -/
theorem failedWrite_move {s : State} (held : s.handover) (at_ : s.reader.pc = .write) :
    ReaderMove s (.count 0) (s.readerAt (.exited .failure)) := by
  have move := ReaderMove.cutShort 0 at_ (Nat.zero_le _) (held.writing (.inl at_))
  simpa using move

/-- A `read` that fails stores -1 in `cnt`, which no reader is looking at. -/
theorem failedRead_handover {s : State} (held : s.handover) (at_ : s.writer.pc = .read) :
    ({ s with seg := { s.seg with cnt := -1 } }.writerAt .read).handover := by
  simp only [State.handover, State.writerAt] at held ⊢
  rcases held with ⟨token, continuing, stopped, writing, left, signalled, last, removed, marked⟩
  constructor
  all_goals simp_all [writerHolds, WriterPc.PastLast, WriterPc.Stopping]

theorem writerStep_mayFail {s t : State} {outcome : Outcome}
    (may : TransferMayFail s (.writer outcome)) (taken : writerStep s outcome = some t) :
    WriterMove s outcome t ∨ (s.writer.pc = .read ∧
      t = { s with seg := { s.seg with cnt := -1 } }.writerAt (.exited .failure)) := by
  rcases may with ok | fails
  · exact .inl (writerStep_moves ok taken)
  · cases outcome with
    | error errno =>
      have at_ : s.writer.pc = .read := fails
      simp only [writerStep, at_, Option.some.injEq] at taken
      exact .inr ⟨at_, taken.symm⟩
    | _ => cases fails

theorem readerStep_mayFail {s t : State} {outcome : Outcome} (pc : WriterPc)
    (held : (s.writerAt pc).handover) (may : TransferMayFail s (.reader outcome))
    (taken : readerStep s outcome = some t) : ∃ outcome, ReaderMove s outcome t := by
  rcases may with ok | fails
  · exact ⟨outcome, readerStep_moves ok taken⟩
  · cases outcome with
    | error errno =>
      have at_ : s.reader.pc = .write := fails
      simp only [readerStep, at_, Option.some.injEq] at taken
      subst taken
      exact ⟨.count 0, (failedWrite_move held at_).framed s.writer.pc⟩
    | _ => cases fails

theorem step_sound {s t : State} {action : Action} (sound : s.Sound)
    (may : TransferMayFail s action) (taken : step s action = some t) : t.Sound := by
  cases action with
  | writer outcome =>
    cases sound with
    | running held alive =>
      rcases writerStep_mayFail may taken with move | ⟨at_, rfl⟩
      · exact .running (move.handover held) (move.alive alive)
      · have kept := failedRead_handover held at_
        exact .frozen kept rfl
    | frozen held failed => simp [step, writerStep, failed] at taken
  | reader outcome =>
    cases sound with
    | running held alive =>
      rcases readerStep_mayFail s.writer.pc held may taken with ⟨_, move⟩
      exact .running (move.handover held) (move.writer ▸ alive)
    | frozen held failed =>
      rcases readerStep_mayFail .read held may taken with ⟨_, move⟩
      exact .frozen ((move.framed .read).handover held) (move.writer ▸ failed)

inductive State.Alone (s : State) : Prop where
  | reader (failed : s.writer.pc = .exited .failure) (zero : s.sems.value READ_SEM = 0)
      (at_ : s.reader.pc = .reserve ∨ s.reader.pc = .header)
  | writer (failed : s.reader.pc = .exited .failure) (zero : s.sems.value WRITE_SEM = 0)
      (at_ : s.writer.pc = .reserve ∨ s.writer.pc = .test ∨ s.writer.pc = .header ∨
        s.writer.pc = .reserveLast)

theorem State.Sound.alone {s : State} (sound : s.Sound) (failed : s.Failed) : s.Alone := by
  cases sound with
  | running held alive =>
    have readerFailed : s.reader.pc = .exited .failure := failed.resolve_left alive
    have token := held.token
    simp only [readerFailed, readerHolds] at token
    exact .writer readerFailed (by omega) (WriterPc.idle_cases (by omega))
  | frozen held writerFailed =>
    have token := held.token
    simp only [State.writerAt, writerHolds] at token
    refine .reader writerFailed (by omega) ?_
    rcases ReaderPc.idle_cases (show readerHolds s.reader.pc = 0 by omega) with at_ | at_ | at_ | at_
    · exact .inl at_
    · exact .inr at_
    -- A reader that has left its loop has seen the end of the input, and so has the writer.
    · have stopping := (held.left (.inr (.inr (.inl at_)))).2.1
      exact absurd rfl stopping.2.1
    · have stopping := (held.left (.inr (.inr (.inr at_)))).2.1
      exact absurd rfl stopping.2.1

/-- Only a process that has failed leaves the other one waiting. -/
theorem State.Sound.failed_of_blocked {s : State} (sound : s.Sound) (blocked : s.Blocked) : s.Failed := by
  cases sound with
  | frozen held failed => exact .inl failed
  | running held alive =>
    rcases blocked with ⟨exited, at_, -⟩ | ⟨⟨status, exited⟩, waits, zero⟩
    · have last := held.last (.inr (.inr (.inr (.inr exited))))
      simp [ReaderPc.PastLast, at_] at last
    · cases status with
      | failure => exact .inr exited
      | success =>
        have token := held.token
        have left := (held.left (.inr (.inr (.inr exited)))).2.2
        rcases waits with at_ | at_
        all_goals
          simp only [exited, at_, readerHolds, writerHolds] at token
          omega

@[simp] def WriterPc.remaining : WriterPc → Nat
  | .test => 2
  | .header => 1
  | _ => 0

@[simp] def ReaderPc.remaining : ReaderPc → Nat
  | .header => 1
  | _ => 0

def State.remaining (s : State) : Nat := s.writer.pc.remaining + s.reader.pc.remaining

theorem State.Alone.blocked_or {s : State} (alone : s.Alone) :
    s.Blocked ∨
    (s.writer.pc = .exited .failure ∧ s.sems.value READ_SEM = 0 ∧ s.reader.pc = .header) ∨
    (s.reader.pc = .exited .failure ∧ s.sems.value WRITE_SEM = 0 ∧
      (s.writer.pc = .test ∨ s.writer.pc = .header)) := by
  cases alone with
  | reader failed zero at_ =>
    rcases at_ with at_ | at_
    · exact .inl (.inl ⟨⟨_, failed⟩, at_, zero⟩)
    · exact .inr (.inl ⟨failed, zero, at_⟩)
  | writer failed zero at_ =>
    rcases at_ with at_ | at_ | at_ | at_
    · exact .inl (.inr ⟨⟨_, failed⟩, .inl at_, zero⟩)
    · exact .inr (.inr ⟨failed, zero, .inl at_⟩)
    · exact .inr (.inr ⟨failed, zero, .inr at_⟩)
    · exact .inl (.inr ⟨⟨_, failed⟩, .inr at_, zero⟩)

theorem State.Alone.blocked {s : State} (alone : s.Alone) (waits : s.remaining = 0) : s.Blocked := by
  rcases alone.blocked_or with blocked | ⟨failed, zero, at_⟩ | ⟨failed, zero, at_ | at_⟩
  · exact blocked
  all_goals simp [State.remaining, at_] at waits

theorem blocked_step {s t : State} {action : Action} (blocked : s.Blocked)
    (may : TransferMayFail s action) (taken : step s action = some t) : t = s := by
  cases action with
  | writer outcome =>
    rcases blocked with ⟨⟨status, exited⟩, -⟩ | ⟨-, waits, zero⟩
    · simp [step, writerStep, exited] at taken
    · rcases writerStep_mayFail may taken with move | ⟨at_, -⟩
      · cases move with
        | interrupted errno => rfl
        | reserved _ available | reservedLast _ available => omega
        | _ => simp_all
      · rcases waits with waits | waits <;> cases at_.symm.trans waits
  | reader outcome =>
    rcases blocked with ⟨-, waits, zero⟩ | ⟨⟨status, exited⟩, -⟩
    · have ok : NoFailure s (.reader outcome) := by
        rcases may with ok | fails
        · exact ok
        · cases outcome with
          | error errno => cases waits.symm.trans fails
          | _ => cases fails
      cases readerStep_moves ok taken with
      | interrupted errno => rfl
      | reserved _ available => omega
      | _ => simp_all
    · simp [step, readerStep, exited] at taken

/-- Until it is blocked, every statement of the other process brings it closer to its reservation. -/
theorem alone_step {s t : State} {action : Action} (alone : s.Alone)
    (may : TransferMayFail s action) (taken : step s action = some t) :
    t.Alone ∧ (s.Blocked ∨ t.remaining < s.remaining) := by
  rcases alone.blocked_or with blocked | ⟨failed, zero, at_⟩ | ⟨failed, zero, at_⟩
  · rw [blocked_step blocked may taken]
    exact ⟨alone, .inl blocked⟩
  · cases action with
    | writer outcome => simp [step, writerStep, failed] at taken
    | reader outcome =>
      simp only [step, readerStep, at_] at taken
      rcases plain_done taken with ⟨-, rfl⟩
      exact ⟨.reader failed zero (.inl rfl), .inr (by simp [State.remaining, at_])⟩
  · cases action with
    | reader outcome => simp [step, readerStep, failed] at taken
    | writer outcome =>
      rcases at_ with at_ | at_
      · simp only [step, writerStep, at_] at taken
        rcases plain_done taken with ⟨-, rfl⟩
        split
        · exact ⟨.writer failed zero (.inr (.inr (.inr rfl))), .inr (by simp [State.remaining, at_])⟩
        · exact ⟨.writer failed zero (.inr (.inr (.inl rfl))), .inr (by simp [State.remaining, at_])⟩
      · simp only [step, writerStep, at_] at taken
        rcases plain_done taken with ⟨-, rfl⟩
        exact ⟨.writer failed zero (.inl rfl), .inr (by simp [State.remaining, at_])⟩

theorem blocked_run {s t : State} {actions : List Action} (blocked : s.Blocked)
    (along : Along step TransferMayFail actions s)
    (run : exec step actions s = some t) : t = s :=
  exec_invariant (I := (· = s))
    (fun _ _ _ same may taken => (blocked_step (same ▸ blocked) may taken).trans same) rfl along run

theorem State.Alone.run {s t : State} {actions : List Action} (alone : s.Alone)
    (along : Along step TransferMayFail actions s)
    (run : exec step actions s = some t) (long : s.remaining ≤ actions.length) :
    t.Blocked := by
  induction actions generalizing s with
  | nil =>
    cases run
    exact alone.blocked (Nat.le_zero.mp long)
  | cons action actions ih =>
    rcases exec_cons_some run with ⟨m, taken, rest⟩
    rcases alone_step alone along.1 taken with ⟨kept, blocked | less⟩
    · rw [blocked_run blocked along run]
      exact blocked
    · rw [List.length_cons] at long
      exact ih kept (along.2 m taken) rest (by omega)

theorem State.Alone.advances {s : State} (alone : s.Alone) (waits : ¬ s.Blocked) :
    ∃ action t, TransferMayFail s action ∧ step s action = some t := by
  rcases alone.blocked_or with blocked | ⟨failed, zero, at_⟩ | ⟨failed, zero, at_ | at_⟩
  · exact absurd blocked waits
  · exact ⟨.reader .done, _, .inl trivial, by simp only [step, readerStep, at_]; rfl⟩
  · exact ⟨.writer .done, _, .inl trivial, by simp only [step, writerStep, at_]; rfl⟩
  · exact ⟨.writer .done, _, .inl trivial, by simp only [step, writerStep, at_]; rfl⟩

theorem State.Alone.reaches {s : State} (alone : s.Alone) :
    ∃ t, Reaches step TransferMayFail s t ∧ t.Blocked := by
  apply exists_reaches (I := State.Alone) State.remaining _ alone
  intro s alone waits
  rcases alone.advances waits with ⟨action, t, may, taken⟩
  have next := alone_step alone may taken
  exact ⟨action, t, may, taken, next.1, next.2.resolve_left waits⟩

theorem State.Alone.remaining_le {s : State} (alone : s.Alone) : s.remaining ≤ 2 := by
  cases alone with
  | reader failed zero at_ =>
    rcases at_ with at_ | at_
    all_goals simp [State.remaining, failed, at_]
  | writer failed zero at_ =>
    rcases at_ with at_ | at_ | at_ | at_
    all_goals simp [State.remaining, failed, at_]

/-- A process is left waiting for ever by the failed transfer of the other one and by nothing else:
    after two more statements it waits, and then it only retries. -/
theorem peer_failure (stdin : List Byte) (seg : Shmseg) (value : Nat → Nat) (s : State)
    (reached : Reaches step TransferMayFail (initial stdin seg value) s) :
    (s.Blocked → s.Failed) ∧
    (s.Blocked → ∀ t, Reaches step TransferMayFail s t → t = s) ∧
    (s.Failed → (∃ t, Reaches step TransferMayFail s t ∧ t.Blocked) ∧
      ∀ actions t, Along step TransferMayFail actions s →
        exec step actions s = some t → 2 ≤ actions.length → t.Blocked) := by
  have sound : s.Sound := by
    apply reached.invariant (sound_initial stdin seg value)
    exact fun _ _ _ sound may taken => step_sound sound may taken
  refine ⟨sound.failed_of_blocked, ?_, ?_⟩
  · intro blocked t later
    rcases later with ⟨actions, along, run⟩
    exact blocked_run blocked along run
  · intro failed
    have alone := sound.alone failed
    refine ⟨alone.reaches, ?_⟩
    intro actions t along run long
    exact alone.run along run (Nat.le_trans alone.remaining_le long)

def shortWrite : List Action :=
  [.writer .done, .writer (.count 2), .writer .done, .reader .done, .reader .done, .reader (.count 1)]

theorem peer_failure_shortWrite :
    ∃ s, exec step shortWrite (initial [1, 2] ⟨0, []⟩ (fun _ => 0)) = some s ∧ s.stdout = [1] ∧
      (∃ t, Reaches step TransferMayFail s t ∧ t.Blocked) ∧
      ∀ actions t, Along step TransferMayFail actions s → exec step actions s = some t →
        2 ≤ actions.length → t.Blocked := by
  have stuck := peer_failure [1, 2] ⟨0, []⟩ (fun _ => 0) _ ⟨shortWrite, by decide, rfl⟩
  exact ⟨_, rfl, rfl, stuck.2.2 (.inr rfl)⟩

/-- The first `read` fails, or the first `write` is short. -/
theorem peer_left_blocked :
    (∃ s, Reaches step TransferMayFail (initial [1, 2] ⟨0, []⟩ (fun _ => 0)) s ∧
      s.writer.pc = .exited .failure ∧ s.Blocked) ∧
    ∃ s, Reaches step TransferMayFail (initial [1, 2] ⟨0, []⟩ (fun _ => 0)) s ∧
      s.reader.pc = .exited .failure ∧ s.Blocked := by
  constructor
  · refine ⟨_, ⟨[.writer .done, .writer (.error (.other 5))], by decide, rfl⟩, rfl, ?_⟩
    exact .inl ⟨⟨_, rfl⟩, rfl, rfl⟩
  · refine ⟨_, ⟨shortWrite ++ [.writer .done, .writer .done], by decide, rfl⟩, rfl, ?_⟩
    exact .inr ⟨⟨_, rfl⟩, .inl rfl, rfl⟩

end SystemProgramming.SharedMemory
