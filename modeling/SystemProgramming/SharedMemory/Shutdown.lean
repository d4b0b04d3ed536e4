import SystemProgramming.SharedMemory.Transfer

namespace SystemProgramming.SharedMemory

open BinarySems Transition

theorem faultFree_running {stdin : List Byte} {seg : Shmseg} {value : Nat → Nat} {s : State}
    (run : Reaches step FaultFree (initial stdin seg value) s) : s.reader.pc ≠ .exited .failure := by
  apply run.invariant (I := fun s => s.reader.pc ≠ .exited .failure) (by simp [initial])
  intro s action t running free taken
  cases action with
  | writer outcome => cases writerStep_moves free.noFailure taken <;> exact running
  | reader outcome =>
    cases readerStep_moves free.noFailure taken
    case interrupted => exact running
    case cutShort n at_ fits short => exact absurd free short
    all_goals simp

def CanAdvance (s : State) : Prop :=
  ∃ action t, FaultFree s action ∧ step s action = some t ∧
    ∀ errno, action ≠ .writer (.error errno) ∧ action ≠ .reader (.error errno)

theorem advance_writer {s t : State} (outcome : Outcome) (ok : outcome.isError = false)
    (taken : writerStep s outcome = some t) : CanAdvance s := by
  refine ⟨.writer outcome, t, ?_, taken, ?_⟩
  · cases outcome with
    | error errno => cases ok
    | _ => trivial
  · intro errno
    constructor
    · intro same
      cases same
      cases ok
    · intro same
      cases same

theorem advance_reader {s t : State} (outcome : Outcome) (ok : outcome.isError = false)
    (free : FaultFree s (.reader outcome)) (taken : readerStep s outcome = some t) : CanAdvance s := by
  refine ⟨.reader outcome, t, free, taken, ?_⟩
  intro errno
  constructor
  · intro same
    cases same
  · intro same
    cases same
    cases ok

theorem readCount_exists (stdin : List Byte) : ReadCount stdin (min BUF_SIZE stdin.length) := by
  refine ⟨Nat.min_le_left _ _, Nat.min_le_right _ _, ?_⟩
  have size : 0 < BUF_SIZE := by decide
  rw [← List.length_eq_zero_iff]
  omega

theorem writer_advances {s : State} (held : s.handover)
    (available : s.writer.pc = .reserve ∨ s.writer.pc = .reserveLast → 0 < s.sems.value WRITE_SEM)
    (running : ∀ status, s.writer.pc ≠ .exited status) : CanAdvance s := by
  have present : ¬ s.writer.pc.PastLast → s.sems.removed = false := by
    intro before
    by_contra gone
    exact before (held.removed (by simpa using gone))
  cases at_ : s.writer.pc with
  | reserve =>
    have taken := reserveSem_of_available (present (by simp [at_, WriterPc.PastLast])) (available (.inl at_))
    exact advance_writer .done rfl (by simp only [writerStep, at_, writerReserve, taken]; rfl)
  | read =>
    have taken : writerStep s (.count (min BUF_SIZE s.stdin.length)) =
        some ((storeRead s (min BUF_SIZE s.stdin.length)).writerAt .release) := by
      simp only [writerStep, at_, readCount_exists, ite_true]
    exact advance_writer _ rfl taken
  | release =>
    have taken := releaseSem_of_present READ_SEM (present (by simp [at_, WriterPc.PastLast]))
    exact advance_writer .done rfl (by simp only [writerStep, at_, taken]; rfl)
  | reserveLast =>
    have taken := reserveSem_of_available (present (by simp [at_, WriterPc.PastLast])) (available (.inr at_))
    exact advance_writer .done rfl (by simp only [writerStep, at_, writerReserve, taken]; rfl)
  | exited status => exact absurd at_ (running status)
  | test | header | semctl | shmdt | shmctl | report =>
    exact advance_writer .done rfl (by simp only [writerStep, at_]; rfl)

theorem reader_advances {s : State} {c : Channel Byte} (rep : Represents s c)
    (available : s.reader.pc = .reserve → 0 < s.sems.value READ_SEM)
    (running : ∀ status, s.reader.pc ≠ .exited status) : CanAdvance s := by
  have present : ¬ s.reader.pc.PastLast → s.sems.removed = false := by
    intro before
    by_contra gone
    exact before (rep.control.last (rep.control.removed (by simpa using gone)))
  cases at_ : s.reader.pc with
  | reserve =>
    have taken := reserveSem_of_available (present (by simp [at_, ReaderPc.PastLast])) (available at_)
    exact advance_reader .done rfl trivial (by simp only [readerStep, at_, readerReserve, taken]; rfl)
  | write =>
    have count : s.seg.cnt = (s.seg.cnt.toNat : Nat) := by
      have size := (rep.slot (.inr (.inr (.inr at_)))).1
      omega
    have taken : readerStep s (.count s.seg.cnt.toNat) = some
        ({ s with stdout := s.stdout ++ s.seg.buf.take s.seg.cnt.toNat }.readerAt .release) := by
      simp only [readerStep, at_, Nat.le_refl, ite_true, ← count, ne_eq, not_true_eq_false,
        ite_false]
    exact advance_reader (.count s.seg.cnt.toNat) rfl count taken
  | release | releaseLast =>
    have taken := releaseSem_of_present WRITE_SEM (present (by simp [at_, ReaderPc.PastLast]))
    exact advance_reader .done rfl trivial (by simp only [readerStep, at_, readerRelease, taken]; rfl)
  | exited status => exact absurd at_ (running status)
  | test | header | shmdt | report =>
    exact advance_reader .done rfl trivial (by simp only [readerStep, at_]; rfl)

/-- No fault-free run gets stuck before both processes have ended, and the writer takes neither
    the semaphore set nor the segment from a reader that still needs it. -/
theorem shutdown (stdin : List Byte) (seg : Shmseg) (value : Nat → Nat) (s : State)
    (run : Reaches step FaultFree (initial stdin seg value) s) :
    ((∀ status, s.writer.pc ≠ .exited status) ∨ (∀ status, s.reader.pc ≠ .exited status) →
      CanAdvance s) ∧
    (s.sems.removed = true → s.reader.pc.PastLast) ∧ (s.marked = true → s.reader.pc.PastLast) := by
  obtain ⟨c, -, rep⟩ := transfer_refines_channel (run.weaken fun _ _ => FaultFree.noFailure)
  have alive := faultFree_running run
  have token := rep.control.token
  refine ⟨fun unfinished => ?_, fun gone => rep.control.last (rep.control.removed gone),
    fun gone => rep.control.last (rep.control.marked gone)⟩
  by_cases reading : (s.reader.pc = .reserve → 0 < s.sems.value READ_SEM) ∧
      ∀ status, s.reader.pc ≠ .exited status
  · exact reader_advances rep reading.1 reading.2
  · -- The reader is blocked or has ended, so the token is the writer's or free for it.
    have stuck : (s.reader.pc = .reserve ∧ s.sems.value READ_SEM = 0) ∨ s.reader.pc = .exited .success := by
      rw [not_and_or] at reading
      rcases reading with blocked | ended
      · left
        push Not at blocked
        exact ⟨blocked.1, by omega⟩
      · right
        push Not at ended
        obtain ⟨status, ended⟩ := ended
        cases status with
        | success => exact ended
        | failure => exact absurd ended alive
    have noToken : s.sems.value READ_SEM + readerHolds s.reader.pc = 0 := by
      rcases stuck with ⟨at_, zero⟩ | at_
      · simp [at_, zero, readerHolds]
      · simp [at_, readerHolds, (rep.control.left (.inr (.inr (.inr at_)))).2.2]
    apply writer_advances rep.control
    · rintro (at_ | at_)
      all_goals
        simp only [at_, writerHolds] at token
        omega
    · intro status at_
      have last := rep.control.last (.inr (.inr (.inr (.inr ⟨status, at_⟩))))
      rcases stuck with ⟨reserve, -⟩ | ended
      · simp [ReaderPc.PastLast, reserve] at last
      · rcases unfinished with running | running
        · exact running status at_
        · exact running .success ended

def oneChunk : List Action :=
  [.writer .done, .writer (.count 1), .writer .done, .reader .done, .writer .done, .writer .done, .reader .done,
    .reader (.count 1), .reader .done, .reader .done, .writer .done, .writer (.count 0), .writer .done,
    .writer .done, .reader .done, .reader .done, .reader .done, .reader .done, .reader .done, .writer .done,
    .writer .done, .writer .done, .writer .done]

theorem shutdown_oneChunk :
    ∃ s, exec step oneChunk (initial [97] ⟨3, [0, 0, 0]⟩ (fun _ => 0)) = some s ∧ s.stdout = [97] ∧
      s.sems.removed = true ∧ s.marked = true ∧ CanAdvance s ∧ s.reader.pc.PastLast := by
  refine ⟨_, rfl, rfl, rfl, rfl, ?_⟩
  have safe := shutdown [97] ⟨3, [0, 0, 0]⟩ (fun _ => 0) _ ⟨oneChunk, by decide, rfl⟩
  exact ⟨safe.1 (.inl (by intro status; exact nofun)), safe.2.1 rfl⟩

end SystemProgramming.SharedMemory
