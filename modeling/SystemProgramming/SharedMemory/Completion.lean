import SystemProgramming.Library.Termination
import SystemProgramming.SharedMemory.Shutdown

namespace SystemProgramming.SharedMemory

open BinarySems Transition

def Action.completes : Action → Bool
  | .writer outcome | .reader outcome => !outcome.isError

def writerPotential (pc : WriterPc) (cnt : Int) : Nat :=
  match pc with
  | .reserve => 9
  | .read => 8
  | .release => if cnt = 0 then 7 else 12
  | .test => if cnt = 0 then 6 else 11
  | .header => 10
  | .reserveLast => 5
  | .semctl => 4
  | .shmdt => 3
  | .shmctl => 2
  | .report => 1
  | .exited _ => 0

def readerPotential (pc : ReaderPc) (cnt : Int) : Nat :=
  match pc with
  | .reserve => 5
  | .test => if cnt = 0 then 4 else 9
  | .write => 8
  | .release => 7
  | .header => 6
  | .shmdt => 3
  | .releaseLast => 2
  | .report => 1
  | .exited _ => 0

def State.Pending (s : State) : Prop :=
  (s.writer.pc = .release ∨ s.sems.value READ_SEM ≠ 0) ∧ s.seg.cnt ≠ 0

instance (s : State) : Decidable s.Pending := inferInstanceAs (Decidable ((_ ∨ _) ∧ _))

def State.potential (s : State) : Nat :=
  10 * s.stdin.length + writerPotential s.writer.pc s.seg.cnt + readerPotential s.reader.pc s.seg.cnt +
    (if s.Pending then 5 else 0)

theorem WriterMove.potential {s t : State} {outcome : Outcome} (held : s.handover)
    (move : WriterMove s outcome t) :
    t.potential + (if (Action.writer outcome).completes then 1 else 0) ≤ s.potential := by
  have token := held.token
  cases move
  case interrupted => simp [Action.completes, Outcome.isError]
  case filled n at_ count =>
    have idle : readerHolds s.reader.pc = 0 := by
      simp only [at_, writerHolds] at token
      omega
    have same : ∀ cnt, readerPotential s.reader.pc cnt = readerPotential s.reader.pc s.seg.cnt := by
      intro cnt
      rcases ReaderPc.idle_cases idle with at' | at' | at' | at' <;> simp [at', readerPotential]
    have fits := count.2.1
    by_cases zero : n = 0
    · simp [State.potential, storeRead, State.Pending, writerPotential, at_, zero, same,
        Action.completes, Outcome.isError]
      omega
    · simp [State.potential, storeRead, State.Pending, writerPotential, at_, zero, same,
        Action.completes, Outcome.isError]
      omega
  all_goals
    simp only [State.potential, State.writerAt, State.Pending, setval_value_self,
      setval_value_other _ _ _ READ_SEM_ne] at *
    by_cases zero : s.seg.cnt = 0
    all_goals
      simp_all [writerPotential, Action.completes, Outcome.isError]
      try omega

theorem ReaderMove.potential {s t : State} {outcome : Outcome} (held : s.handover)
    (free : FaultFree s (.reader outcome)) (move : ReaderMove s outcome t) :
    t.potential + (if (Action.reader outcome).completes then 1 else 0) ≤ s.potential := by
  have token := held.token
  cases move
  case interrupted => simp [Action.completes, Outcome.isError]
  case cutShort n at_ fits short => exact absurd free short
  case reserved at_ available =>
    -- The token was in `READ_SEM`, so this takes the chunk that was pending.
    have one : s.sems.value READ_SEM = 1 := by omega
    have notReleasing : s.writer.pc ≠ .release := by
      intro releasing
      simp only [releasing, writerHolds] at token
      omega
    simp only [State.potential, State.readerAt, State.Pending, setval_value_self]
    by_cases zero : s.seg.cnt = 0
    · simp [readerPotential, at_, zero, Action.completes, Outcome.isError]
    · simp [readerPotential, at_, zero, one, notReleasing, Action.completes, Outcome.isError]
  all_goals
    simp only [State.potential, State.readerAt, State.Pending, setval_value_other _ _ _ READ_SEM_ne] at *
    by_cases zero : s.seg.cnt = 0
    all_goals
      simp_all [readerPotential, Action.completes, Outcome.isError]
      try omega

theorem step_potential {s t : State} {action : Action} (held : s.handover) (free : FaultFree s action)
    (taken : step s action = some t) :
    t.potential + (if action.completes then 1 else 0) ≤ s.potential := by
  cases action with
  | writer outcome => exact (writerStep_moves free.noFailure taken).potential held
  | reader outcome => exact (readerStep_moves free.noFailure taken).potential held free

theorem potential_initial (stdin : List Byte) (seg : Shmseg) (value : Nat → Nat) :
    (initial stdin seg value).potential = 10 * stdin.length + 14 := by
  simp [State.potential, initial, State.Pending, initSemInUse, writerPotential, readerPotential]

structure WriterTrail (s : State) : Prop where
  atEnd : (s.writer.pc = .release ∨ s.writer.pc = .test) → s.seg.cnt = 0 → s.stdin = []
  afterEnd : s.writer.pc = .reserveLast ∨ s.writer.pc.PastLast → s.stdin = []
  removed : s.writer.pc.PastLast → s.writer.pc ≠ .semctl → s.sems.removed = true
  marked : s.writer.pc = .report ∨ s.writer.pc = .exited .success → s.marked = true
  unfailing : s.writer.pc ≠ .exited .failure

theorem WriterMove.trail {s t : State} {outcome : Outcome} (before : WriterTrail s)
    (move : WriterMove s outcome t) : WriterTrail t := by
  obtain ⟨atEnd, afterEnd, removed, marked, unfailing⟩ := before
  cases move
  case interrupted => exact ⟨atEnd, afterEnd, removed, marked, unfailing⟩
  case filled n at_ count =>
    constructor
    case atEnd =>
      intro _ zero
      have none : n = 0 := by simpa [storeRead] using zero
      have empty := count.2.2.mp none
      simp [storeRead, empty]
    all_goals simp [WriterPc.PastLast]
  all_goals constructor <;> simp_all [WriterPc.PastLast]

theorem ReaderMove.trail {s t : State} {outcome : Outcome} (before : WriterTrail s)
    (move : ReaderMove s outcome t) : WriterTrail t := by
  obtain ⟨atEnd, afterEnd, removed, marked, unfailing⟩ := before
  cases move <;> exact ⟨atEnd, afterEnd, removed, marked, unfailing⟩

theorem reaches_trail {stdin : List Byte} {seg : Shmseg} {value : Nat → Nat} {s : State}
    (run : Reaches step NoFailure (initial stdin seg value) s) : WriterTrail s := by
  apply run.invariant
  · constructor <;> simp [initial, WriterPc.PastLast]
  · intro s action t before ok taken
    cases action with
    | writer outcome => exact (writerStep_moves ok taken).trail before
    | reader outcome => exact (readerStep_moves ok taken).trail before

/-- A fault-free run has a bounded number of statements besides the retries of `semop`, and where
    no more of them can be taken the whole input has been copied and everything is cleaned up. -/
theorem transfer_completes (stdin : List Byte) (seg : Shmseg) (value : Nat → Nat) (actions : List Action)
    (s : State) (free : Along step FaultFree actions (initial stdin seg value))
    (run : exec step actions (initial stdin seg value) = some s) :
    actions.countP Action.completes ≤ 10 * stdin.length + 14 ∧
    (¬ CanAdvance s →
      s.writer.pc = .exited .success ∧ s.reader.pc = .exited .success ∧ s.stdin = [] ∧
      s.stdout = stdin ∧ s.sems.removed = true ∧ s.marked = true) := by
  have reached : Reaches step FaultFree (initial stdin seg value) s := ⟨actions, free, run⟩
  have clean := reached.weaken fun _ _ => FaultFree.noFailure
  constructor
  · have bound := count_add_measure_le Action.completes State.potential
      (fun _ _ _ held free taken => step_handover held free.noFailure taken)
      (fun _ _ _ held free taken => step_potential held free taken)
      (handover_initial stdin seg value) free run
    rw [potential_initial] at bound
    omega
  · intro stuck
    have trail := reaches_trail clean
    have ended := mt (shutdown stdin seg value s reached).1 stuck
    push Not at ended
    obtain ⟨⟨writerStatus, writerAt⟩, readerStatus, readerAt⟩ := ended
    have writerDone : s.writer.pc = .exited .success := by
      cases writerStatus with
      | success => exact writerAt
      | failure => exact absurd writerAt trail.unfailing
    have readerDone : s.reader.pc = .exited .success := by
      cases readerStatus with
      | success => exact readerAt
      | failure => exact absurd readerAt (faultFree_running reached)
    have past : s.writer.pc.PastLast := .inr (.inr (.inr (.inr ⟨_, writerDone⟩)))
    have empty := trail.afterEnd (.inr past)
    have delivers := transfer_delivers stdin seg value s clean
    have copied : s.stdout = s.bytesRead := delivers.2.2.2 (.inr (.inr (.inr readerDone)))
    have whole := delivers.1
    rw [empty, List.append_nil] at whole
    exact ⟨writerDone, readerDone, empty, copied.trans whole,
      trail.removed past (by simp [writerDone]), trail.marked (.inr writerDone)⟩

def oneByte : List Action :=
  [.writer (.error .EINTR), .writer .done, .writer (.count 1), .writer .done, .reader .done, .writer .done,
    .writer .done, .reader .done, .writer (.error .EINTR), .reader (.count 1), .reader .done, .reader .done,
    .writer .done, .writer (.count 0), .writer .done, .writer .done, .reader .done, .reader .done,
    .reader .done, .reader .done, .reader .done, .writer .done, .writer .done, .writer .done, .writer .done,
    .writer .done]

theorem transfer_completes_oneByte :
    ∃ s, exec step oneByte (initial [97] ⟨0, []⟩ (fun _ => 0)) = some s ∧
      oneByte.countP Action.completes = 24 ∧ s.stdout = [97] ∧ s.marked = true := by
  obtain ⟨s, run⟩ : ∃ s, exec step oneByte (initial [97] ⟨0, []⟩ (fun _ => 0)) = some s := ⟨_, rfl⟩
  have whole := transfer_completes [97] ⟨0, []⟩ (fun _ => 0) oneByte s (by decide) run
  have stuck : ¬ CanAdvance s := by
    rintro ⟨action, t, -, taken, -⟩
    cases run
    cases action <;> cases taken
  exact ⟨s, run, by decide, (whole.2 stuck).2.2.2.1, (whole.2 stuck).2.2.2.2.2⟩

end SystemProgramming.SharedMemory
