import SystemProgramming.Library.Channel
import SystemProgramming.SharedMemory.Handover

namespace SystemProgramming.SharedMemory

open BinarySems Transition

def State.bytesRead (s : State) : List Byte := s.reads.flatten

def State.lastRead (s : State) : List Byte := s.reads.getLastD []

def State.Occupied (s : State) : Prop :=
  s.writer.pc = .release ∨ s.sems.value READ_SEM ≠ 0 ∨ s.reader.pc = .test ∨ s.reader.pc = .write

/-- The segment and its two semaphores are a channel from the writer's standard input to the
    reader's standard output. -/
structure Represents (s : State) (c : Channel Byte) : Prop where
  control : s.handover
  sent : c.sent = s.bytesRead
  received : c.received = s.stdout
  waiting : s.Occupied → c.inFlight = s.lastRead
  drained : ¬ s.Occupied → s.reader.pc ≠ .exited .failure → c.inFlight = []
  cut : s.reader.pc = .exited .failure → c.inFlight <:+ s.lastRead
  slot : s.Occupied → s.seg.cnt = s.lastRead.length ∧ s.seg.buf.take s.lastRead.length = s.lastRead

theorem storeRead_bytesRead (s : State) (n : Nat) :
    (storeRead s n).bytesRead = s.bytesRead ++ s.stdin.take n := by
  simp [State.bytesRead, storeRead]

theorem storeRead_lastRead (s : State) (n : Nat) : (storeRead s n).lastRead = s.stdin.take n := by
  simp [State.lastRead, storeRead]

theorem State.handover.exclusive {s : State} (held : s.handover) :
    (s.writer.pc = .read → ¬ s.Occupied ∧ s.reader.pc ≠ .exited .failure) ∧
    (s.reader.pc = .release ∨ s.reader.pc = .exited .failure → ¬ s.Occupied) := by
  have token := held.token
  constructor
  · intro at_
    simp only [at_, writerHolds] at token
    have idle : readerHolds s.reader.pc = 0 := by omega
    have empty : s.sems.value READ_SEM = 0 := by omega
    rcases ReaderPc.idle_cases idle with at' | at' | at' | at' <;>
      simp [State.Occupied, at_, empty, at']
  · intro at_
    have busy : readerHolds s.reader.pc = 1 := by
      rcases at_ with at_ | at_ <;> simp [at_, readerHolds]
    have idle : writerHolds s.writer.pc = 0 := by omega
    have empty : s.sems.value READ_SEM = 0 := by omega
    rcases WriterPc.idle_cases idle with at' | at' | at' | at' <;>
      rcases at_ with at_ | at_ <;> simp [State.Occupied, at_, empty, at']

theorem represents_initial (stdin : List Byte) (seg : Shmseg) (value : Nat → Nat) :
    Represents (initial stdin seg value) Channel.empty := by
  have control := handover_initial stdin seg value
  have empty : ¬ (initial stdin seg value).Occupied := by
    simp [State.Occupied, initial, initSemInUse]
  constructor
  case control => exact control
  case sent => rfl
  case received => rfl
  case waiting => exact fun occupied => absurd occupied empty
  case drained => exact fun _ _ => rfl
  case cut => exact fun _ => List.nil_suffix
  case slot => exact fun occupied => absurd occupied empty

theorem Represents.filled {s : State} {c : Channel Byte} {n : Nat} (rep : Represents s c)
    (at_ : s.writer.pc = .read) (count : ReadCount s.stdin n) :
    ∃ d, Reaches (Channel.step BUF_SIZE) (fun _ _ => True) c d ∧
      Represents ((storeRead s n).writerAt .release) d := by
  have control : ((storeRead s n).writerAt .release).handover :=
    (WriterMove.filled n at_ count).handover rep.control
  obtain ⟨free, alive⟩ := rep.control.exclusive.1 at_
  have room : c.inFlight.length + (s.stdin.take n).length ≤ BUF_SIZE := by
    rw [rep.drained free alive, List.length_take]
    have bound := count.1
    simp only [List.length_nil]
    omega
  have size : (s.stdin.take n).length = n := List.length_take_of_le count.2.1
  refine ⟨c.put (s.stdin.take n), .single trivial (Channel.put_step room), ?_⟩
  constructor
  case control => exact control
  case sent =>
    rw [Channel.put_sent, rep.sent]
    exact (storeRead_bytesRead s n).symm
  case received => exact rep.received
  case waiting =>
    intro _
    rw [Channel.put_inFlight, rep.drained free alive]
    exact (storeRead_lastRead s n).symm
  case drained =>
    intro empty
    exact absurd (Or.inl rfl) empty
  case cut =>
    intro failed
    exact absurd failed alive
  case slot =>
    intro _
    have last : ((storeRead s n).writerAt .release).lastRead = s.stdin.take n := storeRead_lastRead s n
    rw [last]
    refine ⟨by simp [storeRead, size], ?_⟩
    simp only [State.writerAt, storeRead]
    exact Buffer.take_overwrite _ _

theorem Represents.written {s : State} {c : Channel Byte} {n : Nat} {pc : ReaderPc}
    (rep : Represents s c) (at_ : s.reader.pc = .write) (fits : n ≤ s.seg.cnt.toNat)
    (control : ({ s with stdout := s.stdout ++ s.seg.buf.take n }.readerAt pc).handover)
    (next : (pc = .release ∧ s.seg.cnt = n) ∨ pc = .exited .failure) :
    ∃ d, Reaches (Channel.step BUF_SIZE) (fun _ _ => True) c d ∧
      Represents ({ s with stdout := s.stdout ++ s.seg.buf.take n }.readerAt pc) d := by
  have occupied : s.Occupied := .inr (.inr (.inr at_))
  obtain ⟨cnt, content⟩ := rep.slot occupied
  have bound : n ≤ s.lastRead.length := by omega
  have waiting := rep.waiting occupied
  refine ⟨c.take n, .single trivial (Channel.take_step (by rw [waiting]; exact bound)), ?_⟩
  have chunk : s.seg.buf.take n = s.lastRead.take n := by
    rw [← content, List.take_take, Nat.min_eq_left bound]
  have free : ¬ ({ s with stdout := s.stdout ++ s.seg.buf.take n }.readerAt pc).Occupied :=
    control.exclusive.2 (next.imp_left And.left)
  constructor
  case control => exact control
  case sent =>
    rw [Channel.take_sent, rep.sent]
    rfl
  case received =>
    rw [Channel.take_received, rep.received, waiting]
    simp only [State.readerAt, chunk]
  case waiting =>
    intro still
    exact absurd still free
  case drained =>
    intro _ alive
    obtain ⟨rfl, whole⟩ | rfl := next
    · rw [Channel.take_inFlight, waiting]
      exact List.drop_of_length_le (by omega)
    · exact absurd rfl alive
  case cut =>
    intro _
    rw [Channel.take_inFlight, waiting]
    exact List.drop_suffix n s.lastRead
  case slot =>
    intro still
    exact absurd still free

/-- A statement that touches neither stream nor the segment leaves the channel as it is, unless
    it gives up a chunk; that chunk must be the empty one. -/
theorem Represents.frame {s t : State} {c : Channel Byte} (rep : Represents s c)
    (control : t.handover) (reads : t.reads = s.reads) (stdout : t.stdout = s.stdout)
    (seg : t.seg = s.seg) (occupied : t.Occupied → s.Occupied)
    (givenUp : s.Occupied → ¬ t.Occupied → s.seg.cnt = 0)
    (alive : t.reader.pc = .exited .failure ↔ s.reader.pc = .exited .failure) :
    Represents t c := by
  have last : t.lastRead = s.lastRead := by rw [State.lastRead, reads, State.lastRead]
  constructor
  case control => exact control
  case sent => rw [rep.sent, State.bytesRead, State.bytesRead, reads]
  case received => rw [rep.received, stdout]
  case waiting =>
    intro held
    rw [rep.waiting (occupied held), last]
  case drained =>
    intro free running
    have before : s.reader.pc ≠ .exited .failure := fun failed => running (alive.mpr failed)
    by_cases held : s.Occupied
    · have empty := givenUp held free
      have size := (rep.slot held).1
      rw [rep.waiting held]
      exact List.length_eq_zero_iff.mp (by omega)
    · exact rep.drained held before
  case cut =>
    intro failed
    rw [last]
    exact rep.cut (alive.mp failed)
  case slot =>
    intro held
    rw [last, seg]
    exact rep.slot (occupied held)

theorem WriterMove.represents {s t : State} {c : Channel Byte} {outcome : Outcome}
    (rep : Represents s c) (move : WriterMove s outcome t) :
    ∃ d, Reaches (Channel.step BUF_SIZE) (fun _ _ => True) c d ∧ Represents t d := by
  have control := move.handover rep.control
  have token := rep.control.token
  cases move
  case interrupted => exact ⟨c, .refl c, rep⟩
  case filled n at_ count => exact rep.filled at_ count
  all_goals
    refine ⟨c, .refl c, rep.frame control rfl rfl rfl ?_ ?_ Iff.rfl⟩ <;>
      simp_all [State.Occupied, setval_value_other _ _ _ READ_SEM_ne]

theorem ReaderMove.represents {s t : State} {c : Channel Byte} {outcome : Outcome}
    (rep : Represents s c) (move : ReaderMove s outcome t) :
    ∃ d, Reaches (Channel.step BUF_SIZE) (fun _ _ => True) c d ∧ Represents t d := by
  have control := move.handover rep.control
  have token := rep.control.token
  cases move
  case interrupted => exact ⟨c, .refl c, rep⟩
  case wrote n at_ whole => exact rep.written at_ (by omega) control (.inl ⟨rfl, whole⟩)
  case cutShort n at_ fits short => exact rep.written at_ fits control (.inr rfl)
  case reserved at_ available =>
    have full : s.sems.value READ_SEM ≠ 0 := by omega
    refine ⟨c, .refl c, rep.frame control rfl rfl rfl (fun _ => .inr (.inl full)) ?_ (by simp [at_])⟩
    intro _ free
    exact absurd (.inr (.inr (.inl rfl))) free
  all_goals
    refine ⟨c, .refl c, rep.frame control rfl rfl rfl ?_ ?_ ?_⟩ <;>
      simp_all [State.Occupied, setval_value_other _ _ _ READ_SEM_ne]

theorem step_represents {s t : State} {c : Channel Byte} {action : Action} (rep : Represents s c)
    (ok : NoFailure s action) (taken : step s action = some t) :
    ∃ d, Reaches (Channel.step BUF_SIZE) (fun _ _ => True) c d ∧ Represents t d := by
  cases action with
  | writer outcome => exact (writerStep_moves ok taken).represents rep
  | reader outcome => exact (readerStep_moves ok taken).represents rep

theorem transfer_refines_channel {stdin : List Byte} {seg : Shmseg} {value : Nat → Nat} {s : State}
    (run : Reaches step NoFailure (initial stdin seg value) s) :
    ∃ c, Channel.Reachable BUF_SIZE c ∧ Represents s c :=
  run.simulate (represents_initial stdin seg value)
    (fun _ _ _ _ rep ok taken => step_represents rep ok taken)

theorem step_input {s t : State} {action : Action} (ok : NoFailure s action)
    (taken : step s action = some t) : t.bytesRead ++ t.stdin = s.bytesRead ++ s.stdin := by
  cases action with
  | writer outcome =>
    cases writerStep_moves ok taken
    case filled n at_ count => simp [storeRead, State.bytesRead]
    all_goals rfl
  | reader outcome => cases readerStep_moves ok taken <;> rfl

theorem reaches_input {stdin : List Byte} {seg : Shmseg} {value : Nat → Nat} {s : State}
    (run : Reaches step NoFailure (initial stdin seg value) s) : s.bytesRead ++ s.stdin = stdin :=
  run.invariant (I := fun s => s.bytesRead ++ s.stdin = stdin) rfl
    (fun _ _ _ same ok taken => (step_input ok taken).trans same)

theorem Represents.behind {s : State} {c : Channel Byte} (rep : Represents s c) :
    c.inFlight <:+ s.lastRead := by
  by_cases failed : s.reader.pc = .exited .failure
  · exact rep.cut failed
  · by_cases occupied : s.Occupied
    · rw [rep.waiting occupied]
    · rw [rep.drained occupied failed]
      exact List.nil_suffix

theorem Represents.delivered {s : State} {c : Channel Byte} (rep : Represents s c)
    (left : s.reader.pc.LeftLoop) : s.stdout = s.bytesRead := by
  have quiet := (rep.control.left left).2.1
  have taken := (rep.control.left left).2.2
  have free : ¬ s.Occupied := by
    rcases left with at_ | at_ | at_ | at_ <;> simp [State.Occupied, at_, taken, quiet.2.2.1]
  have running : s.reader.pc ≠ .exited .failure := by
    rcases left with at_ | at_ | at_ | at_ <;> simp [at_]
  rw [← rep.received, ← rep.sent]
  exact c.received_of_drained (rep.drained free running)

/-- In every reachable state the output is a prefix of what the writer has read, behind it by
    a part of the latest chunk at most, and complete once the reader has left its loop. -/
theorem transfer_delivers (stdin : List Byte) (seg : Shmseg) (value : Nat → Nat) (s : State)
    (run : Reaches step NoFailure (initial stdin seg value) s) :
    s.bytesRead ++ s.stdin = stdin ∧ s.stdout <+: s.bytesRead ∧
    (∃ behind, s.stdout ++ behind = s.bytesRead ∧ behind <:+ s.lastRead ∧
      behind.length ≤ BUF_SIZE) ∧
    (s.reader.pc.LeftLoop → s.stdout = s.bytesRead) := by
  obtain ⟨c, reached, rep⟩ := transfer_refines_channel run
  refine ⟨reaches_input run, ?_, ⟨c.inFlight, ?_, rep.behind, reached.bounded⟩, ?_⟩
  · rw [← rep.received, ← rep.sent]
    exact c.received_isPrefix
  · rw [← rep.received, ← rep.sent]
    exact c.conserved
  · exact rep.delivered

def twoChunks : List Action :=
  [.writer .done, .writer (.count 2), .writer .done, .reader .done, .writer .done, .writer .done,
    .writer (.error .EINTR), .reader .done, .reader (.count 2), .reader .done, .writer .done,
    .reader .done, .writer (.count 1), .writer .done, .writer .done, .writer .done, .reader .done,
    .reader .done, .reader (.count 1), .reader .done, .reader .done, .writer .done,
    .writer (.count 0), .writer .done, .reader .done, .reader .done]

theorem transfer_twoChunks :
    ∃ s, exec step twoChunks (initial [1, 2, 3] ⟨7, [9, 9, 9, 9]⟩ (fun _ => 5)) = some s ∧
      s.reader.pc = .shmdt ∧ s.stdout = [1, 2, 3] ∧ s.stdout = s.bytesRead := by
  refine ⟨_, rfl, rfl, rfl, ?_⟩
  have run := transfer_delivers [1, 2, 3] ⟨7, [9, 9, 9, 9]⟩ (fun _ => 5) _
    ⟨twoChunks, by decide, rfl⟩
  exact run.2.2.2 (.inl rfl)

end SystemProgramming.SharedMemory
