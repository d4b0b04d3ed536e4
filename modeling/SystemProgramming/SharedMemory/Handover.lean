import SystemProgramming.SharedMemory.Moves

namespace SystemProgramming.SharedMemory

open BinarySems Transition

def writerHolds : WriterPc → Nat
  | .read | .release | .semctl | .shmdt | .shmctl | .report | .exited _ => 1
  | .reserve | .test | .header | .reserveLast => 0

def readerHolds : ReaderPc → Nat
  | .test | .write | .release | .shmdt | .releaseLast | .exited .failure => 1
  | .reserve | .header | .report | .exited .success => 0

def WriterPc.Stopping (pc : WriterPc) : Prop :=
  pc ≠ .reserve ∧ pc ≠ .read ∧ pc ≠ .release ∧ pc ≠ .header

def WriterPc.PastLast (pc : WriterPc) : Prop :=
  pc = .semctl ∨ pc = .shmdt ∨ pc = .shmctl ∨ pc = .report ∨ ∃ status, pc = .exited status

def ReaderPc.LeftLoop (pc : ReaderPc) : Prop :=
  pc = .shmdt ∨ pc = .releaseLast ∨ pc = .report ∨ pc = .exited .success

def ReaderPc.PastLast (pc : ReaderPc) : Prop := pc = .report ∨ pc = .exited .success

/-- What the two semaphores guarantee. A single token is passed around: it is in one of the two
    semaphores or with one of the two processes. -/
structure Handover (writer : WriterPc) (reader : ReaderPc) (writeSem readSem : Nat) (cnt : Int)
    (removed marked : Bool) : Prop where
  token : writeSem + readSem + writerHolds writer + readerHolds reader = 1
  continuing : writer = .header ∨ (writer = .reserve ∧ writeSem = 0) → cnt ≠ 0
  stopped : writer = .reserveLast ∨ writer.PastLast → cnt = 0
  writing : reader = .write ∨ reader = .release → cnt ≠ 0
  left : reader.LeftLoop → cnt = 0 ∧ writer.Stopping ∧ readSem = 0
  signalled : writer = .test ∨ writer = .reserveLast → cnt = 0 → writeSem = 1 → reader.PastLast
  last : writer.PastLast → reader.PastLast
  removed : removed = true → writer.PastLast
  marked : marked = true → writer.PastLast

def State.handover (s : State) : Prop :=
  Handover s.writer.pc s.reader.pc (s.sems.value WRITE_SEM) (s.sems.value READ_SEM) s.seg.cnt
    s.sems.removed s.marked

theorem handover_initial (stdin : List Byte) (seg : Shmseg) (value : Nat → Nat) :
    (initial stdin seg value).handover := by
  constructor <;>
    simp [initial, initSemInUse, initSemAvailable, writerHolds, readerHolds, WriterPc.PastLast,
      ReaderPc.LeftLoop, setval_value_other]

theorem ReaderPc.idle_cases {pc : ReaderPc} (idle : readerHolds pc = 0) :
    pc = .reserve ∨ pc = .header ∨ pc = .report ∨ pc = .exited .success := by
  cases pc with
  | exited status => cases status <;> simp_all [readerHolds]
  | _ => simp_all [readerHolds]

theorem WriterPc.idle_cases {pc : WriterPc} (idle : writerHolds pc = 0) :
    pc = .reserve ∨ pc = .test ∨ pc = .header ∨ pc = .reserveLast := by
  cases pc <;> simp_all [writerHolds]

theorem WriterMove.handover {s t : State} {outcome : Outcome} (held : s.handover)
    (move : WriterMove s outcome t) : t.handover := by
  cases move
  case interrupted => exact held
  all_goals
    simp only [State.handover, State.writerAt, storeRead, setval_value_self, setval_removed,
      setval_value_other _ _ _ READ_SEM_ne, setval_value_other _ _ _ WRITE_SEM_ne] at held ⊢
    obtain ⟨token, continuing, stopped, writing, left, signalled, last, removed, marked⟩ := held
  case filled n at_ count =>
    -- The writer has the token, so the reader is not between its test and its release.
    have idle : readerHolds s.reader.pc = 0 := by
      simp only [at_, writerHolds] at token
      omega
    constructor
    case writing => rcases ReaderPc.idle_cases idle with at' | at' | at' | at' <;> simp [at']
    all_goals simp_all [writerHolds, WriterPc.PastLast, WriterPc.Stopping]
  case reservedLast at_ available =>
    have one : s.sems.value WRITE_SEM = 1 := by omega
    have ended : s.reader.pc.PastLast := signalled (.inr at_) (stopped (.inl at_)) one
    constructor
    all_goals simp_all [writerHolds, WriterPc.PastLast, WriterPc.Stopping]
    omega
  all_goals
    constructor <;> simp_all [writerHolds, WriterPc.PastLast, WriterPc.Stopping]
    all_goals omega

theorem ReaderMove.handover {s t : State} {outcome : Outcome} (held : s.handover)
    (move : ReaderMove s outcome t) : t.handover := by
  cases move
  case interrupted => exact held
  all_goals
    simp only [State.handover, State.readerAt, setval_value_self, setval_removed,
      setval_value_other _ _ _ READ_SEM_ne, setval_value_other _ _ _ WRITE_SEM_ne] at held ⊢
    obtain ⟨token, continuing, stopped, writing, left, signalled, last, removed, marked⟩ := held
  case ended at_ zero =>
    -- The reader has the token, so a writer that is not stopping waits for it with `cnt` nonzero.
    simp only [at_, readerHolds] at token
    have idle : writerHolds s.writer.pc = 0 := by omega
    have stopping : s.writer.pc.Stopping := by
      rcases WriterPc.idle_cases idle with waits | at' | counts | at'
      · exact absurd zero (continuing (.inr ⟨waits, by omega⟩))
      · simp [at', WriterPc.Stopping]
      · exact absurd zero (continuing (.inl counts))
      · simp [at', WriterPc.Stopping]
    constructor
    all_goals simp_all [readerHolds, ReaderPc.PastLast, ReaderPc.LeftLoop]
  all_goals
    constructor <;> simp_all [readerHolds, ReaderPc.PastLast, ReaderPc.LeftLoop]
    all_goals omega

theorem step_handover {s t : State} {action : Action} (held : s.handover)
    (ok : NoFailure s action) (taken : step s action = some t) : t.handover := by
  cases action with
  | writer outcome => exact (writerStep_moves ok taken).handover held
  | reader outcome => exact (readerStep_moves ok taken).handover held

theorem reaches_handover {stdin : List Byte} {seg : Shmseg} {value : Nat → Nat} {s : State}
    (run : Reaches step NoFailure (initial stdin seg value) s) : s.handover :=
  run.invariant (handover_initial stdin seg value) (fun _ _ _ held ok taken => step_handover held ok taken)

end SystemProgramming.SharedMemory
