import SystemProgramming.SharedMemory.Model

namespace SystemProgramming.SharedMemory

open BinarySems

inductive WriterMove (s : State) : Outcome → State → Prop where
  | interrupted (errno : Errno) : WriterMove s (.error errno) s
  | reserved (at_ : s.writer.pc = .reserve) (available : 0 < s.sems.value WRITE_SEM) :
      WriterMove s .done
        ({ s with sems := s.sems.setval WRITE_SEM (s.sems.value WRITE_SEM - 1) }.writerAt .read)
  | filled (n : Nat) (at_ : s.writer.pc = .read) (count : ReadCount s.stdin n) :
      WriterMove s (.count n) ((storeRead s n).writerAt .release)
  | released (at_ : s.writer.pc = .release) :
      WriterMove s .done
        ({ s with sems := s.sems.setval READ_SEM (s.sems.value READ_SEM + 1) }.writerAt .test)
  | ended (at_ : s.writer.pc = .test) (zero : s.seg.cnt = 0) :
      WriterMove s .done (s.writerAt .reserveLast)
  | continued (at_ : s.writer.pc = .test) (nonzero : s.seg.cnt ≠ 0) :
      WriterMove s .done (s.writerAt .header)
  | counted (at_ : s.writer.pc = .header) :
      WriterMove s .done { s with
        writer := ⟨.reserve, s.writer.xfrs + 1, s.writer.bytes + BitVec.ofInt 32 s.seg.cnt⟩ }
  | reservedLast (at_ : s.writer.pc = .reserveLast) (available : 0 < s.sems.value WRITE_SEM) :
      WriterMove s .done
        ({ s with sems := s.sems.setval WRITE_SEM (s.sems.value WRITE_SEM - 1) }.writerAt .semctl)
  | removed (at_ : s.writer.pc = .semctl) :
      WriterMove s .done ({ s with sems := { s.sems with removed := true } }.writerAt .shmdt)
  | detached (at_ : s.writer.pc = .shmdt) : WriterMove s .done (s.writerAt .shmctl)
  | marked (at_ : s.writer.pc = .shmctl) :
      WriterMove s .done ({ s with marked := true }.writerAt .report)
  | finished (at_ : s.writer.pc = .report) : WriterMove s .done (s.writerAt (.exited .success))

inductive ReaderMove (s : State) : Outcome → State → Prop where
  | interrupted (errno : Errno) : ReaderMove s (.error errno) s
  | reserved (at_ : s.reader.pc = .reserve) (available : 0 < s.sems.value READ_SEM) :
      ReaderMove s .done
        ({ s with sems := s.sems.setval READ_SEM (s.sems.value READ_SEM - 1) }.readerAt .test)
  | ended (at_ : s.reader.pc = .test) (zero : s.seg.cnt = 0) :
      ReaderMove s .done (s.readerAt .shmdt)
  | continued (at_ : s.reader.pc = .test) (nonzero : s.seg.cnt ≠ 0) :
      ReaderMove s .done (s.readerAt .write)
  | wrote (n : Nat) (at_ : s.reader.pc = .write) (whole : s.seg.cnt = n) :
      ReaderMove s (.count n) ({ s with stdout := s.stdout ++ s.seg.buf.take n }.readerAt .release)
  | cutShort (n : Nat) (at_ : s.reader.pc = .write) (fits : n ≤ s.seg.cnt.toNat)
      (short : s.seg.cnt ≠ n) :
      ReaderMove s (.count n)
        ({ s with stdout := s.stdout ++ s.seg.buf.take n }.readerAt (.exited .failure))
  | released (at_ : s.reader.pc = .release) :
      ReaderMove s .done
        ({ s with sems := s.sems.setval WRITE_SEM (s.sems.value WRITE_SEM + 1) }.readerAt .header)
  | counted (at_ : s.reader.pc = .header) :
      ReaderMove s .done { s with
        reader := ⟨.reserve, s.reader.xfrs + 1, s.reader.bytes + BitVec.ofInt 32 s.seg.cnt⟩ }
  | detached (at_ : s.reader.pc = .shmdt) : ReaderMove s .done (s.readerAt .releaseLast)
  | releasedLast (at_ : s.reader.pc = .releaseLast) :
      ReaderMove s .done
        ({ s with sems := s.sems.setval WRITE_SEM (s.sems.value WRITE_SEM + 1) }.readerAt .report)
  | finished (at_ : s.reader.pc = .report) : ReaderMove s .done (s.readerAt (.exited .success))

theorem checkedCall_done {outcome : Outcome} {success failure t : State}
    (ok : outcome.isError = false) (taken : checkedCall outcome success failure = some t) :
    outcome = .done ∧ t = success := by
  cases outcome with
  | done => exact ⟨rfl, (Option.some.inj taken).symm⟩
  | count n => cases taken
  | error errno => cases ok

theorem plain_done {outcome : Outcome} {next t : State} (taken : plain outcome next = some t) :
    outcome = .done ∧ t = next := by
  cases outcome with
  | done => exact ⟨rfl, (Option.some.inj taken).symm⟩
  | count n => cases taken
  | error errno => cases taken

theorem writerReserve_moves {s t : State} {outcome : Outcome} {next : WriterPc}
    (ok : ∀ errno, outcome = .error errno → errno = .EINTR)
    (taken : writerReserve s outcome next = some t) :
    (outcome.isError = true ∧ t = s) ∨
    (outcome = .done ∧ 0 < s.sems.value WRITE_SEM ∧
      t = { s with sems := s.sems.setval WRITE_SEM (s.sems.value WRITE_SEM - 1) }.writerAt next) := by
  cases outcome with
  | done =>
    simp only [writerReserve, Option.map_eq_some_iff] at taken
    obtain ⟨⟨sems, returned⟩, completed, rfl⟩ := taken
    obtain ⟨-, available, rfl, rfl⟩ := reserveSem_done completed
    exact .inr ⟨rfl, available, by simp⟩
  | count n => simp [writerReserve, reserveSem] at taken
  | error errno =>
    have retried := ok errno rfl
    subst retried
    simp only [writerReserve, reserveSem_interrupted, Option.map_some, Option.some.injEq] at taken
    exact .inl ⟨rfl, taken.symm⟩

theorem writerStep_moves {s t : State} {outcome : Outcome}
    (ok : NoFailure s (.writer outcome)) (taken : writerStep s outcome = some t) :
    WriterMove s outcome t := by
  have retried : ∀ errno, outcome = .error errno → errno = .EINTR := by
    rintro errno rfl
    exact ok.1
  have unfailing : s.writer.pc ≠ .reserve → s.writer.pc ≠ .reserveLast → outcome.isError = false := by
    intro first last
    cases outcome with
    | error errno => exact absurd ok.2 (by simp [first, last])
    | _ => rfl
  unfold writerStep at taken
  split at taken
  case h_1 at_ =>
    obtain ⟨failed, rfl⟩ | ⟨rfl, available, rfl⟩ := writerReserve_moves retried taken
    · cases outcome with
      | error errno => exact .interrupted errno
      | _ => cases failed
    · exact .reserved at_ available
  case h_2 at_ =>
    cases outcome with
    | done => cases taken
    | count n =>
      dsimp only at taken
      split at taken
      · rename_i count
        cases taken
        exact .filled n at_ count
      · cases taken
    | error errno => simp [at_, Outcome.isError] at unfailing
  case h_3 at_ =>
    cases outcome with
    | done =>
      simp only [Option.map_eq_some_iff] at taken
      obtain ⟨⟨sems, result⟩, completed, rfl⟩ := taken
      obtain ⟨-, rfl, rfl⟩ := releaseSem_done completed
      exact .released at_
    | count n => simp [releaseSem] at taken
    | error errno => simp [at_, Outcome.isError] at unfailing
  case h_4 at_ =>
    obtain ⟨rfl, rfl⟩ := plain_done taken
    split
    · rename_i zero
      exact .ended at_ zero
    · rename_i nonzero
      exact .continued at_ nonzero
  case h_5 at_ =>
    obtain ⟨rfl, rfl⟩ := plain_done taken
    exact .counted at_
  case h_6 at_ =>
    obtain ⟨failed, rfl⟩ | ⟨rfl, available, rfl⟩ := writerReserve_moves retried taken
    · cases outcome with
      | error errno => exact .interrupted errno
      | _ => cases failed
    · exact .reservedLast at_ available
  case h_7 at_ =>
    obtain ⟨rfl, rfl⟩ := checkedCall_done (unfailing (by simp [at_]) (by simp [at_])) taken
    exact .removed at_
  case h_8 at_ =>
    obtain ⟨rfl, rfl⟩ := checkedCall_done (unfailing (by simp [at_]) (by simp [at_])) taken
    exact .detached at_
  case h_9 at_ =>
    obtain ⟨rfl, rfl⟩ := checkedCall_done (unfailing (by simp [at_]) (by simp [at_])) taken
    exact .marked at_
  case h_10 at_ =>
    obtain ⟨rfl, rfl⟩ := plain_done taken
    exact .finished at_
  case h_11 => cases taken

theorem readerRelease_moves {s t : State} {outcome : Outcome} {next : ReaderPc}
    (ok : outcome.isError = false) (taken : readerRelease s outcome next = some t) :
    outcome = .done ∧
      t = { s with sems := s.sems.setval WRITE_SEM (s.sems.value WRITE_SEM + 1) }.readerAt next := by
  cases outcome with
  | done =>
    simp only [readerRelease, Option.map_eq_some_iff] at taken
    obtain ⟨⟨sems, result⟩, completed, rfl⟩ := taken
    obtain ⟨-, rfl, rfl⟩ := releaseSem_done completed
    exact ⟨rfl, by simp⟩
  | count n => simp [readerRelease, releaseSem] at taken
  | error errno => cases ok

theorem readerStep_moves {s t : State} {outcome : Outcome}
    (ok : NoFailure s (.reader outcome)) (taken : readerStep s outcome = some t) :
    ReaderMove s outcome t := by
  have unfailing : s.reader.pc ≠ .reserve → outcome.isError = false := by
    intro first
    cases outcome with
    | error errno => exact absurd ok.2 first
    | _ => rfl
  unfold readerStep at taken
  split at taken
  case h_1 at_ =>
    cases outcome with
    | done =>
      simp only [readerReserve, Option.map_eq_some_iff] at taken
      obtain ⟨⟨sems, returned⟩, completed, rfl⟩ := taken
      obtain ⟨-, available, rfl, rfl⟩ := reserveSem_done completed
      exact .reserved at_ available
    | count n => simp [readerReserve, reserveSem] at taken
    | error errno =>
      obtain ⟨rfl, -⟩ := ok
      simp only [readerReserve, reserveSem_interrupted, Option.map_some, Option.some.injEq] at taken
      subst taken
      exact .interrupted _
  case h_2 at_ =>
    obtain ⟨rfl, rfl⟩ := plain_done taken
    split
    · rename_i zero
      exact .ended at_ zero
    · rename_i nonzero
      exact .continued at_ nonzero
  case h_3 at_ =>
    cases outcome with
    | done => cases taken
    | count n =>
      dsimp only at taken
      split at taken
      · rename_i fits
        cases taken
        by_cases short : s.seg.cnt ≠ n
        · simp only [short, ne_eq, not_false_eq_true, ite_true]
          exact .cutShort n at_ fits short
        · simp only [short, ite_false]
          exact .wrote n at_ (not_not.mp short)
      · cases taken
    | error errno => simp [at_, Outcome.isError] at unfailing
  case h_4 at_ =>
    obtain ⟨rfl, rfl⟩ := readerRelease_moves (unfailing (by simp [at_])) taken
    exact .released at_
  case h_5 at_ =>
    obtain ⟨rfl, rfl⟩ := plain_done taken
    exact .counted at_
  case h_6 at_ =>
    obtain ⟨rfl, rfl⟩ := checkedCall_done (unfailing (by simp [at_])) taken
    exact .detached at_
  case h_7 at_ =>
    obtain ⟨rfl, rfl⟩ := readerRelease_moves (unfailing (by simp [at_])) taken
    exact .releasedLast at_
  case h_8 at_ =>
    obtain ⟨rfl, rfl⟩ := plain_done taken
    exact .finished at_
  case h_9 => cases taken

end SystemProgramming.SharedMemory
