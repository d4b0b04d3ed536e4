import SystemProgramming.Tee.Model

namespace SystemProgramming.Tee

inductive Move (s : State) : Outcome → State → Prop where
  | opened (at_ : s.pc = .opening) :
      Move s .done { s with pc := .read, file := some (s.file.getD []) }
  | unopened (errno : Errno) (at_ : s.pc = .opening) :
      Move s (.error errno) { s with pc := .exited .failure }
  | filled (n : Nat) (at_ : s.pc = .read) (inside : n ≤ s.input.length) :
      Move s (.count n) { s with
        pc := .writeFile n
        input := s.input.drop n
        buf := Buffer.overwrite (s.input.take n) s.buf }
  | ended (at_ : s.pc = .read) (nothing : s.input = []) : Move s (.count 0) { s with pc := .close }
  | unread (errno : Errno) (at_ : s.pc = .read) : Move s (.error errno) { s with pc := .close }
  | wrote (n k : Nat) (at_ : s.pc = .writeFile n) :
      Move s (.count k) { write s (s.buf.take k) with pc := .writeStdout n k }
  | unwritten (errno : Errno) (n : Nat) (at_ : s.pc = .writeFile n) :
      Move s (.error errno) { s with pc := .writeStdout n (-1) }
  | copied (n : Nat) (at_ : s.pc = .writeStdout n n) :
      Move s (.count n) { s with pc := .read, stdout := s.stdout ++ s.buf.take n }
  | short (n : Nat) (numWritten : Int) (outcome : Outcome) (stdout : List Byte)
      (at_ : s.pc = .writeStdout n numWritten) :
      Move s outcome { s with pc := .exited .failure, stdout := stdout }
  | closed (outcome : Outcome) (at_ : s.pc = .close) :
      Move s outcome { s with pc := .exited .success }

theorem checkWrites_read (numRead : Nat) : checkWrites numRead numRead numRead = .read :=
  if_neg (by simp)

theorem checkWrites_failure {numRead : Nat} {numWritten stdoutWrNum : Int}
    (short : ¬ (numWritten = numRead ∧ stdoutWrNum = numRead)) :
    checkWrites numRead numWritten stdoutWrNum = .exited .failure :=
  if_pos (by omega)

theorem read_moves {s t : State} {outcome : Outcome} (at_ : s.pc = .read)
    (taken : step s outcome = some t) : Move s outcome t := by
  unfold step at taken
  rw [at_] at taken
  cases outcome with
  | done => cases taken
  | error errno =>
    cases taken
    exact .unread errno at_
  | count n =>
    dsimp only at taken
    split at taken
    · rename_i counted
      rcases counted with ⟨-, inside, atEnd⟩
      split at taken
      · cases taken
        exact .filled n at_ inside
      · rename_i nothing
        have zero : n = 0 := by omega
        subst zero
        cases taken
        exact .ended at_ (atEnd.mp rfl)
    · cases taken

theorem writeStdout_moves {s t : State} {numRead : Nat} {numWritten : Int} {outcome : Outcome}
    (at_ : s.pc = .writeStdout numRead numWritten) (taken : step s outcome = some t) :
    Move s outcome t := by
  unfold step at taken
  rw [at_] at taken
  cases outcome with
  | done => cases taken
  | error errno =>
    cases taken
    rw [checkWrites_failure (by omega)]
    exact .short numRead numWritten (.error errno) s.stdout at_
  | count k =>
    dsimp only at taken
    split at taken
    · cases taken
      by_cases all : numWritten = numRead ∧ (k : Int) = numRead
      · have same : k = numRead := by omega
        rw [same, all.1, checkWrites_read]
        rw [all.1] at at_
        exact .copied numRead at_
      · rw [checkWrites_failure all]
        exact .short numRead numWritten (.count k) (s.stdout ++ s.buf.take k) at_
    · cases taken

theorem step_moves {s t : State} {outcome : Outcome} (taken : step s outcome = some t) :
    Move s outcome t := by
  cases at_ : s.pc with
  | opening =>
    unfold step at taken
    rw [at_] at taken
    cases outcome with
    | done =>
      dsimp only at taken
      split at taken
      · cases taken
      · cases taken
        exact .opened at_
    | error errno =>
      cases taken
      exact .unopened errno at_
    | count n => cases taken
  | read => exact read_moves at_ taken
  | writeFile n =>
    unfold step at taken
    rw [at_] at taken
    cases outcome with
    | done => cases taken
    | error errno =>
      cases taken
      exact .unwritten errno n at_
    | count k =>
      dsimp only at taken
      split at taken
      · cases taken
        exact .wrote n k at_
      · cases taken
  | writeStdout n numWritten => exact writeStdout_moves at_ taken
  | close =>
    unfold step at taken
    rw [at_] at taken
    cases outcome <;> cases taken
    all_goals exact .closed _ at_
  | exited status =>
    unfold step at taken
    rw [at_] at taken
    cases taken

end SystemProgramming.Tee
