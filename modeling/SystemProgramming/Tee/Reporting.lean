import SystemProgramming.Tee.Moves

namespace SystemProgramming.Tee

open Transition

variable {old : Option (List Byte)} {source : List Byte}

def ReadOk (s : State) (outcome : Outcome) : Prop := s.pc = .read → outcome.isError = false

instance (s : State) (outcome : Outcome) : Decidable (ReadOk s outcome) :=
  inferInstanceAs (Decidable (_ → _))

def contents (append : Bool) (old bytes : List Byte) : List Byte :=
  if append then old ++ bytes else Buffer.overwrite bytes old

structure Holds (old : Option (List Byte)) (s : State) (bytes : List Byte) : Prop where
  file : s.file = some (contents s.append (old.getD []) bytes)
  offset : s.append = false → s.offset = bytes.length

theorem Holds.write {s : State} {bytes : List Byte} (holds : Holds old s bytes) (chunk : List Byte) :
    Holds old (write s chunk) (bytes ++ chunk) := by
  rcases holds with ⟨file, offset⟩
  cases mode : s.append with
  | true =>
    have behind : (old.getD [] ++ bytes).drop ((old.getD [] ++ bytes).length + chunk.length) = [] :=
      List.drop_eq_nil_of_le (by omega)
    refine ⟨?_, ?_⟩
    · simp only [Tee.write, mode, file, contents, Option.getD_some, if_true, List.take_length, behind,
        List.append_nil, List.append_assoc]
    · simp [Tee.write, mode]
  | false =>
    have place := offset mode
    have before : (Buffer.overwrite bytes (old.getD [])).take s.offset = bytes := by
      rw [place, Buffer.take_overwrite]
    have behind : (Buffer.overwrite bytes (old.getD [])).drop (s.offset + chunk.length) =
        (old.getD []).drop (bytes ++ chunk).length := by
      rw [place, Buffer.overwrite, ← List.drop_drop, List.drop_left, List.drop_drop, List.length_append]
    refine ⟨?_, ?_⟩
    · simp only [Tee.write, mode, file, contents, Option.getD_some, Bool.false_eq_true, if_false, before,
        behind]
      rfl
    · intro _
      simp [Tee.write, mode, place]

def Phase (old : Option (List Byte)) (source : List Byte) (s : State) : Prop :=
  match s.pc with
  | .opening => s.stdout = [] ∧ s.input = source ∧ s.file = old ∧ s.offset = 0
  | .read | .close | .exited .success => s.stdout ++ s.input = source ∧ Holds old s s.stdout
  | .writeFile n => s.stdout ++ s.buf.take n ++ s.input = source ∧ Holds old s s.stdout
  | .writeStdout n k => s.stdout ++ s.buf.take n ++ s.input = source ∧
      (k = n → Holds old s (s.stdout ++ s.buf.take n))
  | .exited .failure => True

theorem Move.phase {s t : State} {outcome : Outcome} (phase : Phase old source s)
    (move : Move s outcome t) : Phase old source t := by
  unfold Phase at phase
  cases move with
  | opened at_ =>
    rw [at_] at phase
    rcases phase with ⟨nothing, input, file, offset⟩
    refine ⟨?_, ?_, ?_⟩
    · rw [nothing, List.nil_append]
      exact input
    · show some (s.file.getD []) = some (contents s.append (old.getD []) s.stdout)
      rw [file, nothing, contents]
      simp [Buffer.overwrite]
    · intro _
      show s.offset = s.stdout.length
      rw [offset, nothing]
      rfl
  | filled n at_ inside =>
    rw [at_] at phase
    rcases phase with ⟨split_, holds⟩
    refine ⟨?_, holds.file, holds.offset⟩
    show s.stdout ++ (Buffer.overwrite (s.input.take n) s.buf).take n ++ s.input.drop n = source
    rw [Buffer.take_overwrite_take s.input s.buf inside, List.append_assoc, List.take_append_drop]
    exact split_
  | ended at_ nothing =>
    rw [at_] at phase
    exact ⟨phase.1, phase.2.file, phase.2.offset⟩
  | unread errno at_ =>
    rw [at_] at phase
    exact ⟨phase.1, phase.2.file, phase.2.offset⟩
  | wrote n k at_ =>
    rw [at_] at phase
    rcases phase with ⟨split_, holds⟩
    refine ⟨split_, ?_⟩
    intro all
    have same : k = n := by omega
    subst same
    have next := holds.write (s.buf.take k)
    exact ⟨next.file, next.offset⟩
  | unwritten errno n at_ =>
    rw [at_] at phase
    exact ⟨phase.1, fun all => absurd all (by omega)⟩
  | copied n at_ =>
    rw [at_] at phase
    rcases phase with ⟨split_, holds⟩
    have next := holds rfl
    exact ⟨split_, next.file, next.offset⟩
  | closed outcome at_ =>
    rw [at_] at phase
    exact ⟨phase.1, phase.2.file, phase.2.offset⟩
  | unopened errno at_ => exact trivial
  | short n numWritten outcome stdout at_ => exact trivial

def Leaving (s : State) : Prop := s.pc = .close ∨ s.pc = .exited .success

/-- The loop is left at the end of the input, and when a `read` fails. -/
theorem Move.leaving {s t : State} {outcome : Outcome} (move : Move s outcome t) :
    (Leaving t ∧ t.input = s.input ∧
      (Leaving s ∨ s.pc = .read ∧ (outcome.isError = true ∨ s.input = []))) ∨
      ¬ Leaving t ∧ ¬ Leaving s ∧ ReadOk s outcome := by
  unfold Leaving ReadOk
  cases move with
  | ended at_ nothing => exact .inl ⟨.inl rfl, rfl, .inr ⟨at_, .inr nothing⟩⟩
  | unread errno at_ => exact .inl ⟨.inl rfl, rfl, .inr ⟨at_, .inl rfl⟩⟩
  | closed outcome at_ => exact .inl ⟨.inr rfl, rfl, .inl (.inl at_)⟩
  | opened at_ | unopened errno at_ | filled n at_ inside | wrote n k at_ | unwritten errno n at_
  | copied n at_ | short n numWritten outcome stdout at_ =>
    right
    simp [at_, Outcome.isError]

def Reported (argv : Nat) (old : Option (List Byte)) (input buf : List Byte) (outcomes : List Outcome)
    (s : State) : Prop :=
  s.pc = .exited .success → Along step ReadOk outcomes (initial argv old input buf) ∧ s.input = [] ∧
    s.stdout = input ∧ s.file = some (contents s.append (old.getD []) input)

theorem phase_initial (argv : Nat) (old : Option (List Byte)) (input buf : List Byte) :
    Phase old input (initial argv old input buf) := by
  by_cases usage : argv = 3 ∨ argv = 2
  · have at_ : (initial argv old input buf).pc = .opening := if_pos usage
    unfold Phase
    rw [at_]
    exact ⟨rfl, rfl, rfl, rfl⟩
  · have at_ : (initial argv old input buf).pc = .exited .failure := if_neg usage
    unfold Phase
    rw [at_]
    exact trivial

theorem not_leaving_initial (argv : Nat) (old : Option (List Byte)) (input buf : List Byte) :
    ¬ Leaving (initial argv old input buf) := by
  unfold Leaving initial start
  split <;> simp

theorem readOk_of_not_leaving {argv : Nat} {input buf : List Byte} {outcomes : List Outcome} {s : State}
    (run : exec step outcomes (initial argv old input buf) = some s) (inside : ¬ Leaving s) :
    Along step ReadOk outcomes (initial argv old input buf) := by
  have whole : ¬ Leaving s → Along step ReadOk outcomes (initial argv old input buf) := by
    refine exec_history_always
      (I := fun before s => ¬ Leaving s → Along step ReadOk before (initial argv old input buf))
      ?_ (fun _ => trivial) run
    intro before r outcome t here holds taken staying
    rcases (step_moves taken).leaving with leaves | stays
    · exact absurd leaves.1 staying
    · rw [along_concat outcome here]
      exact ⟨holds stays.2.1, stays.2.2⟩
  exact whole inside

theorem input_of_leaving {argv : Nat} {input buf : List Byte} {outcomes : List Outcome} {s : State}
    (ok : Along step ReadOk outcomes (initial argv old input buf))
    (run : exec step outcomes (initial argv old input buf) = some s) (leaving : Leaving s) :
    s.input = [] := by
  have whole : Leaving s → s.input = [] := by
    refine exec_invariant (I := fun s => Leaving s → s.input = []) ?_
      (fun leaving => absurd leaving (not_leaving_initial argv old input buf)) ok run
    intro s outcome t atEnd ok taken leaves_now
    rcases (step_moves taken).leaving with leaves | stays
    · rcases leaves with ⟨-, same, earlier | now⟩
      · rw [same, atEnd earlier]
      · rcases now with ⟨at_, failed | ended⟩
        · rw [ok at_] at failed
          cases failed
        · rw [same, ended]
    · exact absurd leaves_now stays.1
  exact whole leaving

/-- A program that has returned 0 without a failed `read` has copied all of its input to both files. -/
theorem copied_of_success {argv : Nat} {input buf : List Byte} {outcomes : List Outcome} {s : State}
    (run : exec step outcomes (initial argv old input buf) = some s) (exited : s.pc = .exited .success)
    (ok : Along step ReadOk outcomes (initial argv old input buf)) :
    s.input = [] ∧ s.stdout = input ∧ s.file = some (contents s.append (old.getD []) input) := by
  have phase : Phase old input s :=
    exec_invariant (fun _ _ _ phase _ taken => (step_moves taken).phase phase)
      (phase_initial argv old input buf) ok run
  have nothing := input_of_leaving ok run (.inr exited)
  unfold Phase at phase
  rw [exited] at phase
  rcases phase with ⟨split_, holds⟩
  rw [nothing, List.append_nil] at split_
  rw [← split_]
  exact ⟨nothing, rfl, holds.file⟩

/-- The exit status tells of a failure before the end of the input exactly when no `read` fails. -/
theorem reported_iff {argv : Nat} {input buf : List Byte} {outcomes : List Outcome} {s : State}
    {status : ExitStatus} (run : exec step outcomes (initial argv old input buf) = some s)
    (exited : s.pc = .exited status) :
    Reported argv old input buf outcomes s ↔
      Along step ReadOk outcomes (initial argv old input buf) := by
  cases status with
  | failure =>
    refine iff_of_true ?_ (readOk_of_not_leaving run (by simp [Leaving, exited]))
    intro other
    rw [exited] at other
    cases other
  | success =>
    rw [Reported, imp_iff_right exited, and_iff_left_iff_imp]
    exact copied_of_success run exited

end SystemProgramming.Tee
