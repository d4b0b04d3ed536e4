import SystemProgramming.Tee.Reporting

namespace SystemProgramming.Tee

open Transition

variable {old : Option (List Byte)} {input buf : List Byte}

structure Copied (argv : Nat) (old : Option (List Byte)) (input : List Byte) (s : State) : Prop where
  stdout : s.stdout = input
  plain : argv = 2 → s.file = some input
  appended : argv = 3 → s.file = some (old.getD [] ++ input)

theorem Move.append {s t : State} {outcome : Outcome} (move : Move s outcome t) : t.append = s.append := by
  cases move with
  | _ => rfl

theorem append_run {argv : Nat} {outcomes : List Outcome} {s : State}
    (run : exec step outcomes (initial argv old input buf) = some s) : s.append = decide (argv = 3) := by
  have kept : ∀ r outcome t, r.append = decide (argv = 3) → True → step r outcome = some t →
      t.append = decide (argv = 3) := by
    intro r outcome t mode _ taken
    rw [(step_moves taken).append, mode]
  exact exec_invariant (I := fun r => r.append = decide (argv = 3)) kept rfl (along_true outcomes _) run

theorem usage_of_success {argv : Nat} {outcomes : List Outcome} {s : State}
    (run : exec step outcomes (initial argv old input buf) = some s) (exited : s.pc = .exited .success) :
    argv = 3 ∨ argv = 2 := by
  by_contra usage
  have stopped : (initial argv old input buf).pc = .exited .failure := if_neg usage
  cases outcomes with
  | nil =>
    cases run
    rw [stopped] at exited
    cases exited
  | cons outcome rest =>
    obtain ⟨t, taken, -⟩ := exec_cons_some run
    unfold step at taken
    rw [stopped] at taken
    cases taken

/-- Where no `read` fails and the program returns 0, so that no other call has failed or been partial, the
    content is right with the append option, and without it if the file was no longer than the input. -/
theorem copied_iff {argv : Nat} {outcomes : List Outcome} {s : State}
    (ok : Along step ReadOk outcomes (initial argv old input buf))
    (run : exec step outcomes (initial argv old input buf) = some s) (exited : s.pc = .exited .success) :
    Copied argv old input s ↔ argv = 3 ∨ (old.getD []).length ≤ input.length := by
  obtain ⟨-, stdout, file⟩ := copied_of_success run exited ok
  rw [append_run run] at file
  rcases usage_of_success run exited with append | plain
  · subst append
    apply iff_of_true
    · exact ⟨stdout, fun other => absurd other (by decide), fun _ => file⟩
    · exact .inl rfl
  · subst plain
    have whole : s.file = some input ↔ (old.getD []).length ≤ input.length := by
      rw [file, Option.some.injEq]
      exact Buffer.overwrite_eq_chunk_iff input (old.getD [])
    constructor
    · intro copied
      exact .inr (whole.mp (copied.plain rfl))
    · intro short
      have fits : (old.getD []).length ≤ input.length := by omega
      exact ⟨stdout, fun _ => whole.mpr fits, fun other => absurd other (by decide)⟩

def twoChunks : List Outcome :=
  [.done, .count 2, .count 2, .count 2, .count 1, .count 1, .count 1, .count 0, .done]

theorem copied_twoChunks :
    ∃ s, exec step twoChunks (initial 2 (some [9]) [1, 2, 3] []) = some s ∧ s.file = some [1, 2, 3] := by
  have ok : Along step ReadOk twoChunks (initial 2 (some [9]) [1, 2, 3] []) := by decide
  have run : exec step twoChunks (initial 2 (some [9]) [1, 2, 3] []) = some _ := rfl
  exact ⟨_, run, ((copied_iff ok run rfl).mpr (by decide)).plain rfl⟩

/-- A file of two bytes and an input of one. -/
theorem longer_file_mixed :
    ¬ ∀ argv old input outcomes s, Along step ReadOk outcomes (initial argv old input []) →
      exec step outcomes (initial argv old input []) = some s → s.pc = .exited .success →
        Copied argv old input s := by
  intro always
  have copied := always 2 (some [8, 9]) [1] [.done, .count 1, .count 1, .count 1, .count 0, .done] _
    (by decide) rfl rfl
  have file := copied.plain rfl
  have mixed : (some [1, 9] : Option (List Byte)) ≠ some [1] := by decide
  exact mixed file

end SystemProgramming.Tee
