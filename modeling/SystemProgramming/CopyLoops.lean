import SystemProgramming.CpHole.Reporting
import SystemProgramming.Tee.Reporting

namespace SystemProgramming

open Transition

/-- When the exit status of the two copy programs can be trusted, whatever the input and however the
    calls go. -/
theorem copy_loops_reported (input buf : List Byte) (outcomes : List Outcome) :
    (∀ (old : SparseFile Byte) (s : CpHole.State) (status : ExitStatus),
      exec CpHole.step outcomes (CpHole.initial input old buf) = some s → s.pc = .exited status →
        (CpHole.Reported input old buf outcomes s ↔
          ¬ Along CpHole.step CpHole.Steady outcomes (CpHole.initial input old buf) ∨
            Along CpHole.step (fun s outcome => CpHole.ReadOk s outcome ∧ CpHole.Sound old s outcome)
              outcomes (CpHole.initial input old buf))) ∧
      ∀ (argv : Nat) (old : Option (List Byte)) (s : Tee.State) (status : ExitStatus),
        exec Tee.step outcomes (Tee.initial argv old input buf) = some s → s.pc = .exited status →
          (Tee.Reported argv old input buf outcomes s ↔
            Along Tee.step Tee.ReadOk outcomes (Tee.initial argv old input buf)) :=
  ⟨fun _ _ _ run exited => CpHole.reported_iff run exited,
    fun _ _ _ _ run exited => Tee.reported_iff run exited⟩

def oneByteCopied : List Outcome := [.count 1, .count 1, .count 0, .done, .done]

def oneByteTeed : List Outcome := [.done, .count 1, .count 1, .count 1, .count 0, .done]

theorem copy_loops_reported_oneByte :
    (∃ s, exec CpHole.step oneByteCopied (CpHole.initial [7] [] []) = some s ∧
      CpHole.Reported [7] [] [] oneByteCopied s) ∧
    ∃ s, exec Tee.step oneByteTeed (Tee.initial 2 none [7] []) = some s ∧
      Tee.Reported 2 none [7] [] oneByteTeed s := by
  refine ⟨⟨_, rfl, ?_⟩, _, rfl, ?_⟩
  · exact ((copy_loops_reported [7] [] oneByteCopied).1 [] _ .success rfl rfl).mpr (.inr (by decide))
  · exact ((copy_loops_reported [7] [] oneByteTeed).2 2 none _ .success rfl rfl).mpr (by decide)

def unreadable : List Outcome := [.error (.other 5), .done, .done]

theorem unreadable_exits_success :
    (∃ s, exec CpHole.step unreadable (CpHole.initial [7] [] []) = some s ∧ s.pc = .exited .success ∧
      ¬ CpHole.Reported [7] [] [] unreadable s) ∧
    ∃ s, exec Tee.step (.done :: unreadable.take 2) (Tee.initial 2 none [7] []) = some s ∧
      s.pc = .exited .success ∧ ¬ Tee.Reported 2 none [7] [] (.done :: unreadable.take 2) s := by
  refine ⟨⟨_, rfl, rfl, ?_⟩, _, rfl, rfl, ?_⟩
  · intro reported
    cases (reported rfl).2.1
  · intro reported
    cases (reported rfl).2.1

end SystemProgramming
