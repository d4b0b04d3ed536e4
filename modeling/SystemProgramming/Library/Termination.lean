import SystemProgramming.Library.Transition

namespace Transition

universe u v

variable {σ : Type u} {α : Type v}

def Ends (step : σ → α → Option σ) (s : σ) : Prop :=
  ∃ bound, ∀ actions t, exec step actions s = some t → actions.length ≤ bound

variable {step : σ → α → Option σ} {s : σ}

/-- Runs from which each step takes something off a measure are no longer than the measure. -/
theorem ends_of_measure (measure : σ → Nat)
    (less : ∀ s a t, step s a = some t → measure t < measure s) (s : σ) : Ends step s := by
  refine ⟨measure s, ?_⟩
  intro actions t run
  induction actions generalizing s with
  | nil => exact Nat.zero_le _
  | cons a actions ih =>
    rcases exec_cons_some run with ⟨m, taken, rest⟩
    have shorter := ih m rest
    have lower := less s a m taken
    rw [List.length_cons]
    omega

/-- Where only some of the actions are counted, and each of these takes something off a measure that
    none of the others raises, a run holds no more of them than the measure had at its start. -/
theorem count_add_measure_le {I : σ → Prop} {cond : σ → α → Prop} (counted : α → Bool) (measure : σ → Nat)
    (kept : ∀ s a t, I s → cond s a → step s a = some t → I t)
    (lower : ∀ s a t, I s → cond s a → step s a = some t →
      measure t + (if counted a then 1 else 0) ≤ measure s)
    {actions : List α} {t : σ} (start : I s) (along : Along step cond actions s)
    (run : exec step actions s = some t) : actions.countP counted + measure t ≤ measure s := by
  induction actions generalizing s with
  | nil =>
    cases run
    simp
  | cons a actions ih =>
    rcases exec_cons_some run with ⟨m, taken, rest⟩
    have later := ih (kept s a m start along.1 taken) (along.2 m taken) rest
    have here := lower s a m start along.1 taken
    rw [List.countP_cons]
    omega

/-- Where an invariant always leaves one more step, there are runs of every length. -/
theorem exists_run_of_length {I : σ → Prop} (progress : ∀ s, I s → ∃ a t, step s a = some t ∧ I t)
    (start : I s) (n : Nat) : ∃ actions t, actions.length = n ∧ exec step actions s = some t := by
  induction n generalizing s with
  | zero => exact ⟨[], s, rfl, rfl⟩
  | succ n ih =>
    rcases progress s start with ⟨a, m, taken, kept⟩
    rcases ih kept with ⟨actions, t, size, run⟩
    refine ⟨a :: actions, t, by rw [List.length_cons, size], ?_⟩
    rw [exec_cons, taken, Option.bind_some, run]

theorem not_ends {I : σ → Prop} (progress : ∀ s, I s → ∃ a t, step s a = some t ∧ I t) (start : I s) :
    ¬ Ends step s := by
  intro ends
  rcases ends with ⟨bound, all⟩
  rcases exists_run_of_length progress start (bound + 1) with ⟨actions, t, size, run⟩
  have short := all actions t run
  omega

inductive Inevitable (step : σ → α → Option σ) (done : σ → Prop) : σ → Prop where
  | now {s : σ} (here : done s) : Inevitable step done s
  | later {s : σ} (enabled : ∃ a t, step s a = some t)
      (next : ∀ a t, step s a = some t → Inevitable step done t) : Inevitable step done s

/-- What no step leads out of and has nothing done in it is never left. -/
theorem not_inevitable {done I : σ → Prop} (kept : ∀ s a t, I s → step s a = some t → I t)
    (outside : ∀ s, I s → ¬ done s) (start : I s) : ¬ Inevitable step done s := by
  intro inevitable
  induction inevitable with
  | now here => exact outside _ start here
  | later enabled next ih =>
    obtain ⟨a, t, taken⟩ := enabled
    exact ih a t taken (kept _ a t start taken)

/-- A run that can be reached is part of a longer one, so the end comes no later. -/
theorem Ends.of_exec {before : List α} {t : σ} (ends : Ends step s) (run : exec step before s = some t) :
    Ends step t := by
  rcases ends with ⟨bound, all⟩
  refine ⟨bound, ?_⟩
  intro actions u rest
  have whole := all (before ++ actions) u (by rw [exec_append, run, Option.bind_some, rest])
  rw [List.length_append] at whole
  omega

end Transition
