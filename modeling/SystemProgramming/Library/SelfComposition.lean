import SystemProgramming.Library.Transition

namespace Transition

universe u v

variable {σ : Type u} {α : Type v} {step : σ → α → Option σ} {cond : σ → α → Prop}

def lockstep (step : σ → α → Option σ) (p : σ × σ) (a : α) : Option (σ × σ) :=
  (step p.1 a).bind fun s => (step p.2 a).map fun t => (s, t)

theorem lockstep_eq_some {p q : σ × σ} {a : α} :
    lockstep step p a = some q ↔ step p.1 a = some q.1 ∧ step p.2 a = some q.2 := by
  unfold lockstep
  cases step p.1 a with
  | none => simp
  | some s =>
    cases step p.2 a with
    | none => simp
    | some t => simp [Prod.ext_iff]

theorem exec_lockstep {actions : List α} {p q : σ × σ} :
    exec (lockstep step) actions p = some q ↔
      exec step actions p.1 = some q.1 ∧ exec step actions p.2 = some q.2 := by
  induction actions generalizing p with
  | nil => simp [Prod.ext_iff]
  | cons a actions ih =>
    simp only [exec_cons, Option.bind_eq_some_iff, lockstep_eq_some, Prod.exists, ih]
    constructor
    · intro both
      rcases both with ⟨s, t, ⟨first, second⟩, restFirst, restSecond⟩
      exact ⟨⟨s, first, restFirst⟩, t, second, restSecond⟩
    · intro each
      rcases each with ⟨⟨s, first, restFirst⟩, t, second, restSecond⟩
      exact ⟨s, t, ⟨first, second⟩, restFirst, restSecond⟩

theorem along_lockstep {actions : List α} {p : σ × σ} {t : σ}
    (other : exec step actions p.2 = some t) :
    Along (lockstep step) (fun p a => cond p.1 a) actions p ↔ Along step cond actions p.1 := by
  induction actions generalizing p with
  | nil => exact Iff.rfl
  | cons a actions ih =>
    rcases exec_cons_some other with ⟨m, taken, rest⟩
    simp only [Along, lockstep_eq_some, taken]
    constructor
    · intro whole
      refine ⟨whole.1, ?_⟩
      intro s first
      exact (ih (p := (s, m)) rest).mp (whole.2 (s, m) ⟨first, rfl⟩)
    · intro whole
      refine ⟨whole.1, ?_⟩
      intro q moved
      cases moved.2
      exact (ih rest).mpr (whole.2 q.1 moved.1)

/-- Where a relation lets one run take the steps of the other, it holds at their ends. -/
theorem exec_matched {R : σ → σ → Prop}
    (matched : ∀ s a t u, R s u → step s a = some t → ∃ v, step u a = some v ∧ R t v)
    {actions : List α} {s t u : σ} (related : R s u) (run : exec step actions s = some t) :
    ∃ v, exec step actions u = some v ∧ R t v := by
  induction actions generalizing s u with
  | nil =>
    cases run
    exact ⟨u, rfl, related⟩
  | cons a actions ih =>
    rcases exec_cons_some run with ⟨m, taken, rest⟩
    rcases matched s a m u related taken with ⟨n, same, next⟩
    rcases ih next rest with ⟨v, after, final⟩
    exact ⟨v, by rw [exec_cons, same]; exact after, final⟩

end Transition
