import Mathlib.Data.List.Basic
import Mathlib.Logic.Basic

namespace Transition

universe u v w x

variable {σ : Type u} {α : Type v} (step : σ → α → Option σ)

/-- Running a schedule from left to right; an action that is not enabled stops the run. -/
def exec : List α → σ → Option σ
  | [], s => some s
  | a :: actions, s => (step s a).bind (exec actions)

/-- Every action of the schedule meets `cond` in the state in which it is taken. -/
def Along (cond : σ → α → Prop) : List α → σ → Prop
  | [], _ => True
  | a :: actions, s => cond s a ∧ ∀ t, step s a = some t → Along cond actions t

instance Along.decide (cond : σ → α → Prop) [∀ s a, Decidable (cond s a)] :
    (actions : List α) → (s : σ) → Decidable (Along step cond actions s)
  | [], _ => isTrue trivial
  | a :: actions, s =>
    let _rest : Decidable (∀ t, step s a = some t → Along step cond actions t) :=
      match step s a with
      | none => isTrue (fun _ stuck => nomatch stuck)
      | some t =>
        match Along.decide cond actions t with
        | isTrue holds => isTrue (fun _ same => Option.some.inj same ▸ holds)
        | isFalse fails => isFalse (fun all => fails (all t rfl))
    inferInstanceAs (Decidable (_ ∧ _))

theorem along_and {cond other : σ → α → Prop} (actions : List α) (s : σ) :
    Along step (fun s a => cond s a ∧ other s a) actions s ↔
      Along step cond actions s ∧ Along step other actions s := by
  induction actions generalizing s with
  | nil => simp [Along]
  | cons a actions ih =>
    simp only [Along, ih]
    constructor
    · rintro ⟨⟨first, second⟩, rest⟩
      exact ⟨⟨first, fun t taken => (rest t taken).1⟩, second, fun t taken => (rest t taken).2⟩
    · rintro ⟨⟨first, before⟩, second, after⟩
      exact ⟨⟨first, second⟩, fun t taken => ⟨before t taken, after t taken⟩⟩

/-- What an observer of the steps has seen at the end of a schedule. -/
def trace {β : Type x} (observe : σ → α → List β) : List α → σ → List β
  | [], _ => []
  | a :: actions, s => observe s a ++ (step s a).elim [] (trace observe actions)

def Reaches (cond : σ → α → Prop) (s t : σ) : Prop :=
  ∃ actions, Along step cond actions s ∧ exec step actions s = some t

variable {step} {cond : σ → α → Prop} {s t r : σ}

@[simp] theorem exec_nil (s : σ) : exec step [] s = some s := rfl

@[simp] theorem exec_cons (a : α) (actions : List α) (s : σ) :
    exec step (a :: actions) s = (step s a).bind (exec step actions) := rfl

@[simp] theorem along_nil (s : σ) : Along step cond [] s := trivial

theorem along_true (actions : List α) (s : σ) : Along step (fun _ _ => True) actions s := by
  induction actions generalizing s with
  | nil => trivial
  | cons a actions ih => exact ⟨trivial, fun t _ => ih t⟩

theorem exec_cons_some {a : α} {actions : List α} (run : exec step (a :: actions) s = some t) :
    ∃ m, step s a = some m ∧ exec step actions m = some t := by
  rw [exec_cons] at run
  exact Option.bind_eq_some_iff.mp run

theorem exec_append (first second : List α) (s : σ) :
    exec step (first ++ second) s = (exec step first s).bind (exec step second) := by
  induction first generalizing s with
  | nil => rfl
  | cons a actions ih =>
    cases taken : step s a with
    | none => simp [taken]
    | some m => simp [taken, ih]

theorem along_append (first second : List α) (s : σ) :
    Along step cond (first ++ second) s ↔
      Along step cond first s ∧ ∀ m, exec step first s = some m → Along step cond second m := by
  induction first generalizing s with
  | nil => simp
  | cons a actions ih =>
    cases taken : step s a with
    | none => simp [Along, taken]
    | some m => simp [Along, taken, ih, and_assoc]

theorem along_concat {before : List α} (a : α) (run : exec step before s = some t) :
    Along step cond (before ++ [a]) s ↔ Along step cond before s ∧ cond t a := by
  rw [along_append, run]
  simp [Along]

theorem along_of_splits {actions : List α}
    (meets : ∀ before a after t, actions = before ++ a :: after → exec step before s = some t → cond t a) :
    Along step cond actions s := by
  induction actions generalizing s with
  | nil => trivial
  | cons a actions ih =>
    refine ⟨meets [] a actions s rfl rfl, fun m taken => ih ?_⟩
    intro before b after t same run
    refine meets (a :: before) b after t (by rw [same, List.cons_append]) ?_
    rw [exec_cons, taken, Option.bind_some, run]

/-- The induction on a schedule that all invariant arguments use: what each step preserves
    holds at the end of the run. -/
theorem exec_invariant {I : σ → Prop} (preserved : ∀ s a t, I s → cond s a → step s a = some t → I t)
    {actions : List α} (start : I s) (along : Along step cond actions s)
    (run : exec step actions s = some t) : I t := by
  induction actions generalizing s with
  | nil =>
    cases run
    exact start
  | cons a actions ih =>
    obtain ⟨m, taken, rest⟩ := exec_cons_some run
    exact ih (preserved s a m start along.1 taken) (along.2 m taken) rest

theorem trace_append {β : Type x} {observe : σ → α → List β} {first : List α} (second : List α)
    (run : exec step first s = some t) :
    trace step observe (first ++ second) s = trace step observe first s ++ trace step observe second t := by
  induction first generalizing s with
  | nil =>
    cases run
    rfl
  | cons a actions ih =>
    rcases exec_cons_some run with ⟨m, taken, rest⟩
    simp only [List.cons_append, trace, taken, Option.elim_some, ih rest, List.append_assoc]

theorem trace_concat {β : Type x} {observe : σ → α → List β} {before : List α} (a : α)
    (run : exec step before s = some t) :
    trace step observe (before ++ [a]) s = trace step observe before s ++ observe t a := by
  rw [trace_append [a] run, trace]
  cases step t a <;> simp [trace]

theorem exec_history_from {I : List α → σ → Prop} {start : σ}
    (preserved : ∀ before s a t, exec step before start = some s → I before s → cond s a →
      step s a = some t → I (before ++ [a]) t)
    {before actions : List α} (here : exec step before start = some s) (holds : I before s)
    (along : Along step cond actions s) (run : exec step actions s = some t) :
    I (before ++ actions) t := by
  induction actions generalizing before s with
  | nil =>
    cases run
    rwa [List.append_nil]
  | cons a actions ih =>
    rcases exec_cons_some run with ⟨m, taken, rest⟩
    have there : exec step (before ++ [a]) start = some m := by simp [exec_append, here, taken]
    have next := ih there (preserved before s a m here holds along.1 taken) (along.2 m taken) rest
    rwa [List.append_assoc] at next

/-- As `exec_invariant`, for what also depends on the part of the schedule already taken. -/
theorem exec_history {I : List α → σ → Prop}
    (preserved : ∀ before r a m, exec step before s = some r → I before r → cond r a →
      step r a = some m → I (before ++ [a]) m)
    {actions : List α} (start : I [] s) (along : Along step cond actions s)
    (run : exec step actions s = some t) : I actions t :=
  exec_history_from preserved rfl start along run

theorem exec_history_always {I : List α → σ → Prop}
    (preserved : ∀ before r a m, exec step before s = some r → I before r → step r a = some m →
      I (before ++ [a]) m)
    {actions : List α} (start : I [] s) (run : exec step actions s = some t) : I actions t :=
  exec_history (fun before r a m here holds _ taken => preserved before r a m here holds taken) start
    (along_true actions s) run

/-- As `exec_invariant`, for what also depends on what an observer has seen of the steps already taken. -/
theorem exec_trace {β : Type x} {observe : σ → α → List β} {I : List β → σ → Prop}
    (preserved : ∀ seen r a m, I seen r → cond r a → step r a = some m → I (seen ++ observe r a) m)
    {actions : List α} (start : I [] s) (along : Along step cond actions s)
    (run : exec step actions s = some t) : I (trace step observe actions s) t := by
  apply exec_history (I := fun before r => I (trace step observe before s) r) ?_ start along run
  intro before r a m here holds meets taken
  rw [trace_concat a here]
  exact preserved _ r a m holds meets taken

theorem exec_trace_always {β : Type x} {observe : σ → α → List β} {I : List β → σ → Prop}
    (preserved : ∀ seen r a m, I seen r → step r a = some m → I (seen ++ observe r a) m)
    {actions : List α} (start : I [] s) (run : exec step actions s = some t) :
    I (trace step observe actions s) t :=
  exec_trace (fun seen r a m holds _ taken => preserved seen r a m holds taken) start
    (along_true actions s) run

theorem Reaches.refl (s : σ) : Reaches step cond s s := ⟨[], trivial, rfl⟩

theorem Reaches.trans (first : Reaches step cond s r) (second : Reaches step cond r t) :
    Reaches step cond s t := by
  obtain ⟨before, alongBefore, runBefore⟩ := first
  obtain ⟨after, alongAfter, runAfter⟩ := second
  refine ⟨before ++ after, (along_append _ _ _).mpr ⟨alongBefore, ?_⟩, ?_⟩
  · intro m reached
    rw [runBefore] at reached
    cases reached
    exact alongAfter
  · rw [exec_append, runBefore]
    exact runAfter

theorem Reaches.single {a : α} (meets : cond s a) (taken : step s a = some t) :
    Reaches step cond s t := ⟨[a], ⟨meets, fun _ _ => trivial⟩, by simp [taken]⟩

theorem Reaches.tail {a : α} (reached : Reaches step cond s r) (meets : cond r a)
    (taken : step r a = some t) : Reaches step cond s t := reached.trans (.single meets taken)

theorem Reaches.invariant {I : σ → Prop} (reached : Reaches step cond s t) (start : I s)
    (preserved : ∀ s a t, I s → cond s a → step s a = some t → I t) : I t := by
  obtain ⟨actions, along, run⟩ := reached
  exact exec_invariant preserved start along run

theorem Along.weaken {other : σ → α → Prop} (weaker : ∀ s a, cond s a → other s a)
    {actions : List α} (along : Along step cond actions s) : Along step other actions s := by
  induction actions generalizing s with
  | nil => trivial
  | cons a actions ih => exact ⟨weaker _ _ along.1, fun t taken => ih (along.2 t taken)⟩

theorem Reaches.weaken {other : σ → α → Prop} (weaker : ∀ s a, cond s a → other s a)
    (reached : Reaches step cond s t) : Reaches step other s t := by
  obtain ⟨actions, along, run⟩ := reached
  exact ⟨actions, along.weaken weaker, run⟩

/-- A property that each step keeps exactly when it meets a condition holds at the end of a run
    exactly when it holds at its start and every step meets the condition. -/
theorem along_iff_of_along {I P : σ → Prop} {meets : σ → α → Prop}
    (kept : ∀ s a t, I s → meets s a → step s a = some t → I t)
    (tracked : ∀ s a t, I s → meets s a → step s a = some t → (P t ↔ P s ∧ cond s a))
    {actions : List α} (start : I s) (along : Along step meets actions s)
    (run : exec step actions s = some t) : P t ↔ P s ∧ Along step cond actions s := by
  induction actions generalizing s with
  | nil =>
    cases run
    simp
  | cons a actions ih =>
    rcases exec_cons_some run with ⟨m, taken, rest⟩
    rcases along with ⟨first, later⟩
    rw [ih (kept s a m start first taken) (later m taken) rest, tracked s a m start first taken]
    simp [Along, taken, and_assoc]

theorem along_iff {I P : σ → Prop} (kept : ∀ s a t, I s → step s a = some t → I t)
    (tracked : ∀ s a t, I s → step s a = some t → (P t ↔ P s ∧ cond s a)) {actions : List α}
    (start : I s) (run : exec step actions s = some t) : P t ↔ P s ∧ Along step cond actions s :=
  along_iff_of_along (fun s a t holds _ => kept s a t holds) (fun s a t holds _ => tracked s a t holds)
    start (along_true actions s) run

/-- Where every state that is not `done` has a step that lowers a measure, some run gets done. -/
theorem exists_reaches {I done : σ → Prop} (measure : σ → Nat)
    (progress : ∀ s, I s → ¬ done s →
      ∃ a t, cond s a ∧ step s a = some t ∧ I t ∧ measure t < measure s)
    (start : I s) : ∃ t, Reaches step cond s t ∧ done t := by
  induction bound : measure s using Nat.strongRecOn generalizing s with
  | _ n ih =>
    by_cases finished : done s
    · exact ⟨s, .refl s, finished⟩
    · rcases progress s start finished with ⟨a, m, meets, taken, kept, less⟩
      rcases ih (measure m) (by omega) kept rfl with ⟨t, reached, finished⟩
      exact ⟨t, Reaches.trans (.single meets taken) reached, finished⟩

section Simulation

variable {τ : Type w} {β : Type x} {abstractStep : τ → β → Option τ} {allowed : τ → β → Prop}

/-- A forward simulation: each concrete step is matched by zero or more abstract steps. -/
theorem Reaches.simulate {R : σ → τ → Prop} (reached : Reaches step cond s t) {u : τ} (related : R s u)
    (matched : ∀ s a t u, R s u → cond s a → step s a = some t →
      ∃ v, Reaches abstractStep allowed u v ∧ R t v) :
    ∃ v, Reaches abstractStep allowed u v ∧ R t v := by
  have whole : ∃ v, Reaches abstractStep allowed u v ∧ R t v := by
    apply Reaches.invariant (I := fun s => ∃ v, Reaches abstractStep allowed u v ∧ R s v) reached
      ⟨u, .refl u, related⟩
    rintro s a t ⟨v, before, held⟩ meets taken
    obtain ⟨w, after, next⟩ := matched s a t v held meets taken
    exact ⟨w, before.trans after, next⟩
  exact whole

/-- A forward simulation that also matches, step by step, a condition on the concrete steps with
    one on the abstract steps. -/
theorem exec_simulate {R : σ → τ → Prop} {u : τ} (related : R s u)
    (matched : ∀ s a t u, R s u → step s a = some t → ∃ actions v,
      exec abstractStep actions u = some v ∧ R t v ∧
        (Along abstractStep allowed actions u ↔ cond s a))
    {actions : List α} (run : exec step actions s = some t) :
    ∃ abstractActions v, exec abstractStep abstractActions u = some v ∧ R t v ∧
      (Along abstractStep allowed abstractActions u ↔ Along step cond actions s) := by
  induction actions generalizing s u with
  | nil =>
    cases run
    exact ⟨[], u, rfl, related, Iff.rfl⟩
  | cons a actions ih =>
    rcases exec_cons_some run with ⟨m, taken, rest⟩
    rcases matched s a m u related taken with ⟨first, v, runFirst, middle, condFirst⟩
    rcases ih middle rest with ⟨second, w, runSecond, final, condSecond⟩
    refine ⟨first ++ second, w, ?_, final, ?_⟩
    · rw [exec_append, runFirst]
      exact runSecond
    · rw [along_append, condFirst]
      simp [Along, taken, runFirst, condSecond]

end Simulation

end Transition
