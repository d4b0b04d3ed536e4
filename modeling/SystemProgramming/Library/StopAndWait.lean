import Mathlib.Data.List.Perm.Subperm
import Mathlib.Logic.Function.Basic

namespace StopAndWait

variable {ι ρ : Type*} [DecidableEq ι]

def Matched (pending : List (ι × ρ)) (awaits : ι → Option ρ) : Prop :=
  ∀ i, (pending.filter (·.1 = i)).Subperm ((awaits i).toList.map (i, ·))

variable {pending : List (ι × ρ)} {awaits : ι → Option ρ} {i : ι} {r : ρ}

theorem matched_nil (awaits : ι → Option ρ) : Matched ([] : List (ι × ρ)) awaits :=
  fun _ => List.nil_subperm

theorem Matched.carry {other : List (ι × ρ)} (matched : Matched pending awaits)
    (moved : other.Subperm pending) : Matched other awaits :=
  fun i => (moved.filter _).trans (matched i)

/-- A caller that awaits nothing has nothing under way, so it may await whatever it likes. -/
theorem Matched.await (matched : Matched pending awaits) (idle : awaits i = none) (next : Option ρ) :
    Matched pending (Function.update awaits i next) := by
  intro j
  by_cases same : j = i
  · subst same
    have before := matched j
    rw [idle] at before
    exact before.trans List.nil_subperm
  · rw [Function.update_of_ne same]
    exact matched j

theorem Matched.call (matched : Matched pending awaits) (idle : awaits i = none) (r : ρ) :
    Matched ((i, r) :: pending) (Function.update awaits i (some r)) := by
  intro j
  by_cases same : j = i
  · subst same
    have before := matched j
    rw [idle] at before
    rw [List.filter_cons_of_pos (by simp), Function.update_self]
    exact (List.subperm_cons _).mpr before
  · rw [Function.update_of_ne same, List.filter_cons_of_neg]
    · exact matched j
    · simpa using fun equal => same equal.symm

theorem Matched.awaited (matched : Matched pending awaits) (arrived : (i, r) ∈ pending) :
    awaits i = some r := by
  have here : (i, r) ∈ pending.filter (·.1 = i) := by
    simpa using arrived
  have expected := (matched i).subset here
  simpa using expected

theorem Matched.answer {rest : List (ι × ρ)} (matched : Matched pending awaits)
    (arrived : pending.Perm ((i, r) :: rest)) : Matched rest (Function.update awaits i none) := by
  have awaited := matched.awaited (arrived.mem_iff.mpr List.mem_cons_self)
  intro j
  have before := (arrived.filter (·.1 = j)).symm.subperm.trans (matched j)
  by_cases same : j = i
  · subst same
    rw [List.filter_cons_of_pos (by simp), awaited] at before
    rw [Function.update_self]
    exact (List.subperm_cons _).mp before
  · rw [List.filter_cons_of_neg] at before
    · rw [Function.update_of_ne same]
      exact before
    · simpa using fun equal => same equal.symm

end StopAndWait
