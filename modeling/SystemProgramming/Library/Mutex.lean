import Mathlib.Logic.Function.Basic
import Mathlib.Tactic.Common

namespace Mutex

variable {ι π : Type*} {critical : π → Prop} {owner : Option ι} {place : ι → π} {i j : ι}

def Guards (critical : π → Prop) (owner : Option ι) (place : ι → π) : Prop :=
  ∀ i, critical (place i) ↔ owner = some i

theorem Guards.exclusive (guards : Guards critical owner place) (first : critical (place i))
    (second : critical (place j)) : i = j := by
  have here := (guards i).mp first
  rw [(guards j).mp second] at here
  exact (Option.some.inj here).symm

variable [DecidableEq ι]

/-- A party moves without crossing the border of its critical section. -/
theorem Guards.keep {p : π} (guards : Guards critical owner place)
    (same : critical p ↔ critical (place i)) : Guards critical owner (Function.update place i p) := by
  intro j
  by_cases moved : j = i
  · subst moved
    rw [Function.update_self, same]
    exact guards j
  · rw [Function.update_of_ne moved]
    exact guards j

theorem Guards.acquire {p : π} (guards : Guards critical owner place) (free : owner = none)
    (inside : critical p) : Guards critical (some i) (Function.update place i p) := by
  intro j
  by_cases moved : j = i
  · subst moved
    rw [Function.update_self]
    exact iff_of_true inside rfl
  · rw [Function.update_of_ne moved, guards j, free]
    exact iff_of_false (fun same => nomatch same) (fun same => moved (Option.some.inj same).symm)

theorem Guards.release {p : π} (guards : Guards critical owner place) (held : critical (place i))
    (outside : ¬ critical p) : Guards critical none (Function.update place i p) := by
  intro j
  by_cases moved : j = i
  · subst moved
    rw [Function.update_self]
    exact iff_of_false outside (fun same => nomatch same)
  · rw [Function.update_of_ne moved]
    exact iff_of_false (fun other => moved (guards.exclusive other held)) (fun same => nomatch same)

end Mutex
