import Mathlib.Logic.Function.Basic

namespace Parties

variable {ι α β : Type*} [DecidableEq ι]

/-- What held of every party holds after the move of one of them, if it holds of that one. -/
theorem forall_update₂ {P : ι → α → β → Prop} {f : ι → α} {g : ι → β} {i : ι} {a : α} {b : β}
    (all : ∀ j, P j (f j) (g j)) (moved : P i a b) (j : ι) :
    P j (Function.update f i a j) (Function.update g i b j) := by
  by_cases same : j = i
  · subst same
    rwa [Function.update_self, Function.update_self]
  · rw [Function.update_of_ne same, Function.update_of_ne same]
    exact all j

theorem forall_update {P : ι → α → Prop} {f : ι → α} {i : ι} {a : α} (all : ∀ j, P j (f j))
    (moved : P i a) (j : ι) : P j (Function.update f i a j) :=
  (Function.forall_update_iff f P).mpr ⟨moved, fun j _ => all j⟩ j

theorem update_rel {R : α → α → Prop} {f : ι → α} {i : ι} {a : α} (refl : ∀ x, R x x)
    (moved : R (f i) a) (j : ι) : R (f j) (Function.update f i a j) :=
  forall_update (P := fun j x => R (f j) x) (fun j => refl (f j)) moved j

theorem update_some {f : ι → Option α} {i j : ι} {a b : α}
    (present : Function.update f i (some a) j = some b) : (j = i ∧ b = a) ∨ (j ≠ i ∧ f j = some b) := by
  by_cases same : j = i
  · subst same
    rw [Function.update_self, Option.some.injEq] at present
    exact .inl ⟨rfl, present.symm⟩
  · rw [Function.update_of_ne same] at present
    exact .inr ⟨same, present⟩

theorem exists_update_some {f : ι → Option α} {i : ι} {a : α} {P : α → Prop} :
    (∃ j b, Function.update f i (some a) j = some b ∧ P b) ↔
      P a ∨ ∃ j b, j ≠ i ∧ f j = some b ∧ P b := by
  constructor
  · rintro ⟨j, b, present, holds⟩
    rcases update_some present with ⟨-, rfl⟩ | ⟨other, old⟩
    · exact .inl holds
    · exact .inr ⟨j, b, other, old, holds⟩
  · rintro (holds | ⟨j, b, other, old, holds⟩)
    · exact ⟨i, a, Function.update_self i (some a) f, holds⟩
    · exact ⟨j, b, by rw [Function.update_of_ne other, old], holds⟩

end Parties
