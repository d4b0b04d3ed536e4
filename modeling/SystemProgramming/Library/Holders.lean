import Mathlib.Data.List.Basic

namespace Holders

universe u v

variable {τ : Type u} {κ : Type v} {holds : τ → Option κ} {l : List τ} {i : Nat} {x y : τ} {k : κ}

def Held (holds : τ → Option κ) (l : List τ) (k : κ) : Prop := ∃ x ∈ l, holds x = some k

def Exclusive (holds : τ → Option κ) (l : List τ) : Prop :=
  ∀ (i j : Nat) (x y : τ) (k : κ), l[i]? = some x → l[j]? = some y → holds x = some k → holds y = some k → i = j

theorem exclusive_nil : Exclusive holds ([] : List τ) := by
  intro i j x y k at_
  simp at at_

theorem getElem?_set_cases {j : Nat} {z : τ} (at_ : (l.set i y)[j]? = some z) :
    (j = i ∧ z = y) ∨ (j ≠ i ∧ l[j]? = some z) := by
  by_cases same : i = j
  · subst same
    have inside : i < l.length := by
      by_contra outside
      rw [List.set_eq_of_length_le (by omega), List.getElem?_eq_none (by omega)] at at_
      cases at_
    rw [List.getElem?_set_self inside, Option.some.injEq] at at_
    exact .inl ⟨rfl, at_.symm⟩
  · rw [List.getElem?_set_ne same] at at_
    exact .inr ⟨fun equal => same equal.symm, at_⟩

theorem held_of_set (here : l[i]? = some x) (less : ∀ k, holds y = some k → holds x = some k)
    (held : Held holds (l.set i y) k) : Held holds l k := by
  rcases held with ⟨z, member, key⟩
  rcases List.mem_or_eq_of_mem_set member with old | rfl
  · exact ⟨z, old, key⟩
  · exact ⟨x, List.mem_of_getElem? here, less k key⟩

theorem Exclusive.set (exclusive : Exclusive holds l) (here : l[i]? = some x)
    (less : ∀ k, holds y = some k → holds x = some k) : Exclusive holds (l.set i y) := by
  intro j j' z z' k first second keyFirst keySecond
  rcases getElem?_set_cases first with ⟨rfl, rfl⟩ | ⟨-, before⟩ <;>
    rcases getElem?_set_cases second with ⟨rfl, rfl⟩ | ⟨-, after⟩
  · rfl
  · exact exclusive _ _ _ _ k here after (less k keyFirst) keySecond
  · exact exclusive _ _ _ _ k before here keyFirst (less k keySecond)
  · exact exclusive _ _ _ _ k before after keyFirst keySecond

theorem Exclusive.released (exclusive : Exclusive holds l) (here : l[i]? = some x)
    (held : holds x = some k) (free : holds y = none) : ¬ Held holds (l.set i y) k := by
  rintro ⟨z, member, key⟩
  rcases List.getElem?_of_mem member with ⟨j, at_⟩
  rcases getElem?_set_cases at_ with ⟨-, rfl⟩ | ⟨other, at_⟩
  · rw [free] at key
    cases key
  · exact other (exclusive _ _ _ _ k at_ here key held)

theorem held_concat : Held holds (l ++ [x]) k ↔ Held holds l k ∨ holds x = some k := by
  simp [Held, or_and_right, exists_or]

theorem Exclusive.concat (exclusive : Exclusive holds l)
    (new : ∀ k, holds x = some k → ¬ Held holds l k) : Exclusive holds (l ++ [x]) := by
  have cases_ : ∀ (j : Nat) z, (l ++ [x])[j]? = some z → l[j]? = some z ∨ (j = l.length ∧ z = x) := by
    intro j z at_
    by_cases inside : j < l.length
    · rw [List.getElem?_append_left inside] at at_
      exact .inl at_
    · rw [List.getElem?_append_right (by omega)] at at_
      have zero : j - l.length = 0 := by
        by_contra later
        rw [List.getElem?_eq_none (Nat.pos_of_ne_zero later)] at at_
        cases at_
      rw [zero, List.getElem?_cons_zero, Option.some.injEq] at at_
      exact .inr ⟨by omega, at_.symm⟩
  intro j j' z z' k first second keyFirst keySecond
  rcases cases_ j z first with old | ⟨rfl, rfl⟩ <;> rcases cases_ j' z' second with old' | ⟨rfl, rfl⟩
  · exact exclusive _ _ _ _ k old old' keyFirst keySecond
  · exact absurd ⟨z, List.mem_of_getElem? old, keyFirst⟩ (new k keySecond)
  · exact absurd ⟨z', List.mem_of_getElem? old', keySecond⟩ (new k keyFirst)
  · rfl

end Holders
