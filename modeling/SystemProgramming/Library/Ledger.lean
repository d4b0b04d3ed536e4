import Mathlib.Order.CompletePartialOrder
import Mathlib.Order.Interval.Set.Disjoint

structure Ledger (α : Type*) [LinearOrder α] where
  blocks : List (Set α)
  bound : α
  below : ∀ b ∈ blocks, b ⊆ Set.Iic bound
  disjoint : blocks.Pairwise Disjoint

namespace Ledger

variable {α : Type*} [LinearOrder α]

def empty (bound : α) : Ledger α := ⟨[], bound, nofun, .nil⟩

theorem grant_disjoint (l : Ledger α) {lo : α} (hi : α) (above : l.bound ≤ lo) :
    (l.blocks ++ [Set.Ioc lo hi]).Pairwise Disjoint := by
  rw [List.pairwise_append]
  refine ⟨l.disjoint, List.pairwise_singleton _ _, ?_⟩
  intro b member c new
  rw [List.mem_singleton] at new
  rw [new]
  exact (Set.Iic_disjoint_Ioc above).mono_left (l.below b member)

def grant (l : Ledger α) (lo hi : α) (above : l.bound ≤ lo) (upward : lo ≤ hi) : Ledger α where
  blocks := l.blocks ++ [Set.Ioc lo hi]
  bound := hi
  below := by
    intro b member
    rw [List.mem_append, List.mem_singleton] at member
    rcases member with old | rfl
    · exact (l.below b old).trans (Set.Iic_subset_Iic.mpr (above.trans upward))
    · exact Set.Ioc_subset_Iic_self
  disjoint := l.grant_disjoint hi above

end Ledger
