import Mathlib.Data.List.Basic

namespace Weights

universe u

variable {α : Type u} (w : α → Nat)

def total : List α → Nat
  | [] => 0
  | a :: l => w a + total l

variable {w} {l : List α} {a b : α} {i : Nat}

theorem total_append (first second : List α) :
    total w (first ++ second) = total w first + total w second := by
  induction first with
  | nil =>
    rw [List.nil_append, total]
    omega
  | cons a first ih =>
    rw [List.cons_append, total, total, ih]
    omega

theorem total_set (here : l[i]? = some a) : total w (l.set i b) + w a = total w l + w b := by
  induction l generalizing i with
  | nil => cases here
  | cons c l ih =>
    cases i with
    | zero =>
      rw [List.getElem?_cons_zero, Option.some.injEq] at here
      rw [List.set_cons_zero, total, total, here]
      omega
    | succ i =>
      rw [List.getElem?_cons_succ] at here
      rw [List.set_cons_succ, total, total]
      have rest := ih here
      omega

theorem total_set_of_same (here : l[i]? = some a) (same : w b = w a) : total w (l.set i b) = total w l := by
  have exchanged := total_set (w := w) (b := b) here
  omega

theorem total_const {c : Nat} (all : ∀ a ∈ l, w a = c) : total w l = l.length * c := by
  induction l with
  | nil => rw [total, List.length_nil, Nat.zero_mul]
  | cons a l ih =>
    have first := all a List.mem_cons_self
    have rest := ih fun b member => all b (List.mem_cons_of_mem a member)
    rw [total, List.length_cons, Nat.succ_mul, first, rest]
    omega

theorem total_eq_count {β : Type*} [DecidableEq β] {f : α → β} {b : β}
    (each : ∀ a ∈ l, w a = if f a = b then 1 else 0) : total w l = (l.map f).count b := by
  induction l with
  | nil => rfl
  | cons a l ih =>
    have first := each a List.mem_cons_self
    have rest := ih fun c member => each c (List.mem_cons_of_mem a member)
    rw [total, first, rest, List.map_cons, List.count_cons, Nat.add_comm]
    simp only [beq_iff_eq]

/-- Where one element of a list gets lighter and none heavier, so does the list. -/
theorem total_lower {v : α → Nat} {d : Nat} (member : a ∈ l) (less : v a + d ≤ w a)
    (rest : ∀ b ∈ l, v b ≤ w b) : total v l + d ≤ total w l := by
  have all : ∀ l : List α, (∀ b ∈ l, v b ≤ w b) → total v l ≤ total w l := by
    intro l rest
    induction l with
    | nil => exact Nat.le_refl _
    | cons b l ih =>
      have first := rest b List.mem_cons_self
      have others := ih fun c member => rest c (List.mem_cons_of_mem b member)
      rw [total, total]
      omega
  induction l with
  | nil => cases member
  | cons b l ih =>
    have others : ∀ c ∈ l, v c ≤ w c := fun c member => rest c (List.mem_cons_of_mem b member)
    rw [total, total]
    rcases List.mem_cons.mp member with rfl | later
    · have tail := all l others
      omega
    · have first := rest b List.mem_cons_self
      have tail := ih later others
      omega

end Weights
