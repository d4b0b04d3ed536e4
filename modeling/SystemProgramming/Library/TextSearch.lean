import Mathlib.Data.List.Infix

namespace TextSearch

universe u

variable {α : Type u}

section IndexOf

variable [DecidableEq α]

def indexOf (sub : List α) : List α → Option Nat
  | [] => if sub.isEmpty then some 0 else none
  | a :: text => if sub.isPrefixOf (a :: text) then some 0 else (indexOf sub text).map (· + 1)

theorem indexOf_isSome (sub text : List α) : (indexOf sub text).isSome = true ↔ sub <:+: text := by
  induction text with
  | nil =>
    rw [indexOf, List.infix_nil, ← List.isEmpty_iff]
    split <;> simp [*]
  | cons a text ih =>
    rw [indexOf, List.infix_cons_iff, ← ih, ← List.isPrefixOf_iff_prefix]
    split
    · simp [*]
    · rename_i elsewhere
      rw [Option.isSome_map, or_iff_right elsewhere]

theorem indexOf_eq_zero (sub text : List α) : indexOf sub text = some 0 ↔ sub <+: text := by
  cases text with
  | nil =>
    rw [indexOf, List.prefix_nil, ← List.isEmpty_iff]
    split <;> simp [*]
  | cons a text =>
    rw [indexOf, ← List.isPrefixOf_iff_prefix]
    split
    · simp [*]
    · rename_i elsewhere
      refine iff_of_false ?_ elsewhere
      cases indexOf sub text <;> simp

def find (sub text : List α) : Int := (indexOf sub text).elim (-1) (fun i => i)

theorem find_pos (sub text : List α) : 0 < find sub text ↔ sub <:+: text ∧ ¬ sub <+: text := by
  rw [← indexOf_isSome, ← indexOf_eq_zero, find]
  cases indexOf sub text with
  | none => simp
  | some i =>
    simp only [Option.elim_some, Option.isSome_some, true_and, Option.some.injEq]
    omega

end IndexOf

section Scan

variable (width : Nat) (ok : List α → Bool)

def scan : Nat → List α → List (List α)
  | _, [] => []
  | skip + 1, _ :: text => scan skip text
  | 0, a :: text =>
    if ok ((a :: text).take width) then (a :: text).take width :: scan (width - 1) text
    else scan 0 text

variable {width ok}

structure First (width : Nat) (ok : List α → Bool) (before window after : List α) : Prop where
  here : ok window = true
  earlier : ∀ k < before.length, ok (((before ++ window ++ after).drop k).take width) = false

theorem First.tail {a : α} {before window after : List α} (first : First width ok (a :: before) window after) :
    ok ((a :: (before ++ window ++ after)).take width) = false ∧ First width ok before window after := by
  refine ⟨first.earlier 0 (Nat.zero_lt_succ _), first.here, ?_⟩
  intro k inside
  exact first.earlier (k + 1) (Nat.succ_lt_succ inside)

variable (sized : ∀ window, ok window = true → window.length = width) (positive : 0 < width)
include sized positive

theorem head_scan {before window after : List α} (first : First width ok before window after) :
    (scan width ok 0 (before ++ window ++ after)).head? = some window := by
  induction before with
  | nil =>
    have size := sized window first.here
    cases window with
    | nil =>
      rw [List.length_nil] at size
      omega
    | cons a window =>
      have whole : (a :: (window ++ after)).take width = a :: window := List.take_left' size
      rw [List.nil_append, List.cons_append, scan, whole, if_pos first.here]
      rfl
  | cons a before ih =>
    rcases first.tail with ⟨none_here, rest⟩
    rw [List.cons_append, List.cons_append, scan, none_here]
    exact ih rest

theorem exists_first {text window : List α} (matching : ok window = true) (inside : window <:+: text) :
    ∃ before first after, text = before ++ first ++ after ∧ First width ok before first after := by
  induction text with
  | nil =>
    have size := sized window matching
    rw [List.infix_nil.mp inside, List.length_nil] at size
    omega
  | cons a text ih =>
    by_cases here : ok ((a :: text).take width) = true
    · refine ⟨[], (a :: text).take width, (a :: text).drop width, ?_, here, ?_⟩
      · rw [List.nil_append, List.take_append_drop]
      · intro k none_before
        cases none_before
    · rcases List.infix_cons_iff.mp inside with front | later
      · rw [List.prefix_iff_eq_take, sized window matching] at front
        rw [← front] at here
        exact absurd matching here
      · rcases ih later with ⟨before, first, after, rfl, leftmost⟩
        refine ⟨a :: before, first, after, rfl, leftmost.here, ?_⟩
        intro k among
        cases k with
        | zero => exact (Bool.not_eq_true _).mp here
        | succ k => exact leftmost.earlier k (Nat.lt_of_succ_lt_succ among)

end Scan

end TextSearch
