import Mathlib.Data.Nat.Digits.Lemmas
import SystemProgramming.Library.CNumber

namespace CFormat

open CNumber

abbrev Text := List (BitVec 8)

def ascii (s : String) : Text := s.toList.map fun c => BitVec.ofNat 8 c.toNat

def digitChar (d : Nat) : BitVec 8 := BitVec.ofNat 8 (48 + d)

def decimalNat (n : Nat) : Text := if n = 0 then [digitChar 0] else (Nat.digits 10 n).reverse.map digitChar

def decimal (x : Int) : Text := (if x < 0 then [45] else []) ++ decimalNat x.natAbs

def format : Text → List Int → Text
  | 37 :: 108 :: 100 :: template, x :: values => decimal x ++ format template values
  | b :: template, values => b :: format template values
  | [], _ => []

theorem digit_digitChar {d : Nat} (small : d < 10) : digit (digitChar d) = d := by
  have all : ∀ d : Fin 10, digit (digitChar d) = d := by decide
  exact all ⟨d, small⟩

theorem isSpace_digitChar {d : Nat} (small : d < 10) : isSpace (digitChar d) = false := by
  have all : ∀ d : Fin 10, isSpace (digitChar d) = false := by decide
  exact all ⟨d, small⟩

theorem digitChar_ne_sign {d : Nat} (small : d < 10) : digitChar d ≠ 45 ∧ digitChar d ≠ 43 := by
  have all : ∀ d : Fin 10, digitChar d ≠ 45 ∧ digitChar d ≠ 43 := by decide
  exact all ⟨d, small⟩

theorem digitChar_ne_zero {d : Nat} (small : d < 10) : digitChar d ≠ 0 := by
  have all : ∀ d : Fin 10, digitChar d ≠ 0 := by decide
  exact all ⟨d, small⟩

/-- The digits of a number, the first one first; there is always one. -/
theorem exists_digits (n : Nat) : ∃ ds : List Nat, ds ≠ [] ∧ (∀ d ∈ ds, d < 10) ∧
    decimalNat n = ds.map digitChar ∧ Nat.ofDigits 10 ds.reverse = n := by
  by_cases zero : n = 0
  · refine ⟨[0], by simp, by simp, by simp [decimalNat, zero], ?_⟩
    rw [zero, List.reverse_singleton, Nat.ofDigits_singleton]
  · refine ⟨(Nat.digits 10 n).reverse, ?_, ?_, ?_, ?_⟩
    · rw [ne_eq, List.reverse_eq_nil_iff, Nat.digits_eq_nil_iff_eq_zero]
      exact zero
    · intro d member
      exact Nat.digits_lt_base (by decide) (List.mem_reverse.mp member)
    · rw [decimalNat, if_neg zero]
    · rw [List.reverse_reverse, Nat.ofDigits_digits]

theorem digits_map {ds : List Nat} (small : ∀ d ∈ ds, d < 10) {rest : Text}
    (ends : ∀ b ∈ rest.head?, 10 ≤ digit b) : digits 10 (ds.map digitChar ++ rest) = ds := by
  induction ds with
  | nil =>
    cases rest with
    | nil => rfl
    | cons b rest =>
      have larger : 10 ≤ digit b := ends b rfl
      rw [List.map_nil, List.nil_append, digits, if_neg (by omega)]
  | cons d ds ih =>
    have first := small d List.mem_cons_self
    rw [List.map_cons, List.cons_append, digits, digit_digitChar first, if_pos first,
      ih fun d member => small d (List.mem_cons_of_mem _ member)]

/-- A printed number starts with its sign or with a digit, and is never taken for space. -/
theorem sign_decimal (x : Int) (rest : Text) :
    sign ((decimal x ++ rest).dropWhile isSpace) = (decide (x < 0), decimalNat x.natAbs ++ rest) := by
  obtain ⟨ds, nonempty, small, shown, -⟩ := exists_digits x.natAbs
  by_cases negative : x < 0
  · rw [decimal, if_pos negative, List.singleton_append, List.cons_append,
      List.dropWhile_cons_of_neg (by decide), decide_eq_true negative]
    rfl
  · cases ds with
    | nil => exact absurd rfl nonempty
    | cons d ds =>
      have first := small d List.mem_cons_self
      have other := digitChar_ne_sign first
      rw [decimal, if_neg negative, List.nil_append, shown, List.map_cons, List.cons_append,
        List.dropWhile_cons_of_neg (by simp [isSpace_digitChar first]), decide_eq_false negative]
      unfold sign
      split
      · rename_i same
        exact absurd (List.cons.inj same).1 other.1
      · rename_i same
        exact absurd (List.cons.inj same).1 other.2
      · rfl

/-- What is printed of a `long` is read back. -/
theorem scan_decimal {x : Int} (low : -2 ^ 63 ≤ x) (high : x < 2 ^ 63) {rest : Text}
    (ends : ∀ b ∈ rest.head?, 10 ≤ digit b) : scan 10 (decimal x ++ rest) = some x := by
  obtain ⟨ds, nonempty, small, shown, value⟩ := exists_digits x.natAbs
  have read : digits 10 (decimalNat x.natAbs ++ rest) = ds := by rw [shown, digits_map small ends]
  rw [scan, sign_decimal]
  dsimp only
  rw [if_neg (by decide), read]
  cases ds with
  | nil => exact absurd rfl nonempty
  | cons d ds =>
    dsimp only
    rw [value, Option.some_inj]
    unfold saturate
    by_cases negative : x < 0
    · rw [decide_eq_true negative, if_pos rfl]
      omega
    · rw [decide_eq_false negative, if_neg (by decide)]
      omega

theorem behind_decimal (x : Int) {rest : Text} (ends : ∀ b ∈ rest.head?, 10 ≤ digit b) :
    behind (decimal x ++ rest) = rest := by
  obtain ⟨ds, -, small, shown, -⟩ := exists_digits x.natAbs
  have digits : ∀ b ∈ ds.map digitChar, decide (digit b < 10) = true := by
    intro b member
    obtain ⟨d, inside, rfl⟩ := List.mem_map.mp member
    rw [digit_digitChar (small d inside)]
    exact decide_eq_true (small d inside)
  rw [behind, sign_decimal, shown, List.dropWhile_append_of_pos digits]
  cases rest with
  | nil => rfl
  | cons b rest =>
    have larger : 10 ≤ digit b := ends b rfl
    exact List.dropWhile_cons_of_neg (by rw [decide_eq_true_eq]; omega)

theorem decimal_injective {x y : Int} (lowX : -2 ^ 63 ≤ x) (highX : x < 2 ^ 63) (lowY : -2 ^ 63 ≤ y)
    (highY : y < 2 ^ 63) (same : decimal x = decimal y) : x = y := by
  have readX : scan 10 (decimal x ++ []) = some x := scan_decimal lowX highX nofun
  have readY : scan 10 (decimal y ++ []) = some y := scan_decimal lowY highY nofun
  rw [same, readY] at readX
  exact (Option.some.inj readX).symm

theorem nul_not_mem_decimal (x : Int) : (0 : BitVec 8) ∉ decimal x := by
  obtain ⟨ds, -, small, shown, -⟩ := exists_digits x.natAbs
  intro member
  rw [decimal, shown] at member
  rcases List.mem_append.mp member with minus | digit
  · split at minus
    · exact absurd (List.mem_singleton.mp minus) (by decide)
    · cases minus
  · obtain ⟨d, inside, zero⟩ := List.mem_map.mp digit
    exact digitChar_ne_zero (small d inside) zero

theorem length_decimalNat_le {n k : Nat} (some_ : 0 < k) (bound : n < 10 ^ k) : (decimalNat n).length ≤ k := by
  unfold decimalNat
  split
  · exact some_
  · rw [List.length_map, List.length_reverse, Nat.digits_length_le_iff (by decide)]
    exact bound

theorem length_decimal_le {x : Int} (low : -2 ^ 63 ≤ x) (high : x < 2 ^ 63) : (decimal x).length ≤ 20 := by
  have digits : (decimalNat x.natAbs).length ≤ 19 := length_decimalNat_le (by decide) (by omega)
  unfold decimal
  rw [List.length_append]
  split
  · rw [List.length_singleton]
    omega
  · rw [List.length_nil]
    omega

end CFormat
