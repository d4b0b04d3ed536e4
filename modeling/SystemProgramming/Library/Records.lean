import Mathlib.Data.List.Infix
import Mathlib.Tactic.Common

namespace Records

universe u v

structure Codec (ρ : Type u) (β : Type v) where
  width : Nat
  encode : ρ → List β
  decode : List β → ρ
  width_pos : 0 < width
  length_encode : ∀ r, (encode r).length = width
  decode_encode : ∀ r rest, decode (encode r ++ rest) = r

namespace Codec

variable {ρ : Type u} {β : Type v} (c : Codec ρ β)

def frames (rs : List ρ) : List β := rs.flatMap c.encode

@[simp] theorem frames_nil : c.frames [] = [] := rfl

@[simp] theorem frames_cons (r : ρ) (rs : List ρ) : c.frames (r :: rs) = c.encode r ++ c.frames rs :=
  List.flatMap_cons

theorem frames_concat (rs : List ρ) (r : ρ) : c.frames (rs ++ [r]) = c.frames rs ++ c.encode r := by
  simp [frames]

theorem take_frames (r : ρ) (rs : List ρ) : (c.frames (r :: rs)).take c.width = c.encode r := by
  rw [frames_cons, List.take_left' (c.length_encode r)]

theorem drop_frames (r : ρ) (rs : List ρ) : (c.frames (r :: rs)).drop c.width = c.frames rs := by
  rw [frames_cons, List.drop_left' (c.length_encode r)]

theorem length_frames (rs : List ρ) : (c.frames rs).length = rs.length * c.width := by
  induction rs with
  | nil => simp
  | cons r rs ih =>
    rw [frames_cons, List.length_append, c.length_encode, ih, List.length_cons, Nat.succ_mul, Nat.add_comm]

theorem read_whole {rs : List ρ} {n : Nat} (taken : n = min c.width (c.frames rs).length)
    (positive : 0 < n) : n = c.width ∧ ∃ r rest, rs = r :: rest := by
  cases rs with
  | nil =>
    rw [frames_nil, List.length_nil] at taken
    omega
  | cons r rest =>
    rw [frames_cons, List.length_append, c.length_encode] at taken
    exact ⟨by omega, r, rest, rfl⟩

end Codec

def word32 : Codec (BitVec 32) (BitVec 8) where
  width := 4
  encode x := [x.extractLsb' 0 8, x.extractLsb' 8 8, x.extractLsb' 16 8, x.extractLsb' 24 8]
  decode
    | a :: b :: c :: d :: _ => d ++ c ++ b ++ a
    | _ => 0
  width_pos := by decide
  length_encode _ := rfl
  decode_encode x _ := by
    have two : x.extractLsb' 24 8 ++ x.extractLsb' 16 8 = x.extractLsb' 16 16 :=
      BitVec.extractLsb'_append_extractLsb'_eq_extractLsb' rfl
    have three : x.extractLsb' 16 16 ++ x.extractLsb' 8 8 = x.extractLsb' 8 24 :=
      BitVec.extractLsb'_append_extractLsb'_eq_extractLsb' rfl
    have four : x.extractLsb' 8 24 ++ x.extractLsb' 0 8 = x.extractLsb' 0 32 :=
      BitVec.extractLsb'_append_extractLsb'_eq_extractLsb' rfl
    show x.extractLsb' 24 8 ++ x.extractLsb' 16 8 ++ x.extractLsb' 8 8 ++ x.extractLsb' 0 8 = x
    rw [two, three, four]
    exact BitVec.extractLsb'_eq_self

def word64 : Codec (BitVec 64) (BitVec 8) where
  width := word32.width + word32.width
  encode x := word32.encode (x.extractLsb' 0 32) ++ word32.encode (x.extractLsb' 32 32)
  decode bytes := word32.decode (bytes.drop word32.width) ++ word32.decode bytes
  width_pos := by decide
  length_encode _ := rfl
  decode_encode x rest := by
    have whole : x.extractLsb' 32 32 ++ x.extractLsb' 0 32 = x.extractLsb' 0 64 :=
      BitVec.extractLsb'_append_extractLsb'_eq_extractLsb' rfl
    rw [List.append_assoc, List.drop_left' (word32.length_encode _), word32.decode_encode, word32.decode_encode,
      whole]
    exact BitVec.extractLsb'_eq_self

end Records
