import Mathlib.Data.List.TakeDrop
import Mathlib.Tactic.Common
import SystemProgramming.Library.CMemory

abbrev CArray (n : Nat) := { bytes : List (BitVec 8) // bytes.length = n }

namespace CArray

variable {n : Nat}

def zeros : CArray n := ⟨List.replicate n 0, List.length_replicate⟩

def write (a : CArray n) (offset : Nat) (chunk : List (BitVec 8)) (fits : offset + chunk.length ≤ n) : CArray n :=
  ⟨a.1.take offset ++ chunk ++ a.1.drop (offset + chunk.length), by
    have size := a.2
    simp only [List.length_append, List.length_take, List.length_drop]
    omega⟩

/-- The bytes that `strncpy` stores: the string as far as it goes, and zeros up to the count. -/
def padded (src : List (BitVec 8)) (count : Nat) : List (BitVec 8) :=
  src.take count ++ List.replicate (count - src.length) 0

theorem length_padded (src : List (BitVec 8)) (count : Nat) : (padded src count).length = count := by
  rw [padded, List.length_append, List.length_take, List.length_replicate]
  omega

def strncpy (a : CArray n) (offset : Nat) (src : List (BitVec 8)) (count : Nat) (fits : offset + count ≤ n) :
    CArray n :=
  a.write offset (padded src count) (by rwa [length_padded])

def snprintf (a : CArray n) (size : Nat) (room : 0 < size ∧ size ≤ n) (output : List (BitVec 8)) : CArray n :=
  a.write 0 (output.take (size - 1) ++ [0]) (by
    rw [List.length_append, List.length_take, List.length_singleton]
    omega)

def string (a : CArray n) (offset : Nat) : List (BitVec 8) := CMemory.text 0 (a.1.drop offset)

theorem drop_write_of_ge (a : CArray n) {offset k : Nat} {chunk : List (BitVec 8)} (fits : offset + chunk.length ≤ n)
    (before : k ≤ offset) : (a.write offset chunk fits).1.drop k =
      (a.1.drop k).take (offset - k) ++ (chunk ++ a.1.drop (offset + chunk.length)) := by
  have room : k ≤ (a.1.take offset).length := by
    rw [List.length_take, a.2]
    omega
  unfold write
  dsimp only
  rw [List.append_assoc, List.drop_append_of_le_length room, List.drop_take]

theorem drop_write (a : CArray n) {offset : Nat} {chunk : List (BitVec 8)} (fits : offset + chunk.length ≤ n) :
    (a.write offset chunk fits).1.drop offset = chunk ++ a.1.drop (offset + chunk.length) := by
  rw [drop_write_of_ge a fits (Nat.le_refl offset), Nat.sub_self, List.take_zero, List.nil_append]

theorem write_zero (a : CArray n) {chunk : List (BitVec 8)} (fits : 0 + chunk.length ≤ n) :
    (a.write 0 chunk fits).1 = chunk ++ a.1.drop chunk.length := by
  have whole := drop_write a fits
  rwa [List.drop_zero, Nat.zero_add] at whole

theorem drop_write_of_le (a : CArray n) {offset k : Nat} {chunk : List (BitVec 8)} (fits : offset + chunk.length ≤ n)
    (behind : offset + chunk.length ≤ k) : (a.write offset chunk fits).1.drop k = a.1.drop k := by
  obtain ⟨more, rfl⟩ := Nat.exists_eq_add_of_le behind
  rw [Nat.add_assoc, ← List.drop_drop, drop_write, List.drop_length_add_append, List.drop_drop, Nat.add_assoc]

/-- A short string is there whole, and ends at the next byte. -/
theorem string_write (a : CArray n) {offset : Nat} {s rest : List (BitVec 8)} (free : 0 ∉ s)
    (fits : offset + (s ++ 0 :: rest).length ≤ n) : (a.write offset (s ++ 0 :: rest) fits).string offset = s := by
  rw [string, drop_write, List.append_assoc, List.cons_append, CMemory.text_append free]

theorem string_snprintf (a : CArray n) {size : Nat} (room : 0 < size ∧ size ≤ n) {output : List (BitVec 8)}
    (free : 0 ∉ output) : (a.snprintf size room output).string 0 = output.take (size - 1) :=
  string_write a (fun member => free (List.mem_of_mem_take member)) _

end CArray
