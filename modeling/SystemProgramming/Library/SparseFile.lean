import Mathlib.Data.List.Basic
import Mathlib.Tactic.Common

universe u

abbrev SparseFile (β : Type u) := List (Option β)

namespace SparseFile

variable {β : Type u}

def content (blank : β) (file : SparseFile β) : List β := file.map fun cell => cell.getD blank

def resize (file : SparseFile β) (size : Nat) : SparseFile β :=
  file.take size ++ List.replicate (size - file.length) none

def write (file : SparseFile β) (offset : Nat) (bytes : List β) : SparseFile β :=
  if bytes.isEmpty then file
  else file.resize offset ++ bytes.map some ++ file.drop (offset + bytes.length)

@[simp] theorem length_resize (file : SparseFile β) (size : Nat) : (file.resize size).length = size := by
  rw [resize, List.length_append, List.length_take, List.length_replicate]
  omega

@[simp] theorem length_content (blank : β) (file : SparseFile β) :
    (file.content blank).length = file.length := List.length_map _

theorem resize_self (file : SparseFile β) : file.resize file.length = file := by
  rw [resize, List.take_length, Nat.sub_self, List.replicate_zero, List.append_nil]

theorem resize_resize (file : SparseFile β) (size : Nat) :
    (file.resize size).resize size = file.resize size := by
  have whole := (file.resize size).resize_self
  rwa [length_resize] at whole

theorem resize_zero (file : SparseFile β) : file.resize 0 = [] :=
  List.length_eq_zero_iff.mp (file.length_resize 0)

theorem resize_nil (size : Nat) : resize ([] : SparseFile β) size = List.replicate size none := by
  rw [resize, List.take_nil, List.nil_append, List.length_nil, Nat.sub_zero]

theorem resize_add (file : SparseFile β) (size more : Nat) :
    file.resize (size + more) = file.resize size ++ resize (file.drop size) more := by
  rw [resize, resize, resize, List.length_drop, List.take_add]
  by_cases inside : size ≤ file.length
  · rw [show size - file.length = 0 by omega, List.replicate_zero, List.append_nil, List.append_assoc,
      show more - (file.length - size) = size + more - file.length by omega]
  · rw [List.drop_eq_nil_of_le (by omega), List.take_nil, List.append_nil, List.nil_append,
      show file.length - size = 0 by omega, Nat.sub_zero, List.append_assoc,
      List.replicate_append_replicate, show size - file.length + more = size + more - file.length by omega]

theorem resize_append (file more : SparseFile β) : (file ++ more).resize file.length = file := by
  rw [resize, List.take_left, List.length_append, show file.length - (file.length + more.length) = 0 by omega,
    List.replicate_zero, List.append_nil]

/-- Up to the end of the write, the file is what it was and then what is written. -/
theorem resize_write (file : SparseFile β) (offset : Nat) (bytes : List β) :
    (file.write offset bytes).resize (offset + bytes.length) = file.resize offset ++ bytes.map some := by
  unfold write
  cases bytes with
  | nil => simp
  | cons byte bytes =>
    have upTo : (file.resize offset ++ (byte :: bytes).map some).length =
        offset + (byte :: bytes).length := by
      rw [List.length_append, length_resize, List.length_map]
    rw [if_neg (by simp), ← upTo]
    exact resize_append _ _

theorem drop_write (file : SparseFile β) (offset : Nat) (bytes : List β) :
    (file.write offset bytes).drop (offset + bytes.length) = file.drop (offset + bytes.length) := by
  unfold write
  cases bytes with
  | nil => rfl
  | cons byte bytes =>
    have upTo : (file.resize offset ++ (byte :: bytes).map some).length =
        offset + (byte :: bytes).length := by
      rw [List.length_append, length_resize, List.length_map]
    rw [if_neg (by simp)]
    exact List.drop_left' upTo

@[simp] theorem content_append (blank : β) (file more : SparseFile β) :
    content blank (file ++ more) = content blank file ++ content blank more := List.map_append

@[simp] theorem content_written (blank : β) (bytes : List β) : content blank (bytes.map some) = bytes := by
  rw [content, List.map_map]
  exact List.map_id bytes

theorem content_resize (blank : β) (file : SparseFile β) (size : Nat) :
    content blank (file.resize size) =
      (content blank file).take size ++ List.replicate (size - file.length) blank := by
  rw [resize, content_append, content, content, content, List.map_take, List.map_replicate]
  rfl

theorem content_drop (blank : β) (file : SparseFile β) (offset : Nat) :
    content blank (file.drop offset) = (content blank file).drop offset := List.map_drop

theorem content_resize_blank (blank : β) (file : SparseFile β) (size : Nat) :
    content blank (file.resize size) = List.replicate size blank ↔
      ∀ byte ∈ (content blank file).take size, byte = blank := by
  have whole : (content blank (file.resize size)).length = size := by simp
  rw [List.eq_replicate_iff, and_iff_right whole, content_resize]
  constructor
  · intro all byte member
    exact all byte (List.mem_append_left _ member)
  · intro all byte member
    rcases List.mem_append.mp member with old | new
    · exact all byte old
    · exact List.eq_of_mem_replicate new

/-- A file begins with some bytes when it is long enough and reads so up to there. -/
theorem prefix_content (blank : β) (file : SparseFile β) (bytes : List β) :
    bytes <+: content blank file ↔
      content blank (file.resize bytes.length) = bytes ∧ bytes.length ≤ file.length := by
  by_cases long : bytes.length ≤ file.length
  · rw [and_iff_left long, content_resize, Nat.sub_eq_zero_of_le long, List.replicate_zero,
      List.append_nil, List.prefix_iff_eq_take, eq_comm]
  · constructor
    · intro begins
      have size := begins.length_le
      rw [length_content] at size
      exact absurd size long
    · intro both
      exact absurd both.2 long

section Chunks

variable [DecidableEq β]

/-- A chunk of blanks is left as a hole, any other one is stored. -/
def sparse (blank : β) (chunk : List β) : SparseFile β :=
  if chunk.any (· ≠ blank) then chunk.map some else List.replicate chunk.length none

theorem any_ne_eq_false {blank : β} {chunk : List β} :
    chunk.any (· ≠ blank) = false ↔ chunk = List.replicate chunk.length blank := by
  simp [List.eq_replicate_iff]

@[simp] theorem length_sparse (blank : β) (chunk : List β) : (sparse blank chunk).length = chunk.length := by
  unfold sparse
  split <;> simp

@[simp] theorem content_sparse (blank : β) (chunk : List β) : content blank (sparse blank chunk) = chunk := by
  unfold sparse
  split
  · exact content_written blank chunk
  · rename_i blanks
    rw [Bool.not_eq_true, any_ne_eq_false] at blanks
    rw [content, List.map_replicate, Option.getD_none, ← blanks]

theorem content_flatMap_sparse (blank : β) (chunks : List (List β)) :
    content blank (chunks.flatMap (sparse blank)) = chunks.flatten := by
  induction chunks with
  | nil => rfl
  | cons chunk chunks ih => rw [List.flatMap_cons, content_append, content_sparse, ih, List.flatten_cons]

theorem sparse_eq_none {blank : β} {chunk : List β} :
    (∀ cell ∈ sparse blank chunk, cell = none) ↔ ∀ byte ∈ chunk, byte = blank := by
  unfold sparse
  split
  · rename_i data
    rw [List.any_eq_true] at data
    rcases data with ⟨byte, member, other⟩
    rw [decide_eq_true_eq] at other
    constructor
    · intro all
      cases all (some byte) (List.mem_map_of_mem member)
    · intro all
      exact absurd (all byte member) other
  · rename_i blanks
    rw [Bool.not_eq_true, any_ne_eq_false] at blanks
    constructor
    · intro _ byte member
      rw [blanks] at member
      exact List.eq_of_mem_replicate member
    · intro _ cell member
      exact List.eq_of_mem_replicate member

end Chunks

section Blocks

def block (size i : Nat) (cells : List β) : List β := (cells.drop (i * size)).take size

theorem content_block (blank : β) (size i : Nat) (file : SparseFile β) :
    content blank (block size i file) = block size i (content blank file) := by
  rw [block, block, ← content_drop, content, content, List.map_take]

def IsHole (file : SparseFile β) : Prop := ∀ cell ∈ file, cell = none

def Stored (file : SparseFile β) : Prop := ∀ cell ∈ file, cell ≠ none

theorem IsHole.content {blank : β} {file : SparseFile β} (hole : IsHole file) :
    ∀ byte ∈ content blank file, byte = blank := by
  intro byte member
  rcases List.mem_map.mp member with ⟨cell, inside, rfl⟩
  rw [hole cell inside, Option.getD_none]

/-- Where all chunks but the last one have the size of a block, the blocks are the chunks. -/
theorem block_flatten {size : Nat} {chunks : List (List β)}
    (full : ∀ chunk ∈ chunks.dropLast, chunk.length = size)
    (bound : ∀ chunk ∈ chunks, chunk.length ≤ size) (i : Nat) :
    block size i chunks.flatten = chunks[i]?.getD [] := by
  unfold block
  induction chunks generalizing i with
  | nil => simp
  | cons chunk chunks ih =>
    have first := bound chunk List.mem_cons_self
    by_cases single : chunks = []
    · subst single
      rw [List.flatten_cons, List.flatten_nil, List.append_nil]
      cases i with
      | zero =>
        rw [Nat.zero_mul, List.drop_zero]
        exact List.take_of_length_le first
      | succ i =>
        have beyond : chunk.length ≤ (i + 1) * size := by
          rw [Nat.succ_mul]
          omega
        rw [List.drop_eq_nil_of_le beyond, List.take_nil]
        rfl
    · rw [List.dropLast_cons_of_ne_nil single] at full
      have size_first := full chunk List.mem_cons_self
      have rest := ih (fun c member => full c (List.mem_cons_of_mem _ member))
        (fun c member => bound c (List.mem_cons_of_mem _ member))
      rw [List.flatten_cons]
      cases i with
      | zero =>
        rw [Nat.zero_mul, List.drop_zero]
        exact List.take_left' size_first
      | succ i =>
        rw [Nat.succ_mul, Nat.add_comm, ← List.drop_drop, List.drop_left' size_first]
        exact rest i

end Blocks

end SparseFile
