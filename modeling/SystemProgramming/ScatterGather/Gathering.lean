import SystemProgramming.ScatterGather.Model

namespace SystemProgramming.ScatterGather

open CMemory

def Iovec.string (v : Iovec) : List Byte := text 0 v.base

def strings (iov : List Iovec) : List Byte := iov.flatMap Iovec.string

theorem length_strings_cons (v : Iovec) (iov : List Iovec) :
    (strings (v :: iov)).length = v.string.length + (strings iov).length := by
  rw [strings, List.flatMap_cons, List.length_append]
  rfl

theorem nul_not_mem_append {pre : List Byte} (free : 0 ∉ pre) (v : Iovec) : 0 ∉ pre ++ v.string := by
  intro member
  rcases List.mem_append.mp member with old | new
  · exact free old
  · exact nul_not_mem_text v.base new

theorem gather_faulted {m : CMemory Byte} (faulted : m.faulted = true) (v : Iovec) : gather m v = m := by
  rw [gather, readString_faulted faulted, strcat_faulted faulted]

theorem foldl_faulted {m : CMemory Byte} (faulted : m.faulted = true) (iov : List Iovec) :
    iov.foldl gather m = m := by
  induction iov with
  | nil => rfl
  | cons v iov ih => rw [List.foldl_cons, gather_faulted faulted, ih]

theorem gather_terminated (m : CMemory Byte) {v : Iovec} (terminated : 0 ∈ v.base) :
    gather m v = strcat 0 m v.base := by
  rw [gather, readString, if_pos terminated]

/-- `strcat` looks for the end of a string that is not there, and stores nothing. -/
theorem foldl_endless {iov : List Iovec} (some_buffers : iov ≠ []) {m : CMemory Byte}
    (running : m.faulted = false) (endless : 0 ∉ m.bytes) : iov.foldl gather m = m.fault := by
  cases iov with
  | nil => exact absurd rfl some_buffers
  | cons v iov =>
    have first : gather m v = m.fault := by
      by_cases terminated : 0 ∈ v.base
      · rw [gather_terminated m terminated, strcat_unterminated running endless]
      · rw [gather, readString, if_neg terminated, strcat_faulted rfl]
    rw [List.foldl_cons, first, foldl_faulted rfl]

theorem foldl_fits {iov : List Iovec} (terminated : ∀ v ∈ iov, 0 ∈ v.base) {m : CMemory Byte}
    (running : m.faulted = false) {pre post : List Byte} (free : 0 ∉ pre) (start : m.bytes = pre ++ 0 :: post)
    (room : (strings iov).length ≤ post.length) :
    ∃ stores, iov.foldl gather m =
        ⟨pre ++ strings iov ++ 0 :: post.drop (strings iov).length, stores, false⟩ ∧
      m.stores ⊆ stores ∧ (iov ≠ [] → pre.length + (strings iov).length ∈ stores) := by
  induction iov generalizing m pre post with
  | nil =>
    refine ⟨m.stores, ?_, List.Subset.refl _, fun none_left => absurd rfl none_left⟩
    cases m
    cases running
    cases start
    simp [strings]
  | cons v iov ih =>
    have size := length_strings_cons v iov
    have first := strcat_fits running free start (terminated v List.mem_cons_self)
      (by show v.string.length ≤ post.length; omega)
    rw [List.foldl_cons, gather_terminated m (terminated v List.mem_cons_self), first]
    have free' := nul_not_mem_append free v
    have inside : (strings iov).length ≤ (post.drop v.string.length).length := by
      rw [List.length_drop]
      omega
    rcases ih (fun w member => terminated w (List.mem_cons_of_mem v member)) (m := ⟨pre ++ v.string ++
      0 :: post.drop v.string.length, m.stores ++ List.range' pre.length (v.string.length + 1), false⟩)
      rfl free' rfl inside with ⟨stores, done, kept, last⟩
    refine ⟨stores, ?_, ?_, ?_⟩
    · rw [show text 0 v.base = v.string from rfl, done, List.drop_drop, size, strings, strings,
        List.flatMap_cons, List.append_assoc pre]
    · exact fun i member => kept (List.mem_append_left _ member)
    · intro _
      rw [size]
      by_cases more : iov = []
      · subst more
        apply kept
        apply List.mem_append_right
        rw [List.mem_range']
        exact ⟨v.string.length, by omega, by simp [strings]⟩
      · have end_ := last more
        rw [List.length_append, Nat.add_assoc] at end_
        exact end_

theorem foldl_overruns {iov : List Iovec} (terminated : ∀ v ∈ iov, 0 ∈ v.base) {m : CMemory Byte}
    (running : m.faulted = false) {pre post : List Byte} (free : 0 ∉ pre) (start : m.bytes = pre ++ 0 :: post)
    (tight : post.length < (strings iov).length) :
    (iov.foldl gather m).faulted = true ∧ m.bytes.length ∈ (iov.foldl gather m).stores := by
  induction iov generalizing m pre post with
  | nil => exact absurd tight (Nat.not_lt_zero _)
  | cons v iov ih =>
    have size := length_strings_cons v iov
    have ends := terminated v List.mem_cons_self
    rw [List.foldl_cons, gather_terminated m ends]
    by_cases room : v.string.length ≤ post.length
    · have first := strcat_fits running free start ends room
      have free' := nul_not_mem_append free v
      have whole : m.bytes.length = (pre ++ v.string ++ 0 :: post.drop v.string.length).length := by
        rw [start]
        simp only [List.length_append, List.length_cons, List.length_drop]
        omega
      rw [first, whole]
      apply ih (fun w member => terminated w (List.mem_cons_of_mem v member)) rfl free' rfl
      rw [List.length_drop]
      show post.length - v.string.length < (strings iov).length
      omega
    · have beyond := strcat_overruns running free start ends (by show post.length < v.string.length; omega)
      rw [foldl_faulted beyond.1]
      exact beyond

def concatenation (iov : List Iovec) : List Byte := iov.flatMap fun v => v.base.take v.len

/-- Nothing is read or stored outside the mappings: the array is on the stack, a zero byte there and
    one in each buffer end the strings, and all of them fit on the stack. -/
structure Survives (iov : List Iovec) (stack : List Byte) : Prop where
  array : 0 ≤ sumLength iov ∧ sumLength iov ≤ stack.length
  ended : 0 ∈ stack
  terminated : ∀ v ∈ iov, 0 ∈ v.base
  room : (text 0 stack).length + (strings iov).length < stack.length

def assembled (iov : List Iovec) (stack : List Byte) : List Byte :=
  text 0 stack ++ strings iov ++ 0 :: stack.drop ((text 0 stack).length + (strings iov).length + 1)

theorem start_eq {stack : List Byte} (ended : 0 ∈ stack) : (⟨stack, [], false⟩ : CMemory Byte).bytes =
    text 0 stack ++ 0 :: stack.drop ((text 0 stack).length + 1) := eq_text_append ended

theorem length_rest {stack : List Byte} (ended : 0 ∈ stack) :
    (text 0 stack).length + (stack.drop ((text 0 stack).length + 1)).length + 1 = stack.length := by
  have whole : stack.length = (text 0 stack ++ 0 :: stack.drop ((text 0 stack).length + 1)).length :=
    congrArg List.length (start_eq ended)
  rw [List.length_append, List.length_cons] at whole
  omega

theorem length_concatenation (iov : List Iovec) : sumLength iov =
    Int.bmod (concatenation iov).length 4294967296 := by
  have general : ∀ start : Int, iov.foldl (fun length v => Int.bmod (length + v.len) 4294967296)
      (Int.bmod start 4294967296) = Int.bmod (start + (concatenation iov).length) 4294967296 := by
    induction iov with
    | nil =>
      intro start
      simp [concatenation]
    | cons v iov ih =>
      intro start
      have size : ((concatenation (v :: iov)).length : Int) = v.len + (concatenation iov).length := by
        rw [concatenation, List.flatMap_cons, List.length_append, List.length_take,
          Nat.min_eq_left v.inside]
        rfl
      rw [List.foldl_cons, Int.bmod_add_bmod, ih, size, Int.add_assoc]
  have whole := general 0
  rwa [Int.zero_add] at whole

theorem bmod_le (n : Nat) : Int.bmod n 4294967296 ≤ n := by
  rw [Int.bmod_def]
  split <;> omega

/-- When the result is right: the function fails or does not survive, or the concatenation can be
    added up in an `int`, is written as a whole, and is what the array begins with. -/
def Fortunate (calls : Calls) (iov : List Iovec) (stack : List Byte) : Prop :=
  Survives iov stack →
    match calls.write with
    | none => concatenation iov = []
    | some n => calls.close.isError = false → (concatenation iov).length < 2147483648 ∧
        (concatenation iov).length ≤ n ∧ concatenation iov <+: assembled iov stack

def letters : List Iovec := [⟨[97, 98, 0], 2, by decide⟩, ⟨[99, 0, 255], 1, by decide⟩]

def Iovec.IsString (v : Iovec) : Prop := 0 ∈ v.base ∧ v.len = v.string.length

instance (v : Iovec) : Decidable v.IsString := inferInstanceAs (Decidable (_ ∧ _))

def InBounds (iov : List Iovec) (stack : List Byte) : Prop :=
  ∀ i ∈ (gathering iov stack).stores, (i : Int) < sumLength iov

theorem concatenation_strings {iov : List Iovec} (all : ∀ v ∈ iov, v.IsString) :
    concatenation iov = strings iov := by
  rw [concatenation, strings, List.flatMap, List.flatMap]
  apply congrArg List.flatten
  apply List.map_congr_left
  intro v member
  have prefix_ : v.string <+: v.base := List.takeWhile_prefix _
  rw [(all v member).2]
  exact (List.prefix_iff_eq_take.mp prefix_).symm

theorem sumLength_strings {iov : List Iovec} (all : ∀ v ∈ iov, v.IsString) :
    sumLength iov ≤ (strings iov).length := by
  rw [length_concatenation, concatenation_strings all]
  exact bmod_le _

/-- The zero byte that ends the last string has no place in the array, so the loop stays inside only
    where it does not get to store anything. -/
theorem inBounds_iff (iov : List Iovec) (stack : List Byte) (some_buffers : iov ≠ [])
    (all : ∀ v ∈ iov, v.IsString) (array : sumLength iov ≤ stack.length) :
    InBounds iov stack ↔ 0 ∉ stack := by
  have size := sumLength_strings all
  have terminated : ∀ v ∈ iov, 0 ∈ v.base := fun v member => (all v member).1
  constructor
  · intro inBounds ended
    have rest := length_rest ended
    by_cases room : (strings iov).length ≤ (stack.drop ((text 0 stack).length + 1)).length
    · rcases foldl_fits terminated rfl (nul_not_mem_text stack) (start_eq ended) room with
        ⟨stores, done, -, last⟩
      have member : (text 0 stack).length + (strings iov).length ∈ (gathering iov stack).stores := by
        rw [gathering, done]
        exact last some_buffers
      have inside := inBounds _ member
      omega
    · have beyond := foldl_overruns terminated rfl (nul_not_mem_text stack) (start_eq ended) (by omega)
      have inside : (stack.length : Int) < sumLength iov := inBounds _ beyond.2
      omega
  · intro endless i member
    rw [gathering, foldl_endless some_buffers rfl endless] at member
    cases member

theorem inBounds_iff_letters : ¬ InBounds letters [0, 255, 255, 255, 255] := by
  rw [inBounds_iff letters _ (by decide) (by decide) (by decide)]
  decide

theorem letters_out_of_bounds :
    ¬ ∀ (iov : List Iovec) (stack : List Byte), iov ≠ [] → (∀ v ∈ iov, v.IsString) →
      sumLength iov ≤ stack.length → InBounds iov stack := by
  intro always
  have inside := always letters [0, 0, 0, 0, 0] (by decide) (by decide) (by decide) 3 (by decide)
  exact absurd inside (by decide)

end SystemProgramming.ScatterGather
