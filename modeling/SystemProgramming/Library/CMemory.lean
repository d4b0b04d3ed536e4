import Mathlib.Data.List.TakeDrop
import Mathlib.Data.List.TakeWhile
import Mathlib.Tactic.Common

universe u

/-- Memory from an address to the end of its mapping. `stores` lists the offsets stored to, the last
    of them outside if that is what ended the program. -/
structure CMemory (β : Type u) where
  bytes : List β
  stores : List Nat
  faulted : Bool

namespace CMemory

variable {β : Type u}

def fault (m : CMemory β) : CMemory β := { m with faulted := true }

def store (m : CMemory β) (i : Nat) (b : β) : CMemory β :=
  if m.faulted = true then m else ⟨m.bytes.set i b, m.stores ++ [i], decide (m.bytes.length ≤ i)⟩

theorem store_faulted {m : CMemory β} (faulted : m.faulted = true) (i : Nat) (b : β) :
    m.store i b = m := if_pos faulted

theorem store_outside {m : CMemory β} (running : m.faulted = false) {i : Nat}
    (outside : m.bytes.length ≤ i) (b : β) : (m.store i b).faulted = true ∧ i ∈ (m.store i b).stores := by
  simp [store, running, outside]

theorem store_inside {m : CMemory β} (running : m.faulted = false) {i : Nat}
    (inside : i < m.bytes.length) (b : β) :
    m.store i b = ⟨m.bytes.take i ++ b :: m.bytes.drop (i + 1), m.stores ++ [i], false⟩ := by
  rw [store, running, if_neg (by decide), List.set_eq_take_append_cons_drop, if_pos inside,
    decide_eq_false (by omega)]

theorem length_store (m : CMemory β) (i : Nat) (b : β) : (m.store i b).bytes.length = m.bytes.length := by
  unfold store
  split
  · rfl
  · exact List.length_set

theorem length_start {m : CMemory β} {nul : β} {pre post : List β}
    (start : m.bytes = pre ++ nul :: post) : m.bytes.length = pre.length + (post.length + 1) := by
  rw [start, List.length_append, List.length_cons]

variable [DecidableEq β] (nul : β)

def text (bytes : List β) : List β := bytes.takeWhile (· ≠ nul)

def copy (m : CMemory β) (i : Nat) : List β → CMemory β
  | [] => m.fault
  | b :: src => if b = nul then m.store i b else copy (m.store i b) (i + 1) src

def strcat (m : CMemory β) (src : List β) : CMemory β :=
  if m.faulted = true then m
  else if nul ∈ m.bytes then copy nul m (text nul m.bytes).length src
  else m.fault

def readString (m : CMemory β) (src : List β) : CMemory β := if nul ∈ src then m else m.fault

variable {nul}

theorem nul_not_mem_text (bytes : List β) : nul ∉ text nul bytes := by
  intro member
  have other := List.mem_takeWhile_imp member
  simp at other

theorem text_append {s : List β} (free : nul ∉ s) (rest : List β) : text nul (s ++ nul :: rest) = s := by
  have all : ∀ b ∈ s, decide (b ≠ nul) = true := by
    intro b member
    rw [decide_eq_true_eq]
    rintro rfl
    exact free member
  rw [text, List.takeWhile_append_of_pos all, List.takeWhile_cons_of_neg (by simp), List.append_nil]

@[simp] theorem text_cons_nul (src : List β) : text nul (nul :: src) = [] := by
  simp [text]

theorem text_cons {b : β} (other : b ≠ nul) (src : List β) : text nul (b :: src) = b :: text nul src := by
  rw [text, List.takeWhile_cons_of_pos (by simp [other])]
  rfl

theorem eq_text_append {bytes : List β} (terminated : nul ∈ bytes) :
    bytes = text nul bytes ++ nul :: bytes.drop ((text nul bytes).length + 1) := by
  induction bytes with
  | nil => cases terminated
  | cons b bytes ih =>
    by_cases zero : b = nul
    · subst zero
      simp
    · have later : nul ∈ bytes := List.mem_of_ne_of_mem (Ne.symm zero) terminated
      rw [text_cons zero, List.length_cons, List.drop_succ_cons, List.cons_append, ← ih later]

theorem copy_faulted {m : CMemory β} (faulted : m.faulted = true) (i : Nat) (src : List β) :
    copy nul m i src = m := by
  induction src generalizing i with
  | nil =>
    rw [copy, fault, ← faulted]
  | cons b src ih =>
    rw [copy, store_faulted faulted]
    by_cases zero : b = nul
    · rw [if_pos zero]
    · rw [if_neg zero, ih]

theorem copy_fits (src : List β) (m : CMemory β) (i : Nat) (running : m.faulted = false)
    (terminated : nul ∈ src) (room : i + (text nul src).length < m.bytes.length) :
    copy nul m i src = ⟨m.bytes.take i ++ text nul src ++
        nul :: m.bytes.drop (i + (text nul src).length + 1),
      m.stores ++ List.range' i ((text nul src).length + 1), false⟩ := by
  induction src generalizing m i with
  | nil => cases terminated
  | cons b src ih =>
    by_cases zero : b = nul
    · subst zero
      rw [text_cons_nul, List.length_nil, Nat.add_zero] at room
      rw [copy, if_pos rfl, store_inside running room]
      simp
    · rw [text_cons zero, List.length_cons] at room
      have step := store_inside running (by omega : i < m.bytes.length) b
      have before : (m.bytes.take i).length = i := by
        rw [List.length_take]
        omega
      have size : (m.bytes.take i ++ b :: m.bytes.drop (i + 1)).length = m.bytes.length := by
        have stored := m.length_store i b
        rwa [step] at stored
      have head : (m.bytes.take i ++ b :: m.bytes.drop (i + 1)).take (i + 1) =
          m.bytes.take i ++ [b] := by
        rw [List.take_append, before, List.take_of_length_le (by omega)]
        simp
      have tail : ∀ more, (m.bytes.take i ++ b :: m.bytes.drop (i + 1)).drop (i + 1 + more) =
          m.bytes.drop (i + 1 + more) := by
        intro more
        rw [List.drop_append, before, List.drop_of_length_le (by omega), List.nil_append,
          show i + 1 + more - i = more + 1 by omega, List.drop_succ_cons, List.drop_drop]
      rw [copy, if_neg zero, step, ih _ _ rfl (List.mem_of_ne_of_mem (Ne.symm zero) terminated) (by dsimp only; omega)]
      dsimp only
      have stored : List.range' i ((text nul src).length + 1 + 1) =
          [i] ++ List.range' (i + 1) ((text nul src).length + 1) := List.range'_succ
      rw [head, Nat.add_assoc (i + 1), tail, text_cons zero, List.length_cons, stored,
        show i + 1 + ((text nul src).length + 1) = i + ((text nul src).length + 1) + 1 by omega,
        List.append_assoc m.stores, List.append_assoc (m.bytes.take i)]
      rfl

theorem copy_overruns (src : List β) (m : CMemory β) (i : Nat) (running : m.faulted = false)
    (inside : i ≤ m.bytes.length) (terminated : nul ∈ src)
    (tight : m.bytes.length ≤ i + (text nul src).length) :
    (copy nul m i src).faulted = true ∧ m.bytes.length ∈ (copy nul m i src).stores := by
  induction src generalizing m i with
  | nil => cases terminated
  | cons b src ih =>
    by_cases zero : b = nul
    · subst zero
      rw [text_cons_nul, List.length_nil, Nat.add_zero] at tight
      have last : m.bytes.length = i := by omega
      rw [copy, if_pos rfl, last]
      exact store_outside running tight b
    · rw [copy, if_neg zero]
      by_cases room : i < m.bytes.length
      · have size := m.length_store i b
        rw [text_cons zero, List.length_cons] at tight
        rw [← size]
        apply ih
        · rw [store_inside running room b]
        · omega
        · exact List.mem_of_ne_of_mem (Ne.symm zero) terminated
        · omega
      · have last : m.bytes.length = i := by omega
        have outside := store_outside running (by omega : m.bytes.length ≤ i) b
        rw [copy_faulted outside.1, last]
        exact outside

theorem readString_faulted {m : CMemory β} (faulted : m.faulted = true) (src : List β) :
    readString nul m src = m := by
  rw [readString, fault, ← faulted, ite_self]

theorem strcat_faulted {m : CMemory β} (faulted : m.faulted = true) (src : List β) :
    strcat nul m src = m := if_pos faulted

theorem strcat_unterminated {m : CMemory β} (running : m.faulted = false) (unterminated : nul ∉ m.bytes)
    (src : List β) : strcat nul m src = m.fault := by
  rw [strcat, running, if_neg (by decide), if_neg unterminated]

theorem strcat_start {m : CMemory β} (running : m.faulted = false) {pre post : List β}
    (free : nul ∉ pre) (start : m.bytes = pre ++ nul :: post) (src : List β) :
    strcat nul m src = copy nul m pre.length src := by
  have first : text nul m.bytes = pre := by rw [start, text_append free]
  have ended : nul ∈ m.bytes := by
    rw [start]
    exact List.mem_append_right _ List.mem_cons_self
  rw [strcat, running, if_neg (by decide), if_pos ended, first]

theorem strcat_fits {m : CMemory β} (running : m.faulted = false) {pre post : List β}
    (free : nul ∉ pre) (start : m.bytes = pre ++ nul :: post) {src : List β} (terminated : nul ∈ src)
    (room : (text nul src).length ≤ post.length) :
    strcat nul m src = ⟨pre ++ text nul src ++ nul :: post.drop (text nul src).length,
      m.stores ++ List.range' pre.length ((text nul src).length + 1), false⟩ := by
  have size := length_start start
  have behind : m.bytes.drop (pre.length + (text nul src).length + 1) =
      post.drop (text nul src).length := by
    rw [start, Nat.add_assoc, List.drop_length_add_append, List.drop_succ_cons]
  rw [strcat_start running free start, copy_fits src m pre.length running terminated (by omega), behind]
  rw [start, List.take_left]

theorem strcat_overruns {m : CMemory β} (running : m.faulted = false) {pre post : List β}
    (free : nul ∉ pre) (start : m.bytes = pre ++ nul :: post) {src : List β} (terminated : nul ∈ src)
    (tight : post.length < (text nul src).length) :
    (strcat nul m src).faulted = true ∧ m.bytes.length ∈ (strcat nul m src).stores := by
  have size := length_start start
  rw [strcat_start running free start]
  exact copy_overruns src m pre.length running (by omega) terminated (by omega)

end CMemory
