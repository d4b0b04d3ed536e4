import Mathlib.Logic.Function.Basic
import Mathlib.Tactic.Common
import SystemProgramming.Kernel

namespace SystemProgramming.BinarySems

structure SemaphoreSet where
  value : Nat → Nat
  removed : Bool

structure Sembuf where
  semNum : Nat
  semOp : Int
  semUndo : Bool

def bsUseSemUndo : Bool := false
def bsRetryOnEintr : Bool := true

def SemaphoreSet.setval (set : SemaphoreSet) (semNum val : Nat) : SemaphoreSet :=
  { set with value := Function.update set.value semNum val }

def initSemAvailable (set : SemaphoreSet) (semNum : Nat) : SemaphoreSet := set.setval semNum 1
def initSemInUse (set : SemaphoreSet) (semNum : Nat) : SemaphoreSet := set.setval semNum 0

/-- A completed `semop` with a nonzero operation; while the value would become negative the
    caller is blocked, and a removed set has nothing to operate on. -/
def semop (set : SemaphoreSet) (sops : Sembuf) : Option SemaphoreSet :=
  if set.removed = false ∧ 0 ≤ set.value sops.semNum + sops.semOp then
    some (set.setval sops.semNum (set.value sops.semNum + sops.semOp).toNat)
  else none

/-- The loop of `reserveSem` on one return of `semop`. The second component is the return
    value, and `none` there is one more turn of the loop. -/
def reserveSem (set : SemaphoreSet) (semNum : Nat) : Outcome → Option (SemaphoreSet × Option Int)
  | .done => (semop set ⟨semNum, -1, bsUseSemUndo⟩).map fun after => (after, some 0)
  | .error errno =>
    if errno ≠ .EINTR ∨ bsRetryOnEintr = false then some (set, some (-1)) else some (set, none)
  | .count _ => none

def releaseSem (set : SemaphoreSet) (semNum : Nat) : Outcome → Option (SemaphoreSet × Int)
  | .done => (semop set ⟨semNum, 1, bsUseSemUndo⟩).map fun after => (after, 0)
  | .error _ => some (set, -1)
  | .count _ => none

@[simp] theorem setval_removed (set : SemaphoreSet) (semNum val : Nat) :
    (set.setval semNum val).removed = set.removed := rfl

@[simp] theorem setval_value_self (set : SemaphoreSet) (semNum val : Nat) :
    (set.setval semNum val).value semNum = val := by
  simp [SemaphoreSet.setval]

theorem setval_value_other (set : SemaphoreSet) (semNum val : Nat) {other : Nat} (ne : other ≠ semNum) :
    (set.setval semNum val).value other = set.value other := by
  simp [SemaphoreSet.setval, Function.update_of_ne ne]

theorem reserveSem_done {set after : SemaphoreSet} {semNum : Nat} {returned : Option Int}
    (completed : reserveSem set semNum .done = some (after, returned)) :
    set.removed = false ∧ 0 < set.value semNum ∧ returned = some 0 ∧
      after = set.setval semNum (set.value semNum - 1) := by
  simp only [reserveSem, semop, Option.map_eq_some_iff] at completed
  obtain ⟨lowered, taken, same⟩ := completed
  split at taken
  · rename_i free
    cases same
    cases taken
    have lower : ((set.value semNum : Int) + -1).toNat = set.value semNum - 1 := by omega
    exact ⟨free.1, by omega, rfl, by rw [lower]⟩
  · cases taken

theorem reserveSem_of_available {set : SemaphoreSet} {semNum : Nat} (present : set.removed = false)
    (available : 0 < set.value semNum) :
    reserveSem set semNum .done = some (set.setval semNum (set.value semNum - 1), some 0) := by
  have lower : ((set.value semNum : Int) + -1).toNat = set.value semNum - 1 := by omega
  have enough : 0 ≤ (set.value semNum : Int) + -1 := by omega
  simp only [reserveSem, semop, present, enough, and_self, ite_true, Option.map_some, lower]

theorem reserveSem_interrupted (set : SemaphoreSet) (semNum : Nat) :
    reserveSem set semNum (.error .EINTR) = some (set, none) := by
  simp [reserveSem, bsRetryOnEintr]

theorem releaseSem_done {set after : SemaphoreSet} {semNum : Nat} {returned : Int}
    (completed : releaseSem set semNum .done = some (after, returned)) :
    set.removed = false ∧ returned = 0 ∧ after = set.setval semNum (set.value semNum + 1) := by
  simp only [releaseSem, semop, Option.map_eq_some_iff] at completed
  obtain ⟨raised, taken, same⟩ := completed
  split at taken
  · rename_i free
    cases same
    cases taken
    exact ⟨free.1, rfl, by congr⟩
  · cases taken

theorem releaseSem_of_present {set : SemaphoreSet} (semNum : Nat) (present : set.removed = false) :
    releaseSem set semNum .done = some (set.setval semNum (set.value semNum + 1), 0) := by
  have raise : ((set.value semNum : Int) + 1).toNat = set.value semNum + 1 := by omega
  have enough : 0 ≤ (set.value semNum : Int) + 1 := by omega
  simp only [releaseSem, semop, present, enough, and_self, ite_true, Option.map_some, raise]

end SystemProgramming.BinarySems
