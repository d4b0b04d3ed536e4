import Mathlib.Data.List.Basic
import Mathlib.Order.Defs.LinearOrder
import Mathlib.Tactic.Common

namespace MessageQueue

universe u

variable {α : Type u} (mtype : α → Int)

/-- Where the message lies that a request gets: the first one for type 0, the first one of its type,
    or, for a negative type, the first one of the lowest type up to its absolute value. -/
def select (queue : List α) (type : Int) : Option Nat :=
  if type = 0 then if queue.isEmpty then none else some 0
  else if 0 < type then queue.findIdx? (fun m => mtype m = type)
  else
    match ((queue.map mtype).filter (· ≤ -type)).min? with
    | none => none
    | some lowest => queue.findIdx? (fun m => mtype m = lowest)

def take (queue : List α) (type : Int) : Option (α × List α) :=
  (select mtype queue type).bind fun i => queue[i]?.map fun m => (m, queue.eraseIdx i)

variable {mtype} {queue rest : List α} {type : Int} {m : α}

theorem mem_of_take (taken : take mtype queue type = some (m, rest)) : m ∈ queue := by
  obtain ⟨i, -, found⟩ := Option.bind_eq_some_iff.mp taken
  obtain ⟨m', there, same⟩ := Option.map_eq_some_iff.mp found
  cases same
  exact List.mem_of_getElem? there

theorem subset_of_take (taken : take mtype queue type = some (m, rest)) : rest ⊆ queue := by
  obtain ⟨i, -, found⟩ := Option.bind_eq_some_iff.mp taken
  obtain ⟨m', there, same⟩ := Option.map_eq_some_iff.mp found
  cases same
  exact (List.eraseIdx_sublist _ _).subset

/-- No message of the type of the one that is taken lies before it. -/
theorem take_split (taken : take mtype queue type = some (m, rest)) :
    ∃ before after, queue = before ++ m :: after ∧ rest = before ++ after ∧
      (∀ x ∈ before, mtype x ≠ mtype m) ∧ (type = 0 → before = []) := by
  obtain ⟨i, selected, found⟩ := Option.bind_eq_some_iff.mp taken
  obtain ⟨m', there, same⟩ := Option.map_eq_some_iff.mp found
  cases same
  obtain ⟨short, at_⟩ := List.getElem?_eq_some_iff.mp there
  have first : (∀ x ∈ queue.take i, mtype x ≠ mtype m) ∧ (type = 0 → i = 0) := by
    unfold select at selected
    split at selected
    · split at selected
      · cases selected
      · cases selected
        simp
    · rename_i nonzero
      refine ⟨?_, fun zero => absurd zero nonzero⟩
      have one : ∀ lowest, queue.findIdx? (fun m => mtype m = lowest) = some i →
          ∀ x ∈ queue.take i, mtype x ≠ mtype m := by
        intro lowest found x member
        obtain ⟨_, matches_, before⟩ := List.findIdx?_eq_some_iff_getElem.mp found
        obtain ⟨j, earlier, same⟩ := List.mem_take_iff_getElem.mp member
        rw [decide_eq_true_eq, at_] at matches_
        rw [matches_, ← same]
        simpa using before j (by omega)
      split at selected
      · exact one type selected
      · split at selected
        · cases selected
        · exact one _ selected
  refine ⟨queue.take i, queue.drop (i + 1), ?_, ?_, ?_, ?_⟩
  · rw [← at_, ← List.drop_eq_getElem_cons short, List.take_append_drop]
  · exact List.eraseIdx_eq_take_drop_succ queue i
  · exact first.1
  · intro zero
    rw [first.2 zero, List.take_zero]

/-- So each type by itself is taken in the order in which it was put. -/
theorem filter_of_take (taken : take mtype queue type = some (m, rest)) (wanted : Int) :
    queue.filter (fun x => mtype x = wanted) =
      [m].filter (fun x => mtype x = wanted) ++ rest.filter (fun x => mtype x = wanted) := by
  obtain ⟨before, after, rfl, rfl, earlier, -⟩ := take_split taken
  by_cases same : mtype m = wanted
  · have none : before.filter (fun x => mtype x = wanted) = [] := by
      rw [List.filter_eq_nil_iff]
      intro x member
      simpa [← same] using earlier x member
    simp [List.filter_append, none, same]
  · simp [List.filter_append, same]

theorem eq_cons_of_take (taken : take mtype queue 0 = some (m, rest)) : queue = m :: rest := by
  obtain ⟨before, after, rfl, rfl, -, first⟩ := take_split taken
  rw [first rfl]
  rfl

end MessageQueue
