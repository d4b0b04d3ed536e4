import Mathlib.Data.List.Infix

namespace Buffer

variable {β : Type*}

def overwrite (chunk buf : List β) : List β := chunk ++ buf.drop chunk.length

@[simp] theorem take_overwrite (chunk buf : List β) :
    (overwrite chunk buf).take chunk.length = chunk := by
  simp [overwrite]

theorem take_overwrite_of_length {n : Nat} (chunk buf : List β) (size : chunk.length = n) :
    (overwrite chunk buf).take n = chunk := by
  subst size
  exact take_overwrite chunk buf

theorem take_overwrite_take {n : Nat} (source buf : List β) (inside : n ≤ source.length) :
    (overwrite (source.take n) buf).take n = source.take n :=
  take_overwrite_of_length _ _ (List.length_take_of_le inside)

theorem take_overwrite_of_le {n : Nat} (chunk buf : List β) (size : n ≤ chunk.length) :
    (overwrite chunk buf).take n = chunk.take n :=
  List.take_append_of_le_length size

theorem getElem?_overwrite_of_ge {i : Nat} (chunk buf : List β) (behind : chunk.length ≤ i) :
    (overwrite chunk buf)[i]? = buf[i]? := by
  rw [overwrite, List.getElem?_append_right behind, List.getElem?_drop]
  congr 1
  omega

@[simp] theorem length_overwrite (chunk buf : List β) :
    (overwrite chunk buf).length = max chunk.length buf.length := by
  rw [overwrite, List.length_append, List.length_drop]
  omega

theorem overwrite_append (chunk text rest : List β) :
    overwrite chunk (text ++ rest) = overwrite chunk text ++ rest.drop (chunk.length - text.length) := by
  rw [overwrite, overwrite, List.drop_append, List.append_assoc]

/-- Nothing of what was in the buffer is left exactly where the chunk is as long as that. -/
theorem overwrite_eq_chunk_iff (chunk buf : List β) :
    overwrite chunk buf = chunk ↔ buf.length ≤ chunk.length := by
  rw [overwrite, List.append_right_eq_self, List.drop_eq_nil_iff]

structure Reused (chunks reads : List (List β)) (text : List β) : Prop where
  covers : ∀ chunk ∈ chunks, chunk.length ≤ text.length
  least : ∀ n, (∀ chunk ∈ chunks, chunk.length ≤ n) → text.length ≤ n
  fresh : reads = chunks ↔ chunks.Pairwise fun earlier later => earlier.length ≤ later.length

theorem reused_nil : Reused ([] : List (List β)) [] [] where
  covers := nofun
  least := fun n _ => Nat.zero_le n
  fresh := ⟨fun _ => .nil, fun _ => rfl⟩

theorem Reused.bound_iff {chunks reads : List (List β)} {text : List β} (reused : Reused chunks reads text)
    (n : Nat) : (∀ chunk ∈ chunks, chunk.length ≤ n) ↔ text.length ≤ n :=
  ⟨reused.least n, fun bound chunk member => (reused.covers chunk member).trans bound⟩

theorem Reused.concat {chunks reads : List (List β)} {text : List β} (reused : Reused chunks reads text)
    (chunk : List β) :
    Reused (chunks ++ [chunk]) (reads ++ [overwrite chunk text]) (overwrite chunk text) := by
  have bounded : ∀ n, (∀ c ∈ chunks ++ [chunk], c.length ≤ n) ↔ (overwrite chunk text).length ≤ n := by
    intro n
    rw [length_overwrite, Nat.max_le, ← reused.bound_iff n, List.forall_mem_append, List.forall_mem_singleton,
      and_comm]
  refine ⟨(bounded _).mpr (Nat.le_refl _), fun n => (bounded n).mp, ?_⟩
  rw [List.append_singleton_inj, overwrite_eq_chunk_iff, reused.fresh, ← reused.bound_iff, List.pairwise_append]
  simp

def placed : Nat → List (List β) → List (Nat × List β)
  | _, [] => []
  | offset, chunk :: chunks => (offset, chunk) :: placed (offset + chunk.length) chunks

theorem placed_concat (offset : Nat) (chunks : List (List β)) (chunk : List β) :
    placed offset (chunks ++ [chunk]) =
      placed offset chunks ++ [(offset + chunks.flatten.length, chunk)] := by
  induction chunks generalizing offset with
  | nil => rfl
  | cons first chunks ih =>
    rw [List.cons_append, placed, placed, ih, List.flatten_cons, List.length_append, Nat.add_assoc]
    rfl

end Buffer
