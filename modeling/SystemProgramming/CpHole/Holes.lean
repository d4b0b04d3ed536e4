import SystemProgramming.CpHole.Fresh

namespace SystemProgramming.CpHole

open SparseFile Transition

def FullRead (s : State) : Outcome → Prop
  | .count n => s.pc = .read → n = min BUF_SIZE s.input.length
  | .done | .error _ => True

instance (s : State) : (outcome : Outcome) → Decidable (FullRead s outcome)
  | .count n => inferInstanceAs (Decidable (s.pc = .read → n = min BUF_SIZE s.input.length))
  | .done | .error _ => isTrue trivial

variable {source : List Byte}

theorem step_input {s t : State} {outcome : Outcome} (taken : step s outcome = some t) :
    chunkRead s outcome = [] ∧ t.input = s.input ∨
      ∃ n, s.pc = .read ∧ outcome = .count n ∧ 0 < n ∧ t.input = s.input.drop n := by
  by_cases reading : s.pc = .read
  · unfold step at taken
    rw [reading] at taken
    cases outcome with
    | done => cases taken
    | error errno =>
      cases taken
      left
      unfold chunkRead
      rw [reading]
      exact ⟨rfl, rfl⟩
    | count n =>
      dsimp only at taken
      split at taken
      · cases taken
        by_cases positive : 0 < n
        · rw [if_pos positive]
          exact .inr ⟨n, reading, rfl, positive, rfl⟩
        · rw [if_neg positive]
          left
          unfold chunkRead
          rw [reading]
          exact ⟨if_neg positive, rfl⟩
      · cases taken
  · refine .inl ⟨chunkRead_other reading outcome, ?_⟩
    unfold step at taken
    split at taken
    · contradiction
    all_goals
      cases outcome <;> try dsimp only at taken
      all_goals try split at taken
      all_goals cases taken
      all_goals rfl

structure Blocks (chunks : List (List Byte)) (s : State) : Prop where
  full : ∀ chunk ∈ chunks.dropLast, chunk.length = BUF_SIZE
  last : s.input ≠ [] → ∀ chunk ∈ chunks, chunk.length = BUF_SIZE

theorem Blocks.step {chunks : List (List Byte)} {s t : State} {outcome : Outcome}
    (blocks : Blocks chunks s) (full : FullRead s outcome) (taken : step s outcome = some t) :
    Blocks (chunks ++ chunkRead s outcome) t := by
  rcases step_input taken with quiet | read
  · rcases quiet with ⟨nothing, same⟩
    rw [nothing, List.append_nil]
    exact ⟨blocks.full, same ▸ blocks.last⟩
  · rcases read with ⟨n, reading, rfl, positive, rest⟩
    have size : n = min BUF_SIZE s.input.length := full reading
    have input : s.input ≠ [] := by
      intro empty
      rw [empty, List.length_nil] at size
      omega
    rw [chunkRead_read reading positive]
    refine ⟨?_, ?_⟩
    · rw [List.dropLast_concat]
      exact blocks.last input
    · intro more chunk member
      rcases List.mem_append.mp member with earlier | now
      · exact blocks.last input chunk earlier
      · rw [rest, ne_eq, List.drop_eq_nil_iff] at more
        rw [List.mem_singleton.mp now, List.length_take]
        omega

theorem blocks_of_run {old : SparseFile Byte} {buf : List Byte} {outcomes : List Outcome} {s : State}
    (full : Along step FullRead outcomes (initial source old buf))
    (run : exec step outcomes (initial source old buf) = some s) :
    Blocks (trace step chunkRead outcomes (initial source old buf)) s := by
  apply exec_trace (I := Blocks) ?_ ⟨nofun, nofun⟩ full run
  intro seen r outcome t blocks ok taken
  exact blocks.step ok taken

theorem block_copied {buf : List Byte} {outcomes : List Outcome} {s : State}
    (clean : Along step NoFailure outcomes (initial source [] buf))
    (full : Along step FullRead outcomes (initial source [] buf))
    (run : exec step outcomes (initial source [] buf) = some s) (exited : s.pc = .exited .success)
    (i : Nat) : block BUF_SIZE i s.outFile = sparse 0 (block BUF_SIZE i source) := by
  have blocks := blocks_of_run full run
  have bound : ∀ chunk ∈ trace step chunkRead outcomes (initial source [] buf), chunk.length ≤ BUF_SIZE :=
    fun chunk member => (chunks_bound run chunk member).2
  rcases (recorded_of_run clean run).finished exited with ⟨split, -, file⟩
  have reading := block_flatten blocks.full bound i
  rw [split] at reading
  have writing : block BUF_SIZE i ((trace step chunkRead outcomes (initial source [] buf)).map
      (sparse 0)).flatten = ((trace step chunkRead outcomes (initial source [] buf)).map
        (sparse 0))[i]?.getD [] := by
    refine block_flatten ?_ ?_ i
    · intro cells member
      rw [← List.map_dropLast] at member
      rcases List.mem_map.mp member with ⟨chunk, inside, rfl⟩
      rw [length_sparse]
      exact blocks.full chunk inside
    · intro cells member
      rcases List.mem_map.mp member with ⟨chunk, inside, rfl⟩
      rw [length_sparse]
      exact bound chunk inside
  rw [file, List.flatMap_def, writing, reading, List.getElem?_map]
  cases (trace step chunkRead outcomes (initial source [] buf))[i]? with
  | none => rfl
  | some chunk => rfl

/-- A block of the copy is a hole when the one of the source reads as zeros, so the holes are kept;
    each other block is stored as a whole. -/
theorem holes_kept (source : SparseFile Byte) (buf : List Byte) (outcomes : List Outcome) (s : State)
    (clean : Along step NoFailure outcomes (initial (content 0 source) [] buf))
    (full : Along step FullRead outcomes (initial (content 0 source) [] buf))
    (run : exec step outcomes (initial (content 0 source) [] buf) = some s)
    (exited : s.pc = .exited .success) (i : Nat) :
    (IsHole (block BUF_SIZE i s.outFile) ↔ ∀ byte ∈ content 0 (block BUF_SIZE i source), byte = 0) ∧
      (IsHole (block BUF_SIZE i source) → IsHole (block BUF_SIZE i s.outFile)) ∧
      (¬ IsHole (block BUF_SIZE i s.outFile) → Stored (block BUF_SIZE i s.outFile)) := by
  have copied := block_copied clean full run exited i
  rw [← content_block] at copied
  have hole : IsHole (block BUF_SIZE i s.outFile) ↔
      ∀ byte ∈ content 0 (block BUF_SIZE i source), byte = 0 := by
    rw [copied]
    exact sparse_eq_none
  refine ⟨hole, fun kept => hole.mpr kept.content, ?_⟩
  intro other cell member
  rw [copied, sparse] at member
  split at member
  · rcases List.mem_map.mp member with ⟨byte, -, rfl⟩
    exact Option.some_ne_none byte
  · rename_i blanks
    refine absurd ?_ other
    rw [copied, sparse, if_neg blanks]
    exact fun cell inside => List.eq_of_mem_replicate inside

def oneBlock : List Outcome := [.count 1, .done, .count 0, .done, .done]

theorem holes_kept_oneBlock :
    ∃ s, exec step oneBlock (initial (content 0 [none]) [] []) = some s ∧
      IsHole (block BUF_SIZE 0 s.outFile) := by
  refine ⟨_, rfl, ?_⟩
  have hole : IsHole (block BUF_SIZE 0 [(none : Option Byte)]) := by
    show IsHole [none]
    simp [IsHole]
  exact (holes_kept [none] [] oneBlock _ (by decide) (by decide) rfl rfl 0).2.1 hole

theorem stored_zeros_dropped :
    ¬ ∀ (source : SparseFile Byte) (buf : List Byte) (outcomes : List Outcome) (s : State),
      (∀ i, IsHole (block BUF_SIZE i source) ∨ Stored (block BUF_SIZE i source)) →
        Along step NoFailure outcomes (initial (content 0 source) [] buf) →
          Along step FullRead outcomes (initial (content 0 source) [] buf) →
            exec step outcomes (initial (content 0 source) [] buf) = some s →
              s.pc = .exited .success →
                ∀ i, IsHole (block BUF_SIZE i s.outFile) ↔ IsHole (block BUF_SIZE i source) := by
  intro always
  have stored : ∀ i, Stored (block BUF_SIZE i [some (0 : Byte)]) := by
    intro i cell member
    have inside := List.mem_of_mem_drop (List.mem_of_mem_take member)
    rw [List.mem_singleton] at inside
    rw [inside]
    exact Option.some_ne_none 0
  have same := always [some 0] [] oneBlock _ (fun i => .inr (stored i)) (by decide) (by decide) rfl rfl 0
  have hole : IsHole (block BUF_SIZE 0 [some (0 : Byte)]) := by
    apply same.mp
    show IsHole [none]
    simp [IsHole]
  cases hole (some 0) (by simp [block, BUF_SIZE])

end SystemProgramming.CpHole
