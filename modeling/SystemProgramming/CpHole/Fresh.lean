import SystemProgramming.CpHole.Existing

namespace SystemProgramming.CpHole

open SparseFile Transition

def chunkRead (s : State) (outcome : Outcome) : List (List Byte) :=
  match s.pc, outcome with
  | .read, .count n => if 0 < n then [s.input.take n] else []
  | _, _ => []

def rangeWritten (s : State) (outcome : Outcome) : List (Nat × List Byte) :=
  match s.pc, outcome with
  | .write _, .count k => [(s.offset, s.buf.take k)]
  | _, _ => []

theorem chunkRead_read {s : State} {n : Nat} (at_ : s.pc = .read) (positive : 0 < n) :
    chunkRead s (.count n) = [s.input.take n] := by
  unfold chunkRead
  rw [at_]
  exact if_pos positive

theorem chunkRead_other {s : State} (elsewhere : s.pc ≠ .read) (outcome : Outcome) :
    chunkRead s outcome = [] := by
  unfold chunkRead
  split
  · rename_i at_
    exact absurd at_ elsewhere
  · rfl

theorem rangeWritten_write {s : State} {n : Nat} (at_ : s.pc = .write n) (k : Nat) :
    rangeWritten s (.count k) = [(s.offset, s.buf.take k)] := by
  unfold rangeWritten
  rw [at_]

theorem rangeWritten_other {s : State} (elsewhere : ∀ n, s.pc ≠ .write n) (outcome : Outcome) :
    rangeWritten s outcome = [] := by
  unfold rangeWritten
  split
  · rename_i at_
    exact absurd at_ (elsewhere _)
  · rfl

variable {source : List Byte}

theorem step_read {s t : State} {n : Nat} (at_ : s.pc = .read) (taken : step s (.count n) = some t) :
    ReadCount s.input n := by
  unfold step at taken
  rw [at_] at taken
  dsimp only at taken
  split at taken
  · assumption
  · cases taken

theorem chunkRead_bound {s t : State} {outcome : Outcome} (taken : step s outcome = some t) :
    ∀ chunk ∈ chunkRead s outcome, 1 ≤ chunk.length ∧ chunk.length ≤ BUF_SIZE := by
  intro chunk member
  unfold chunkRead at member
  split at member
  · rename_i n at_
    rcases step_read at_ taken with ⟨bound, inside, -⟩
    split at member
    · rw [List.mem_singleton] at member
      rw [member, List.length_take_of_le inside]
      omega
    · cases member
  · cases member

def pending (source : List Byte) (s : State) : List (List Byte) :=
  match s.pc with
  | .lseek n | .write n => [(source.drop s.offset).take n]
  | .read | .tell | .ftruncate _ | .exited _ => []

structure Recorded (source : List Byte) (chunks : List (List Byte)) (ranges : List (Nat × List Byte))
    (s : State) : Prop where
  copying : Copying source [] s
  other : ∀ n, s.pc = .write n → ((source.drop s.offset).take n).any (· ≠ 0) = true
  history : ∃ copied, chunks = copied ++ pending source s ∧ copied.flatten = source.take s.offset ∧
    ranges = (Buffer.placed 0 copied).filter (fun range => range.2.any (· ≠ 0)) ∧
    s.outFile.resize s.offset = copied.flatMap (sparse 0)

theorem recorded_initial (source buf : List Byte) : Recorded source [] [] (initial source [] buf) where
  copying := copying_initial source [] buf
  other := nofun
  history := ⟨[], rfl, rfl, rfl, rfl⟩

variable {chunks : List (List Byte)} {ranges : List (Nat × List Byte)}

theorem Recorded.reading {s t : State} {n : Nat} (recorded : Recorded source chunks ranges s)
    (kept : Copying source [] t) (at_ : s.pc = .read) (positive : 0 < n)
    (next : t.pc = .lseek n ∨ t.pc = .write n ∧ (s.input.take n).any (· ≠ 0) = true)
    (offset : t.offset = s.offset) (file : t.outFile = s.outFile) :
    Recorded source (chunks ++ chunkRead s (.count n)) (ranges ++ rangeWritten s (.count n)) t := by
  rcases recorded.history with ⟨copied, all, upTo, written, stored⟩
  have rest : s.input = source.drop s.offset := by
    have phase := recorded.copying.phase
    unfold Phase at phase
    rw [at_] at phase
    exact phase.1
  have read : chunkRead s (.count n) = [(source.drop s.offset).take n] := by
    rw [chunkRead_read at_ positive, rest]
  have quiet : rangeWritten s (.count n) = [] := rangeWritten_other (by simp [at_]) _
  have none_pending : pending source s = [] := by rw [pending, at_]
  refine ⟨kept, ?_, copied, ?_, ?_, ?_, ?_⟩
  · intro m at_m
    rcases next with skip | write
    · rw [skip] at at_m
      cases at_m
    · rw [write.1] at at_m
      cases at_m
      rw [offset, ← rest]
      exact write.2
  · have now : pending source t = [(source.drop s.offset).take n] := by
      rcases next with skip | write
      · rw [pending, skip, offset]
      · rw [pending, write.1, offset]
    rw [all, none_pending, List.append_nil, read, now]
  · rw [offset]
    exact upTo
  · rw [quiet, List.append_nil]
    exact written
  · rw [offset, file]
    exact stored

theorem Recorded.copied {s t : State} {n : Nat} {chunk : List Byte} (pc : s.pc = .lseek n ∨ s.pc = .write n)
    {outcome : Outcome} (recorded : Recorded source chunks ranges s) (kept : Copying source [] t)
    (next : t.pc = .read) (whole : s.offset + n ≤ source.length)
    (same : (source.drop s.offset).take n = chunk) (offset : t.offset = s.offset + n)
    (file : t.outFile.resize t.offset = s.outFile.resize s.offset ++ sparse 0 chunk)
    (range : rangeWritten s outcome =
      [(s.offset, chunk)].filter (fun range => range.2.any (· ≠ 0))) :
    Recorded source (chunks ++ chunkRead s outcome) (ranges ++ rangeWritten s outcome) t := by
  rcases recorded.history with ⟨copied, all, upTo, written, stored⟩
  have read : chunkRead s outcome = [] := by
    apply chunkRead_other
    rcases pc with skip | write
    · simp [skip]
    · simp [write]
  have was_pending : pending source s = [chunk] := by
    rcases pc with skip | write
    · rw [pending, skip, ← same]
    · rw [pending, write, ← same]
  have none_pending : pending source t = [] := by rw [pending, next]
  have place : copied.flatten.length = s.offset := by
    rw [upTo, List.length_take]
    omega
  refine ⟨kept, ?_, copied ++ [chunk], ?_, ?_, ?_, ?_⟩
  · intro m at_m
    rw [next] at at_m
    cases at_m
  · rw [read, List.append_nil, all, was_pending, none_pending, List.append_nil]
  · rw [List.flatten_concat, upTo, offset, List.take_add, same]
  · rw [Buffer.placed_concat, Nat.zero_add, place, List.filter_append, written, range]
  · rw [file, stored, List.flatMap_append, List.flatMap_singleton]

theorem Recorded.closing {s t : State} {outcome : Outcome} (recorded : Recorded source chunks ranges s)
    (kept : Copying source [] t) (read : chunkRead s outcome = []) (quiet : rangeWritten s outcome = [])
    (before : pending source s = []) (after : pending source t = []) (idle : ∀ n, t.pc ≠ .write n)
    (offset : t.offset = s.offset)
    (file : t.outFile.resize s.offset = s.outFile.resize s.offset) :
    Recorded source (chunks ++ chunkRead s outcome) (ranges ++ rangeWritten s outcome) t := by
  rcases recorded.history with ⟨copied, all, upTo, written, stored⟩
  rw [read, quiet, List.append_nil, List.append_nil]
  refine ⟨kept, fun n at_n => absurd at_n (idle n), copied, ?_, ?_, written, ?_⟩
  · rw [all, before, after]
  · rw [offset]
    exact upTo
  · rw [offset, file, stored]

theorem Move.recorded {s t : State} {outcome : Outcome} (recorded : Recorded source chunks ranges s)
    (taken : step s outcome = some t) (move : Move s outcome t) :
    Recorded source (chunks ++ chunkRead s outcome) (ranges ++ rangeWritten s outcome) t := by
  have kept := move.copying recorded.copying
  have phase := recorded.copying.phase
  unfold Phase at phase
  cases move with
  | ended at_ nothing =>
    refine recorded.closing kept ?_ ?_ ?_ ?_ nofun rfl rfl
    · unfold chunkRead
      rw [at_]
      rfl
    · exact rangeWritten_other (by simp [at_]) _
    · rw [pending, at_]
    · rw [pending]
  | blank n at_ inside bound zeros =>
    have positive : 0 < n := by
      by_contra none_read
      unfold step at taken
      simp [at_, none_read] at taken
    exact recorded.reading kept at_ positive (.inl rfl) rfl rfl
  | filled n at_ inside other =>
    rcases step_read at_ taken with ⟨bound, -, -⟩
    have positive : 0 < n := by
      by_contra none_read
      have nothing : n = 0 := by omega
      exact other (by rw [nothing, List.take_zero, List.take_zero])
    refine recorded.reading kept at_ positive (.inr ⟨rfl, ?_⟩) rfl rfl
    rw [← Bool.not_eq_false, any_ne_eq_false, List.length_take_of_le inside, ← take_zero bound]
    exact other
  | skipped n at_ =>
    rw [at_] at phase
    rcases phase with ⟨-, whole, zeros, bound⟩
    rw [take_zero bound] at zeros
    have blank : (List.replicate n (0 : Byte)).any (· ≠ 0) = false := by
      rw [any_ne_eq_false, List.length_replicate]
    refine recorded.copied (.inl at_) kept rfl whole zeros rfl ?_ ?_
    · have behind := recorded.copying.behind (by intro status; rw [at_]; exact nofun)
      show s.outFile.resize (s.offset + n) = _
      rw [resize_add, behind, List.drop_nil, resize_nil, sparse, blank, List.length_replicate]
      rfl
    · rw [rangeWritten_other (by simp [at_]), List.filter_singleton, blank]
      rfl
  | wrote n at_ =>
    have other := recorded.other n at_
    rw [at_] at phase
    rcases phase with ⟨-, whole, chunk⟩
    have size := length_chunk whole chunk
    rw [← chunk] at other
    refine recorded.copied (.inr at_) kept rfl whole chunk.symm rfl ?_ ?_
    · have upTo := resize_write s.outFile s.offset (s.buf.take n)
      rw [size] at upTo
      rw [upTo, sparse, if_pos other]
    · rw [rangeWritten_write at_, List.filter_singleton, other]
      rfl
  | told at_ =>
    refine recorded.closing kept ?_ ?_ ?_ ?_ nofun rfl rfl
    · exact chunkRead_other (by simp [at_]) _
    · exact rangeWritten_other (by simp [at_]) _
    · rw [pending, at_]
    · rw [pending]
  | truncated len at_ natural =>
    rw [at_] at phase
    refine recorded.closing kept ?_ ?_ ?_ ?_ nofun rfl ?_
    · exact chunkRead_other (by simp [at_]) _
    · exact rangeWritten_other (by simp [at_]) _
    · rw [pending, at_]
    · rw [pending]
    · show (s.outFile.resize len.toNat).resize s.offset = s.outFile.resize s.offset
      rw [phase.2, Int.toNat_natCast, resize_resize]

/-- A copy onto an empty file, by the chunks that the reads return. -/
theorem recorded_of_run {buf : List Byte} {outcomes : List Outcome} {s : State}
    (clean : Along step NoFailure outcomes (initial source [] buf))
    (run : exec step outcomes (initial source [] buf) = some s) :
    Recorded source (trace step chunkRead outcomes (initial source [] buf))
      (trace step rangeWritten outcomes (initial source [] buf)) s := by
  refine exec_history (I := fun taken t => Recorded source
    (trace step chunkRead taken (initial source [] buf))
    (trace step rangeWritten taken (initial source [] buf)) t) ?_ (recorded_initial source buf) clean run
  intro before r outcome t here recorded ok taken
  rw [trace_concat outcome here, trace_concat outcome here]
  exact (step_moves ok taken).recorded recorded taken

theorem Recorded.finished {s : State} (recorded : Recorded source chunks ranges s)
    (exited : s.pc = .exited .success) :
    chunks.flatten = source ∧ ranges = (Buffer.placed 0 chunks).filter (fun range => range.2.any (· ≠ 0)) ∧
      s.outFile = chunks.flatMap (sparse 0) := by
  rcases recorded.history with ⟨copied, all, upTo, written, stored⟩
  have phase := recorded.copying.phase
  unfold Phase at phase
  rw [exited] at phase
  rcases phase with ⟨whole, size⟩
  have none_pending : pending source s = [] := by rw [pending, exited]
  rw [none_pending, List.append_nil] at all
  subst all
  refine ⟨?_, written, ?_⟩
  · rw [upTo, whole, List.take_length]
  · rw [← stored, ← size, resize_self]

theorem chunks_bound {old : SparseFile Byte} {buf : List Byte} {outcomes : List Outcome} {s : State}
    (run : exec step outcomes (initial source old buf) = some s) :
    ∀ chunk ∈ trace step chunkRead outcomes (initial source old buf),
      1 ≤ chunk.length ∧ chunk.length ≤ BUF_SIZE := by
  apply exec_trace_always (I := fun (chunks : List (List Byte)) _ =>
    ∀ chunk ∈ chunks, 1 ≤ chunk.length ∧ chunk.length ≤ BUF_SIZE) ?_ nofun run
  intro seen r outcome t bounded taken chunk member
  rw [List.mem_append] at member
  rcases member with earlier | now
  · exact bounded chunk earlier
  · exact chunkRead_bound taken chunk now

/-- From the read of a chunk to the next `read`. -/
theorem exists_copy {s : State} {n : Nat} (inside : n ≤ s.input.length) :
    ∃ outcome t, NoFailure (readChunk s n) outcome ∧ chunkRead (readChunk s n) outcome = [] ∧
      step (readChunk s n) outcome = some t ∧ t.pc = .read ∧ t.input = s.input.drop n := by
  have chunk := Buffer.take_overwrite_take s.input s.buf inside
  by_cases zeros : s.input.take n = zero.take n
  · have at_ : (readChunk s n).pc = .lseek n := by simp only [readChunk, chunk, if_pos zeros]
    refine ⟨.done, { readChunk s n with pc := .read, offset := s.offset + n }, trivial,
      chunkRead_other (by simp [at_]) _, ?_, rfl, rfl⟩
    rw [step, at_]
    rfl
  · have at_ : (readChunk s n).pc = .write n := by simp only [readChunk, chunk, if_neg zeros]
    refine ⟨.count n, { readChunk s n with
        pc := .read
        outFile := s.outFile.write s.offset ((readChunk s n).buf.take n)
        offset := s.offset + n }, ?_, chunkRead_other (by simp [at_]) _, ?_, rfl, rfl⟩
    · intro m at_m
      rw [at_] at at_m
      cases at_m
      rfl
    · rw [step, at_]
      simp [readChunk]

/-- Each split of what is left into chunks that a `read` can return is the one of some run, and the
    run gets to its end. -/
theorem exists_run_of_split {s : State} (at_ : s.pc = .read) (split : s.input = chunks.flatten)
    (sizes : ∀ chunk ∈ chunks, 1 ≤ chunk.length ∧ chunk.length ≤ BUF_SIZE) :
    ∃ outcomes t, Along step NoFailure outcomes s ∧ exec step outcomes s = some t ∧
      t.pc = .exited .success ∧ trace step chunkRead outcomes s = chunks := by
  induction chunks generalizing s with
  | nil =>
    rcases s with ⟨pc, input, buf, outFile, offset⟩
    cases at_
    cases split
    refine ⟨[.count 0, .done, .done], ⟨.exited .success, [], buf, outFile.resize offset, offset⟩,
      ?_, ?_, rfl, ?_⟩
    · simp [Along, step, NoFailure]
    · simp [step, ReadCount]
    · simp [trace, step, ReadCount, chunkRead]
  | cons chunk chunks ih =>
    rcases sizes chunk List.mem_cons_self with ⟨positive, bound⟩
    rw [List.flatten_cons] at split
    have inside : chunk.length ≤ s.input.length := by
      rw [split, List.length_append]
      omega
    have read : step s (.count chunk.length) = some (readChunk s chunk.length) := by
      have returned : ReadCount s.input chunk.length := by
        refine ⟨bound, inside, ?_⟩
        rw [← List.length_eq_zero_iff]
        omega
      rw [step, at_]
      simp only [if_pos returned, if_pos (show 0 < chunk.length from positive)]
    rcases exists_copy inside with ⟨outcome, m, ok, quiet, copied, again, left⟩
    rw [split, List.drop_left] at left
    rcases ih again left (fun c member => sizes c (List.mem_cons_of_mem _ member)) with
      ⟨outcomes, t, clean, run, exited, chunks_read⟩
    refine ⟨.count chunk.length :: outcome :: outcomes, t, ?_, ?_, exited, ?_⟩
    · simp only [Along, read, copied, Option.some.injEq, forall_eq']
      refine ⟨?_, ok, clean⟩
      intro n at_n
      rw [at_] at at_n
      cases at_n
    · simp [read, copied, run]
    · simp only [trace, read, copied, Option.elim_some, quiet, chunks_read]
      rw [chunkRead_read at_ positive, split, List.take_left]
      rfl

/-- Onto an empty file, however the reads split the source, the program writes the chunks that hold a
    byte other than zero, each at its place, and no others; the file then reads as the source. -/
theorem ranges_written (source buf : List Byte) (outcomes : List Outcome) (s : State)
    (clean : Along step NoFailure outcomes (initial source [] buf))
    (run : exec step outcomes (initial source [] buf) = some s) (exited : s.pc = .exited .success) :
    let chunks := trace step chunkRead outcomes (initial source [] buf)
    chunks.flatten = source ∧ (∀ chunk ∈ chunks, 1 ≤ chunk.length ∧ chunk.length ≤ BUF_SIZE) ∧
      trace step rangeWritten outcomes (initial source [] buf) =
        (Buffer.placed 0 chunks).filter (fun range => range.2.any (· ≠ 0)) ∧
      s.outFile.length = source.length ∧ content 0 s.outFile = source := by
  intro chunks
  have recorded := recorded_of_run clean run
  rcases recorded.finished exited with ⟨split, written, file⟩
  have reads : content 0 s.outFile = source := by rw [file, content_flatMap_sparse, split]
  refine ⟨split, chunks_bound run, written, ?_, reads⟩
  rw [← length_content 0 s.outFile, reads]

def zerosBehind : List Outcome := [.count 2, .count 2, .count 3, .done, .count 0, .done, .done]

theorem ranges_written_zerosBehind :
    ∃ s, exec step zerosBehind (initial [0, 7, 0, 0, 0] [] []) = some s ∧
      trace step rangeWritten zerosBehind (initial [0, 7, 0, 0, 0] [] []) = [(0, [0, 7])] ∧
      content 0 s.outFile = [0, 7, 0, 0, 0] := by
  refine ⟨_, rfl, ?_⟩
  have result := ranges_written [0, 7, 0, 0, 0] [] zerosBehind _ (by decide) rfl rfl
  exact ⟨result.2.2.1.trans (by decide), result.2.2.2.2⟩

end SystemProgramming.CpHole
