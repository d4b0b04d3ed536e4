import SystemProgramming.CpHole.Model

namespace SystemProgramming.CpHole

open SparseFile Transition

variable {source : List Byte} {old : SparseFile Byte}

inductive Move (s : State) : Outcome → State → Prop where
  | ended (at_ : s.pc = .read) (nothing : s.input = []) : Move s (.count 0) { s with pc := .tell }
  | blank (n : Nat) (at_ : s.pc = .read) (inside : n ≤ s.input.length) (bound : n ≤ BUF_SIZE)
      (zeros : s.input.take n = zero.take n) :
      Move s (.count n) { s with
        pc := .lseek n
        input := s.input.drop n
        buf := Buffer.overwrite (s.input.take n) s.buf }
  | filled (n : Nat) (at_ : s.pc = .read) (inside : n ≤ s.input.length)
      (other : s.input.take n ≠ zero.take n) :
      Move s (.count n) { s with
        pc := .write n
        input := s.input.drop n
        buf := Buffer.overwrite (s.input.take n) s.buf }
  | skipped (n : Nat) (at_ : s.pc = .lseek n) :
      Move s .done { s with pc := .read, offset := s.offset + n }
  | wrote (n : Nat) (at_ : s.pc = .write n) :
      Move s (.count n) { s with
        pc := .read
        outFile := s.outFile.write s.offset (s.buf.take n)
        offset := s.offset + n }
  | told (at_ : s.pc = .tell) : Move s .done { s with pc := .ftruncate s.offset }
  | truncated (len : Int) (at_ : s.pc = .ftruncate len) (natural : 0 ≤ len) :
      Move s .done { s with pc := .exited .success, outFile := s.outFile.resize len.toNat }

theorem take_zero {n : Nat} (bound : n ≤ BUF_SIZE) : zero.take n = List.replicate n 0 := by
  rw [zero, List.take_replicate, Nat.min_eq_left bound]

theorem step_moves {s t : State} {outcome : Outcome} (ok : NoFailure s outcome)
    (taken : step s outcome = some t) : Move s outcome t := by
  unfold step at taken
  split at taken
  case h_1 at_ =>
    cases outcome with
    | done => cases taken
    | error errno => exact ok.elim
    | count n =>
      dsimp only at taken
      split at taken
      · rename_i counted
        rcases counted with ⟨bound, inside, atEnd⟩
        cases taken
        by_cases positive : 0 < n
        · rw [if_pos positive, readChunk]
          have chunk := Buffer.take_overwrite_take s.input s.buf inside
          by_cases zeros : s.input.take n = zero.take n
          · simp only [chunk, if_pos zeros]
            exact .blank n at_ inside bound zeros
          · simp only [chunk, if_neg zeros]
            exact .filled n at_ inside zeros
        · have none_left : n = 0 := by omega
          subst none_left
          exact .ended at_ (atEnd.mp rfl)
      · cases taken
  case h_2 n at_ =>
    cases outcome with
    | done =>
      cases taken
      exact .skipped n at_
    | error errno => exact ok.elim
    | count k => cases taken
  case h_3 n at_ =>
    cases outcome with
    | done => cases taken
    | error errno => exact ok.elim
    | count k =>
      have whole : k = n := ok n at_
      subst whole
      simp only [Nat.le_refl, if_true, ne_eq, not_true_eq_false, if_false] at taken
      cases taken
      exact .wrote k at_
  case h_4 at_ =>
    cases outcome with
    | done =>
      cases taken
      exact .told at_
    | error errno => exact ok.elim
    | count k => cases taken
  case h_5 len at_ =>
    cases outcome with
    | done =>
      dsimp only at taken
      split at taken
      · rename_i natural
        cases taken
        exact .truncated len at_ natural
      · cases taken
    | error errno => exact ok.elim
    | count k => cases taken
  case h_6 => cases taken

def Phase (source : List Byte) (s : State) : Prop :=
  match s.pc with
  | .read => s.input = source.drop s.offset ∧ s.offset ≤ source.length
  | .lseek n => s.input = source.drop (s.offset + n) ∧ s.offset + n ≤ source.length ∧
      (source.drop s.offset).take n = zero.take n ∧ n ≤ BUF_SIZE
  | .write n => s.input = source.drop (s.offset + n) ∧ s.offset + n ≤ source.length ∧
      s.buf.take n = (source.drop s.offset).take n
  | .tell => s.offset = source.length
  | .ftruncate len => s.offset = source.length ∧ len = s.offset
  | .exited .success => s.offset = source.length ∧ s.outFile.length = s.offset
  | .exited .failure => False

theorem length_chunk {buf : List Byte} {offset n : Nat} (whole : offset + n ≤ source.length)
    (chunk : buf.take n = (source.drop offset).take n) : (buf.take n).length = n := by
  rw [chunk, List.length_take, List.length_drop]
  omega

structure Copying (source : List Byte) (old : SparseFile Byte) (s : State) : Prop where
  behind : (∀ status, s.pc ≠ .exited status) → s.outFile.drop s.offset = old.drop s.offset
  phase : Phase source s

theorem copying_initial (source : List Byte) (old : SparseFile Byte) (buf : List Byte) :
    Copying source old (initial source old buf) where
  behind := fun _ => rfl
  phase := ⟨rfl, Nat.zero_le _⟩

theorem Move.copying {s t : State} {outcome : Outcome} (copying : Copying source old s)
    (move : Move s outcome t) : Copying source old t := by
  have phase := copying.phase
  have behind : ∀ pc, s.pc = pc → (∀ status, pc ≠ .exited status) →
      s.outFile.drop s.offset = old.drop s.offset := by
    intro pc at_ running
    exact copying.behind (at_ ▸ running)
  unfold Phase at phase
  cases move with
  | ended at_ nothing =>
    rw [at_] at phase
    rcases phase with ⟨rest, bound⟩
    rw [nothing, eq_comm, List.drop_eq_nil_iff] at rest
    exact ⟨fun _ => behind .read at_ nofun, Nat.le_antisymm bound rest⟩
  | blank n at_ inside bound zeros =>
    rw [at_] at phase
    rcases phase with ⟨rest, whole⟩
    rw [rest] at zeros inside
    rw [List.length_drop] at inside
    refine ⟨fun _ => behind .read at_ nofun, ?_⟩
    exact ⟨by rw [rest, List.drop_drop], by show s.offset + n ≤ source.length; omega, zeros, bound⟩
  | filled n at_ inside other =>
    rw [at_] at phase
    rcases phase with ⟨rest, whole⟩
    have chunk := Buffer.take_overwrite_take s.input s.buf inside
    rw [rest, List.length_drop] at inside
    refine ⟨fun _ => behind .read at_ nofun, ?_⟩
    exact ⟨by rw [rest, List.drop_drop], by show s.offset + n ≤ source.length; omega,
      by rw [chunk, rest]⟩
  | skipped n at_ =>
    rw [at_] at phase
    refine ⟨?_, phase.1, phase.2.1⟩
    intro _
    have same := behind (.lseek n) at_ nofun
    show s.outFile.drop (s.offset + n) = old.drop (s.offset + n)
    rw [← List.drop_drop, same, List.drop_drop]
  | wrote n at_ =>
    rw [at_] at phase
    rcases phase with ⟨rest, whole, chunk⟩
    refine ⟨?_, rest, whole⟩
    intro _
    have same := behind (.write n) at_ nofun
    have size := length_chunk whole chunk
    show (s.outFile.write s.offset (s.buf.take n)).drop (s.offset + n) = old.drop (s.offset + n)
    have written := drop_write s.outFile s.offset (s.buf.take n)
    rw [size] at written
    rw [written, ← List.drop_drop, same, List.drop_drop]
  | told at_ =>
    rw [at_] at phase
    exact ⟨fun _ => behind .tell at_ nofun, phase, rfl⟩
  | truncated len at_ natural =>
    rw [at_] at phase
    rcases phase with ⟨whole, told⟩
    refine ⟨fun running => absurd rfl (running .success), whole, ?_⟩
    show (s.outFile.resize len.toNat).length = s.offset
    rw [length_resize, told, Int.toNat_natCast]

def State.copied (s : State) : List Byte := content 0 (s.outFile.resize s.offset)

/-- Where the program skips a chunk of zeros, the old file reads as zeros, or has ended. -/
def Blank (old : SparseFile Byte) (s : State) (_ : Outcome) : Prop :=
  ∀ n, s.pc = .lseek n → ∀ byte ∈ ((content 0 old).drop s.offset).take n, byte = 0

instance (s : State) (outcome : Outcome) : Decidable (Blank old s outcome) :=
  match at_ : s.pc with
  | .lseek n =>
    decidable_of_iff (∀ byte ∈ ((content 0 old).drop s.offset).take n, byte = 0) (by simp [Blank, at_])
  | .read | .write _ | .tell | .ftruncate _ | .exited _ => isTrue (by simp [Blank, at_])

theorem Move.copied {s t : State} {outcome : Outcome} (copying : Copying source old s)
    (move : Move s outcome t) :
    t.copied = source.take t.offset ↔ s.copied = source.take s.offset ∧ Blank old s outcome := by
  have phase := copying.phase
  unfold Phase at phase
  have plain : (∀ n, s.pc ≠ .lseek n) → Blank old s outcome := fun other n at_ => absurd at_ (other n)
  cases move with
  | skipped n at_ =>
    rw [at_] at phase
    rcases phase with ⟨-, whole, zeros, bound⟩
    have same : s.outFile.drop s.offset = old.drop s.offset :=
      copying.behind (by intro status; rw [at_]; exact nofun)
    have upTo : content 0 (s.outFile.resize (s.offset + n)) =
        s.copied ++ content 0 (resize (old.drop s.offset) n) := by
      rw [resize_add, content_append, same]
      rfl
    have next : source.take (s.offset + n) = source.take s.offset ++ List.replicate n 0 := by
      rw [List.take_add, zeros, take_zero bound]
    have size : s.copied.length = (source.take s.offset).length := by
      rw [State.copied, length_content, length_resize, List.length_take]
      omega
    show content 0 (s.outFile.resize (s.offset + n)) = source.take (s.offset + n) ↔ _
    rw [upTo, next]
    constructor
    · intro both
      rcases List.append_inj both size with ⟨before, blank⟩
      refine ⟨before, ?_⟩
      intro m at_m
      rw [at_] at at_m
      cases at_m
      rw [content_resize_blank, content_drop] at blank
      exact blank
    · intro both
      rcases both with ⟨before, blank⟩
      have zeros_there := blank n at_
      rw [← content_drop, ← content_resize_blank] at zeros_there
      rw [before, zeros_there]
  | wrote n at_ =>
    rw [at_] at phase
    rcases phase with ⟨-, whole, chunk⟩
    have size := length_chunk whole chunk
    have upTo : content 0 ((s.outFile.write s.offset (s.buf.take n)).resize (s.offset + n)) =
        s.copied ++ s.buf.take n := by
      have written := resize_write s.outFile s.offset (s.buf.take n)
      rw [size] at written
      rw [written, content_append, content_written]
      rfl
    rw [and_iff_left (plain (by simp [at_]))]
    show content 0 ((s.outFile.write s.offset (s.buf.take n)).resize (s.offset + n)) =
      source.take (s.offset + n) ↔ _
    rw [upTo, List.take_add, ← chunk, List.append_left_inj]
  | truncated len at_ natural =>
    rw [at_] at phase
    rw [and_iff_left (plain (by simp [at_]))]
    have again : (s.outFile.resize len.toNat).resize s.offset = s.outFile.resize s.offset := by
      rw [phase.2, Int.toNat_natCast, resize_resize]
    show content 0 ((s.outFile.resize len.toNat).resize s.offset) = _ ↔ _
    rw [again]
    rfl
  | ended at_ _ | blank n at_ _ _ _ | filled n at_ _ _ | told at_ =>
    rw [and_iff_left (plain (by simp [at_]))]
    rfl

/-- Without failing calls the copy is right if and only if each chunk of zeros that is skipped falls
    on zeros of the old file or behind its end. -/
theorem copied_iff_blank (source : List Byte) (old : SparseFile Byte) (buf : List Byte)
    (outcomes : List Outcome) (s : State)
    (clean : Along step NoFailure outcomes (initial source old buf))
    (run : exec step outcomes (initial source old buf) = some s)
    (exited : s.pc = .exited .success) :
    content 0 s.outFile = source ↔ Along step (Blank old) outcomes (initial source old buf) := by
  have kept : ∀ s outcome t, Copying source old s → NoFailure s outcome →
      step s outcome = some t → Copying source old t :=
    fun _ _ _ copying ok taken => (step_moves ok taken).copying copying
  have copying : Copying source old s :=
    exec_invariant kept (copying_initial source old buf) clean run
  have phase := copying.phase
  unfold Phase at phase
  rw [exited] at phase
  have whole : s.copied = content 0 s.outFile := by
    rw [State.copied, ← phase.2, resize_self]
  have all : source.take s.offset = source := by rw [phase.1, List.take_length]
  have tracked : s.copied = source.take s.offset ↔
      (initial source old buf).copied = source.take 0 ∧
        Along step (Blank old) outcomes (initial source old buf) :=
    along_iff_of_along kept (fun _ _ _ copying ok taken => (step_moves ok taken).copied copying)
      (copying_initial source old buf) clean run
  rw [whole, all] at tracked
  rw [tracked, and_iff_right_iff_imp]
  intro _
  rw [State.copied, initial, resize_zero]
  rfl

def twoChunks : List Outcome := [.count 2, .done, .count 1, .count 1, .count 0, .done, .done]

theorem copied_iff_blank_twoChunks :
    ∃ s, exec step twoChunks (initial [0, 0, 7] [some 0, none, some 5, some 5] []) = some s ∧
      content 0 s.outFile = [0, 0, 7] := by
  refine ⟨_, rfl, ?_⟩
  exact (copied_iff_blank [0, 0, 7] [some 0, none, some 5, some 5] [] twoChunks _ (by decide) rfl
    rfl).mpr (by decide)

theorem twoChunks_keeps_old :
    ¬ ∀ (source : List Byte) (old : SparseFile Byte) (buf : List Byte) (outcomes : List Outcome)
      (s : State), Along step NoFailure outcomes (initial source old buf) →
        exec step outcomes (initial source old buf) = some s → s.pc = .exited .success →
          content 0 s.outFile = source := by
  intro always
  have copied := always [0, 0, 7] [some 1, some 2, some 3] [] twoChunks _ (by decide) rfl rfl
  cases copied

end SystemProgramming.CpHole
