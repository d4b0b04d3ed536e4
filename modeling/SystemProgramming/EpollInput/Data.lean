import SystemProgramming.EpollInput.Counting

namespace SystemProgramming.EpollInput

open Transition

namespace Stream

def Drained (f : Stream) : Prop := f.Ended ∧ f.pending = []

inductive Grows (f : Stream) : Stream → Prop where
  | same : Grows f f
  | delivered (bytes : List Byte) (goesOn : ¬f.Ended) :
      Grows f { f with delivered := f.delivered ++ bytes, pending := f.pending ++ bytes }
  | hungUp : Grows f { f with hungUp := true }
  | failed : Grows f { f with failed := true }
  | read (n : Nat) : Grows f { f with
      pending := f.pending.drop n
      input := f.input ++ f.pending.take n
      printed := f.printed ++ (f.pending.take n).takeWhile (· ≠ 0) }

/-- Every byte is either read or still there, and what is printed is what has been read, zero bytes and what
    stands behind them in a chunk apart. -/
structure Accounted (f : Stream) : Prop where
  bytes : f.delivered = f.input ++ f.pending
  shorter : f.printed.length ≤ f.input.length
  whole : f.printed = f.input ↔ 0 ∉ f.input

variable {f g : Stream}

theorem Drained.grows (drained : f.Drained) (grows : f.Grows g) : g.Drained := by
  obtain ⟨ended, nothing⟩ := drained
  cases grows with
  | same => exact ⟨ended, nothing⟩
  | delivered bytes goesOn => exact absurd ended goesOn
  | hungUp => exact ⟨.inl rfl, nothing⟩
  | failed => exact ⟨.inr rfl, nothing⟩
  | read n => exact ⟨ended, by rw [nothing, List.drop_nil]⟩

theorem takeWhile_eq_chunk_iff (chunk : List Byte) : chunk.takeWhile (· ≠ 0) = chunk ↔ 0 ∉ chunk := by
  rw [List.takeWhile_eq_self_iff]
  constructor
  · intro plain member
    exact absurd (plain 0 member) (by decide)
  · intro plain b member
    rw [decide_eq_true_eq]
    rintro rfl
    exact plain member

theorem Accounted.grows (accounted : f.Accounted) (grows : f.Grows g) : g.Accounted := by
  obtain ⟨bytes, shorter, whole⟩ := accounted
  cases grows with
  | same => exact ⟨bytes, shorter, whole⟩
  | delivered more goesOn => exact ⟨by rw [bytes, List.append_assoc], shorter, whole⟩
  | hungUp => exact ⟨bytes, shorter, whole⟩
  | failed => exact ⟨bytes, shorter, whole⟩
  | read n =>
    have part := (List.takeWhile_prefix (· ≠ (0 : Byte)) (l := f.pending.take n)).length_le
    refine ⟨?_, ?_, ?_⟩
    · dsimp only
      rw [bytes, List.append_assoc, List.take_append_drop]
    · dsimp only
      rw [List.length_append, List.length_append]
      exact Nat.add_le_add shorter part
    · dsimp only
      rw [List.mem_append, not_or, ← whole, ← takeWhile_eq_chunk_iff]
      constructor
      · intro same
        have sizes := congrArg List.length same
        rw [List.length_append, List.length_append] at sizes
        exact List.append_inj same (by omega)
      · rintro ⟨old, new⟩
        rw [old, new]

end Stream

variable {argv : List CString} {s t : State} {a : Action}

theorem grows_setStream {inode : Nat} {f : Stream} (grows : (s.streams inode).Grows f) (other : Nat) :
    (s.streams other).Grows ((s.setStream inode f).streams other) := by
  unfold State.setStream
  dsimp only
  by_cases here : other = inode
  · rw [here, Function.update_self]
    exact grows
  · rw [Function.update_of_ne here]
    exact .same

theorem Move.grows (move : Move argv s a t) (inode : Nat) : (s.streams inode).Grows (t.streams inode) := by
  cases move with
  | delivered other bytes goesOn => exact grows_setStream (.delivered bytes goesOn) inode
  | hungUp other => exact grows_setStream .hungUp inode
  | failed other => exact grows_setStream .failed inode
  | read e events other n at_ input present count =>
    refine grows_setStream ?_ inode
    have chunk : formatString n (Buffer.overwrite ((s.streams other).pending.take n) s.buf) =
        ((s.streams other).pending.take n).takeWhile (· ≠ 0) := by
      rw [formatString, if_pos (Int.natCast_nonneg n), Int.toNat_natCast, Buffer.take_overwrite_take _ _ count.2.1]
    rw [Stream.afterRead, chunk]
    exact .read n
  | checked at_ =>
    unfold checkUsage
    split <;> exact .same
  | created at_ =>
    rw [streams_nextArgument]
    exact .same
  | added fd paths at_ =>
    rw [streams_nextArgument]
    exact .same
  | _ => exact .same

end SystemProgramming.EpollInput
