import Mathlib.Algebra.Group.Int.Defs
import Mathlib.Algebra.Group.Nat.Defs
import Mathlib.Tactic.Common
import SystemProgramming.SharedMemory.Transfer

namespace SystemProgramming.SharedMemory

open BinarySems Transition

def Finished (s : State) : Prop :=
  (∃ status, s.writer.pc = .exited status) ∧ ∃ status, s.reader.pc = .exited status

def Accounted (s : State) : Prop :=
  s.reader.bytes = s.writer.bytes ∧ s.reader.xfrs = s.writer.xfrs ∧
  (s.stdout.length < 2^31 → s.reader.bytes.toInt = s.stdout.length)

def NotOvertaken (s : State) : Action → Prop
  | .writer (.count n) => s.reader.pc = .header → s.seg.cnt = n
  | _ => True

instance (s : State) : (action : Action) → Decidable (NotOvertaken s action)
  | .writer (.count n) => inferInstanceAs (Decidable (_ → s.seg.cnt = n))
  | .writer .done | .writer (.error _) | .reader _ => isTrue trivial

def Orderly (s : State) (action : Action) : Prop := FaultFree s action ∧ NotOvertaken s action

instance (s : State) (action : Action) : Decidable (Orderly s action) :=
  inferInstanceAs (Decidable (_ ∧ _))

def WriterPc.Uncounted (pc : WriterPc) : Prop := pc = .release ∨ pc = .test ∨ pc = .header

def ReaderPc.Uncounted (pc : ReaderPc) : Prop := pc = .release ∨ pc = .header

instance (pc : WriterPc) : Decidable pc.Uncounted := inferInstanceAs (Decidable (_ ∨ _))
instance (pc : ReaderPc) : Decidable pc.Uncounted := inferInstanceAs (Decidable (_ ∨ _))
instance (s : State) : Decidable s.Occupied := inferInstanceAs (Decidable (_ ∨ _))

structure Totals where
  writerBytes : Nat
  readerBytes : Nat
  writerXfrs : Nat
  readerXfrs : Nat

structure Accounts (s : State) (t : Totals) : Prop where
  writerBytes : s.writer.bytes = BitVec.ofNat 32 t.writerBytes
  readerBytes : s.reader.bytes = BitVec.ofNat 32 t.readerBytes
  writerXfrs : s.writer.xfrs = BitVec.ofNat 32 t.writerXfrs
  readerXfrs : s.reader.xfrs = BitVec.ofNat 32 t.readerXfrs
  read : t.writerBytes + (if s.writer.pc.Uncounted then s.seg.cnt.toNat else 0) =
    s.bytesRead.length
  written : t.readerBytes + (if s.reader.pc.Uncounted then s.seg.cnt.toNat else 0) =
    s.stdout.length
  nonneg : s.writer.pc.Uncounted ∨ s.reader.pc.Uncounted → 0 ≤ s.seg.cnt
  chunks : t.readerXfrs + (if s.reader.pc.Uncounted then 1 else 0) +
      (if s.Occupied ∧ s.seg.cnt ≠ 0 then 1 else 0) =
    t.writerXfrs + (if s.writer.pc.Uncounted ∧ s.seg.cnt ≠ 0 then 1 else 0)

theorem accounts_initial (stdin : List Byte) (seg : Shmseg) (value : Nat → Nat) :
    Accounts (initial stdin seg value) ⟨0, 0, 0, 0⟩ := by
  constructor <;>
    simp [initial, State.bytesRead, State.Occupied, WriterPc.Uncounted, ReaderPc.Uncounted,
      initSemInUse]

theorem add_count (bytes : BitVec 32) (total : Nat) (cnt : Int) (nonneg : 0 ≤ cnt)
    (same : bytes = BitVec.ofNat 32 total) :
    bytes + BitVec.ofInt 32 cnt = BitVec.ofNat 32 (total + cnt.toNat) := by
  obtain ⟨n, rfl⟩ := Int.eq_ofNat_of_zero_le nonneg
  rw [same, BitVec.ofInt_natCast, Int.toNat_natCast, BitVec.ofNat_add]

theorem add_one (xfrs : BitVec 32) (total : Nat) (same : xfrs = BitVec.ofNat 32 total) :
    xfrs + 1 = BitVec.ofNat 32 (total + 1) := by
  rw [same, BitVec.ofNat_add]
  rfl

theorem WriterMove.accounts {s s' : State} {t : Totals} {outcome : Outcome} (held : s.handover)
    (acc : Accounts s t) (ordered : NotOvertaken s (.writer outcome))
    (move : WriterMove s outcome s') : ∃ t', Accounts s' t' := by
  obtain ⟨writerBytes, readerBytes, writerXfrs, readerXfrs, read, written, nonneg, chunks⟩ := acc
  have token := held.token
  cases move
  case interrupted =>
    exact ⟨t, writerBytes, readerBytes, writerXfrs, readerXfrs, read, written, nonneg, chunks⟩
  case filled n at_ count =>
    have size : (s.stdin.take n).length = n := List.length_take_of_le count.2.1
    have grown : ((storeRead s n).writerAt .release).bytesRead.length = s.bytesRead.length + n := by
      rw [← size, ← List.length_append, size]
      exact congrArg List.length (storeRead_bytesRead s n)
    have free := (held.exclusive.1 at_).1
    have idle : readerHolds s.reader.pc = 0 := by
      simp only [at_, writerHolds] at token
      omega
    refine ⟨t, writerBytes, readerBytes, writerXfrs, readerXfrs, ?_, ?_, ?_, ?_⟩
    · simp only [at_, WriterPc.Uncounted] at read
      rw [grown, ← read]
      simp [storeRead, WriterPc.Uncounted]
    · rcases ReaderPc.idle_cases idle with at' | header | at' | at'
      · simpa [storeRead, ReaderPc.Uncounted, at'] using written
      · -- The reader still has to add the old `cnt`: this is where `ordered` is needed.
        have same : s.seg.cnt = n := ordered header
        simpa [storeRead, ReaderPc.Uncounted, header, same] using written
      · simpa [storeRead, ReaderPc.Uncounted, at'] using written
      · simpa [storeRead, ReaderPc.Uncounted, at'] using written
    · simp [storeRead]
    · simp only [free, at_, WriterPc.Uncounted] at chunks
      simp only [State.writerAt, storeRead, State.Occupied, WriterPc.Uncounted, reduceCtorEq, or_self,
        or_false, true_or, true_and, false_and, ite_false, Nat.add_zero, Nat.add_right_cancel_iff,
        ne_eq, ite_not, Int.natCast_eq_zero] at chunks ⊢
      exact chunks
  case counted at_ =>
    refine ⟨⟨t.writerBytes + s.seg.cnt.toNat, t.readerBytes, t.writerXfrs + 1, t.readerXfrs⟩,
      add_count _ _ _ (nonneg (.inl (.inr (.inr at_)))) writerBytes, readerBytes,
      add_one _ _ writerXfrs, readerXfrs, ?_, written, ?_, ?_⟩
    · simpa [at_, WriterPc.Uncounted, State.bytesRead] using read
    · rintro (counted | uncounted)
      · simp [WriterPc.Uncounted] at counted
      · exact nonneg (.inr uncounted)
    · have nonzero := held.continuing (.inl at_)
      simpa [State.Occupied, WriterPc.Uncounted, at_, nonzero] using chunks
  all_goals
    refine ⟨t, writerBytes, readerBytes, writerXfrs, readerXfrs, ?_, written, ?_, ?_⟩
    all_goals
      simp_all [State.Occupied, WriterPc.Uncounted, State.bytesRead, setval_value_other _ _ _ READ_SEM_ne]

theorem ReaderMove.accounts {s s' : State} {c : Channel Byte} {t : Totals} {outcome : Outcome}
    (rep : Represents s c) (acc : Accounts s t) (free : FaultFree s (.reader outcome))
    (move : ReaderMove s outcome s') : ∃ t', Accounts s' t' := by
  obtain ⟨writerBytes, readerBytes, writerXfrs, readerXfrs, read, written, nonneg, chunks⟩ := acc
  have control := move.handover rep.control
  cases move
  case interrupted =>
    exact ⟨t, writerBytes, readerBytes, writerXfrs, readerXfrs, read, written, nonneg, chunks⟩
  case reserved at_ available =>
    have full : s.Occupied := .inr (.inl (by omega))
    refine ⟨t, writerBytes, readerBytes, writerXfrs, readerXfrs, read, ?_, ?_, ?_⟩
    · simpa [ReaderPc.Uncounted, at_] using written
    · simpa [ReaderPc.Uncounted, at_] using nonneg
    · simp only [ReaderPc.Uncounted, at_, reduceCtorEq, or_self, ite_false, Nat.add_zero, full, ne_eq,
        true_and, ite_not] at chunks
      simp only [ReaderPc.Uncounted, State.readerAt, reduceCtorEq, or_self, ite_false, Nat.add_zero,
        State.Occupied, or_false, or_true, true_and, ne_eq, ite_not]
      exact chunks
  case cutShort n at_ fits short => exact absurd free short
  case wrote n at_ whole =>
    have full : s.Occupied := .inr (.inr (.inr at_))
    have gone := control.exclusive.2 (.inl rfl)
    simp only [State.readerAt] at gone
    obtain ⟨size, content⟩ := rep.slot full
    have same : n = s.lastRead.length := by omega
    have nonzero := rep.control.writing (.inl at_)
    refine ⟨t, writerBytes, readerBytes, writerXfrs, readerXfrs, read, ?_, ?_, ?_⟩
    · simp only [at_, ReaderPc.Uncounted] at written
      simp only [State.readerAt, ReaderPc.Uncounted, List.length_append, same, content, size]
      rw [← written]
      simp
    · intro _
      simp only [State.readerAt]
      omega
    · simpa [full, gone, ReaderPc.Uncounted, at_, nonzero] using chunks
  case counted at_ =>
    refine ⟨⟨t.writerBytes, t.readerBytes + s.seg.cnt.toNat, t.writerXfrs, t.readerXfrs + 1⟩,
      writerBytes, add_count _ _ _ (nonneg (.inr (.inr at_))) readerBytes, writerXfrs,
      add_one _ _ readerXfrs, read, ?_, ?_, ?_⟩
    · simpa [at_, ReaderPc.Uncounted] using written
    · rintro (uncounted | counted)
      · exact nonneg (.inl uncounted)
      · simp [ReaderPc.Uncounted] at counted
    · simpa [State.Occupied, ReaderPc.Uncounted, at_] using chunks
  all_goals
    refine ⟨t, writerBytes, readerBytes, writerXfrs, readerXfrs, read, ?_, ?_, ?_⟩
    all_goals
      simp_all [State.Occupied, ReaderPc.Uncounted, setval_value_other _ _ _ READ_SEM_ne]

theorem orderly_accounts {stdin : List Byte} {seg : Shmseg} {value : Nat → Nat} {s : State}
    (run : Reaches step Orderly (initial stdin seg value) s) :
    ∃ c t, Represents s c ∧ Accounts s t := by
  apply run.invariant (I := fun s => ∃ c t, Represents s c ∧ Accounts s t)
  · exact ⟨_, _, represents_initial stdin seg value, accounts_initial stdin seg value⟩
  · rintro s action s' ⟨c, t, rep, acc⟩ ⟨free, ordered⟩ taken
    obtain ⟨d, -, next⟩ := step_represents rep free.noFailure taken
    have counted : ∃ t', Accounts s' t' := by
      cases action with
      | writer outcome =>
        exact (writerStep_moves free.noFailure taken).accounts rep.control acc ordered
      | reader outcome => exact (readerStep_moves free.noFailure taken).accounts rep acc free
    obtain ⟨t', acc'⟩ := counted
    exact ⟨d, t', next, acc'⟩

/-- Both reports are right in every run in which no chunk overtakes the reader's counting. -/
theorem accounting (stdin : List Byte) (seg : Shmseg) (value : Nat → Nat) (s : State)
    (run : Reaches step Orderly (initial stdin seg value) s) (finished : Finished s) :
    Accounted s := by
  obtain ⟨c, t, rep, acc⟩ := orderly_accounts run
  obtain ⟨⟨writerStatus, writerAt⟩, readerStatus, readerAt⟩ := finished
  have past := rep.control.last (.inr (.inr (.inr (.inr ⟨writerStatus, writerAt⟩))))
  have left : s.reader.pc.LeftLoop := .inr (.inr past)
  have output : s.stdout = s.bytesRead := rep.delivered left
  have zero := (rep.control.left left).1
  have read := acc.read
  have written := acc.written
  have chunks := acc.chunks
  simp only [writerAt, readerAt, WriterPc.Uncounted, ReaderPc.Uncounted, reduceCtorEq, or_self,
    ite_false, Nat.add_zero, zero, ne_eq, not_true_eq_false, and_false] at read written chunks
  rw [← output] at read
  refine ⟨?_, ?_, ?_⟩
  · rw [acc.readerBytes, acc.writerBytes, read, written]
  · rw [acc.readerXfrs, acc.writerXfrs, chunks]
  · intro bound
    rw [acc.readerBytes, written, BitVec.toInt_ofNat']
    exact Int.bmod_eq_of_le (by omega) (by omega)

def countedInTime : List Action :=
  [.writer .done, .writer (.count 1), .writer .done, .reader .done, .writer .done, .writer .done,
    .reader .done, .reader (.count 1), .reader .done, .reader .done, .writer .done,
    .writer (.count 0), .writer .done, .writer .done, .reader .done, .reader .done, .reader .done,
    .reader .done, .reader .done, .writer .done, .writer .done, .writer .done, .writer .done,
    .writer .done]

theorem accounting_countedInTime :
    ∃ s, exec step countedInTime (initial [97] ⟨0, []⟩ (fun _ => 0)) = some s ∧
      s.reader.bytes = 1 ∧ Accounted s := by
  refine ⟨_, rfl, rfl, ?_⟩
  exact accounting [97] ⟨0, []⟩ (fun _ => 0) _ ⟨countedInTime, by decide, rfl⟩ ⟨⟨_, rfl⟩, ⟨_, rfl⟩⟩

def countedTooLate : List Action :=
  [.writer .done, .writer (.count 1), .writer .done, .reader .done, .writer .done, .writer .done,
    .reader .done, .reader (.count 1), .reader .done, .writer .done, .writer (.count 0),
    .reader .done, .writer .done, .writer .done, .reader .done, .reader .done, .reader .done,
    .reader .done, .reader .done, .writer .done, .writer .done, .writer .done, .writer .done,
    .writer .done]

theorem overtaken_miscounts :
    ¬ ∀ s, Reaches step FaultFree (initial [97] ⟨0, []⟩ (fun _ => 0)) s → Finished s → Accounted s := by
  intro always
  have wrong := always _ ⟨countedTooLate, by decide, rfl⟩ ⟨⟨_, rfl⟩, ⟨_, rfl⟩⟩
  exact absurd wrong.1 (by decide)

end SystemProgramming.SharedMemory
