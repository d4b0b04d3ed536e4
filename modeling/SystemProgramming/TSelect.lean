import SystemProgramming.Kernel
import SystemProgramming.Library.CFormat
import SystemProgramming.Library.CNumber

namespace SystemProgramming.TSelect

open CNumber

def FD_SETSIZE : Nat := 1024

abbrev FdSet := BitVec FD_SETSIZE

/-- `FD_SET`, which is undefined for a descriptor outside of the set. -/
def FD_SET (fd : BitVec 32) (set : FdSet) : FdSet :=
  if 0 ≤ fd.toInt ∧ fd.toInt < FD_SETSIZE then set ||| BitVec.twoPow FD_SETSIZE fd.toNat else set

def isMode (b : Byte) : Bool := b = 114 || b = 119

/-- `sscanf(argv[j], "%d%2[rw]", &fd, buf)`: the number before its conversion to `int`, and `buf`. -/
def scanArgument (arg : List Byte) : Option (Int × List Byte) :=
  (scan 10 arg).bind fun number =>
    let buf := ((behind arg).take 2).takeWhile isMode
    if buf = [] then none else some (number, buf)

/-- The variables that the argument loop changes. `fdSets` lists the descriptors of the calls of `FD_SET`; no
    statement of the program looks at it. -/
structure Vars where
  nfds : BitVec 32
  readfds : FdSet
  writefds : FdSet
  fdSets : List Int

inductive Failure where
  | usageError
  | cmdLineErr
  deriving DecidableEq, Repr

def setRead (v : Vars) (fd : BitVec 32) : Vars :=
  { v with readfds := FD_SET fd v.readfds, fdSets := v.fdSets ++ [fd.toInt] }

def setWrite (v : Vars) (fd : BitVec 32) : Vars :=
  { v with writefds := FD_SET fd v.writefds, fdSets := v.fdSets ++ [fd.toInt] }

def setNfds (v : Vars) (fd : BitVec 32) : Vars :=
  if fd.toInt ≥ v.nfds.toInt then { v with nfds := fd + 1 } else v

def collect (v : Vars) (fd : BitVec 32) (buf : List Byte) : Vars :=
  let v := setNfds v fd
  let v := if buf.contains 114 then setRead v fd else v
  if buf.contains 119 then setWrite v fd else v

def argument (v : Vars) (arg : List Byte) : Except Failure Vars :=
  match scanArgument arg with
  | none => .error .usageError
  | some (number, buf) =>
    let fd := BitVec.ofInt 32 number
    if fd.toInt > FD_SETSIZE then .error .cmdLineErr else .ok (collect v fd buf)

def arguments (v : Vars) : List (List Byte) → Except Failure Vars
  | [] => .ok v
  | arg :: args =>
    match argument v arg with
    | .error failure => .error failure
    | .ok v => arguments v args

inductive Ending where
  | failed (failure : Failure)
  | select (timeout : Option Int) (v : Vars)

def help : List Byte := [45, 45, 104, 101, 108, 112]

def infinite : List Byte := [45]

/-- `main` up to its `select`, from what its variables hold before they are assigned; the arguments are those
    behind the name of the program. -/
def main (nfds : BitVec 32) (readfds writefds : FdSet) : List CString → Ending
  | [] => .failed .usageError
  | timeout :: args =>
    if timeout.1 = help then .failed .usageError
    else
      match arguments ⟨nfds, readfds, writefds, []⟩ (args.map (·.1)) with
      | .error failure => .failed failure
      | .ok v => .select (if timeout.1 = infinite then none else some (atol timeout.1)) v

def named (args : List (List Byte)) : List (Int × List Byte) := args.filterMap scanArgument

def Named (args : List (List Byte)) (letter : Byte) (d : Int) : Prop := ∃ p ∈ named args, p.1 = d ∧ letter ∈ p.2

def Contains (set : FdSet) (d : Int) : Prop := 0 ≤ d ∧ set.getLsbD d.toNat = true

def largest (args : List (List Byte)) : Option Int := ((named args).map (·.1)).max?

structure Asked (args : List (List Byte)) (v : Vars) : Prop where
  inside : ∀ fd ∈ v.fdSets, 0 ≤ fd ∧ fd < FD_SETSIZE
  readfds : ∀ d, Contains v.readfds d ↔ Named args 114 d
  writefds : ∀ d, Contains v.writefds d ↔ Named args 119 d
  nfds : v.nfds.toInt = match largest args with
    | none => 0
    | some d => d + 1

/-- The arguments `fd-num[rw]` of the usage are read as they are meant. -/
theorem scanArgument_decimal {d : Int} (low : -2 ^ 63 ≤ d) (high : d < 2 ^ 63) {letters : List Byte}
    (nonempty : letters ≠ []) (modes : ∀ b ∈ letters, isMode b = true) (two : letters.length ≤ 2) :
    scanArgument (CFormat.decimal d ++ letters) = some (d, letters) := by
  have ends : ∀ b ∈ letters.head?, 10 ≤ digit b := by
    intro b first
    have mode := modes b (List.mem_of_head? first)
    unfold isMode at mode
    rw [Bool.or_eq_true, decide_eq_true_eq, decide_eq_true_eq] at mode
    rcases mode with rfl | rfl <;> decide
  rw [scanArgument, CFormat.scan_decimal low high ends, Option.bind_some, CFormat.behind_decimal d ends,
    List.take_of_length_le two, List.takeWhile_eq_self_iff.mpr modes]
  dsimp only
  rw [if_neg nonempty]

theorem contains_FD_SET {fd : BitVec 32} (inside : 0 ≤ fd.toInt ∧ fd.toInt < FD_SETSIZE) (set : FdSet) (d : Int) :
    Contains (FD_SET fd set) d ↔ Contains set d ∨ fd.toInt = d := by
  have small : fd.toNat < FD_SETSIZE ∧ (fd.toNat : Int) = fd.toInt := by
    have value := BitVec.toInt_eq_toNat_cond fd
    unfold FD_SETSIZE at inside ⊢
    split at value <;> omega
  rw [FD_SET, if_pos inside, Contains, Contains, BitVec.getLsbD_or, BitVec.getLsbD_twoPow, Bool.or_eq_true,
    Bool.and_eq_true, decide_eq_true_eq, decide_eq_true_eq]
  constructor
  · rintro ⟨nonneg, old | new⟩
    · exact .inl ⟨nonneg, old⟩
    · right
      omega
  · rintro (old | rfl)
    · exact ⟨old.1, .inl old.2⟩
    · refine ⟨inside.1, .inr ⟨small.1, ?_⟩⟩
      omega

structure Collected (args : List (List Byte)) (v w : Vars) : Prop where
  inside : ∀ fd ∈ w.fdSets, fd ∈ v.fdSets ∨ 0 ≤ fd ∧ fd < FD_SETSIZE
  readfds : ∀ d, Contains w.readfds d ↔ Contains v.readfds d ∨ Named args 114 d
  writefds : ∀ d, Contains w.writefds d ↔ Contains v.writefds d ∨ Named args 119 d
  nfds : ∀ bound, w.nfds.toInt ≤ bound ↔ v.nfds.toInt ≤ bound ∧ ∀ p ∈ named args, p.1 + 1 ≤ bound

def InRange (args : List (List Byte)) : Prop := ∀ p ∈ named args, 0 ≤ p.1 ∧ p.1 < FD_SETSIZE

theorem named_append (args more : List (List Byte)) : named (args ++ more) = named args ++ named more :=
  List.filterMap_append

theorem Named.append_iff {args more : List (List Byte)} {letter : Byte} {d : Int} :
    Named (args ++ more) letter d ↔ Named args letter d ∨ Named more letter d := by
  unfold Named
  rw [named_append]
  constructor
  · rintro ⟨p, member, is⟩
    rcases List.mem_append.mp member with first | second
    · exact .inl ⟨p, first, is⟩
    · exact .inr ⟨p, second, is⟩
  · rintro (⟨p, member, is⟩ | ⟨p, member, is⟩)
    · exact ⟨p, List.mem_append_left _ member, is⟩
    · exact ⟨p, List.mem_append_right _ member, is⟩

theorem named_singleton {arg : List Byte} {p : Int × List Byte} (scanned : scanArgument arg = some p) :
    named [arg] = [p] := by
  rw [named, List.filterMap_cons_some scanned, List.filterMap_nil]

theorem not_named_nil {letter : Byte} {d : Int} : ¬Named [] letter d := by
  rintro ⟨p, member, -⟩
  exact List.not_mem_nil member

theorem Collected.nil (v : Vars) : Collected [] v v where
  inside := fun _ member => .inl member
  readfds := fun _ => (or_iff_left not_named_nil).symm
  writefds := fun _ => (or_iff_left not_named_nil).symm
  nfds := fun _ => (and_iff_left (List.forall_mem_nil _)).symm

theorem Collected.append {args more : List (List Byte)} {u v w : Vars} (first : Collected args u v)
    (second : Collected more v w) : Collected (args ++ more) u w where
  inside := fun fd member => (second.inside fd member).elim (first.inside fd) .inr
  readfds := fun d => by rw [second.readfds, first.readfds, Named.append_iff, or_assoc]
  writefds := fun d => by rw [second.writefds, first.writefds, Named.append_iff, or_assoc]
  nfds := fun bound => by rw [second.nfds, first.nfds, named_append, List.forall_mem_append, and_assoc]

theorem named_singleton_iff {arg : List Byte} {number : Int} {buf : List Byte}
    (scanned : scanArgument arg = some (number, buf)) {letter : Byte} {d : Int} :
    Named [arg] letter d ↔ number = d ∧ letter ∈ buf := by
  unfold Named
  rw [named_singleton scanned]
  simp

section Step

variable (v : Vars) (fd : BitVec 32) (buf : List Byte)

theorem collect_nfds : (collect v fd buf).nfds = (setNfds v fd).nfds := by
  unfold collect setRead setWrite
  dsimp only
  split <;> split <;> rfl

theorem setNfds_sets : (setNfds v fd).readfds = v.readfds ∧ (setNfds v fd).writefds = v.writefds ∧
    (setNfds v fd).fdSets = v.fdSets := by
  unfold setNfds
  split <;> exact ⟨rfl, rfl, rfl⟩

theorem collect_readfds :
    (collect v fd buf).readfds = if buf.contains 114 then FD_SET fd v.readfds else v.readfds := by
  rw [← (setNfds_sets v fd).1]
  unfold collect setRead setWrite
  dsimp only
  split <;> split <;> rfl

theorem collect_writefds :
    (collect v fd buf).writefds = if buf.contains 119 then FD_SET fd v.writefds else v.writefds := by
  rw [← (setNfds_sets v fd).2.1]
  unfold collect setRead setWrite
  dsimp only
  split <;> split <;> rfl

theorem collect_fdSets : (collect v fd buf).fdSets =
    v.fdSets ++ (if buf.contains 114 then [fd.toInt] else []) ++ (if buf.contains 119 then [fd.toInt] else []) := by
  rw [← (setNfds_sets v fd).2.2]
  unfold collect setRead setWrite
  dsimp only
  split <;> split <;> simp

theorem mem_fdSets_collect {d : Int} (member : d ∈ (collect v fd buf).fdSets) : d ∈ v.fdSets ∨ d = fd.toInt := by
  rw [collect_fdSets, List.append_assoc, List.mem_append] at member
  refine member.imp_right fun new => ?_
  rcases List.mem_append.mp new with reads | writes
  · exact List.mem_singleton.mp (List.mem_ite_nil_right.mp reads).2
  · exact List.mem_singleton.mp (List.mem_ite_nil_right.mp writes).2

variable {v fd buf}

theorem collected_collect (inside : 0 ≤ fd.toInt ∧ fd.toInt < FD_SETSIZE) {arg : List Byte}
    (scanned : scanArgument arg = some (fd.toInt, buf)) : Collected [arg] v (collect v fd buf) where
  inside := fun d member => by
    rcases mem_fdSets_collect v fd buf member with old | rfl
    · exact .inl old
    · exact .inr inside
  readfds := fun d => by
    rw [collect_readfds, named_singleton_iff scanned]
    split
    · rename_i reads
      rw [contains_FD_SET inside, and_iff_left (List.contains_iff_mem.mp reads)]
    · rename_i other
      rw [or_iff_left fun both => other (List.contains_iff_mem.mpr both.2)]
  writefds := fun d => by
    rw [collect_writefds, named_singleton_iff scanned]
    split
    · rename_i writes
      rw [contains_FD_SET inside, and_iff_left (List.contains_iff_mem.mp writes)]
    · rename_i other
      rw [or_iff_left fun both => other (List.contains_iff_mem.mpr both.2)]
  nfds := fun bound => by
    have next : (fd + 1).toInt = fd.toInt + 1 := by
      unfold FD_SETSIZE at inside
      rw [BitVec.toInt_add, Int.bmod_eq_of_le] <;> simp <;> omega
    rw [collect_nfds, named_singleton scanned, List.forall_mem_singleton]
    unfold setNfds
    split
    · dsimp only
      omega
    · omega

end Step

/-- What the arguments name is in range, so each is read into an `int` as it stands. -/
theorem collected_argument {v w : Vars} {arg : List Byte} (done : argument v arg = .ok w) (range : InRange [arg]) :
    Collected [arg] v w := by
  unfold argument at done
  split at done
  · cases done
  · rename_i number buf scanned
    have inside := range (number, buf) (by rw [named_singleton scanned]; exact List.mem_singleton_self _)
    have int : (BitVec.ofInt 32 number).toInt = number := by
      unfold FD_SETSIZE at inside
      rw [BitVec.toInt_ofInt, Int.bmod_eq_of_le] <;> simp <;> omega
    dsimp only at done
    split at done
    · cases done
    · cases done
      rw [← int] at inside scanned
      exact collected_collect inside scanned

theorem collected_arguments {args : List (List Byte)} {v w : Vars} (done : arguments v args = .ok w)
    (range : InRange args) : Collected args v w := by
  induction args generalizing v with
  | nil =>
    cases done
    exact .nil _
  | cons arg args ih =>
    have split_ : named (arg :: args) = named [arg] ++ named args := named_append [arg] args
    rw [InRange, split_, List.forall_mem_append] at range
    rw [arguments] at done
    split at done
    · cases done
    · rename_i u first
      exact (collected_argument first range.1).append (ih done range.2)

/-- The letters of an argument are `r` and `w`, and there is one. -/
theorem exists_letter {args : List (List Byte)} {p : Int × List Byte} (member : p ∈ named args) :
    Named args 114 p.1 ∨ Named args 119 p.1 := by
  obtain ⟨arg, -, scanned⟩ := List.mem_filterMap.mp member
  obtain ⟨number, -, rest⟩ := Option.bind_eq_some_iff.mp scanned
  dsimp only at rest
  split at rest
  · cases rest
  · rename_i some_
    obtain ⟨b, inside⟩ := List.exists_mem_of_ne_nil _ some_
    have mode := List.mem_takeWhile_imp inside
    cases rest
    unfold isMode at mode
    rw [Bool.or_eq_true, decide_eq_true_eq, decide_eq_true_eq] at mode
    rcases mode with rfl | rfl
    · exact .inl ⟨_, member, rfl, inside⟩
    · exact .inr ⟨_, member, rfl, inside⟩

theorem Contains.bounds {set : FdSet} {d : Int} (contains : Contains set d) : 0 ≤ d ∧ d < FD_SETSIZE := by
  refine ⟨contains.1, ?_⟩
  have below := BitVec.lt_of_getLsbD contains.2
  omega

theorem Asked.inRange {args : List (List Byte)} {w : Vars} (asked : Asked args w) : InRange args := by
  intro p member
  rcases exists_letter member with reads | writes
  · exact ((asked.readfds p.1).mpr reads).bounds
  · exact ((asked.writefds p.1).mpr writes).bounds

structure Lucky (args : List (List Byte)) (nfds : BitVec 32) (readfds writefds : FdSet) : Prop where
  readfds : ∀ d, Contains readfds d → Named args 114 d
  writefds : ∀ d, Contains writefds d → Named args 119 d
  nfds : match largest args with
    | none => nfds.toInt = 0
    | some d => nfds.toInt ≤ d + 1

theorem Collected.nfds_iff {args : List (List Byte)} {v w : Vars} (collected : Collected args v w) :
    (w.nfds.toInt = match largest args with
      | none => 0
      | some d => d + 1) ↔
    match largest args with
      | none => v.nfds.toInt = 0
      | some d => v.nfds.toInt ≤ d + 1 := by
  cases top : largest args with
  | none =>
    have empty : named args = [] := List.map_eq_nil_iff.mp (List.max?_eq_none_iff.mp top)
    have same : w.nfds.toInt = v.nfds.toInt := by
      refine eq_of_forall_ge_iff fun bound => ?_
      rw [collected.nfds, empty, and_iff_left (List.forall_mem_nil _)]
    dsimp only
    rw [same]
  | some d =>
    obtain ⟨member, above⟩ := List.max?_eq_some_iff.mp top
    obtain ⟨p, inside, rfl⟩ := List.mem_map.mp member
    have all : ∀ q ∈ named args, q.1 + 1 ≤ p.1 + 1 := fun q named =>
      Int.add_le_add_right (above q.1 (List.mem_map_of_mem named)) 1
    have atLeast : p.1 + 1 ≤ w.nfds.toInt := ((collected.nfds _).mp (Int.le_refl _)).2 p inside
    have atMost := collected.nfds (p.1 + 1)
    rw [and_iff_left all] at atMost
    dsimp only
    rw [← atMost]
    exact ⟨Int.le_of_eq, fun most => Int.le_antisymm most atLeast⟩

theorem Collected.asked_iff_lucky {args : List (List Byte)} {nfds : BitVec 32} {readfds writefds : FdSet} {w : Vars}
    (collected : Collected args ⟨nfds, readfds, writefds, []⟩ w) : Asked args w ↔ Lucky args nfds readfds writefds := by
  constructor
  · intro asked
    refine ⟨fun d old => ?_, fun d old => ?_, collected.nfds_iff.mp asked.nfds⟩
    · exact (asked.readfds d).mp ((collected.readfds d).mpr (.inl old))
    · exact (asked.writefds d).mp ((collected.writefds d).mpr (.inl old))
  · intro lucky
    refine ⟨fun fd member => ?_, fun d => ?_, fun d => ?_, collected.nfds_iff.mpr lucky.nfds⟩
    · exact (collected.inside fd member).resolve_left List.not_mem_nil
    · exact (collected.readfds d).trans (or_iff_right_of_imp (lucky.readfds d))
    · exact (collected.writefds d).trans (or_iff_right_of_imp (lucky.writefds d))

/-- `main` reaches its `select` with what the arguments ask for exactly where they name descriptors of the sets
    only and the variables that the loop never clears hold nothing else. -/
theorem asked_iff {nfds : BitVec 32} {readfds writefds : FdSet} {timeout : CString} {args : List CString}
    {pto : Option Int} {w : Vars} (done : main nfds readfds writefds (timeout :: args) = .select pto w) :
    Asked (args.map (·.1)) w ↔ InRange (args.map (·.1)) ∧ Lucky (args.map (·.1)) nfds readfds writefds := by
  have ran : arguments ⟨nfds, readfds, writefds, []⟩ (args.map (·.1)) = .ok w := by
    unfold main at done
    dsimp only at done
    split at done
    · cases done
    · split at done
      · cases done
      · rename_i ran
        cases done
        exact ran
  constructor
  · intro asked
    exact ⟨asked.inRange, (collected_arguments ran asked.inRange).asked_iff_lucky.mp asked⟩
  · rintro ⟨range, lucky⟩
    exact (collected_arguments ran range).asked_iff_lucky.mpr lucky

/-- `t_select - 0rw 1w` with memory that is zero -/
theorem asked_iff_zeros :
    ∃ w, main 0 0 0 [⟨infinite, by decide⟩, ⟨[48, 114, 119], by decide⟩, ⟨[49, 119], by decide⟩] = .select none w ∧
      Asked [[48, 114, 119], [49, 119]] w := by
  have empty : ∀ d, ¬Contains 0 d := by
    rintro d ⟨-, bit⟩
    rw [BitVec.ofNat_eq_ofNat, BitVec.getLsbD_zero] at bit
    cases bit
  have range : InRange [[48, 114, 119], [49, 119]] := by
    show ∀ p ∈ [((0 : Int), [(114 : Byte), 119]), (1, [119])], 0 ≤ p.1 ∧ p.1 < FD_SETSIZE
    decide
  have nfds : (0 : BitVec 32).toInt ≤ 1 + 1 := by decide
  obtain ⟨w, done⟩ : ∃ w, main 0 0 0 [⟨infinite, by decide⟩, ⟨[48, 114, 119], by decide⟩, ⟨[49, 119], by decide⟩] =
      .select none w := ⟨_, rfl⟩
  exact ⟨w, done, (asked_iff done).mpr
    ⟨range, fun d old => absurd old (empty d), fun d old => absurd old (empty d), nfds⟩⟩

/-- `t_select - 1024r` with memory that is zero: the check lets 1024 through. -/
theorem asked_1024_false :
    ∃ w, main 0 0 0 [⟨infinite, by decide⟩, ⟨[49, 48, 50, 52, 114], by decide⟩] = .select none w ∧ 1024 ∈ w.fdSets ∧
      ¬Asked [[49, 48, 50, 52, 114]] w := by
  have outside : ∃ w, main 0 0 0 [⟨infinite, by decide⟩, ⟨[49, 48, 50, 52, 114], by decide⟩] = .select none w ∧
      1024 ∈ w.fdSets := ⟨_, rfl, by decide⟩
  obtain ⟨w, done, member⟩ := outside
  refine ⟨w, done, member, fun asked => ?_⟩
  exact absurd (asked.inside 1024 member).2 (by decide)

end SystemProgramming.TSelect
