import SystemProgramming.BinarySems
import SystemProgramming.Library.Mutex
import SystemProgramming.Library.Transition

namespace SystemProgramming.BinarySems.Locking

open Mutex Transition

structure Globals where
  bsUseSemUndo : Bool
  bsRetryOnEintr : Bool

def Globals.initial : Globals := ⟨BinarySems.bsUseSemUndo, BinarySems.bsRetryOnEintr⟩

/-- With `SEM_UNDO` the kernel notes for the process what takes its operations back. -/
def semop (set : SemaphoreSet) (semadj : Int) (sops : Sembuf) : Option (SemaphoreSet × Int) :=
  (BinarySems.semop set sops).map fun after =>
    (after, if sops.semUndo = true then semadj - sops.semOp else semadj)

def reserveSem (globals : Globals) (set : SemaphoreSet) (semadj : Int) (semNum : Nat) :
    Outcome → Option ((SemaphoreSet × Int) × Option Int)
  | .done => (semop set semadj ⟨semNum, -1, globals.bsUseSemUndo⟩).map fun after => (after, some 0)
  | .error errno =>
    if errno ≠ .EINTR ∨ globals.bsRetryOnEintr = false then some ((set, semadj), some (-1))
    else some ((set, semadj), none)
  | .count _ => none

def releaseSem (globals : Globals) (set : SemaphoreSet) (semadj : Int) (semNum : Nat) :
    Outcome → Option ((SemaphoreSet × Int) × Int)
  | .done => (semop set semadj ⟨semNum, 1, globals.bsUseSemUndo⟩).map fun after => (after, 0)
  | .error _ => some ((set, semadj), -1)
  | .count _ => none

theorem reserveSem_initial (set : SemaphoreSet) (semadj : Int) (semNum : Nat) (outcome : Outcome) :
    (reserveSem .initial set semadj semNum outcome).map (fun result => (result.1.1, result.2)) =
      BinarySems.reserveSem set semNum outcome := by
  cases outcome with
  | done =>
    simp only [reserveSem, semop, BinarySems.reserveSem, Option.map_map]
    rfl
  | count n => rfl
  | error errno =>
    by_cases interrupted : errno = .EINTR
    · subst interrupted
      rfl
    · simp [reserveSem, BinarySems.reserveSem, interrupted]

theorem releaseSem_initial (set : SemaphoreSet) (semadj : Int) (semNum : Nat) (outcome : Outcome) :
    (releaseSem .initial set semadj semNum outcome).map (fun result => (result.1.1, result.2)) =
      BinarySems.releaseSem set semNum outcome := by
  cases outcome with
  | done =>
    simp only [releaseSem, semop, BinarySems.releaseSem, Option.map_map]
    rfl
  | count n => rfl
  | error errno => rfl

inductive ProcessPc where
  | outside
  | reserving
  | inside
  | releasing
  | exited
  deriving DecidableEq, Repr

def ProcessPc.Holds (pc : ProcessPc) : Prop := pc = .inside ∨ pc = .releasing

instance (pc : ProcessPc) : Decidable pc.Holds := inferInstanceAs (Decidable (_ ∨ _))

variable {ι : Type*}

structure State (ι : Type*) where
  set : SemaphoreSet
  semadj : ι → Int
  pc : ι → ProcessPc

inductive Action (ι : Type*) where
  | call (i : ι)
  | semop (i : ι) (outcome : Outcome)
  | exit (i : ι)

variable [DecidableEq ι]

def State.become (s : State ι) (i : ι) (pc : ProcessPc) : State ι :=
  { s with pc := Function.update s.pc i pc }

def State.operated (s : State ι) (i : ι) (after : SemaphoreSet × Int) (pc : ProcessPc) : State ι :=
  ⟨after.1, Function.update s.semadj i after.2, Function.update s.pc i pc⟩

variable (globals : Globals) (semNum : Nat)

def step (s : State ι) : Action ι → Option (State ι)
  | .call i =>
    match s.pc i with
    | .outside => some (s.become i .reserving)
    | .inside => some (s.become i .releasing)
    | _ => none
  | .semop i outcome =>
    match s.pc i with
    | .reserving =>
      (reserveSem globals s.set (s.semadj i) semNum outcome).map fun (after, returned) =>
        match returned with
        | none => s.operated i after .reserving
        | some result => s.operated i after (if result = -1 then .outside else .inside)
    | .releasing =>
      (releaseSem globals s.set (s.semadj i) semNum outcome).map fun (after, result) =>
        s.operated i after (if result = -1 then .inside else .outside)
    | _ => none
  | .exit i =>
    if s.pc i = .exited then none
    else some (s.operated i (s.set.setval semNum (s.set.value semNum + s.semadj i).toNat, 0) .exited)

def initial (set : SemaphoreSet) : State ι where
  set := initSemAvailable set semNum
  semadj := fun _ => 0
  pc := fun _ => .outside

def adjustment : Int := if globals.bsUseSemUndo = true then 1 else 0

inductive Move (s : State ι) : Action ι → State ι → Prop where
  | stayed (action : Action ι) (i : ι) (pc : ProcessPc) (same : pc.Holds ↔ (s.pc i).Holds)
      (quiet : ∀ j, action ≠ .exit j) : Move s action (s.become i pc)
  | reserved (i : ι) (at_ : s.pc i = .reserving) (present : s.set.removed = false)
      (available : 0 < s.set.value semNum) :
      Move s (.semop i .done) (s.operated i (s.set.setval semNum (s.set.value semNum - 1),
        s.semadj i + adjustment globals) .inside)
  | released (i : ι) (at_ : s.pc i = .releasing) (present : s.set.removed = false) :
      Move s (.semop i .done) (s.operated i (s.set.setval semNum (s.set.value semNum + 1),
        s.semadj i - adjustment globals) .outside)
  | exited (i : ι) (running : s.pc i ≠ .exited) :
      Move s (.exit i)
        (s.operated i (s.set.setval semNum (s.set.value semNum + s.semadj i).toNat, 0) .exited)

variable {globals : Globals} {semNum : Nat} {s t : State ι} {i : ι}

theorem semop_some {set after : SemaphoreSet} {semadj adjusted : Int} {sops : Sembuf}
    (taken : semop set semadj sops = some (after, adjusted)) :
    BinarySems.semop set sops = some after ∧
      adjusted = if sops.semUndo = true then semadj - sops.semOp else semadj := by
  obtain ⟨raw, done, same⟩ := Option.map_eq_some_iff.mp taken
  cases same
  exact ⟨done, rfl⟩

theorem reserveSem_done {set : SemaphoreSet} {semadj : Int} {after : SemaphoreSet × Int} {returned : Option Int}
    (taken : reserveSem globals set semadj semNum .done = some (after, returned)) :
    set.removed = false ∧ 0 < set.value semNum ∧ returned = some 0 ∧
      after = (set.setval semNum (set.value semNum - 1), semadj + adjustment globals) := by
  obtain ⟨⟨lowered, adjusted⟩, operated, same⟩ := Option.map_eq_some_iff.mp taken
  cases same
  obtain ⟨done, undo⟩ := semop_some operated
  have plain : BinarySems.reserveSem set semNum .done = some (lowered, some 0) := by
    rw [BinarySems.reserveSem]
    exact Option.map_eq_some_iff.mpr ⟨lowered, done, rfl⟩
  obtain ⟨present, available, -, after⟩ := BinarySems.reserveSem_done plain
  refine ⟨present, available, rfl, ?_⟩
  rw [after, undo, adjustment]
  split <;> simp

theorem releaseSem_done {set : SemaphoreSet} {semadj : Int} {after : SemaphoreSet × Int} {returned : Int}
    (taken : releaseSem globals set semadj semNum .done = some (after, returned)) :
    set.removed = false ∧ returned = 0 ∧
      after = (set.setval semNum (set.value semNum + 1), semadj - adjustment globals) := by
  obtain ⟨⟨raised, adjusted⟩, operated, same⟩ := Option.map_eq_some_iff.mp taken
  cases same
  obtain ⟨done, undo⟩ := semop_some operated
  have plain : BinarySems.releaseSem set semNum .done = some (raised, 0) := by
    rw [BinarySems.releaseSem]
    exact Option.map_eq_some_iff.mpr ⟨raised, done, rfl⟩
  obtain ⟨present, -, after⟩ := BinarySems.releaseSem_done plain
  refine ⟨present, rfl, ?_⟩
  rw [after, undo, adjustment]
  split <;> simp

theorem operated_same (s : State ι) (i : ι) (pc : ProcessPc) :
    s.operated i (s.set, s.semadj i) pc = s.become i pc := by
  simp [State.operated, State.become]

theorem step_moves {action : Action ι} (taken : step globals semNum s action = some t) :
    Move globals semNum s action t := by
  cases action with
  | call i =>
    simp only [step] at taken
    split at taken
    · rename_i at_
      cases taken
      exact .stayed _ i .reserving (by simp [at_, ProcessPc.Holds]) (by simp)
    · rename_i at_
      cases taken
      exact .stayed _ i .releasing (by simp [at_, ProcessPc.Holds]) (by simp)
    · cases taken
  | semop i outcome =>
    simp only [step] at taken
    split at taken
    · rename_i at_
      obtain ⟨⟨after, returned⟩, operated, same⟩ := Option.map_eq_some_iff.mp taken
      cases outcome with
      | count n => cases operated
      | done =>
        obtain ⟨present, available, rfl, rfl⟩ := reserveSem_done operated
        cases same
        exact .reserved i at_ present available
      | error errno =>
        simp only [reserveSem] at operated
        split at operated
        · cases operated
          cases same
          show Move globals semNum s _ (s.operated i (s.set, s.semadj i) .outside)
          rw [operated_same]
          exact .stayed _ i .outside (by simp [at_, ProcessPc.Holds]) (by simp)
        · cases operated
          cases same
          show Move globals semNum s _ (s.operated i (s.set, s.semadj i) .reserving)
          rw [operated_same]
          exact .stayed _ i .reserving (by simp [at_, ProcessPc.Holds]) (by simp)
    · rename_i at_
      obtain ⟨⟨after, returned⟩, operated, same⟩ := Option.map_eq_some_iff.mp taken
      cases outcome with
      | count n => cases operated
      | done =>
        obtain ⟨present, rfl, rfl⟩ := releaseSem_done operated
        cases same
        exact .released i at_ present
      | error errno =>
        cases operated
        cases same
        show Move globals semNum s _ (s.operated i (s.set, s.semadj i) .inside)
        rw [operated_same]
        exact .stayed _ i .inside (by simp [at_, ProcessPc.Holds]) (by simp)
    · cases taken
  | exit i =>
    simp only [step] at taken
    split at taken
    · cases taken
    · rename_i running
      cases taken
      exact .exited i running

/-- What the semaphore guarantees: `owner` is the process that holds it, and while nobody does it is
    0 only if a process has ended with it. -/
structure Invariant (globals : Globals) (semNum : Nat) (owner : Option ι) (s : State ι) : Prop where
  present : s.set.removed = false
  guarded : Guards ProcessPc.Holds owner s.pc
  busy : ∀ i, owner = some i → s.set.value semNum = 0
  binary : s.set.value semNum ≤ 1
  adjusted : ∀ i, s.semadj i = if (s.pc i).Holds then adjustment globals else 0
  returned : globals.bsUseSemUndo = true → owner = none → s.set.value semNum = 1

omit [DecidableEq ι] in
theorem invariant_initial {set : SemaphoreSet} (present : set.removed = false) :
    Invariant globals semNum none (initial (ι := ι) semNum set) := by
  have one : (initSemAvailable set semNum).value semNum = 1 := setval_value_self ..
  refine ⟨present, ?_, by simp, one.le, ?_, fun _ _ => one⟩
  · intro i
    simp [initial, ProcessPc.Holds]
  · intro i
    simp [initial, ProcessPc.Holds]

theorem Invariant.adjusted_update {owner : Option ι} {pc : ProcessPc} {adj : Int}
    (invariant : Invariant globals semNum owner s) (new : adj = if pc.Holds then adjustment globals else 0)
    (j : ι) : Function.update s.semadj i adj j =
      if (Function.update s.pc i pc j).Holds then adjustment globals else 0 := by
  by_cases same : j = i
  · subst same
    rw [Function.update_self, Function.update_self, new]
  · rw [Function.update_of_ne same, Function.update_of_ne same]
    exact invariant.adjusted j

theorem Move.invariant {owner : Option ι} {action : Action ι} (invariant : Invariant globals semNum owner s)
    (move : Move globals semNum s action t) : ∃ owner', Invariant globals semNum owner' t := by
  obtain ⟨present, guarded, busy, binary, adjusted, returned⟩ := id invariant
  cases move with
  | stayed action i pc same quiet =>
    refine ⟨owner, present, guarded.keep same, busy, binary, ?_, returned⟩
    intro j
    by_cases moved : j = i
    · subst moved
      simp only [State.become, Function.update_self, same]
      exact adjusted j
    · simp only [State.become, Function.update_of_ne moved]
      exact adjusted j
  | reserved i at_ here available =>
    have outside : ¬ (s.pc i).Holds := by simp [at_, ProcessPc.Holds]
    have free : owner = none := by
      cases owner with
      | none => rfl
      | some j => exact absurd (busy j rfl) (by omega)
    have before := adjusted i
    rw [if_neg outside] at before
    refine ⟨some i, present, guarded.acquire free (.inl rfl), ?_, ?_, ?_, by simp⟩
    · intro j _
      simp only [State.operated, setval_value_self]
      omega
    · simp only [State.operated, setval_value_self]
      omega
    · exact invariant.adjusted_update (by simp [before, ProcessPc.Holds])
  | released i at_ here =>
    have inside : (s.pc i).Holds := .inr at_
    have zero := busy i ((guarded i).mp inside)
    have before := adjusted i
    rw [if_pos inside] at before
    refine ⟨none, present, guarded.release inside (by simp [ProcessPc.Holds]), by simp, ?_, ?_, ?_⟩
    · simp [State.operated, zero]
    · exact invariant.adjusted_update (by simp [before, ProcessPc.Holds])
    · simp [State.operated, zero]
  | exited i running =>
    have outside : ¬ ProcessPc.exited.Holds := by simp [ProcessPc.Holds]
    by_cases inside : (s.pc i).Holds
    · have zero := busy i ((guarded i).mp inside)
      have before := adjusted i
      rw [if_pos inside] at before
      refine ⟨none, present, guarded.release inside outside, by simp, ?_, ?_, ?_⟩
      · simp only [State.operated, setval_value_self, zero, before, adjustment]
        split <;> simp
      · exact invariant.adjusted_update (by simp [outside])
      · intro undo _
        simp [State.operated, zero, before, adjustment, undo]
    · have before := adjusted i
      rw [if_neg inside] at before
      refine ⟨owner, present, guarded.keep (by simp [outside, inside]), ?_, ?_, ?_, ?_⟩
      · simpa [State.operated, before] using busy
      · simpa [State.operated, before] using binary
      · exact invariant.adjusted_update (by simp [outside])
      · simpa [State.operated, before] using returned

def Available (semNum : Nat) (s : State ι) : Prop := s.set.value semNum = 1 ∨ ∃ i, (s.pc i).Holds

def LeavesFirst (s : State ι) : Action ι → Prop
  | .exit i => ¬ (s.pc i).Holds
  | _ => True

instance (s : State ι) : (action : Action ι) → Decidable (LeavesFirst s action)
  | .exit i => inferInstanceAs (Decidable (¬ (s.pc i).Holds))
  | .call _ | .semop _ _ => isTrue trivial

theorem available_update {pc : ProcessPc} (same : pc.Holds ↔ (s.pc i).Holds) :
    (∃ j, (Function.update s.pc i pc j).Holds) ↔ ∃ j, (s.pc j).Holds := by
  refine exists_congr fun j => ?_
  by_cases moved : j = i
  · subst moved
    rw [Function.update_self, same]
  · rw [Function.update_of_ne moved]

theorem Move.available {owner : Option ι} {action : Action ι} (invariant : Invariant globals semNum owner s)
    (move : Move globals semNum s action t) :
    Available semNum t ↔ Available semNum s ∧ (globals.bsUseSemUndo = true ∨ LeavesFirst s action) := by
  have binary := invariant.binary
  cases move with
  | stayed action i pc same quiet =>
    have leaves : LeavesFirst s action := by
      cases action with
      | exit j => exact absurd rfl (quiet j)
      | call j => trivial
      | semop j outcome => trivial
    rw [and_iff_left (.inr leaves)]
    exact or_congr_right (available_update same)
  | reserved i at_ present available =>
    apply iff_of_true
    · exact .inr ⟨i, by simp [State.operated, ProcessPc.Holds]⟩
    · exact ⟨.inl (by omega), .inr trivial⟩
  | released i at_ present =>
    have inside : (s.pc i).Holds := .inr at_
    have zero := invariant.busy i ((invariant.guarded i).mp inside)
    apply iff_of_true
    · exact .inl (by simp [State.operated, zero])
    · exact ⟨.inr ⟨i, inside⟩, .inr trivial⟩
  | exited i running =>
    have before := invariant.adjusted i
    have outside : ¬ ProcessPc.exited.Holds := by simp [ProcessPc.Holds]
    by_cases inside : (s.pc i).Holds
    · have zero := invariant.busy i ((invariant.guarded i).mp inside)
      have nobody : ¬ ∃ j, (Function.update s.pc i .exited j).Holds := by
        rintro ⟨j, held⟩
        by_cases same : j = i
        · subst same
          rw [Function.update_self] at held
          exact outside held
        · rw [Function.update_of_ne same] at held
          exact same (invariant.guarded.exclusive held inside)
      rw [if_pos inside] at before
      have held : Available semNum s := .inr ⟨i, inside⟩
      simp only [held, true_and, LeavesFirst, inside, not_true_eq_false, or_false]
      simp only [Available, State.operated, setval_value_self, zero, before, nobody, or_false, adjustment]
      by_cases undo : globals.bsUseSemUndo = true <;> simp [undo]
    · rw [if_neg inside] at before
      have leaves : LeavesFirst s (.exit i) := inside
      have same : ProcessPc.exited.Holds ↔ (s.pc i).Holds := iff_of_false outside inside
      rw [and_iff_left (.inr leaves)]
      simp only [Available, State.operated, setval_value_self, before, Int.add_zero, Int.toNat_natCast]
      exact or_congr_right (available_update same)

/-- The two functions make a lock of the semaphore: no two processes hold it, whatever fails or ends
    at whatever point, and it stays available if and only if the kernel undoes what a process leaves
    behind or no process ends while it holds it. -/
theorem exclusion_and_availability {set : SemaphoreSet} (present : set.removed = false) {actions : List (Action ι)}
    (run : exec (step globals semNum) actions (initial semNum set) = some s) :
    (∀ i j, (s.pc i).Holds → (s.pc j).Holds → i = j) ∧
    (Available semNum s ↔ globals.bsUseSemUndo = true ∨
      Along (step globals semNum) LeavesFirst actions (initial semNum set)) := by
  have kept : ∀ s action t, (∃ owner : Option ι, Invariant globals semNum owner s) →
      step globals semNum s action = some t → ∃ owner, Invariant globals semNum owner t :=
    fun s action t ⟨_, invariant⟩ taken => (step_moves taken).invariant invariant
  have start : ∃ owner : Option ι, Invariant globals semNum owner (initial semNum set) :=
    ⟨none, invariant_initial present⟩
  constructor
  · obtain ⟨owner, invariant⟩ := exec_invariant (fun s a t holds _ taken => kept s a t holds taken) start
      (along_true actions _) run
    exact fun i j first second => invariant.guarded.exclusive first second
  · have tracked := along_iff kept
      (fun s action t ⟨_, invariant⟩ taken => (step_moves taken).available invariant) start run
    have atStart : Available (ι := ι) semNum (initial semNum set) := .inl (setval_value_self ..)
    rw [tracked, and_iff_right atStart]
    by_cases undo : globals.bsUseSemUndo = true
    · exact iff_of_true ((along_true actions _).weaken fun _ _ _ => .inl undo) (.inl undo)
    · rw [or_iff_right undo]
      exact ⟨fun along => along.weaken fun _ _ either => either.resolve_left undo,
        fun along => along.weaken fun _ _ leaves => .inr leaves⟩

def endsInside : List (Action Nat) :=
  [.call 0, .call 1, .semop 0 .done, .semop 1 (.error .EINTR), .call 2, .exit 0]

theorem exclusion_and_availability_endsInside :
    (∃ s, exec (step ⟨false, true⟩ 0) endsInside (initial 0 ⟨fun _ => 7, false⟩) = some s ∧ ¬ Available 0 s) ∧
      ∃ s, exec (step ⟨true, true⟩ 0) endsInside (initial 0 ⟨fun _ => 7, false⟩) = some s ∧ Available 0 s := by
  constructor
  · obtain ⟨s, run⟩ : ∃ s, exec (step ⟨false, true⟩ 0) endsInside (initial 0 ⟨fun _ => 7, false⟩) = some s :=
      ⟨_, rfl⟩
    refine ⟨s, run, ?_⟩
    rw [(exclusion_and_availability rfl run).2]
    decide
  · obtain ⟨s, run⟩ : ∃ s, exec (step ⟨true, true⟩ 0) endsInside (initial 0 ⟨fun _ => 7, false⟩) = some s :=
      ⟨_, rfl⟩
    exact ⟨s, run, (exclusion_and_availability rfl run).2.mpr (.inl rfl)⟩

end SystemProgramming.BinarySems.Locking
