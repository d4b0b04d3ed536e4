import SystemProgramming.Kernel
import SystemProgramming.Library.Buffer
import SystemProgramming.Library.Transition

namespace SystemProgramming.PshmStore

open Transition

def printf (s : String) : List Byte := s.toList.map fun c => BitVec.ofNat 8 c.toNat

def ftruncate (object : List Byte) (size : Nat) : List Byte :=
  object.take size ++ List.replicate (size - object.length) 0

def mmap (object : List Byte) (size : Nat) : Option (List Byte) :=
  if size = 0 then none else some (object.take size)

structure Writer where
  string : CString
  shmOpen : Outcome
  ftruncate : Outcome
  close : Outcome

def Writer.run (w : Writer) (object : List Byte) : List Byte × ExitStatus :=
  if w.shmOpen.isError = true then (object, .failure)
  else if w.ftruncate.isError = true then (object, .failure)
  else
    let size := w.string.val.length
    let resized := PshmStore.ftruncate object size
    match mmap resized size with
    | none => (resized, .failure)
    | some addr =>
      if w.close.isError = true then (resized, .failure)
      else (Buffer.overwrite w.string.val addr, .success)

structure Reader where
  shmOpen : Outcome
  close : Outcome

def Reader.run (r : Reader) (object : List Byte) : List Byte × ExitStatus :=
  if r.shmOpen.isError = true then (printf "shm_open\n", .failure)
  else
    match mmap object object.length with
    | none => (printf "mmap\n", .failure)
    | some addr =>
      if r.close.isError = true then (printf "close\n", .failure)
      else (addr ++ printf "\n", .success)

/-- An object and the string of the last `pshm_write` that exited with `EXIT_SUCCESS`. -/
structure Store where
  object : List Byte
  written : Option CString

def step (s : Store) (w : Writer) : Option Store :=
  let (object, status) := w.run s.object
  some ⟨object, if status = .success then some w.string else s.written⟩

def FailureKeeps (s : Store) (w : Writer) : Prop :=
  (w.run s.object).2 = .failure → (w.run s.object).1 = s.object

def StoresLast (object : List Byte) (writers : List Writer) (reader : Reader) : Prop :=
  Along step FailureKeeps writers ⟨object, none⟩ ∧
    ∀ s, exec step writers ⟨object, none⟩ = some s → ∀ string, s.written = some string →
      reader.run s.object = (string.val ++ printf "\n", .success)

def Writer.cuts (w : Writer) : Bool :=
  !w.shmOpen.isError && !w.ftruncate.isError && (w.string.val.isEmpty || w.close.isError)

def Writer.succeeds (w : Writer) : Bool :=
  !w.shmOpen.isError && !w.ftruncate.isError && !w.string.val.isEmpty && !w.close.isError

def Reader.succeeds (r : Reader) : Bool := !r.shmOpen.isError && !r.close.isError

/-- Such a writer was given a string as long as the object, which for the empty string means that
    the object is empty. -/
def Fits (s : Store) (w : Writer) : Prop := w.cuts = true → w.string.val.length = s.object.length

theorem length_ftruncate (object : List Byte) (size : Nat) : (ftruncate object size).length = size := by
  rw [ftruncate, List.length_append, List.length_take, List.length_replicate]
  omega

theorem ftruncate_eq_iff (object : List Byte) (size : Nat) :
    ftruncate object size = object ↔ size = object.length := by
  constructor
  · intro same
    rw [← length_ftruncate object size, same]
  · rintro rfl
    rw [ftruncate, List.take_length, Nat.sub_self, List.replicate_zero, List.append_nil]

theorem mmap_full {object : List Byte} (some_bytes : object ≠ []) :
    mmap object object.length = some object := by
  rw [mmap, if_neg (mt List.length_eq_zero_iff.mp some_bytes), List.take_length]

theorem Writer.run_cases (w : Writer) (object : List Byte) :
    (w.cuts = false ∧ w.succeeds = false ∧ w.run object = (object, .failure)) ∨
      (w.cuts = true ∧ w.succeeds = false ∧
        w.run object = (PshmStore.ftruncate object w.string.val.length, .failure)) ∨
      (w.cuts = false ∧ w.succeeds = true ∧ w.string.val ≠ [] ∧
        w.run object = (w.string.val, .success)) := by
  unfold run cuts succeeds
  by_cases opened : w.shmOpen.isError = true
  · simp [opened]
  · by_cases resized : w.ftruncate.isError = true
    · simp [opened, resized]
    · have full := length_ftruncate object w.string.val.length
      by_cases empty : w.string.val = []
      · simp [opened, resized, empty, mmap]
      · have size : w.string.val.length ≠ 0 := mt List.length_eq_zero_iff.mp empty
        have bytes : PshmStore.ftruncate object w.string.val.length ≠ [] := by
          intro nothing
          rw [nothing] at full
          exact size full.symm
        have mapped := mmap_full bytes
        rw [full] at mapped
        have copied : Buffer.overwrite w.string.val
            (PshmStore.ftruncate object w.string.val.length) = w.string.val := by
          rw [Buffer.overwrite, List.drop_eq_nil_of_le (Nat.le_of_eq full), List.append_nil]
        by_cases closed : w.close.isError = true
        · simp [opened, resized, empty, closed, mapped]
        · simp [opened, resized, empty, closed, mapped, copied]

theorem failureKeeps_iff (s : Store) (w : Writer) : FailureKeeps s w ↔ Fits s w := by
  unfold FailureKeeps Fits
  rcases w.run_cases s.object with ⟨cuts, -, ran⟩ | ⟨cuts, -, ran⟩ | ⟨cuts, -, -, ran⟩
  · simp [cuts, ran]
  · simp [cuts, ran, ftruncate_eq_iff]
  · simp [cuts, ran]

def Holds (s : Store) : Prop := ∀ string, s.written = some string → s.object = string.val ∧ string.val ≠ []

theorem holds_step {s t : Store} {w : Writer} (holds : Holds s) (fits : Fits s w)
    (taken : step s w = some t) : Holds t := by
  intro string last
  unfold step at taken
  rcases w.run_cases s.object with ⟨-, -, ran⟩ | ⟨cuts, -, ran⟩ | ⟨-, -, some_bytes, ran⟩
  · rw [ran] at taken
    cases taken
    exact holds string last
  · rw [ran] at taken
    cases taken
    have same := (ftruncate_eq_iff s.object _).mpr (fits cuts)
    rw [show ftruncate s.object w.string.val.length = s.object from same]
    exact holds string last
  · rw [ran] at taken
    cases taken
    cases last
    exact ⟨rfl, some_bytes⟩

theorem written_step {s t : Store} {w : Writer} (taken : step s w = some t) :
    t.written = none ↔ s.written = none ∧ w.succeeds = false := by
  unfold step at taken
  rcases w.run_cases s.object with ⟨-, fails, ran⟩ | ⟨-, fails, ran⟩ | ⟨-, succeeds, -, ran⟩
  · rw [ran] at taken
    cases taken
    simp [fails]
  · rw [ran] at taken
    cases taken
    simp [fails]
  · rw [ran] at taken
    cases taken
    simp [succeeds]

theorem Reader.run_of_holds (r : Reader) {string : List Byte} (some_bytes : string ≠ []) :
    r.run string = (string ++ printf "\n", .success) ↔ r.succeeds = true := by
  unfold run succeeds
  rw [mmap_full some_bytes]
  by_cases opened : r.shmOpen.isError = true
  · simp [opened]
  · by_cases closed : r.close.isError = true
    · simp [opened, closed]
    · simp [opened, closed]

theorem exec_step (writers : List Writer) (s : Store) : ∃ t, exec step writers s = some t := by
  induction writers generalizing s with
  | nil => exact ⟨s, rfl⟩
  | cons w writers ih => exact ih _

theorem holds_exec {object : List Byte} {writers : List Writer} {t : Store}
    (fits : Along step Fits writers ⟨object, none⟩)
    (run : exec step writers ⟨object, none⟩ = some t) : Holds t := by
  apply exec_invariant _ _ fits run
  · intro s w t holds fits taken
    exact holds_step holds fits taken
  · intro string last
    cases last

theorem written_exec {writers : List Writer} {s t : Store} (run : exec step writers s = some t) :
    t.written = none ↔ s.written = none ∧ ∀ w ∈ writers, w.succeeds = false := by
  induction writers generalizing s with
  | nil =>
    cases run
    simp
  | cons w writers ih =>
    rcases exec_cons_some run with ⟨m, taken, rest⟩
    rw [ih rest, written_step taken, List.forall_mem_cons, and_assoc]

/-- The store keeps the last string if and only if every writer that fails beyond `ftruncate` fits,
    and the reader does not fail by itself where there is something to read. -/
theorem storesLast_iff (object : List Byte) (writers : List Writer) (reader : Reader) :
    StoresLast object writers reader ↔ Along step Fits writers ⟨object, none⟩ ∧
      ((∃ w ∈ writers, w.succeeds = true) → reader.succeeds = true) := by
  have same : Along step FailureKeeps writers ⟨object, none⟩ ↔ Along step Fits writers ⟨object, none⟩ :=
    ⟨Along.weaken fun s w => (failureKeeps_iff s w).mp, Along.weaken fun s w => (failureKeeps_iff s w).mpr⟩
  unfold StoresLast
  rw [same]
  apply and_congr_right
  intro fits
  constructor
  · rintro reads ⟨w, member, succeeds⟩
    rcases exec_step writers ⟨object, none⟩ with ⟨t, run⟩
    cases last : t.written with
    | none =>
      rw [((written_exec run).mp last).2 w member] at succeeds
      cases succeeds
    | some string =>
      have holds := holds_exec fits run string last
      have read := reads t run string last
      rw [holds.1] at read
      exact (reader.run_of_holds holds.2).mp read
  · intro reads t run string last
    have holds := holds_exec fits run string last
    have some_writer : ∃ w ∈ writers, w.succeeds = true := by
      by_contra nobody
      have nothing : t.written = none := by
        apply (written_exec run).mpr
        refine ⟨rfl, ?_⟩
        intro w member
        by_contra succeeds
        exact nobody ⟨w, member, (Bool.not_eq_false _).mp succeeds⟩
      rw [nothing] at last
      cases last
    rw [holds.1]
    exact (reader.run_of_holds holds.2).mpr (reads some_writer)

def Writer.of (string : CString) : Writer := ⟨string, .done, .done, .done⟩

def Reader.plain : Reader := ⟨.done, .done⟩

/-- Then the writers fit if and only if none of them gets the empty string. -/
theorem along_fits_of (strings : List CString) (s : Store) (some_bytes : s.object ≠ []) :
    Along step Fits (strings.map Writer.of) s ↔ ∀ string ∈ strings, string.val ≠ [] := by
  induction strings generalizing s with
  | nil => simp
  | cons string strings ih =>
    rw [List.map_cons, List.forall_mem_cons]
    by_cases empty : string.val = []
    · have cut : (Writer.of string).cuts = true := by
        simp [Writer.of, Writer.cuts, Outcome.isError, empty]
      constructor
      · rintro ⟨fits, -⟩
        have length : string.val.length = s.object.length := fits cut
        rw [empty, List.length_nil] at length
        exact absurd (List.length_eq_zero_iff.mp length.symm) some_bytes
      · rintro ⟨first, -⟩
        exact absurd empty first
    · have uncut : (Writer.of string).cuts = false := by
        simp [Writer.of, Writer.cuts, Outcome.isError, empty]
      have succeeds : (Writer.of string).run s.object = (string.val, .success) := by
        rcases (Writer.of string).run_cases s.object with ⟨-, fails, -⟩ | ⟨cuts, -⟩ | ⟨-, -, -, ran⟩
        · simp [Writer.of, Writer.succeeds, Outcome.isError, empty] at fails
        · rw [uncut] at cuts
          cases cuts
        · exact ran
      have taken : step s (Writer.of string) = some ⟨string.val, some string⟩ := by
        rw [step, succeeds]
        rfl
      have rest := ih ⟨string.val, some string⟩ empty
      constructor
      · rintro ⟨-, later⟩
        exact ⟨empty, rest.mp (later _ taken)⟩
      · rintro ⟨-, others⟩
        refine ⟨fun cuts => absurd cuts (by rw [uncut]; decide), ?_⟩
        intro t next
        rw [taken] at next
        cases next
        exact rest.mpr others

/-- `abc` is written and then the empty string, which is refused but leaves nothing to read. -/
theorem emptyString_not_kept :
    ¬ ∀ (object : List Byte) (strings : List CString),
      StoresLast object (strings.map Writer.of) Reader.plain := by
  intro always
  have stores := always [120] [⟨[97, 98, 99], by decide⟩, ⟨[], by decide⟩]
  have kept := (stores.1.2 _ rfl).1 rfl
  cases kept

end SystemProgramming.PshmStore
