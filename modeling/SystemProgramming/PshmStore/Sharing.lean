import SystemProgramming.CommandLine
import SystemProgramming.Library.CNumber
import SystemProgramming.PshmStore

namespace SystemProgramming.PshmStore

open CNumber Getopt Transition

def O_RDWR : BitVec 32 := 2
def O_CREAT : BitVec 32 := 64
def O_EXCL : BitVec 32 := 128

def ownerReadWrite : BitVec 32 := 384

structure Object where
  mode : BitVec 32
  bytes : List Byte

abbrev Objects := Text → Option Object

def Objects.set (s : Objects) (name : Text) (bytes : List Byte) : Objects :=
  Function.update s name ((s name).map fun o => { o with bytes })

def objectName (name : Text) : Text := name.dropWhile (· = 47)

/-- `O_EXCL` without `O_CREAT` has no effect; `named` is what the system takes for a name. -/
def shm_open (named : Text → Bool) (s : Objects) (name : Text) (flags mode : BitVec 32) : Option Objects :=
  match s name with
  | some _ => if flags &&& O_CREAT ≠ 0 ∧ flags &&& O_EXCL ≠ 0 then none else some s
  | none =>
    if flags &&& O_CREAT ≠ 0 ∧ named name then some (Function.update s name (some ⟨mode, []⟩)) else none

structure Creating where
  name : Text
  flags : BitVec 32
  perms : BitVec 32
  size : BitVec 32
  deriving DecidableEq

def createOption (flags : BitVec 32) : Getopt.Event → Option (BitVec 32)
  | .option 99 _ => some (flags ||| O_CREAT)
  | .option 120 _ => some (flags ||| O_EXCL)
  | _ => none

/-- `pshm_create` up to its `shm_open`; none where `usageError` is called. The option string is `cx`, and
    the permissions are read as a decimal number. -/
def pshm_create (line : CommandLine) : Option Creating :=
  let (events, operands) := line.parse [99, 120]
  (events.foldlM createOption 0).bind fun flags =>
    match operands with
    | [name, size] => some ⟨objectName name.val, flags, ownerReadWrite, atoi size.val⟩
    | name :: size :: perms :: _ => some ⟨objectName name.val, flags, atoi perms.val, atoi size.val⟩
    | _ => none

structure Calls where
  shmOpen : Outcome
  ftruncate : Outcome
  last : Outcome

/-- The objects after `shm_open`; where it fails, `ftruncate` gets the descriptor -1 and fails as well. -/
def Creating.opens (named : Text → Bool) (c : Creating) (calls : Calls) (s : Objects) : Option Objects :=
  if calls.shmOpen.isError = true then none else shm_open named s c.name (c.flags ||| O_RDWR) c.perms

/-- A negative size is a size of the type `size_t` that no object has. -/
def Creating.resizes (c : Creating) (calls : Calls) : Bool :=
  !calls.ftruncate.isError && decide (0 ≤ c.size.toInt)

def Creating.run (named : Text → Bool) (c : Creating) (calls : Calls) (s : Objects) : Objects × ExitStatus :=
  match c.opens named calls s with
  | none => (s, .failure)
  | some s =>
    if c.resizes calls = true then
      let size := c.size.toNat
      let s := s.set c.name (ftruncate ((s c.name).elim [] (·.bytes)) size)
      (s, if calls.last.isError = true ∨ size = 0 then .failure else .success)
    else (s, .failure)

/-- The operands of `pshm_write`, which goes on when there are too many; without the two it ends at a null
    pointer before it changes anything. -/
def pshm_write (args : List CString) : Option (Text × CString) :=
  match args with
  | name :: string :: _ => some (objectName name.val, string)
  | _ => none

def usageErr (argv0 : CString) (args : List CString) : List Byte :=
  if args.length ≠ 1 ∨ args.map (·.val) = [printf "--help"] then
    printf "usageErr " ++ argv0.val ++ printf " shm-name\n"
  else []

/-- What `pshm_read` leaves on `stdout`. Of the line `early` bytes are out before the `write`: all of them on a
    terminal, and otherwise what the buffer of `printf` cannot hold. -/
def Reader.output (r : Reader) (early : Nat) (line object : List Byte) : List Byte × ExitStatus :=
  match r.run object with
  | (out, .failure) => (line ++ out, .failure)
  | (_, .success) => (line.take early ++ object ++ line.drop early ++ printf "\n", .success)

def pshm_read (argv0 : CString) (early : Nat) (s : Objects) (args : List CString) (r : Reader) :
    Option (List Byte × ExitStatus) :=
  args.head?.map fun name =>
    match s (objectName name.val) with
    | some o => r.output early (usageErr argv0 args) o.bytes
    | none => (usageErr argv0 args ++ printf "shm_open\n", .failure)

inductive Action where
  | create (line : CommandLine) (calls : Calls)
  | write (args : List CString) (calls : Calls)

def Calls.writer (calls : Calls) (string : CString) : Writer := ⟨string, calls.shmOpen, calls.ftruncate, calls.last⟩

def runTool (named : Text → Bool) (s : Objects) : Action → Option Objects
  | .create line calls =>
    match pshm_create line with
    | some c => some (c.run named calls s).1
    | none => some s
  | .write args calls =>
    match pshm_write args with
    | some (name, string) =>
      match s name with
      | some o => some (s.set name ((calls.writer string).run o.bytes).1)
      | none => some s
    | none => some s

inductive Change where
  | created
  | resized (size : Nat)
  | wrote (string : List Byte)
  deriving DecidableEq

def changes (named : Text → Bool) (name : Text) (s : Objects) : Action → List Change
  | .create line calls =>
    match pshm_create line with
    | some c =>
      if c.name = name ∧ (c.opens named calls s).isSome then
        (if s name = none then [.created] else []) ++
          (if c.resizes calls = true then [.resized c.size.toNat] else [])
      else []
    | none => []
  | .write args calls =>
    match pshm_write args with
    | some (target, string) =>
      if target = name ∧ (s name).isSome then
        if (calls.writer string).succeeds = true then [.wrote string.val]
        else if (calls.writer string).cuts = true then [.resized string.val.length]
        else []
      else []
    | none => []

def since (log : List Change) : List Byte × List Nat :=
  log.foldl (fun last change =>
    match change with
    | .created => ([], [])
    | .resized size => (last.1, last.2 ++ [size])
    | .wrote string => (string, [])) ([], [])

def kept (last : List Byte × List Nat) : Nat := last.2.foldl min last.1.length

def sizeNow (last : List Byte × List Nat) : Nat := last.2.getLastD last.1.length

def content (log : List Change) : List Byte :=
  (since log).1.take (kept (since log)) ++ List.replicate (sizeNow (since log) - kept (since log)) 0

theorem kept_le (last : List Byte × List Nat) : kept last ≤ last.1.length ∧ kept last ≤ sizeNow last := by
  obtain ⟨string, sizes⟩ := last
  induction sizes using List.reverseRecOn with
  | nil => exact ⟨Nat.le_refl _, Nat.le_refl _⟩
  | append_singleton sizes size ih =>
    rw [kept, sizeNow, List.foldl_append, List.getLastD_concat]
    exact ⟨(Nat.min_le_left _ _).trans ih.1, Nat.min_le_right _ _⟩

theorem content_created (log : List Change) : content (log ++ [.created]) = [] := by
  simp [content, since, List.foldl_append, kept, sizeNow]

theorem content_wrote (log : List Change) (string : List Byte) : content (log ++ [.wrote string]) = string := by
  simp [content, since, List.foldl_append, kept, sizeNow]

theorem ftruncate_padded {string : List Byte} {k size n : Nat} (fits : k ≤ string.length) (within : k ≤ size) :
    ftruncate (string.take k ++ List.replicate (size - k) 0) n =
      string.take (min k n) ++ List.replicate (n - min k n) 0 := by
  have length : (string.take k).length = k := List.length_take_of_le fits
  rw [ftruncate, List.length_append, length, List.length_replicate, List.take_append, length, List.take_take,
    List.take_replicate, List.append_assoc, List.replicate_append_replicate, Nat.min_comm]
  congr 2
  omega

theorem content_resized (log : List Change) (size : Nat) :
    content (log ++ [.resized size]) = ftruncate (content log) size := by
  have next : since (log ++ [.resized size]) = ((since log).1, (since log).2 ++ [size]) := by
    rw [since, List.foldl_append]
    rfl
  obtain ⟨fits, within⟩ := kept_le (since log)
  have less : kept ((since log).1, (since log).2 ++ [size]) = min (kept (since log)) size := by
    rw [kept, List.foldl_append]
    rfl
  have last : sizeNow ((since log).1, (since log).2 ++ [size]) = size := by
    rw [sizeNow, List.getLastD_concat]
  rw [content, content, ftruncate_padded fits within, next, less, last]

def objectAfter (log : List Change) : Option (List Byte) := if log = [] then none else some (content log)

theorem objectAfter_concat (log : List Change) (change : Change) :
    objectAfter (log ++ [change]) = some (content (log ++ [change])) := if_neg (by simp)

theorem objectAfter_resized {log : List Change} {bytes : List Byte} (before : objectAfter log = some bytes)
    (size : Nat) : objectAfter (log ++ [.resized size]) = some (ftruncate bytes size) := by
  unfold objectAfter at before
  split at before
  · cases before
  · cases before
    rw [objectAfter_concat, content_resized]

def Objects.bytes (s : Objects) (name : Text) : Option (List Byte) := (s name).map (·.bytes)

section Step

variable {named : Text → Bool} {s t u : Objects} {name : Text} {c : Creating} {calls : Calls} {log : List Change}

theorem bytes_set_self (bytes : List Byte) : (s.set name bytes).bytes name = (s.bytes name).map fun _ => bytes := by
  rw [Objects.bytes, Objects.set, Function.update_self, Objects.bytes, Option.map_map, Option.map_map]
  rfl

theorem bytes_set_of_ne {other : Text} (apart : name ≠ other) (bytes : List Byte) :
    (s.set other bytes).bytes name = s.bytes name := by
  rw [Objects.bytes, Objects.set, Function.update_of_ne apart, Objects.bytes]

theorem shm_open_bytes {flags mode : BitVec 32} (opened : shm_open named s name flags mode = some t) :
    t.bytes name = some ((s.bytes name).getD []) ∧ ∀ other, other ≠ name → t other = s other := by
  unfold shm_open at opened
  split at opened
  · rename_i o present
    split at opened
    · cases opened
    · cases opened
      refine ⟨?_, fun _ _ => rfl⟩
      rw [Objects.bytes, present]
      rfl
  · rename_i absent
    split at opened
    · cases opened
      refine ⟨?_, fun other apart => Function.update_of_ne apart _ _⟩
      rw [Objects.bytes, Function.update_self, Objects.bytes, absent]
      rfl
    · cases opened

theorem opens_bytes (opened : c.opens named calls s = some u) :
    u.bytes c.name = some ((s.bytes c.name).getD []) ∧ ∀ other, other ≠ c.name → u other = s other := by
  unfold Creating.opens at opened
  split at opened
  · cases opened
  · exact shm_open_bytes opened

theorem run_bytes_of_ne (named : Text → Bool) (c : Creating) (calls : Calls) (s : Objects) (apart : name ≠ c.name) :
    (c.run named calls s).1.bytes name = s.bytes name := by
  unfold Creating.run
  split
  · rfl
  · rename_i u opened
    have same : Objects.bytes u name = s.bytes name := by
      rw [Objects.bytes, Objects.bytes, (opens_bytes opened).2 name apart]
    split
    · exact (bytes_set_of_ne apart _).trans same
    · exact same

/-- The object as `pshm_create` opens it. -/
theorem opened_after (before : s.bytes c.name = objectAfter log) (opened : c.opens named calls s = some u) :
    u.bytes c.name = objectAfter (log ++ if s c.name = none then [.created] else []) := by
  rw [(opens_bytes opened).1]
  cases here : s c.name with
  | none =>
    rw [if_pos rfl, objectAfter_concat, content_created, Objects.bytes, here]
    rfl
  | some o =>
    rw [if_neg (by simp), List.append_nil, ← before, Objects.bytes, here]
    rfl

theorem run_bytes (before : s.bytes c.name = objectAfter log) :
    (c.run named calls s).1.bytes c.name = objectAfter (log ++ if (c.opens named calls s).isSome then
      (if s c.name = none then [.created] else []) ++
        (if c.resizes calls = true then [.resized c.size.toNat] else []) else []) := by
  unfold Creating.run
  cases opened : c.opens named calls s with
  | none => simpa using before
  | some u =>
    have after := opened_after before opened
    obtain ⟨o, present, -⟩ := Option.map_eq_some_iff.mp (opens_bytes opened).1
    have there : u.bytes c.name = some o.bytes := by rw [Objects.bytes, present, Option.map_some]
    simp only [Option.isSome_some, if_true]
    by_cases resizes : c.resizes calls = true
    · rw [if_pos resizes, if_pos resizes, ← List.append_assoc, objectAfter_resized (after.symm.trans there)]
      show Objects.bytes (u.set c.name _) c.name = _
      rw [bytes_set_self, there, present]
      rfl
    · rw [if_neg resizes, if_neg resizes, List.append_nil]
      exact after

/-- What `pshm_write` does to an object that exists. -/
theorem writer_bytes {bytes : List Byte} (w : Writer) (before : some bytes = objectAfter log) :
    some (w.run bytes).1 = objectAfter (log ++ if w.succeeds = true then [.wrote w.string.val]
      else if w.cuts = true then [.resized w.string.val.length] else []) := by
  rcases w.run_cases bytes with ⟨cuts, fails, ran⟩ | ⟨cuts, fails, ran⟩ | ⟨cuts, succeeds, -, ran⟩
  · simpa [cuts, fails, ran] using before
  · rw [ran, fails, cuts]
    exact (objectAfter_resized before.symm _).symm
  · rw [ran, succeeds, if_pos rfl, objectAfter_concat, content_wrote]

theorem runTool_bytes {action : Action} (before : s.bytes name = objectAfter log)
    (taken : runTool named s action = some t) : t.bytes name = objectAfter (log ++ changes named name s action) := by
  cases action with
  | create line calls =>
    simp only [runTool] at taken
    cases parsed : pshm_create line with
    | none =>
      rw [parsed] at taken
      cases taken
      simpa [changes, parsed] using before
    | some c =>
      rw [parsed] at taken
      cases taken
      by_cases same : c.name = name
      · subst same
        simpa only [changes, parsed, true_and] using run_bytes before
      · simpa [changes, parsed, same, run_bytes_of_ne named c calls s (Ne.symm same)] using before
  | write args calls =>
    simp only [runTool] at taken
    cases parsed : pshm_write args with
    | none =>
      rw [parsed] at taken
      cases taken
      simpa [changes, parsed] using before
    | some operands =>
      obtain ⟨target, string⟩ := operands
      rw [parsed] at taken
      dsimp only at taken
      cases present : s target with
      | none =>
        rw [present] at taken
        cases taken
        by_cases same : target = name
        · subst same
          simpa [changes, parsed, present] using before
        · simpa [changes, parsed, same] using before
      | some o =>
        rw [present] at taken
        cases taken
        by_cases same : target = name
        · subst same
          have there : s.bytes target = some o.bytes := by rw [Objects.bytes, present, Option.map_some]
          rw [bytes_set_self, there, Option.map_some, writer_bytes _ (there.symm.trans before)]
          simp [changes, parsed, present, Calls.writer]
        · simpa [changes, parsed, same, bytes_set_of_ne (Ne.symm same)] using before

end Step

theorem Reader.output_of_holds (r : Reader) {string : List Byte} (some_bytes : string ≠ [])
    (succeeds : r.succeeds = true) (early : Nat) (line : List Byte) :
    r.output early line string = (line.take early ++ string ++ line.drop early ++ printf "\n", .success) := by
  unfold output
  rw [(r.run_of_holds some_bytes).mpr succeeds]

/-- Whatever runs of `pshm_create` and `pshm_write` on whatever objects come in what order, and wherever they
    fail: an object holds as much of the last string written to it as has fitted into it since, and zeros
    behind that; and `pshm_read` shows this. -/
theorem objects_shared {named : Text → Bool} {actions : List Action} {s : Objects} (name : CString)
    (run : exec (runTool named) actions (fun _ => none) = some s) :
    let log := trace (runTool named) (changes named (objectName name.val)) actions fun _ => none
    s.bytes (objectName name.val) = objectAfter log ∧
    ∀ (argv0 : CString) (early : Nat) (args : List CString) (r : Reader), r.succeeds = true → content log ≠ [] →
      let line := usageErr argv0 (name :: args)
      pshm_read argv0 early s (name :: args) r =
        some (line.take early ++ content log ++ line.drop early ++ printf "\n", .success) := by
  intro log
  have holds : s.bytes (objectName name.val) = objectAfter log := by
    apply exec_trace_always (I := fun log s => s.bytes (objectName name.val) = objectAfter log) ?_ rfl run
    intro log s action t before taken
    exact runTool_bytes before taken
  refine ⟨holds, ?_⟩
  intro argv0 early args r succeeds some_bytes line
  have begun : log ≠ [] := by
    intro nothing
    rw [nothing] at some_bytes
    exact some_bytes rfl
  rw [objectAfter, if_neg begun] at holds
  obtain ⟨o, present, same⟩ := Option.map_eq_some_iff.mp holds
  rw [pshm_read, List.head?_cons, Option.map_some, present]
  dsimp only
  rw [same, r.output_of_holds some_bytes succeeds]

def argument (s : String) (terminated : 0 ∉ printf s) : CString := ⟨printf s, terminated⟩

def anyName (name : Text) : Bool := !name.isEmpty && !name.contains 47

def cutAndGrown : List Action :=
  let all : Calls := ⟨.done, .done, .done⟩
  let a := argument "/a" (by decide)
  [.create ⟨.permute, [a, argument "9" (by decide), argument "-c" (by decide)]⟩ all,
    .write [a, argument "hello" (by decide)] all,
    .create ⟨.permute, [argument "a" (by decide), argument "2" (by decide)]⟩ all,
    .create ⟨.permute, [argument "/b" (by decide), argument "7" (by decide)]⟩ all,
    .create ⟨.requireOrder, [argument "-x" (by decide), a, argument "4" (by decide)]⟩ all]

theorem objects_shared_cutAndGrown :
    ∃ s, exec (runTool anyName) cutAndGrown (fun _ => none) = some s ∧
      s.bytes (printf "a") = some (printf "he" ++ [0, 0]) ∧
      pshm_read (argument "pshm_read" (by decide)) 0 s [argument "//a" (by decide), argument "b" (by decide)]
          Reader.plain =
        some (printf "he" ++ [0, 0] ++ printf "usageErr pshm_read shm-name\n\n", .success) := by
  obtain ⟨s, run⟩ : ∃ s, exec (runTool anyName) cutAndGrown (fun _ => none) = some s := ⟨_, rfl⟩
  have whole := objects_shared (argument "//a" (by decide)) run
  have name : objectName (argument "//a" (by decide)).val = printf "a" := by decide +kernel
  have log : trace (runTool anyName) (changes anyName (printf "a")) cutAndGrown (fun _ => none) =
      [.created, .resized 9, .wrote (printf "hello"), .resized 2, .resized 4] := by decide +kernel
  have value : content [.created, .resized 9, .wrote (printf "hello"), .resized 2, .resized 4] =
      printf "he" ++ [0, 0] := by decide +kernel
  dsimp only at whole
  rw [name, log, objectAfter, if_neg (by simp), value] at whole
  have read := whole.2 (argument "pshm_read" (by decide)) 0 [argument "b" (by decide)] Reader.plain rfl (by decide)
  exact ⟨s, run, whole.1, read.trans (by decide +kernel)⟩

end SystemProgramming.PshmStore
