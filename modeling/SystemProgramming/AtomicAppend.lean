import SystemProgramming.Copy.Model

namespace SystemProgramming.AtomicAppend

open Copy Transition

def num2write : Nat := 1000000

def fill : Byte := 1

inductive Pc where
  | open
  | lseek
  | write
  | close
  | exited (status : ExitStatus)
  deriving DecidableEq, Repr

structure Process where
  pc : Pc
  fd : Option OpenFile

structure State where
  fs : Files
  procs : Nat → Process

def Action := Nat × Outcome

def State.setProc (s : State) (p : Nat) (proc : Process) : State :=
  { s with procs := Function.update s.procs p proc }

def appends (args : List CString) : Bool := args.length = 1

/-- Neither a wrong number of arguments nor `--help` ends the program. Without any, `open` is called
    with a null pointer, and a directory is not opened for writing. -/
def openFile (fs : Files) : List CString → Option OpenFile
  | [] => none
  | filename :: _ =>
    match fs.lookup (parsePath filename) with
    | some (.found i) => if (fs.content i).isSome then some ⟨i, 0⟩ else none
    | _ => none

def seekEnd (fs : Files) (file : OpenFile) : OpenFile :=
  { file with offset := ((fs.content file.inode).getD []).length }

/-- With `O_APPEND` the kernel looks for the end of the file once more, as part of the `write`. -/
def position (fs : Files) (args : List CString) (file : OpenFile) : Nat :=
  if appends args then (seekEnd fs file).offset else file.offset

variable (args : Nat → List CString)

def step (s : State) (action : Action) : Option State :=
  let (p, outcome) := action
  match (s.procs p).pc, (s.procs p).fd, outcome with
  | .open, _, .done => (openFile s.fs (args p)).map fun file => s.setProc p ⟨.lseek, some file⟩
  | .lseek, some file, .done => some (s.setProc p ⟨.write, some (seekEnd s.fs file)⟩)
  | .write, some file, .count n =>
    match s.fs.content file.inode with
    | some content =>
      if n ≤ num2write then
        some { s.setProc p ⟨.close, some { file with offset := position s.fs (args p) file + n }⟩ with
          fs := s.fs.setContent file.inode
            (FileSystem.place 0 content (position s.fs (args p) file) (List.replicate n fill)) }
      else none
    | none => none
  | .close, some _, .done => some (s.setProc p ⟨.exited .success, none⟩)
  | .exited _, _, _ => none
  | _, fd, .error _ => some (s.setProc p ⟨.exited .failure, fd⟩)
  | _, _, _ => none

def initial (fs : Files) : State := ⟨fs, fun _ => ⟨.open, none⟩⟩

def written (i : Nat) (s : State) (action : Action) : List Byte :=
  match (s.procs action.1).pc, (s.procs action.1).fd, action.2 with
  | .write, some file, .count n => if file.inode = i then List.replicate n fill else []
  | _, _, _ => []

def Unmoved (i : Nat) (s : State) (action : Action) : Prop :=
  match (s.procs action.1).pc, (s.procs action.1).fd, action.2 with
  | .write, some file, .count n =>
    file.inode = i → n = 0 ∨ appends (args action.1) = true ∨ file.offset = (seekEnd s.fs file).offset
  | _, _, _ => True

instance (i : Nat) (s : State) (action : Action) : Decidable (Unmoved args i s action) := by
  unfold Unmoved
  split <;> infer_instance

variable {args} {s t : State} {i p : Nat} {content : List Byte}

inductive Move (args : Nat → List CString) (s : State) : Action → State → Prop where
  | opened (p : Nat) (file : OpenFile) (at_ : (s.procs p).pc = .open) :
      Move args s (p, .done) (s.setProc p ⟨.lseek, some file⟩)
  | sought (p : Nat) (file : OpenFile) (at_ : (s.procs p).pc = .lseek) (fd : (s.procs p).fd = some file) :
      Move args s (p, .done) (s.setProc p ⟨.write, some (seekEnd s.fs file)⟩)
  | wrote (p : Nat) (file : OpenFile) (n : Nat) (content : List Byte) (at_ : (s.procs p).pc = .write)
      (fd : (s.procs p).fd = some file) (present : s.fs.content file.inode = some content) :
      Move args s (p, .count n)
        { s.setProc p ⟨.close, some { file with offset := position s.fs (args p) file + n }⟩ with
          fs := s.fs.setContent file.inode
            (FileSystem.place 0 content (position s.fs (args p) file) (List.replicate n fill)) }
  | closed (p : Nat) (at_ : (s.procs p).pc = .close) : Move args s (p, .done) (s.setProc p ⟨.exited .success, none⟩)
  | failed (p : Nat) (errno : Errno) (fd : Option OpenFile) :
      Move args s (p, .error errno) (s.setProc p ⟨.exited .failure, fd⟩)

theorem step_moves {action : Action} (taken : step args s action = some t) : Move args s action t := by
  obtain ⟨p, outcome⟩ := action
  simp only [step] at taken
  split at taken
  · rename_i at_
    obtain ⟨file, -, same⟩ := Option.map_eq_some_iff.mp taken
    cases same
    exact .opened p file at_
  · rename_i file at_ fd
    cases taken
    exact .sought p file at_ fd
  · rename_i file n at_ fd
    split at taken
    · rename_i content present
      split at taken
      · cases taken
        exact .wrote p file n content at_ fd present
      · cases taken
    · cases taken
  · rename_i at_ fd
    cases taken
    exact .closed p at_
  · cases taken
  · cases taken
    exact .failed p _ _
  · cases taken

structure Grown (i : Nat) (content : List Byte) (k total : Nat) (s : State) : Prop where
  file : s.fs.content i = some (content ++ List.replicate k fill)
  bound : k ≤ total
  behind : ∀ p file, (s.procs p).pc = .write → (s.procs p).fd = some file → file.inode = i →
    content.length ≤ file.offset ∧ file.offset ≤ content.length + k

theorem Grown.end_eq {k total : Nat} (grown : Grown i content k total s) {file : OpenFile} (here : file.inode = i) :
    (seekEnd s.fs file).offset = content.length + k := by
  rw [seekEnd]
  dsimp only
  rw [here, grown.file, Option.getD_some, List.length_append, List.length_replicate]

theorem Grown.setProc {k total : Nat} {proc : Process} (grown : Grown i content k total s)
    (new : ∀ file, proc.pc = .write → proc.fd = some file → file.inode = i →
      content.length ≤ file.offset ∧ file.offset ≤ content.length + k) :
    Grown i content k total (s.setProc p proc) := by
  refine ⟨grown.file, grown.bound, ?_⟩
  intro q file
  by_cases same : q = p
  · subst same
    simp only [State.setProc, Function.update_self]
    exact new file
  · simp only [State.setProc, Function.update_of_ne same]
    exact grown.behind q file

/-- Where a `write` of the process puts its bytes. -/
theorem Grown.placed {k total : Nat} (grown : Grown i content k total s) {file : OpenFile}
    (at_ : (s.procs p).pc = .write) (fd : (s.procs p).fd = some file) (here : file.inode = i) :
    content.length ≤ position s.fs (args p) file ∧ position s.fs (args p) file ≤ content.length + k ∧
      (position s.fs (args p) file = content.length + k ↔
        appends (args p) = true ∨ file.offset = (seekEnd s.fs file).offset) := by
  have end_ := grown.end_eq here
  unfold position
  by_cases append : appends (args p) = true
  · rw [if_pos append, end_]
    exact ⟨by omega, Nat.le_refl _, iff_of_true rfl (.inl append)⟩
  · have behind := grown.behind p file at_ fd here
    rw [if_neg append, end_, or_iff_right append]
    exact ⟨behind.1, behind.2, Iff.rfl⟩

theorem Grown.wrote {k total n : Nat} {file : OpenFile} {before : List Byte} (grown : Grown i content k total s)
    (at_ : (s.procs p).pc = .write) (fd : (s.procs p).fd = some file)
    (present : s.fs.content file.inode = some before) (here : file.inode = i) :
    ∃ k', Grown i content k' (total + n)
        { s.setProc p ⟨.close, some { file with offset := position s.fs (args p) file + n }⟩ with
          fs := s.fs.setContent file.inode
            (FileSystem.place 0 before (position s.fs (args p) file) (List.replicate n fill)) } ∧
      (k' = total + n ↔ k = total ∧
        (n = 0 ∨ appends (args p) = true ∨ file.offset = (seekEnd s.fs file).offset)) := by
  obtain ⟨low, high, ends⟩ := @Grown.placed args _ _ _ _ _ _ grown _ at_ fd here
  have bound := grown.bound
  have old : before = content ++ List.replicate k fill := by
    rw [here, grown.file] at present
    exact (Option.some.inj present).symm
  have placed := FileSystem.place_replicate (0 : Byte) fill k n low high
  rw [old, placed, ← ends]
  refine ⟨if n = 0 then k else max k (position s.fs (args p) file - content.length + n), ⟨?_, ?_, ?_⟩, ?_⟩
  · dsimp only
    rw [here, FileSystem.content_setContent_self]
  · split <;> omega
  · intro q other
    have behind := grown.behind q other
    by_cases same : q = p
    · subst same
      simp [State.setProc]
    · simp only [State.setProc, Function.update_of_ne same]
      intro writing there inode
      have old := behind writing there inode
      split <;> omega
  · split <;> omega

theorem Grown.elsewhere {k total : Nat} {file : OpenFile} {bytes : List Byte} {proc : Process}
    (grown : Grown i content k total s) (apart : file.inode ≠ i) (done : proc.pc ≠ .write) :
    Grown i content k total { s.setProc p proc with fs := s.fs.setContent file.inode bytes } := by
  have moved : Grown i content k total (s.setProc p proc) := grown.setProc (fun _ writing => absurd writing done)
  refine ⟨?_, moved.bound, moved.behind⟩
  dsimp only
  rw [FileSystem.content_setContent_of_ne apart.symm]
  exact grown.file

theorem quiet_of_plain {outcome : Outcome} (plain : ∀ n, outcome ≠ .count n) :
    written i s (p, outcome) = [] ∧ Unmoved args i s (p, outcome) := by
  cases outcome with
  | count n => exact absurd rfl (plain n)
  | done => simp [written, Unmoved]
  | error errno => simp [written, Unmoved]

/-- The file has grown by all that was written exactly if it had before and this `write` was at its end. -/
theorem Move.grown {k total : Nat} {action : Action} (grown : Grown i content k total s)
    (move : Move args s action t) :
    ∃ k', Grown i content k' (total + (written i s action).length) t ∧
      (k' = total + (written i s action).length ↔ k = total ∧ Unmoved args i s action) := by
  have still : ∀ p outcome proc, (∀ n, outcome ≠ .count n) →
      Grown i content k total (s.setProc p proc) →
      ∃ k', Grown i content k' (total + (written i s (p, outcome)).length) (s.setProc p proc) ∧
        (k' = total + (written i s (p, outcome)).length ↔ k = total ∧ Unmoved args i s (p, outcome)) := by
    intro p outcome proc plain moved
    obtain ⟨none, unmoved⟩ := @quiet_of_plain args s i p outcome plain
    rw [none, and_iff_left unmoved]
    exact ⟨k, moved, Iff.rfl⟩
  cases move with
  | opened p file at_ => exact still p _ _ (by simp) (grown.setProc (by simp))
  | sought p file at_ fd =>
    apply still p _ _ (by simp)
    apply grown.setProc
    intro other _ same here
    cases same
    have last : (seekEnd s.fs file).offset = content.length + k := grown.end_eq here
    omega
  | wrote p file n before at_ fd present =>
    by_cases here : file.inode = i
    · obtain ⟨k', moved, iff⟩ := @Grown.wrote args s i p content k total n file before grown at_ fd present here
      have log : written i s (p, .count n) = List.replicate n fill := by simp [written, at_, fd, here]
      have unmoved : Unmoved args i s (p, .count n) ↔
          n = 0 ∨ appends (args p) = true ∨ file.offset = (seekEnd s.fs file).offset := by
        simp [Unmoved, at_, fd, here]
      rw [log, List.length_replicate, unmoved]
      exact ⟨k', moved, iff⟩
    · have log : written i s (p, .count n) = [] := by simp [written, at_, fd, here]
      have unmoved : Unmoved args i s (p, .count n) := by simp [Unmoved, at_, fd, here]
      rw [log, and_iff_left unmoved]
      exact ⟨k, grown.elsewhere here (by simp), Iff.rfl⟩
  | closed p at_ => exact still p _ _ (by simp) (grown.setProc (by simp))
  | failed p errno fd => exact still p _ _ (by simp) (grown.setProc (by simp))

theorem grown_of_run {fs : Files} {actions : List Action} (present : fs.content i = some content)
    (run : exec (step args) actions (initial fs) = some s) :
    ∃ k, Grown i content k (trace (step args) (written i) actions (initial fs)).length s ∧
      (k = (trace (step args) (written i) actions (initial fs)).length ↔
        Along (step args) (Unmoved args i) actions (initial fs)) := by
  apply exec_history_always (I := fun before s => ∃ k,
    Grown i content k (trace (step args) (written i) before (initial fs)).length s ∧
      (k = (trace (step args) (written i) before (initial fs)).length ↔
        Along (step args) (Unmoved args i) before (initial fs))) ?_ ?_ run
  · rintro before r action m here ⟨k, grown, iff⟩ taken
    rw [trace_concat action here, along_concat action here, List.length_append, ← iff]
    exact (step_moves taken).grown grown
  · refine ⟨0, ⟨?_, Nat.le_refl _, ?_⟩, iff_of_true rfl trivial⟩
    · rw [List.replicate_zero, List.append_nil]
      exact present
    · intro p file at_
      cases at_

theorem written_ones (fs : Files) (actions : List Action) :
    ∃ n, trace (step args) (written i) actions (initial fs) = List.replicate n fill := by
  generalize initial fs = s
  induction actions generalizing s with
  | nil => exact ⟨0, rfl⟩
  | cons action actions ih =>
    have first : ∃ n, written i s action = List.replicate n fill := by
      unfold written
      split
      · split
        · exact ⟨_, rfl⟩
        · exact ⟨0, rfl⟩
      · exact ⟨0, rfl⟩
    obtain ⟨n, first⟩ := first
    rw [trace, first]
    cases step args s action with
    | none => exact ⟨n, by simp⟩
    | some m =>
      obtain ⟨more, rest⟩ := ih m
      exact ⟨n + more, by rw [Option.elim_some, rest, List.replicate_append_replicate]⟩

/-- Whatever runs at once on a file, and whatever fails, what it held stays. All that was written is behind
    it if and only if no `write` without `O_APPEND` comes after the end has moved; with one argument
    to each process that is always so. -/
theorem appended {fs : Files} {actions : List Action} (present : fs.content i = some content)
    (run : exec (step args) actions (initial fs) = some s) :
    ∃ after, s.fs.content i = some after ∧ content <+: after ∧
      (after = content ++ trace (step args) (written i) actions (initial fs) ↔
        Along (step args) (Unmoved args i) actions (initial fs)) ∧
      ((∀ p, (args p).length = 1) → after = content ++ trace (step args) (written i) actions (initial fs)) := by
  obtain ⟨k, grown, iff⟩ := grown_of_run present run
  obtain ⟨n, ones⟩ := @written_ones args i fs actions
  rw [ones, List.length_replicate] at iff
  have same : content ++ List.replicate k fill = content ++ List.replicate n fill ↔ k = n := by
    rw [List.append_cancel_left_eq]
    constructor
    · intro equal
      have sizes := congrArg List.length equal
      rwa [List.length_replicate, List.length_replicate] at sizes
    · rintro rfl
      rfl
  refine ⟨_, grown.file, List.prefix_append _ _, by rw [ones, same, iff], ?_⟩
  intro append
  rw [ones, same, iff]
  apply (along_true actions (initial fs)).weaken
  intro s action _
  unfold Unmoved
  split
  · exact fun _ => .inr (.inl (by simp [appends, append]))
  · trivial

def oneFile : Files where
  node i :=
    match i with
    | 1 => some (.dir fun name => if name = [dot] then some 1 else if name = [102] then some 2 else none)
    | 2 => some (.file [9])
    | _ => none
  root := 1
  cwd := 1
  maxLinks := 40

def filename : CString := ⟨[102], by decide⟩

def overlapping : List Action :=
  [(0, .done), (1, .done), (0, .done), (1, .done), (0, .count 3), (1, .count 2)]

theorem appended_overlapping :
    (∃ s, exec (step fun _ => [filename]) overlapping (initial oneFile) = some s ∧
      s.fs.content 2 = some [9, 1, 1, 1, 1, 1]) ∧
    ∃ s, exec (step fun _ => [filename, filename]) overlapping (initial oneFile) = some s ∧
      s.fs.content 2 ≠ some [9, 1, 1, 1, 1, 1] := by
  constructor
  · obtain ⟨s, run⟩ : ∃ s, exec (step fun _ => [filename]) overlapping (initial oneFile) = some s := ⟨_, rfl⟩
    obtain ⟨after, held, -, -, whole⟩ := @appended _ _ 2 [9] _ _ rfl run
    refine ⟨s, run, ?_⟩
    rw [held, whole (fun _ => rfl)]
    rfl
  · obtain ⟨s, run⟩ : ∃ s, exec (step fun _ => [filename, filename]) overlapping (initial oneFile) = some s :=
      ⟨_, rfl⟩
    obtain ⟨after, held, -, exact_, -⟩ := @appended _ _ 2 [9] _ _ rfl run
    refine ⟨s, run, ?_⟩
    rw [held, Ne, Option.some.injEq]
    exact fun same => absurd (exact_.mp same) (by decide)

end SystemProgramming.AtomicAppend
