import SystemProgramming.Copy.Model

namespace SystemProgramming.Copy

open FileSystem Transition

inductive Move (s : State) : Outcome → State → Prop where
  | failed {t : State} (outcome : Outcome) (stopped : t.pc = .exited .failure) : Move s outcome t
  | opened (oldFile newFile : CString) (i : Nat) (at_ : s.pc = .openInput oldFile newFile)
      (old : s.fs.lookup (parsePath oldFile) = some (.found i)) :
      Move s .done { s with pc := .openOutput newFile, inputFd := some ⟨i, 0⟩ }
  | emptied (newFile : CString) (o : Nat) (held : List Byte) (at_ : s.pc = .openOutput newFile)
      (new : s.fs.lookup (parsePath newFile) = some (.found o)) (file : s.fs.content o = some held) :
      Move s .done { s with pc := .read, fs := s.fs.setContent o [], outputFd := some ⟨o, 0⟩ }
  | created (newFile : CString) (d : Nat) (name : List Byte) (o : Nat) (at_ : s.pc = .openOutput newFile)
      (new : s.fs.lookup (parsePath newFile) = some (.missing d name)) (fresh : s.fs.node o = none) :
      Move s (.count o) { s with pc := .read, fs := s.fs.create d name o, outputFd := some ⟨o, 0⟩ }
  | ended (input : OpenFile) (held : List Byte) (at_ : s.pc = .read) (fd : s.inputFd = some input)
      (file : s.fs.content input.inode = some held) (nothing : held.drop input.offset = []) :
      Move s (.count 0) { s with pc := .closeInput }
  | filled (input : OpenFile) (held : List Byte) (n : Nat) (at_ : s.pc = .read) (fd : s.inputFd = some input)
      (file : s.fs.content input.inode = some held) (positive : 0 < n)
      (inside : n ≤ (held.drop input.offset).length) :
      Move s (.count n) { s with
        pc := .write n
        inputFd := some { input with offset := input.offset + n }
        buf := Buffer.overwrite ((held.drop input.offset).take n) s.buf }
  | wrote (output : OpenFile) (held : List Byte) (n : Nat) (at_ : s.pc = .write n) (fd : s.outputFd = some output)
      (file : s.fs.content output.inode = some held) :
      Move s (.count n) { s with
        pc := .read
        fs := s.fs.setContent output.inode
          (held.take output.offset ++ s.buf.take n ++ held.drop (output.offset + n))
        outputFd := some { output with offset := output.offset + n } }
  | closedInput (at_ : s.pc = .closeInput) : Move s .done { s with pc := .closeOutput, inputFd := none }
  | closedOutput (at_ : s.pc = .closeOutput) : Move s .done { s with pc := .exited .success }

theorem openInput_moves {s t : State} {oldFile newFile : CString} (at_ : s.pc = .openInput oldFile newFile)
    (taken : openInput s oldFile newFile = some t) : Move s .done t := by
  unfold openInput at taken
  split at taken
  · rename_i i old
    cases taken
    exact .opened oldFile newFile i at_ old
  · cases taken

theorem openExisting_moves {s t : State} {newFile : CString} (at_ : s.pc = .openOutput newFile)
    (taken : openExisting s newFile = some t) : Move s .done t := by
  unfold openExisting at taken
  split at taken
  · rename_i o new
    split at taken
    · rename_i present
      obtain ⟨held, file⟩ := Option.isSome_iff_exists.mp present
      cases taken
      exact .emptied newFile o held at_ new file
    · cases taken
  · cases taken

theorem openMissing_moves {s t : State} {newFile : CString} {inode : Nat} (at_ : s.pc = .openOutput newFile)
    (taken : openMissing s newFile inode = some t) : Move s (.count inode) t := by
  unfold openMissing at taken
  split at taken
  · rename_i d name new
    split at taken
    · rename_i free
      cases taken
      exact .created newFile d name inode at_ new (Option.isNone_iff_eq_none.mp free)
    · cases taken
  · cases taken

theorem rest_some {fs : Files} {fd : Option OpenFile} {file : OpenFile} {bytes : List Byte}
    (there : rest fs fd = some (file, bytes)) :
    fd = some file ∧ ∃ held, fs.content file.inode = some held ∧ held.drop file.offset = bytes := by
  obtain ⟨input, opened, mapped⟩ := Option.bind_eq_some_iff.mp there
  obtain ⟨held, present, same⟩ := Option.map_eq_some_iff.mp mapped
  cases same
  exact ⟨opened, held, present, rfl⟩

theorem read_moves {s t : State} {n : Nat} (at_ : s.pc = .read) (taken : read s n = some t) :
    Move s (.count n) t := by
  unfold read at taken
  split at taken
  · rename_i input bytes there
    obtain ⟨fd, held, file, rfl⟩ := rest_some there
    split at taken
    · rename_i counted
      obtain ⟨-, inside, atEnd⟩ := counted
      by_cases positive : 0 < n
      · rw [if_pos positive] at taken
        cases taken
        exact .filled input held n at_ fd file positive inside
      · rw [if_neg positive] at taken
        cases taken
        have none_left : n = 0 := by omega
        subst none_left
        exact .ended input held at_ fd file (atEnd.mp rfl)
    · cases taken
  · cases taken

theorem write_moves {s t : State} {numRead k : Nat} (at_ : s.pc = .write numRead)
    (taken : write s numRead k = some t) : Move s (.count k) t := by
  unfold write at taken
  split at taken
  · rename_i output fd
    split at taken
    · rename_i held file
      split at taken
      · cases taken
        by_cases whole : numRead = k
        · subst whole
          rw [if_neg (not_not_intro rfl)]
          exact .wrote output held numRead at_ fd file
        · exact .failed _ (if_pos whole)
      · cases taken
    · cases taken
  · cases taken

theorem step_moves {s t : State} {outcome : Outcome} (taken : step s outcome = some t) : Move s outcome t := by
  unfold step at taken
  split at taken
  case h_1 oldFile newFile at_ =>
    cases outcome with
    | done => exact openInput_moves at_ taken
    | count n => cases taken
    | error errno =>
      cases taken
      exact .failed _ rfl
  case h_2 newFile at_ =>
    cases outcome with
    | done => exact openExisting_moves at_ taken
    | count inode => exact openMissing_moves at_ taken
    | error errno =>
      cases taken
      exact .failed _ rfl
  case h_3 at_ =>
    cases outcome with
    | done => cases taken
    | count n => exact read_moves at_ taken
    | error errno =>
      cases taken
      exact .failed _ rfl
  case h_4 numRead at_ =>
    cases outcome with
    | done => cases taken
    | count k => exact write_moves at_ taken
    | error errno =>
      cases taken
      exact .failed _ rfl
  case h_5 at_ =>
    cases outcome with
    | done =>
      cases taken
      exact .closedInput at_
    | count n => cases taken
    | error errno =>
      cases taken
      exact .failed _ rfl
  case h_6 at_ =>
    cases outcome with
    | done =>
      cases taken
      exact .closedOutput at_
    | count n => cases taken
    | error errno =>
      cases taken
      exact .failed _ rfl
  case h_7 => cases taken

variable {fs : Files} {oldFile newFile : CString}

structure Copying (fs : Files) (oldFile newFile : CString) (i o : Nat) (after : Files) : Prop where
  before : fs.lookup (parsePath oldFile) = some (.found i)
  aliased : fs.lookup (parsePath newFile) = some (.found i) ↔ o = i
  old : after.lookup (parsePath oldFile) = some (.found i)
  new : after.lookup (parsePath newFile) = some (.found o)
  source : after.content i = if o = i then some [] else fs.content i

structure Reading (fs : Files) (oldFile newFile : CString) (i o k : Nat) (s : State) : Prop where
  copying : Copying fs oldFile newFile i o s.fs
  input : s.inputFd = some ⟨i, k⟩
  output : s.outputFd = some ⟨o, k⟩
  copied : s.fs.content o = some (((s.fs.content i).getD []).take k)

structure Writing (fs : Files) (oldFile newFile : CString) (i o k n : Nat) (held : List Byte) (s : State) :
    Prop where
  copying : Copying fs oldFile newFile i o s.fs
  apart : o ≠ i
  input : s.inputFd = some ⟨i, k + n⟩
  output : s.outputFd = some ⟨o, k⟩
  source : s.fs.content i = some held
  copied : s.fs.content o = some (held.take k)
  chunk : s.buf.take n = (held.drop k).take n
  inside : k + n ≤ held.length

def Phase (fs : Files) (oldFile newFile : CString) (s : State) : Prop :=
  match s.pc with
  | .openInput oldFile' newFile' => oldFile' = oldFile ∧ newFile' = newFile ∧ s.fs = fs
  | .openOutput newFile' => newFile' = newFile ∧ s.fs = fs ∧
      ∃ i, fs.lookup (parsePath oldFile) = some (.found i) ∧ s.inputFd = some ⟨i, 0⟩
  | .read => ∃ i o k, Reading fs oldFile newFile i o k s
  | .write n => ∃ i o k held, Writing fs oldFile newFile i o k n held s
  | .closeInput | .closeOutput | .exited .success => ∃ i o held, Copying fs oldFile newFile i o s.fs ∧
      s.fs.content i = some held ∧ s.fs.content o = some held
  | .exited .failure => True

theorem Phase.goto {s t : State} (phase : Phase fs oldFile newFile s) (same : t.fs = s.fs)
    (from_ : s.pc = .closeInput ∨ s.pc = .closeOutput) (there : t.pc = .closeOutput ∨ t.pc = .exited .success) :
    Phase fs oldFile newFile t := by
  unfold Phase at phase ⊢
  rw [same]
  rcases from_ with at_ | at_ <;> rcases there with there | there <;> rw [at_] at phase <;> rw [there] <;>
    exact phase

/-- Opening a file that is there: the source is emptied with it exactly when it is the same inode. -/
theorem copying_emptied {i o : Nat} {held : List Byte} (old : fs.lookup (parsePath oldFile) = some (.found i))
    (new : fs.lookup (parsePath newFile) = some (.found o)) (file : fs.content o = some held) :
    Copying fs oldFile newFile i o (fs.setContent o []) := by
  have extends_ := extends_setContent file []
  refine ⟨old, ?_, lookup_extends extends_ old, lookup_extends extends_ new, ?_⟩
  · rw [new, Option.some.injEq, Target.found.injEq]
  · by_cases same : o = i
    · subst same
      rw [if_pos rfl, content_setContent_self]
    · rw [if_neg same, content_setContent_of_ne (Ne.symm same)]

theorem copying_created {i o d : Nat} {name : List Byte} (old : fs.lookup (parsePath oldFile) = some (.found i))
    (new : fs.lookup (parsePath newFile) = some (.missing d name)) (fresh : fs.node o = none) :
    Copying fs oldFile newFile i o (fs.create d name o) ∧ (fs.create d name o).content o = some [] := by
  obtain ⟨dir, absent, there⟩ := lookup_create fresh new
  have apart : i ≠ o := by
    rintro rfl
    exact node_of_found old fresh
  refine ⟨⟨old, ?_, lookup_extends (extends_create dir absent fresh) old, there, ?_⟩, ?_⟩
  · rw [new]
    exact iff_of_false nofun (Ne.symm apart)
  · rw [if_neg (Ne.symm apart), content_create_of_ne dir apart]
  · exact content_create_self (ne_of_fresh dir fresh)

theorem Copying.write {i o : Nat} {after : Files} (copying : Copying fs oldFile newFile i o after) (apart : o ≠ i)
    {held : List Byte} (file : after.content o = some held) (content : List Byte) :
    Copying fs oldFile newFile i o (after.setContent o content) := by
  have extends_ := extends_setContent file content
  refine ⟨copying.before, copying.aliased, lookup_extends extends_ copying.old,
    lookup_extends extends_ copying.new, ?_⟩
  rw [content_setContent_of_ne (Ne.symm apart)]
  exact copying.source

section Loop

variable {s : State} {i o k n : Nat} {held : List Byte}

theorem Reading.ended {input : OpenFile} (reading : Reading fs oldFile newFile i o k s)
    (fd : s.inputFd = some input) (file : s.fs.content input.inode = some held)
    (nothing : held.drop input.offset = []) : s.fs.content i = some held ∧ s.fs.content o = some held := by
  have copied := reading.copied
  rw [reading.input] at fd
  cases fd
  have whole : held.take k = held := List.take_of_length_le (List.drop_eq_nil_iff.mp nothing)
  rw [file, Option.getD_some, whole] at copied
  exact ⟨file, copied⟩

theorem Reading.filled {input : OpenFile} (reading : Reading fs oldFile newFile i o k s)
    (fd : s.inputFd = some input) (file : s.fs.content input.inode = some held) (positive : 0 < n)
    (inside : n ≤ (held.drop input.offset).length) :
    Writing fs oldFile newFile i o k n held { s with
      pc := .write n
      inputFd := some { input with offset := input.offset + n }
      buf := Buffer.overwrite ((held.drop input.offset).take n) s.buf } := by
  have copied := reading.copied
  rw [reading.input] at fd
  cases fd
  have chunk := Buffer.take_overwrite_take (held.drop k) s.buf inside
  have bound : n ≤ held.length - k := by
    rw [List.length_drop] at inside
    exact inside
  have apart : o ≠ i := by
    rintro rfl
    have empty := reading.copying.source
    rw [if_pos rfl, file] at empty
    cases empty
    rw [List.length_nil] at bound
    omega
  rw [file] at copied
  exact ⟨reading.copying, apart, rfl, reading.output, file, copied, chunk, by omega⟩

theorem Writing.wrote {output : OpenFile} {written : List Byte}
    (writing : Writing fs oldFile newFile i o k n held s) (fd : s.outputFd = some output)
    (file : s.fs.content output.inode = some written) :
    Reading fs oldFile newFile i o (k + n) { s with
      pc := .read
      fs := s.fs.setContent output.inode
        (written.take output.offset ++ s.buf.take n ++ written.drop (output.offset + n))
      outputFd := some { output with offset := output.offset + n } } := by
  have copied := writing.copied
  rw [writing.output] at fd
  cases fd
  rw [file] at copied
  cases copied
  have behind : (held.take k).drop (k + n) = [] := by
    rw [List.drop_eq_nil_iff, List.length_take]
    omega
  have whole : (held.take k).take k ++ s.buf.take n ++ (held.take k).drop (k + n) = held.take (k + n) := by
    rw [behind, List.append_nil, List.take_take, Nat.min_self, writing.chunk, List.take_add]
  have kept : (s.fs.setContent o (held.take (k + n))).content i = some held := by
    rw [content_setContent_of_ne (Ne.symm writing.apart)]
    exact writing.source
  dsimp only
  rw [whole]
  refine ⟨writing.copying.write writing.apart file _, writing.input, rfl, ?_⟩
  dsimp only
  rw [kept]
  exact content_setContent_self s.fs o _

end Loop

theorem Move.phase {s t : State} {outcome : Outcome} (phase : Phase fs oldFile newFile s)
    (move : Move s outcome t) : Phase fs oldFile newFile t := by
  cases move with
  | failed outcome stopped =>
    unfold Phase
    rw [stopped]
    trivial
  | opened oldFile' newFile' i at_ old =>
    unfold Phase at phase
    rw [at_] at phase
    obtain ⟨rfl, rfl, rfl⟩ := phase
    exact ⟨rfl, rfl, i, old, rfl⟩
  | emptied newFile' o held at_ new file =>
    unfold Phase at phase
    rw [at_] at phase
    obtain ⟨rfl, rfl, i, old, input⟩ := phase
    have empty := content_setContent_self s.fs o []
    exact ⟨i, o, 0, copying_emptied old new file, input, rfl, empty⟩
  | created newFile' d name o at_ new fresh =>
    unfold Phase at phase
    rw [at_] at phase
    obtain ⟨rfl, rfl, i, old, input⟩ := phase
    obtain ⟨copying, empty⟩ := copying_created old new fresh
    exact ⟨i, o, 0, copying, input, rfl, empty⟩
  | ended input held at_ fd file nothing =>
    unfold Phase at phase
    rw [at_] at phase
    obtain ⟨i, o, k, reading⟩ := phase
    exact ⟨i, o, held, reading.copying, reading.ended fd file nothing⟩
  | filled input held n at_ fd file positive inside =>
    unfold Phase at phase
    rw [at_] at phase
    obtain ⟨i, o, k, reading⟩ := phase
    exact ⟨i, o, k, held, reading.filled fd file positive inside⟩
  | wrote output written n at_ fd file =>
    unfold Phase at phase
    rw [at_] at phase
    obtain ⟨i, o, k, held, writing⟩ := phase
    exact ⟨i, o, k + n, writing.wrote fd file⟩
  | closedInput at_ => exact phase.goto rfl (.inl at_) (.inl rfl)
  | closedOutput at_ => exact phase.goto rfl (.inr at_) (.inr rfl)

theorem phase_initial (fs : Files) (oldFile newFile : CString) (buf : List Byte) :
    Phase fs oldFile newFile (initial [oldFile, newFile] fs buf) := by
  unfold Phase initial start
  dsimp only
  by_cases usage : oldFile.val = help
  · rw [if_pos usage]
    trivial
  · rw [if_neg usage]
    exact ⟨rfl, rfl, rfl⟩

/-- A run that gets to the end has copied what the source holds then. -/
theorem copying_of_success {buf : List Byte} {outcomes : List Outcome} {s : State}
    (run : exec step outcomes (initial [oldFile, newFile] fs buf) = some s) (exited : s.pc = .exited .success) :
    ∃ i o, Copying fs oldFile newFile i o s.fs ∧ s.fs.content o = s.fs.content i := by
  have kept : ∀ r outcome t, Phase fs oldFile newFile r → True → step r outcome = some t →
      Phase fs oldFile newFile t := by
    intro r outcome t phase _ taken
    exact (step_moves taken).phase phase
  have phase := exec_invariant kept (phase_initial fs oldFile newFile buf) (along_true outcomes _) run
  unfold Phase at phase
  rw [exited] at phase
  obtain ⟨i, o, held, copying, source, copied⟩ := phase
  exact ⟨i, o, copying, copied.trans source.symm⟩

structure Copied (fs after : Files) (oldFile newFile : CString) : Prop where
  new : after.read (parsePath newFile) = fs.read (parsePath oldFile)
  old : after.read (parsePath oldFile) = fs.read (parsePath oldFile)

/-- A file that both paths lead to is emptied before it is read. -/
theorem copied_iff_apart {buf : List Byte} {outcomes : List Outcome} {s : State}
    (run : exec step outcomes (initial [oldFile, newFile] fs buf) = some s) (exited : s.pc = .exited .success) :
    Copied fs s.fs oldFile newFile ↔
      fs.lookup (parsePath newFile) ≠ fs.lookup (parsePath oldFile) ∨ fs.read (parsePath oldFile) = some [] := by
  obtain ⟨i, o, copying, copied⟩ := copying_of_success run exited
  have before := read_of_found copying.before
  have old := read_of_found copying.old
  have new := (read_of_found copying.new).trans copied
  have source := copying.source
  have content : Copied fs s.fs oldFile newFile ↔ s.fs.content i = fs.content i := by
    constructor
    · intro copied
      rw [← old, ← before]
      exact copied.old
    · intro same
      rw [← before] at same
      exact ⟨new.trans same, old.trans same⟩
  rw [content, source, before, copying.before, Ne, copying.aliased]
  by_cases same : o = i
  · rw [if_pos same, eq_comm]
    simp [same]
  · simp [same]

def twoFiles : Files where
  node i :=
    match i with
    | 1 => some (.dir fun name =>
        if name = [dot] then some 1 else if name = [111] then some 2 else if name = [110] then some 3 else none)
    | 2 => some (.file [1, 2, 3])
    | 3 => some (.file [9])
    | _ => none
  root := 1
  cwd := 1
  maxLinks := 40

def oldName : CString := ⟨[111], by decide⟩

def newName : CString := ⟨[110], by decide⟩

theorem copied_twoFiles :
    ∃ s, exec step [.done, .done, .count 2, .count 2, .count 1, .count 1, .count 0, .done, .done]
      (initial [oldName, newName] twoFiles []) = some s ∧ s.fs.read (parsePath newName) = some [1, 2, 3] := by
  have run : exec step [.done, .done, .count 2, .count 2, .count 1, .count 1, .count 0, .done, .done]
      (initial [oldName, newName] twoFiles []) = some _ := rfl
  have apart : twoFiles.lookup (parsePath newName) ≠ twoFiles.lookup (parsePath oldName) := by decide
  exact ⟨_, run, ((copied_iff_apart run rfl).mpr (.inl apart)).new⟩

/-- Both paths are the name of one file. -/
theorem same_file_emptied :
    ¬ ∀ fs oldFile newFile buf outcomes s, exec step outcomes (initial [oldFile, newFile] fs buf) = some s →
      s.pc = .exited .success → Copied fs s.fs oldFile newFile := by
  intro always
  have copied := always twoFiles oldName oldName [] [.done, .done, .count 0, .done, .done] _ rfl rfl
  have emptied : (some [] : Option (List Byte)) ≠ some [1, 2, 3] := by decide
  exact emptied copied.old

end SystemProgramming.Copy
