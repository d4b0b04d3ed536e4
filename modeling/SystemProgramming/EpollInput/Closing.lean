import SystemProgramming.EpollInput.Data

namespace SystemProgramming.EpollInput

open Transition

section Files

theorem fileOf_lowest (s : State) : s.fileOf s.table.lowest = none := by
  rw [State.fileOf, s.table.file_lowest, Option.bind_none]

theorem fileOf_createEpoll (s : State) (fd : Fd) : (createEpoll s).fileOf fd = s.fileOf fd := by
  by_cases same : fd = s.table.lowest
  · rw [same, fileOf_lowest, State.fileOf, createEpoll]
    dsimp only
    rw [Descriptors.file_install_self, Option.bind_some]
  · rw [State.fileOf, createEpoll]
    dsimp only
    rw [Descriptors.file_install_of_ne _ _ same, State.fileOf]

theorem fileOf_openFile_self (s : State) (inode : Nat) (paths : List CString) :
    (openFile s inode paths).fileOf s.table.lowest = some inode := by
  rw [State.fileOf, openFile]
  dsimp only
  rw [Descriptors.file_install_self, Option.bind_some]

theorem fileOf_openFile_of_ne (s : State) (inode : Nat) (paths : List CString) {fd : Fd}
    (different : fd ≠ s.table.lowest) : (openFile s inode paths).fileOf fd = s.fileOf fd := by
  rw [State.fileOf, openFile]
  dsimp only
  rw [Descriptors.file_install_of_ne _ _ different, State.fileOf]

theorem fileOf_closed_self (s : State) (e : Event) (events : List Event) : (closed s e events).fileOf e.fd = none := by
  rw [State.fileOf, closed]
  dsimp only
  rw [Descriptors.file_close_self, Option.bind_none]

theorem fileOf_closed_of_ne (s : State) (e : Event) (events : List Event) {fd : Fd} (different : fd ≠ e.fd) :
    (closed s e events).fileOf fd = s.fileOf fd := by
  rw [State.fileOf, closed]
  dsimp only
  rw [Descriptors.file_close_of_ne _ different, State.fileOf]

end Files

def Opening : Pc → Prop
  | .waiting | .handling _ | .exited _ => False
  | _ => True

structure Held (s : State) : Prop where
  opened : ∀ p ∈ s.opened,
    s.fileOf p.1 = some p.2 ∨ ¬Opening s.pc ∧ s.fileOf p.1 = none ∧ (s.streams p.2).Drained
  noInput : ∀ e ∈ batch s.pc, e.epollin = false → ∀ inode ∈ s.fileOf e.fd, (s.streams inode).Drained

variable {argv : List CString} {s t : State} {a : Action}

theorem Held.frame (held : Held s) (grows : ∀ inode, (s.streams inode).Grows (t.streams inode))
    (file : ∀ fd, t.fileOf fd = s.fileOf fd) (opened : t.opened = s.opened) (opening : Opening t.pc → Opening s.pc)
    (rest : ∀ e ∈ batch t.pc, e ∈ batch s.pc) : Held t where
  opened := by
    rw [opened]
    intro p member
    rw [file]
    exact (held.opened p member).imp_right fun ⟨looping, gone, drained⟩ =>
      ⟨fun back => looping (opening back), gone, drained.grows (grows p.2)⟩
  noInput := by
    intro e member noInput inode present
    rw [file] at present
    exact (held.noInput e (rest e member) noInput inode present).grows (grows inode)

theorem Held.openFile (held : Held s) {path : CString} {paths : List CString} (at_ : s.pc = .opening path paths)
    (inode : Nat) : Held (openFile s inode paths) where
  opened := by
    intro p member
    rcases List.mem_append.mp member with old | new
    · left
      rcases held.opened p old with present | ⟨looping, -, -⟩
      · have different : p.1 ≠ s.table.lowest := by
          intro same
          rw [same, fileOf_lowest] at present
          cases present
        rw [fileOf_openFile_of_ne _ _ _ different, present]
      · rw [at_] at looping
        exact absurd trivial looping
    · rw [List.mem_singleton.mp new]
      exact .inl (fileOf_openFile_self s inode paths)
  noInput := nofun

/-- The file behind a descriptor that is closed was drained when it was reported. -/
theorem Held.closed (held : Held s) {e : Event} {events : List Event} (at_ : s.pc = .handling (e :: events))
    (noInput : e.epollin = false) : Held (closed s e events) where
  opened := by
    intro p member
    by_cases here : p.1 = e.fd
    · right
      refine ⟨id, by rw [here, fileOf_closed_self], ?_⟩
      rcases held.opened p member with present | ⟨-, -, drained⟩
      · exact held.noInput e (by rw [at_]; exact List.mem_cons_self) noInput p.2 (here ▸ present)
      · exact drained
    · rw [fileOf_closed_of_ne s e events here]
      exact (held.opened p member).imp_right fun ⟨_, gone, drained⟩ => ⟨id, gone, drained⟩
  noInput := by
    intro other member noInput inode present
    have before : inode ∈ s.fileOf other.fd := by
      by_cases here : other.fd = e.fd
      · rw [here, fileOf_closed_self] at present
        cases present
      · rwa [fileOf_closed_of_ne s e events here] at present
    exact held.noInput other (by rw [at_]; exact List.mem_cons_of_mem _ member) noInput inode before

theorem Held.reported (held : Held s) {events : List Event} (reportable : ∀ e ∈ events, Reportable s e) :
    Held (s.goto (.handling events)) where
  opened := fun p member => (held.opened p member).imp_right fun ⟨_, gone, drained⟩ => ⟨id, gone, drained⟩
  noInput := by
    intro e member noInput inode present
    obtain ⟨-, flags, other, same, input, hup, err⟩ := reportable e member
    cases Option.mem_unique present same
    rw [noInput, Bool.false_or, Bool.or_eq_true] at flags
    refine ⟨flags.imp hup err, ?_⟩
    by_contra left
    rw [noInput] at input
    cases input left

theorem Held.step (held : Held s) (move : Move argv s a t) : Held t := by
  have grows := move.grows
  cases move with
  | delivered => exact held.frame grows (fun _ => rfl) rfl id fun _ => id
  | hungUp => exact held.frame grows (fun _ => rfl) rfl id fun _ => id
  | failed => exact held.frame grows (fun _ => rfl) rfl id fun _ => id
  | interrupted => exact held
  | closeFailed => exact held.frame grows (fun _ => rfl) rfl False.elim nofun
  | left => exact held.frame grows (fun _ => rfl) rfl False.elim nofun
  | finished => exact held.frame grows (fun _ => rfl) rfl False.elim nofun
  | around => exact held.frame grows (fun _ => rfl) rfl False.elim nofun
  | checked at_ =>
    refine held.frame grows (fun fd => ?_) ?_ ?_ ?_
    all_goals unfold checkUsage
    · split <;> rfl
    · split <;> rfl
    · rw [at_]
      exact fun _ => trivial
    · split
      · split <;> nofun
      · nofun
  | created at_ =>
    refine held.frame grows (fun fd => ?_) (opened_nextArgument _ _) ?_ ?_
    · rw [fileOf_nextArgument, fileOf_createEpoll]
    · rw [at_]
      exact fun _ => trivial
    · rw [batch_nextArgument]
      nofun
  | opened inode path paths at_ => exact held.openFile at_ inode
  | added fd paths at_ =>
    refine held.frame grows (fileOf_nextArgument _ _) (opened_nextArgument _ _) ?_ ?_
    · rw [at_]
      exact fun _ => trivial
    · rw [batch_nextArgument]
      nofun
  | reported events at_ distinct reportable => exact held.reported reportable
  | read e events inode n at_ =>
    refine held.frame grows (fun _ => rfl) rfl False.elim ?_
    rw [at_]
    exact fun _ => List.mem_cons_of_mem e
  | closed e events at_ noInput => exact held.closed at_ noInput
  | idle e events at_ =>
    refine held.frame grows (fun _ => rfl) rfl False.elim ?_
    rw [at_]
    exact fun _ => List.mem_cons_of_mem e

end SystemProgramming.EpollInput
