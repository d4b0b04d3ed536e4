import SystemProgramming.PipeLsWc.Model

namespace SystemProgramming.PipeLsWc

open Transition

variable {φ : Type} {s t : State φ} {c : Child φ}

abbrev Files (φ : Type) := Nat → Option (File φ)

def Action.Succeeds : Action → Prop
  | .pipe _ | .lsEnds _ | .wcEnds _ => True
  | .parent outcome | .ls outcome | .wc outcome => outcome = .done

instance : (action : Action) → Decidable action.Succeeds
  | .pipe _ | .lsEnds _ | .wcEnds _ => isTrue trivial
  | .parent outcome => inferInstanceAs (Decidable (outcome = .done))
  | .ls outcome => inferInstanceAs (Decidable (outcome = .done))
  | .wc outcome => inferInstanceAs (Decidable (outcome = .done))

def piped (before : Files φ) (pfd : Nat × Nat) : Files φ :=
  Function.update (Function.update before pfd.1 (some (.pipe .read))) pfd.2 (some (.pipe .write))

def childFiles (before all : Files φ) (unused standard : Nat) (e : End) : ChildPc → Files φ
  | .close => all
  | .dup2 => Function.update all unused none
  | .closeOld => Function.update (Function.update all unused none) standard (some (.pipe e))
  | .exec | .program | .exited _ => Function.update before standard (some (.pipe e))

def parentFiles (before : Files φ) (pfd : Nat × Nat) : ParentPc → Files φ
  | .pipe => before
  | .forkLs | .forkWc | .closeRead => piped before pfd
  | .closeWrite => Function.update (piped before pfd) pfd.1 none
  | .waitFirst | .waitSecond | .exited _ => before

structure Fresh (before : Files φ) (pfd : Nat × Nat) : Prop where
  read : before pfd.1 = none
  write : before pfd.2 = none
  apart : pfd.1 ≠ pfd.2

structure ChildWired (before all : Files φ) (unused used standard : Nat) (e : End) (c : Child φ) : Prop where
  files : c.table.file = childFiles before all unused standard e c.pc
  moves : c.pc = .dup2 ∨ c.pc = .closeOld → used ≠ standard

structure Wired (before : Files φ) (s : State φ) : Prop where
  parent : s.table.file = parentFiles before s.pfd s.parent
  fresh : s.parent ≠ .pipe → Fresh before s.pfd
  ls : ∀ c, s.ls = some c → ChildWired before (piped before s.pfd) s.pfd.1 s.pfd.2 STDOUT_FILENO .write c
  wc : ∀ c, s.wc = some c → ChildWired before (piped before s.pfd) s.pfd.2 s.pfd.1 STDIN_FILENO .read c
  forkedLs : s.ls = none ↔ s.parent = .pipe ∨ s.parent = .forkLs
  forkedWc : s.wc = none ↔ s.parent = .pipe ∨ s.parent = .forkLs ∨ s.parent = .forkWc
  unfailed : s.parent ≠ .exited .failure

theorem file_close (table : Descriptors (File φ)) (fd : Nat) :
    (table.close fd).file = Function.update table.file fd none := rfl

theorem file_install (table : Descriptors (File φ)) (fd : Nat) (f : File φ) :
    (table.install fd f).file = Function.update table.file fd (some f) := rfl

structure Ends (before all : Files φ) (unused used : Nat) (e : End) : Prop where
  freeUnused : before unused = none
  freeUsed : before used = none
  apart : unused ≠ used
  closes : (all unused).isSome
  keeps : all used = some (.pipe e)
  others : ∀ fd, fd ≠ unused → fd ≠ used → all fd = before fd

theorem Fresh.lsEnds {before : Files φ} {pfd : Nat × Nat} (fresh : Fresh before pfd) :
    Ends before (piped before pfd) pfd.1 pfd.2 .write where
  freeUnused := fresh.read
  freeUsed := fresh.write
  apart := fresh.apart
  closes := by simp [piped, fresh.apart]
  keeps := by simp [piped]
  others := fun fd notRead notWrite => by simp [piped, notRead, notWrite]

theorem Fresh.wcEnds {before : Files φ} {pfd : Nat × Nat} (fresh : Fresh before pfd) :
    Ends before (piped before pfd) pfd.2 pfd.1 .read where
  freeUnused := fresh.write
  freeUsed := fresh.read
  apart := fresh.apart.symm
  closes := by simp [piped]
  keeps := by simp [piped, fresh.apart]
  others := fun fd notWrite notRead => by simp [piped, notRead, notWrite]

/-- An end that already is the standard descriptor is left there. -/
theorem Ends.kept {before all : Files φ} {unused used standard : Nat} {e : End}
    (ends : Ends before all unused used e) (same : used = standard) :
    Function.update all unused none = Function.update before standard (some (.pipe e)) := by
  subst same
  funext fd
  by_cases isUnused : fd = unused
  · subst isUnused
    rw [Function.update_self, Function.update_of_ne ends.apart, ends.freeUnused]
  · rw [Function.update_of_ne isUnused]
    by_cases isUsed : fd = used
    · subst isUsed
      rw [Function.update_self, ends.keeps]
    · rw [Function.update_of_ne isUsed, ends.others fd isUnused isUsed]

/-- An end that is moved leaves nothing behind, wherever the two ends lie. -/
theorem Ends.moved {before all : Files φ} {unused used standard : Nat} {e : End}
    (ends : Ends before all unused used e) (other : used ≠ standard) :
    Function.update (Function.update (Function.update all unused none) standard (some (.pipe e))) used none =
      Function.update before standard (some (.pipe e)) := by
  funext fd
  by_cases isUsed : fd = used
  · subst isUsed
    rw [Function.update_self, Function.update_of_ne other, ends.freeUsed]
  · rw [Function.update_of_ne isUsed]
    by_cases isStandard : fd = standard
    · subst isStandard
      rw [Function.update_self, Function.update_self]
    · rw [Function.update_of_ne isStandard, Function.update_of_ne isStandard]
      by_cases isUnused : fd = unused
      · subst isUnused
        rw [Function.update_self, ends.freeUnused]
      · rw [Function.update_of_ne isUnused, ends.others fd isUnused isUsed]

theorem Fresh.closed {before : Files φ} {pfd : Nat × Nat} (fresh : Fresh before pfd) :
    Function.update (Function.update (piped before pfd) pfd.1 none) pfd.2 none = before := by
  funext fd
  by_cases isWrite : fd = pfd.2
  · rw [isWrite, Function.update_self, fresh.write]
  · rw [Function.update_of_ne isWrite]
    by_cases isRead : fd = pfd.1
    · rw [isRead, Function.update_self, fresh.read]
    · rw [Function.update_of_ne isRead, piped, Function.update_of_ne isWrite, Function.update_of_ne isRead]

theorem childStep_wired {before all : Files φ} {unused used standard : Nat} {e : End} {c' : Child φ}
    (ends : Ends before all unused used e) (wired : ChildWired before all unused used standard e c)
    (taken : childStep unused used standard c .done = some c') :
    ChildWired before all unused used standard e c' := by
  obtain ⟨files, moves⟩ := wired
  unfold childStep at taken
  split at taken
  case h_1 at_ =>
    rw [at_] at files
    dsimp only at taken
    split at taken
    · cases taken
      by_cases same : used = standard
      · rw [if_neg (not_not.mpr same)]
        refine ⟨?_, by simp⟩
        rw [file_close, files]
        exact ends.kept same
      · rw [if_pos same]
        refine ⟨?_, fun _ => same⟩
        rw [file_close, files]
        rfl
    · cases taken
  case h_2 at_ =>
    have other := moves (.inl at_)
    rw [at_] at files
    have present : c.table.file used = some (.pipe e) := by
      rw [files]
      exact (Function.update_of_ne ends.apart.symm _ _).trans ends.keeps
    dsimp only at taken
    rw [Descriptors.dup2_open _ _ present] at taken
    cases taken
    refine ⟨?_, fun _ => other⟩
    rw [file_install, files]
    rfl
  case h_3 at_ =>
    have other := moves (.inr at_)
    rw [at_] at files
    dsimp only at taken
    split at taken
    · cases taken
      refine ⟨?_, by simp⟩
      rw [file_close, files]
      exact ends.moved other
    · cases taken
  case h_4 at_ =>
    rw [at_] at files
    cases taken
    exact ⟨files, by simp⟩
  case h_5 at_ => cases taken
  case h_6 at_ => cases taken

theorem programEnds_wired {before all : Files φ} {unused used standard : Nat} {e : End} {c' : Child φ}
    {status : ExitStatus} (wired : ChildWired before all unused used standard e c)
    (ended : programEnds status c = some c') : ChildWired before all unused used standard e c' := by
  unfold programEnds at ended
  split at ended
  · rename_i at_
    cases ended
    have files := wired.files
    rw [at_] at files
    exact ⟨files, by simp⟩
  · cases ended

theorem wired_initial (table : Descriptors φ) (pfd : Nat × Nat) :
    Wired (inherit table).file (initial table pfd) where
  parent := rfl
  fresh := fun other => absurd rfl other
  ls := nofun
  wc := nofun
  forkedLs := by simp [initial]
  forkedWc := by simp [initial]
  unfailed := by simp [initial]

theorem newPipe_fresh (table : Descriptors (File φ)) (swapped : Bool) :
    Fresh table.file (newPipe table swapped).1 ∧
      (newPipe table swapped).2.file = piped table.file (newPipe table swapped).1 := by
  have first := table.file_lowest
  have second := (table.install table.lowest (.pipe .read)).file_lowest
  have apart : (table.install table.lowest (.pipe .read)).lowest ≠ table.lowest := by
    intro same
    rw [same, Descriptors.file_install_self] at second
    cases second
  rw [Descriptors.file_install_of_ne _ _ apart] at second
  cases swapped with
  | false => exact ⟨⟨first, second, apart.symm⟩, rfl⟩
  | true => exact ⟨⟨second, first, apart⟩, rfl⟩

theorem parentStep_wired {before : Files φ} (wired : Wired before s) (taken : parentStep s .done = some t) :
    Wired before t := by
  obtain ⟨parent, fresh, ls, wc, forkedLs, forkedWc, -⟩ := wired
  unfold parentStep at taken
  dsimp only at taken
  split at taken
  case h_1 at_ => cases taken
  case h_2 at_ =>
    cases taken
    rw [at_] at parent
    refine ⟨parent, fun _ => fresh (by simp [at_]), ?_, ?_, by simp, ?_, by simp⟩
    · rintro c ⟨⟩
      exact ⟨parent, by simp⟩
    · intro c present
      rw [forkedWc.mpr (.inr (.inl at_))] at present
      cases present
    · simpa [at_] using forkedWc
  case h_3 at_ =>
    cases taken
    rw [at_] at parent
    refine ⟨parent, fun _ => fresh (by simp [at_]), ls, ?_, by simpa [at_] using forkedLs, by simp, by simp⟩
    rintro c ⟨⟩
    exact ⟨parent, by simp⟩
  case h_4 at_ =>
    rw [at_] at parent
    split at taken
    · cases taken
      refine ⟨?_, fun _ => fresh (by simp [at_]), ls, wc, by simpa [at_] using forkedLs,
        by simpa [at_] using forkedWc, by simp⟩
      rw [file_close, parent]
      rfl
    · cases taken
  case h_5 at_ =>
    rw [at_] at parent
    split at taken
    · cases taken
      have ends := fresh (by simp [at_])
      refine ⟨?_, fun _ => ends, ls, wc, by simpa [at_] using forkedLs, by simpa [at_] using forkedWc,
        by simp⟩
      rw [file_close, parent]
      exact ends.closed
    · cases taken
  case h_6 at_ =>
    rw [at_] at parent
    split at taken
    · cases taken
      exact ⟨parent, fun _ => fresh (by simp [at_]), ls, wc, by simpa [at_] using forkedLs,
        by simpa [at_] using forkedWc, by simp⟩
    · cases taken
  case h_7 at_ =>
    rw [at_] at parent
    split at taken
    · cases taken
      exact ⟨parent, fun _ => fresh (by simp [at_]), ls, wc, by simpa [at_] using forkedLs,
        by simpa [at_] using forkedWc, by simp⟩
    · cases taken
  case h_8 => cases taken

theorem Wired.setLs {before : Files φ} {c' : Child φ} (wired : Wired before s) (present : s.ls = some c)
    (child : Ends before (piped before s.pfd) s.pfd.1 s.pfd.2 .write →
      ChildWired before (piped before s.pfd) s.pfd.1 s.pfd.2 STDOUT_FILENO .write c →
      ChildWired before (piped before s.pfd) s.pfd.1 s.pfd.2 STDOUT_FILENO .write c') :
    Wired before { s with ls := some c' } := by
  have forked : s.parent ≠ .pipe := by
    intro at_
    cases (wired.forkedLs.mpr (.inl at_)).symm.trans present
  refine ⟨wired.parent, wired.fresh, ?_, wired.wc, ?_, wired.forkedWc, wired.unfailed⟩
  · rintro c ⟨⟩
    exact child (wired.fresh forked).lsEnds (wired.ls _ present)
  · have was := wired.forkedLs
    rw [present] at was
    simpa using was

theorem Wired.setWc {before : Files φ} {c' : Child φ} (wired : Wired before s) (present : s.wc = some c)
    (child : Ends before (piped before s.pfd) s.pfd.2 s.pfd.1 .read →
      ChildWired before (piped before s.pfd) s.pfd.2 s.pfd.1 STDIN_FILENO .read c →
      ChildWired before (piped before s.pfd) s.pfd.2 s.pfd.1 STDIN_FILENO .read c') :
    Wired before { s with wc := some c' } := by
  have forked : s.parent ≠ .pipe := by
    intro at_
    cases (wired.forkedWc.mpr (.inl at_)).symm.trans present
  refine ⟨wired.parent, wired.fresh, wired.ls, ?_, wired.forkedLs, ?_, wired.unfailed⟩
  · rintro c ⟨⟩
    exact child (wired.fresh forked).wcEnds (wired.wc _ present)
  · have was := wired.forkedWc
    rw [present] at was
    simpa using was

theorem step_wired {before : Files φ} {action : Action} (wired : Wired before s) (succeeds : action.Succeeds)
    (taken : step s action = some t) : Wired before t := by
  cases action with
  | pipe swapped =>
    unfold step at taken
    dsimp only at taken
    split at taken
    · rename_i at_
      have files : s.table.file = before := by
        rw [wired.parent, at_]
        rfl
      have fresh := newPipe_fresh s.table swapped
      rw [files] at fresh
      have noLs : s.ls = none := wired.forkedLs.mpr (.inl at_)
      have noWc : s.wc = none := wired.forkedWc.mpr (.inl at_)
      cases taken
      refine ⟨fresh.2, fun _ => fresh.1, ?_, ?_, by simpa using noLs, by simpa using noWc, by simp⟩
      · intro c present
        cases noLs.symm.trans present
      · intro c present
        cases noWc.symm.trans present
    · cases taken
  | parent outcome =>
    have done : outcome = .done := succeeds
    subst done
    exact parentStep_wired wired taken
  | ls outcome =>
    have done : outcome = .done := succeeds
    subst done
    obtain ⟨c, present, moved⟩ := Option.bind_eq_some_iff.mp taken
    obtain ⟨c', next, rfl⟩ := Option.map_eq_some_iff.mp moved
    exact wired.setLs present fun ends child => childStep_wired ends child next
  | lsEnds status =>
    obtain ⟨c, present, moved⟩ := Option.bind_eq_some_iff.mp taken
    obtain ⟨c', ended, rfl⟩ := Option.map_eq_some_iff.mp moved
    exact wired.setLs present fun _ child => programEnds_wired child ended
  | wc outcome =>
    have done : outcome = .done := succeeds
    subst done
    obtain ⟨c, present, moved⟩ := Option.bind_eq_some_iff.mp taken
    obtain ⟨c', next, rfl⟩ := Option.map_eq_some_iff.mp moved
    exact wired.setWc present fun ends child => childStep_wired ends child next
  | wcEnds status =>
    obtain ⟨c, present, moved⟩ := Option.bind_eq_some_iff.mp taken
    split at moved
    · cases moved
    · obtain ⟨c', ended, rfl⟩ := Option.map_eq_some_iff.mp moved
      exact wired.setWc present fun _ child => programEnds_wired child ended

theorem holds_eq_false {e : End} {table : Descriptors (File φ)} :
    holds e table = false ↔ ∀ fd, table.file fd ≠ some (.pipe e) := by
  unfold holds
  rw [List.any_eq_false]
  constructor
  · intro none fd here
    have inside : fd < table.limit := by
      by_contra far
      rw [table.beyond fd (Nat.le_of_not_lt far)] at here
      cases here
    have found := none fd (List.mem_range.mpr inside)
    rw [here] at found
    exact found (by simp [File.isEnd])
  · intro absent fd _ found
    cases here : table.file fd with
    | none =>
      rw [here] at found
      cases found
    | some f =>
      rw [here] at found
      cases f with
      | inherited f => cases found
      | pipe other =>
        have same : other = e := by simpa [File.isEnd] using found
        exact absent fd (by rw [here, same])

theorem inherit_ne (table : Descriptors φ) (fd : Nat) (e : End) : (inherit table).file fd ≠ some (.pipe e) := by
  unfold inherit
  cases table.file fd with
  | none => simp
  | some f => simp

def ParentPc.closed : ParentPc → Bool
  | .waitFirst | .waitSecond | .exited _ => true
  | _ => false

def ChildPc.ready : ChildPc → Bool
  | .exec | .program => true
  | _ => false

theorem ChildWired.ready {before all : Files φ} {unused used standard : Nat} {e : End}
    (wired : ChildWired before all unused used standard e c) (ready : c.pc.ready = true) :
    c.table.file = Function.update before standard (some (.pipe e)) := by
  rw [wired.files]
  cases at_ : c.pc with
  | exec | program => rfl
  | _ =>
    rw [at_] at ready
    cases ready

theorem Wired.closed {before : Files φ} (wired : Wired before s) (closed : s.parent.closed = true) :
    s.table.file = before := by
  rw [wired.parent]
  cases at_ : s.parent with
  | waitFirst | waitSecond | exited status => rfl
  | _ =>
    rw [at_] at closed
    cases closed

theorem Wired.endOfFile {table : Descriptors φ} (wired : Wired (inherit table).file s)
    (closed : s.parent.closed = true) (lsEnded : ∀ c, s.ls = some c → c.pc.ended = true)
    (wcReady : ∀ c, s.wc = some c → c.pc.ready = true ∨ c.pc.ended = true) : s.open_ .write = false := by
  have parent : holds .write s.table = false := by
    rw [holds_eq_false, wired.closed closed]
    intro fd
    exact inherit_ne table fd .write
  have ls : s.ls.any (fun c => !c.pc.ended && holds .write c.table) = false := by
    cases present : s.ls with
    | none => rfl
    | some c => simp [lsEnded c present]
  have wc : s.wc.any (fun c => !c.pc.ended && holds .write c.table) = false := by
    cases present : s.wc with
    | none => rfl
    | some c =>
      rcases wcReady c present with ready | ended
      · have none : holds .write c.table = false := by
          rw [holds_eq_false, (wired.wc c present).ready ready]
          intro fd
          by_cases input : fd = STDIN_FILENO
          · rw [input, Function.update_self]
            simp
          · rw [Function.update_of_ne input]
            exact inherit_ne table fd .write
        simp [none]
      · simp [ended]
  rw [State.open_, parent, ls, wc, Bool.and_false]
  rfl

def Untouched (table : Descriptors φ) (now : Descriptors (File φ)) (fd : Nat) : Prop :=
  now.file fd = (table.file fd).map .inherited

theorem Untouched.ne_pipe {table : Descriptors φ} {now : Descriptors (File φ)} {fd : Nat}
    (untouched : Untouched table now fd) (e : End) : now.file fd ≠ some (.pipe e) := by
  rw [untouched]
  exact inherit_ne table fd e

structure Plumbed (table : Descriptors φ) (s : State φ) : Prop where
  ls : ∀ c, s.ls = some c → c.pc.ready = true →
    c.table.file STDOUT_FILENO = some (.pipe .write) ∧
      ∀ fd, fd ≠ STDOUT_FILENO → Untouched table c.table fd ∧ ∀ e, c.table.file fd ≠ some (.pipe e)
  wc : ∀ c, s.wc = some c → c.pc.ready = true →
    c.table.file STDIN_FILENO = some (.pipe .read) ∧
      ∀ fd, fd ≠ STDIN_FILENO → Untouched table c.table fd ∧ ∀ e, c.table.file fd ≠ some (.pipe e)
  parent : s.parent.closed = true → ∀ fd, Untouched table s.table fd ∧ ∀ e, s.table.file fd ≠ some (.pipe e)
  endOfFile : s.parent.closed = true → (∀ c, s.ls = some c → c.pc.ended = true) →
    (∀ c, s.wc = some c → c.pc.ready = true) → s.open_ .write = false

theorem Wired.plumbed {table : Descriptors φ} (wired : Wired (inherit table).file s) : Plumbed table s where
  ls := by
    intro c present ready
    have files := (wired.ls c present).ready ready
    refine ⟨by rw [files, Function.update_self], ?_⟩
    intro fd other
    have untouched : Untouched table c.table fd := by
      rw [Untouched, files, Function.update_of_ne other]
      rfl
    exact ⟨untouched, untouched.ne_pipe⟩
  wc := by
    intro c present ready
    have files := (wired.wc c present).ready ready
    refine ⟨by rw [files, Function.update_self], ?_⟩
    intro fd other
    have untouched : Untouched table c.table fd := by
      rw [Untouched, files, Function.update_of_ne other]
      rfl
    exact ⟨untouched, untouched.ne_pipe⟩
  parent := by
    intro closed fd
    have untouched : Untouched table s.table fd := by
      rw [Untouched, wired.closed closed]
      rfl
    exact ⟨untouched, untouched.ne_pipe⟩
  endOfFile := by
    intro closed lsEnded wcReady
    exact wired.endOfFile closed lsEnded fun c present => .inl (wcReady c present)

theorem wired_of_run {table : Descriptors φ} {pfd : Nat × Nat} {actions : List Action}
    (succeed : Along step (fun _ action => action.Succeeds) actions (initial table pfd))
    (run : exec step actions (initial table pfd) = some s) : Wired (inherit table).file s := by
  apply exec_invariant (I := Wired (inherit table).file) ?_ (wired_initial table pfd) succeed run
  intro s action t wired succeeds taken
  exact step_wired wired succeeds taken

theorem plumbed_of_run {table : Descriptors φ} {pfd : Nat × Nat} {actions : List Action}
    (succeed : Along step (fun _ action => action.Succeeds) actions (initial table pfd))
    (run : exec step actions (initial table pfd) = some s) : Plumbed table s :=
  (wired_of_run succeed run).plumbed

def onlyInput : Descriptors Unit where
  file := fun fd => if fd = 0 then some () else none
  limit := 1
  beyond := fun fd far => if_neg (by omega)

def untilLsEnds : List Action :=
  [.pipe false, .parent .done, .parent .done] ++ List.replicate 4 (.ls .done) ++ [.lsEnds .success] ++
    List.replicate 4 (.wc .done) ++ List.replicate 2 (.parent .done)

theorem plumbed_untilLsEnds :
    ∃ s c, exec step untilLsEnds (initial onlyInput (0, 0)) = some s ∧ s.pfd = (1, 2) ∧ s.wc = some c ∧
      c.table.file 0 = some (.pipe .read) ∧ s.open_ .write = false := by
  obtain ⟨s, ls, wc, run, pfd, parent, lsThere, lsEnded, wcThere, ready⟩ :
      ∃ s ls wc, exec step untilLsEnds (initial onlyInput (0, 0)) = some s ∧ s.pfd = (1, 2) ∧
        s.parent = .waitFirst ∧ s.ls = some ls ∧ ls.pc.ended = true ∧ s.wc = some wc ∧ wc.pc.ready = true :=
    ⟨_, _, _, rfl, rfl, rfl, rfl, rfl, rfl, rfl⟩
  have plumbed : Plumbed onlyInput s := plumbed_of_run (by decide) run
  refine ⟨s, wc, run, pfd, wcThere, (plumbed.wc wc wcThere ready).1, ?_⟩
  apply plumbed.endOfFile (by rw [parent]; rfl)
  · intro c present
    cases lsThere.symm.trans present
    exact lsEnded
  · intro c present
    cases wcThere.symm.trans present
    exact ready

end SystemProgramming.PipeLsWc
