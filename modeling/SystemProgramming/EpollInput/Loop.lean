import Mathlib.Data.Finset.Card
import SystemProgramming.EpollInput.Closing

namespace SystemProgramming.EpollInput

open Transition

def openMonitored (s : State) : Finset Fd := (s.monitored.filter fun fd => (s.table.file fd).isSome).toFinset

structure Listed (s : State) : Prop where
  nodup : s.monitored.Nodup
  present : ∀ fd ∈ s.monitored, s.fileOf fd ≠ none
  fresh : ∀ fd paths, s.pc = .adding fd paths → fd ∉ s.monitored ∧ s.fileOf fd ≠ none
  all : s.pc ≠ .exited .failure → ∀ p ∈ s.opened,
    s.fileOf p.1 = none ∨ p.1 ∈ s.monitored ∨ ∃ paths, s.pc = .adding p.1 paths

theorem listed_initial (table : Descriptors Object) (numOpenFds : Int) (buf : List Byte) :
    Listed (initial table numOpenFds buf) := ⟨.nil, nofun, nofun, nofun⟩

variable {argv : List CString} {s t : State} {a : Action}

theorem Listed.card_openMonitored (listed : Listed s) : (openMonitored s).card = s.monitored.length := by
  have every : s.monitored.filter (fun fd => (s.table.file fd).isSome) = s.monitored := by
    rw [List.filter_eq_self]
    intro fd member
    by_contra absent
    rw [Bool.not_eq_true, Option.isSome_eq_false_iff, Option.isNone_iff_eq_none] at absent
    exact listed.present fd member (by rw [State.fileOf, absent, Option.bind_none])
  rw [openMonitored, every, List.toFinset_card_of_nodup listed.nodup]

theorem Listed.frame (listed : Listed s) (monitored : t.monitored = s.monitored)
    (file : ∀ fd, t.fileOf fd = s.fileOf fd) (opened : t.opened = s.opened)
    (adding : ∀ fd paths, t.pc = .adding fd paths → s.pc = .adding fd paths)
    (goesOn : t.pc ≠ .exited .failure →
      s.pc ≠ .exited .failure ∧ ∀ fd paths, s.pc = .adding fd paths → t.pc = .adding fd paths) : Listed t where
  nodup := by
    rw [monitored]
    exact listed.nodup
  present := by
    intro fd member
    rw [file]
    exact listed.present fd (monitored ▸ member)
  fresh := by
    intro fd paths at_
    rw [monitored, file]
    exact listed.fresh fd paths (adding fd paths at_)
  all := by
    intro runs p member
    obtain ⟨ran, same⟩ := goesOn runs
    rw [file, monitored]
    refine (listed.all ran p (opened ▸ member)).imp_right fun rest => rest.imp_right ?_
    rintro ⟨paths, at_⟩
    exact ⟨paths, same p.1 paths at_⟩

theorem Listed.openFile (listed : Listed s) (running : s.pc ≠ .exited .failure)
    (between : ∀ fd paths, s.pc ≠ .adding fd paths) (inode : Nat) (paths : List CString) :
    Listed (openFile s inode paths) where
  nodup := listed.nodup
  present := by
    intro fd member
    by_cases same : fd = s.table.lowest
    · rw [same, fileOf_openFile_self]
      exact Option.some_ne_none inode
    · rw [fileOf_openFile_of_ne _ _ _ same]
      exact listed.present fd member
  fresh := by
    rintro fd paths ⟨⟩
    refine ⟨fun member => listed.present _ member (fileOf_lowest s), ?_⟩
    rw [fileOf_openFile_self]
    exact Option.some_ne_none inode
  all := by
    rintro - p member
    by_cases same : p.1 = s.table.lowest
    · exact .inr (.inr ⟨paths, by rw [same]; rfl⟩)
    · rw [fileOf_openFile_of_ne _ _ _ same]
      rcases List.mem_append.mp member with old | new
      · rcases listed.all running p old with gone | inside | ⟨paths, at_⟩
        · exact .inl gone
        · exact .inr (.inl inside)
        · exact absurd at_ (between _ _)
      · rw [List.mem_singleton.mp new] at same
        exact absurd rfl same

theorem Listed.added (listed : Listed s) {fd : Fd} {paths : List CString} (at_ : s.pc = .adding fd paths) :
    Listed (nextArgument argv (monitor s fd) paths) := by
  obtain ⟨new, present⟩ := listed.fresh fd paths at_
  have monitored : (nextArgument argv (monitor s fd) paths).monitored = s.monitored ++ [fd] :=
    monitored_nextArgument _ _
  have opened : (nextArgument argv (monitor s fd) paths).opened = s.opened := opened_nextArgument _ _
  have file : ∀ other, (nextArgument argv (monitor s fd) paths).fileOf other = s.fileOf other :=
    fileOf_nextArgument (monitor s fd) paths
  refine ⟨?_, ?_, ?_, ?_⟩
  · rw [monitored, List.nodup_append]
    refine ⟨listed.nodup, List.nodup_singleton fd, ?_⟩
    rintro other member last ends rfl
    rw [List.mem_singleton.mp ends] at member
    exact new member
  · intro other member
    rw [file]
    rw [monitored] at member
    rcases List.mem_append.mp member with old | last
    · exact listed.present other old
    · rwa [List.mem_singleton.mp last]
  · intro other rest added
    exact absurd added (nextArgument_not_adding _ _ other rest)
  · intro _ p member
    rw [file, monitored]
    rw [opened] at member
    rcases listed.all (by rw [at_]; nofun) p member with gone | inside | ⟨rest, same⟩
    · exact .inl gone
    · exact .inr (.inl (List.mem_append_left _ inside))
    · rw [at_] at same
      cases same
      exact .inr (.inl (List.mem_append_right _ (List.mem_singleton_self _)))

theorem Listed.closed (listed : Listed s) {e : Event} {events : List Event} (at_ : s.pc = .handling (e :: events)) :
    Listed (closed s e events) where
  nodup := listed.nodup.erase e.fd
  present := by
    intro fd member
    obtain ⟨different, inside⟩ := listed.nodup.mem_erase_iff.mp member
    rw [fileOf_closed_of_ne s e events different]
    exact listed.present fd inside
  fresh := nofun
  all := by
    rintro - p member
    by_cases here : p.1 = e.fd
    · rw [here]
      exact .inl (fileOf_closed_self s e events)
    · rw [fileOf_closed_of_ne s e events here]
      rcases listed.all (by rw [at_]; nofun) p member with gone | inside | ⟨paths, other⟩
      · exact .inl gone
      · exact .inr (.inl ((List.mem_erase_of_ne here).mpr inside))
      · rw [at_] at other
        cases other

theorem Listed.step (listed : Listed s) (move : Move argv s a t) : Listed t := by
  have goto : ∀ pc, (∀ fd paths, s.pc ≠ .adding fd paths) → s.pc ≠ .exited .failure →
      (∀ fd paths, pc ≠ .adding fd paths) → Listed (s.goto pc) := by
    intro pc before running after
    exact listed.frame rfl (fun _ => rfl) rfl (fun fd paths at_ => absurd at_ (after fd paths))
      fun _ => ⟨running, fun fd paths at_ => absurd at_ (before fd paths)⟩
  cases move with
  | delivered => exact listed.frame rfl (fun _ => rfl) rfl (fun _ _ => id) fun runs => ⟨runs, fun _ _ => id⟩
  | hungUp => exact listed.frame rfl (fun _ => rfl) rfl (fun _ _ => id) fun runs => ⟨runs, fun _ _ => id⟩
  | failed => exact listed.frame rfl (fun _ => rfl) rfl (fun _ _ => id) fun runs => ⟨runs, fun _ _ => id⟩
  | interrupted => exact listed
  | closeFailed => exact listed.frame rfl (fun _ => rfl) rfl nofun fun runs => absurd rfl runs
  | left => exact listed.frame rfl (fun _ => rfl) rfl nofun fun runs => absurd rfl runs
  | finished at_ => exact goto _ (by rw [at_]; nofun) (by rw [at_]; nofun) nofun
  | around at_ => exact goto _ (by rw [at_]; nofun) (by rw [at_]; nofun) nofun
  | reported events at_ => exact goto _ (by rw [at_]; nofun) (by rw [at_]; nofun) nofun
  | idle e events at_ => exact goto _ (by rw [at_]; nofun) (by rw [at_]; nofun) nofun
  | checked at_ =>
    unfold checkUsage
    split
    · refine goto _ (by rw [at_]; nofun) (by rw [at_]; nofun) ?_
      split <;> nofun
    · exact goto _ (by rw [at_]; nofun) (by rw [at_]; nofun) nofun
  | created at_ =>
    refine listed.frame (monitored_nextArgument _ _) (fun fd => ?_) (opened_nextArgument _ _) (fun fd rest added => ?_)
      fun _ => ⟨by rw [at_]; nofun, by rw [at_]; nofun⟩
    · rw [fileOf_nextArgument, fileOf_createEpoll]
    · exact absurd added (nextArgument_not_adding _ _ fd rest)
  | opened inode path paths at_ => exact listed.openFile (by rw [at_]; nofun) (by rw [at_]; nofun) inode paths
  | added fd paths at_ => exact listed.added at_
  | read e events inode n at_ =>
    exact listed.frame rfl (fun _ => rfl) rfl nofun fun _ => ⟨by rw [at_]; nofun, by rw [at_]; nofun⟩
  | closed e events at_ => exact listed.closed at_

theorem listed_of_run {table : Descriptors Object} {numOpenFds : Int} {buf : List Byte} {actions : List Action}
    (run : exec (EpollInput.step argv) actions (initial table numOpenFds buf) = some s) : Listed s := by
  apply exec_invariant (I := Listed) ?_ (listed_initial table numOpenFds buf) (along_true actions _) run
  intro s a t listed _ taken
  exact listed.step (step_moves taken)

def Looping : Pc → Prop
  | .waiting | .handling _ => True
  | _ => False

structure Kept (s : State) : Prop where
  counted : Looping s.pc → s.numOpenFds = (openMonitored s).card
  noInput : ∀ e ∈ s.closes, e.epollin = false
  finished : s.pc = .exited .success → ∀ p ∈ s.opened,
    s.table.file p.1 = none ∧ (s.streams p.2).printed = (s.streams p.2).delivered

def lastAdded : Pc → Bool
  | .adding _ [] => true
  | _ => false

def Refused (s : State) (a : Action) : Prop := lastAdded s.pc = true → a ≠ .process .done

instance (s : State) (a : Action) : Decidable (Refused s a) := inferInstanceAs (Decidable (_ → _))

structure Unlooped (argv : List CString) (s : State) : Prop where
  outside : ¬Looping s.pc
  unfinished : s.pc ≠ .exited .success
  named : s.pc = .creating → argv ≠ []
  closes : s.closes = []

section Runs

variable {table : Descriptors Object} {numOpenFds : Int} {buf : List Byte} {actions : List Action}

theorem unlooped_initial (table : Descriptors Object) (numOpenFds : Int) (buf : List Byte) :
    Unlooped argv (initial table numOpenFds buf) where
  outside := id
  unfinished := nofun
  named := fun at_ => nomatch at_
  closes := rfl

theorem Unlooped.kept (unlooped : Unlooped argv s) : Kept s where
  counted := fun looping => absurd looping unlooped.outside
  noInput := by
    rw [unlooped.closes]
    nofun
  finished := fun done => absurd done unlooped.unfinished

theorem Unlooped.step (unlooped : Unlooped argv s) (refused : Refused s a) (move : Move argv s a t) :
    Unlooped argv t := by
  obtain ⟨outside, unfinished, named, closes⟩ := unlooped
  have loop : ∀ pc, s.pc = pc → Looping pc → False := fun pc at_ looping => outside (at_ ▸ looping)
  cases move with
  | delivered => exact ⟨outside, unfinished, named, closes⟩
  | hungUp => exact ⟨outside, unfinished, named, closes⟩
  | failed => exact ⟨outside, unfinished, named, closes⟩
  | checked at_ =>
    unfold checkUsage
    split
    · split
      · exact ⟨id, nofun, nofun, closes⟩
      · exact ⟨id, nofun, fun _ => List.cons_ne_nil _ _, closes⟩
    · exact ⟨id, nofun, nofun, closes⟩
  | created at_ =>
    cases argv with
    | nil => exact absurd rfl (named at_)
    | cons path paths => exact ⟨id, nofun, nofun, closes⟩
  | opened inode path paths at_ => exact ⟨id, nofun, nofun, closes⟩
  | added fd paths at_ =>
    cases paths with
    | nil => exact absurd rfl (refused (by rw [at_]; rfl))
    | cons path paths => exact ⟨id, nofun, nofun, closes⟩
  | left errno => exact ⟨id, nofun, nofun, closes⟩
  | reported events at_ => exact (loop _ at_ trivial).elim
  | interrupted at_ => exact (loop _ at_ trivial).elim
  | finished at_ => exact (loop _ at_ trivial).elim
  | around at_ => exact (loop _ at_ trivial).elim
  | read e events inode n at_ => exact (loop _ at_ trivial).elim
  | closed e events at_ => exact (loop _ at_ trivial).elim
  | idle e events at_ => exact (loop _ at_ trivial).elim
  | closeFailed e events errno at_ => exact (loop _ at_ trivial).elim

theorem unlooped_of_along (refused : Along (EpollInput.step argv) Refused actions (initial table numOpenFds buf))
    (run : exec (EpollInput.step argv) actions (initial table numOpenFds buf) = some s) : Unlooped argv s := by
  refine exec_invariant (I := Unlooped argv) ?_ (unlooped_initial table numOpenFds buf) refused run
  intro s a t unlooped refused taken
  exact unlooped.step refused (step_moves taken)

/-- In the event loop `numOpenFds` is one less than the number of the descriptors that are open. -/
theorem card_openMonitored_of_run
    (run : exec (EpollInput.step argv) actions (initial table numOpenFds buf) = some s) (looping : Looping s.pc) :
    s.numOpenFds + 1 = (openMonitored s).card := by
  have phase := (counting_of_run run).phase
  rw [(listed_of_run run).card_openMonitored]
  unfold Phase at phase
  split at phase <;> rename_i at_ <;> rw [at_] at looping <;> first | exact phase | exact looping.elim

/-- In every run a descriptor is closed for an event without input only. -/
theorem noInput_of_run (run : exec (EpollInput.step argv) actions (initial table numOpenFds buf) = some s) :
    ∀ e ∈ s.closes, e.epollin = false := by
  apply exec_invariant (I := fun s => ∀ e ∈ s.closes, e.epollin = false) ?_ nofun (along_true actions _) run
  intro s a t without _ taken
  cases step_moves taken with
  | checked at_ =>
    unfold checkUsage
    split <;> exact without
  | created at_ =>
    rw [closes_nextArgument]
    exact without
  | added fd paths at_ =>
    rw [closes_nextArgument]
    exact without
  | closed e events at_ noInput => exact List.forall_mem_append.mpr ⟨without, List.forall_mem_singleton.mpr noInput⟩
  | closeFailed e events errno at_ noInput =>
    exact List.forall_mem_append.mpr ⟨without, List.forall_mem_singleton.mpr noInput⟩
  | _ => exact without

/-- The program keeps what it is written to keep in every state of a run exactly where the run stops before the
    event loop: the opening loop takes in the name of the program, which `numOpenFds` does not count. -/
theorem loop_kept_iff (run : exec (EpollInput.step argv) actions (initial table numOpenFds buf) = some s) :
    (∀ before after t, actions = before ++ after →
      exec (EpollInput.step argv) before (initial table numOpenFds buf) = some t → Kept t) ↔
    Along (EpollInput.step argv) Refused actions (initial table numOpenFds buf) := by
  constructor
  · intro kept
    refine along_of_splits fun before a after t same here last done => ?_
    subst done
    cases at_ : t.pc with
    | adding fd paths =>
      cases paths with
      | nil =>
        have taken : EpollInput.step argv t (.process .done) = some (nextArgument argv (monitor t fd) []) := by
          unfold EpollInput.step processStep
          rw [at_]
          rfl
        have there : exec (EpollInput.step argv) (before ++ [.process .done]) (initial table numOpenFds buf) =
            some (nextArgument argv (monitor t fd) []) := by
          rw [exec_append, here, Option.bind_some, exec_cons, taken, Option.bind_some, exec_nil]
        have counted := (kept _ after _ (by rw [same, List.append_assoc, List.singleton_append]) there).counted trivial
        have less := card_openMonitored_of_run there trivial
        omega
      | cons path paths =>
        rw [at_] at last
        cases last
    | _ =>
      rw [at_] at last
      cases last
  · intro refused before after t same here
    subst same
    exact (unlooped_of_along ((along_append _ _ _).mp refused).1 here).kept

end Runs

def standard : Descriptors Object where
  file := fun fd => if fd < 3 then some (.file 9) else none
  limit := 3
  beyond := fun _ far => if_neg (Nat.not_lt.mpr far)

def refused : List Action := [.process .done, .process .done, .opened 0, .process (.error (.other 1))]

theorem loop_kept_iff_refused :
    ∃ s, exec (step [⟨[46, 47, 97], by decide⟩, ⟨[98], by decide⟩]) refused (initial standard 0 []) = some s ∧
      ∀ before after t, refused = before ++ after →
        exec (step [⟨[46, 47, 97], by decide⟩, ⟨[98], by decide⟩]) before (initial standard 0 []) = some t →
        Kept t := by
  obtain ⟨s, run⟩ : ∃ s, exec (step [⟨[46, 47, 97], by decide⟩, ⟨[98], by decide⟩]) refused (initial standard 0 []) =
      some s := ⟨_, rfl⟩
  exact ⟨s, run, (loop_kept_iff run).mpr (by decide)⟩

def bothOpened : List Action :=
  [.process .done, .process .done, .opened 0, .process .done, .opened 1, .process .done, .deliver 0 [104], .hangup 1,
    .report [⟨5, false, true, false⟩], .process .done, .process .done, .process .done]

/-- The loop ends with `a` open and its input not printed. -/
theorem kept_bothOpened_false :
    ∃ s, exec (step [⟨[97], by decide⟩, ⟨[98], by decide⟩]) bothOpened (initial standard 0 []) = some s ∧
      s.pc = .exited .success ∧ s.opened = [(4, 0), (5, 1)] ∧ s.table.file 4 = some (.file 0) ∧
      (s.streams 0).delivered = [104] ∧ (s.streams 0).printed = [] ∧ ¬Kept s := by
  obtain ⟨s, run, done, opened, present, delivered, printed⟩ :
      ∃ s, exec (step [⟨[97], by decide⟩, ⟨[98], by decide⟩]) bothOpened (initial standard 0 []) = some s ∧
        s.pc = .exited .success ∧ s.opened = [(4, 0), (5, 1)] ∧ s.table.file 4 = some (.file 0) ∧
        (s.streams 0).delivered = [104] ∧ (s.streams 0).printed = [] := ⟨_, rfl, rfl, rfl, rfl, rfl, rfl⟩
  refine ⟨s, run, done, opened, present, delivered, printed, fun kept => ?_⟩
  have closed := (kept.finished done (4, 0) (by rw [opened]; decide)).1
  rw [present] at closed
  cases closed

end SystemProgramming.EpollInput
