import SystemProgramming.Library.Termination
import SystemProgramming.PipeLsWc.Plumbing

namespace SystemProgramming.PipeLsWc

open Transition

variable {φ : Type} {s : State φ} {c : Child φ}

def ChildPc.rank : ChildPc → Nat
  | .close => 5
  | .dup2 => 4
  | .closeOld => 3
  | .exec => 2
  | .program => 1
  | .exited _ => 0

def Action.Healthy (action : Action) : Prop :=
  action.Succeeds ∧ action ≠ .lsEnds .failure ∧ action ≠ .wcEnds .failure

theorem childStep_progress {before all : Files φ} {unused used standard : Nat} {e : End}
    (ends : Ends before all unused used e) (wired : ChildWired before all unused used standard e c)
    (live : c.pc.ended = false) (calls : c.pc ≠ .program) :
    ∃ c', childStep unused used standard c .done = some c' ∧ c'.pc.rank < c.pc.rank := by
  obtain ⟨files, moves⟩ := wired
  unfold childStep
  cases at_ : c.pc with
  | close =>
    rw [at_] at files
    have present : (c.table.file unused).isSome := by
      rw [files]
      exact ends.closes
    dsimp only
    rw [if_pos present]
    refine ⟨_, rfl, ?_⟩
    dsimp only
    split <;> decide
  | dup2 =>
    rw [at_] at files
    have present : c.table.file used = some (.pipe e) := by
      rw [files]
      exact (Function.update_of_ne ends.apart.symm _ _).trans ends.keeps
    dsimp only
    rw [Descriptors.dup2_open _ _ present]
    exact ⟨_, rfl, Nat.lt_succ_self 3⟩
  | closeOld =>
    rw [at_] at files
    have other := moves (.inr at_)
    have present : (c.table.file used).isSome := by
      rw [files]
      simp only [childFiles]
      rw [Function.update_of_ne other, Function.update_of_ne ends.apart.symm, ends.keeps]
      rfl
    dsimp only
    rw [if_pos present]
    exact ⟨_, rfl, Nat.lt_succ_self 2⟩
  | exec => exact ⟨_, rfl, Nat.lt_succ_self 1⟩
  | program => exact absurd at_ calls
  | exited status =>
    rw [at_] at live
    cases live

theorem programEnds_rank {status : ExitStatus} {c' : Child φ} (ended : programEnds status c = some c') :
    c'.pc.rank < c.pc.rank ∧ c'.pc = .exited status := by
  unfold programEnds at ended
  split at ended
  · rename_i at_
    cases ended
    rw [at_]
    exact ⟨Nat.lt_succ_self 0, rfl⟩
  · cases ended

def ParentPc.rank : ParentPc → Nat
  | .pipe => 7
  | .forkLs => 6
  | .forkWc => 5
  | .closeRead => 4
  | .closeWrite => 3
  | .waitFirst => 2
  | .waitSecond => 1
  | .exited _ => 0

def State.rank (s : State φ) : Nat :=
  s.parent.rank + s.ls.elim 6 (·.pc.rank) + s.wc.elim 6 (·.pc.rank)

theorem State.rank_setLs {c' : Child φ} (present : s.ls = some c) (less : c'.pc.rank < c.pc.rank) :
    { s with ls := some c' }.rank < s.rank := by
  simp only [State.rank, present, Option.elim_some]
  omega

theorem State.rank_setWc {c' : Child φ} (present : s.wc = some c) (less : c'.pc.rank < c.pc.rank) :
    { s with wc := some c' }.rank < s.rank := by
  simp only [State.rank, present, Option.elim_some]
  omega

theorem ls_progress {before : Files φ} (wired : Wired before s) (present : s.ls = some c)
    (live : c.pc.ended = false) :
    ∃ action t, Action.Healthy action ∧ step s action = some t ∧ t.rank < s.rank := by
  by_cases at_ : c.pc = .program
  · have ended : programEnds .success c = some { c with pc := .exited .success } := if_pos at_
    refine ⟨.lsEnds .success, { s with ls := some { c with pc := .exited .success } }, ⟨trivial, nofun, nofun⟩, ?_,
      State.rank_setLs present (programEnds_rank ended).1⟩
    unfold step
    dsimp only
    rw [present, Option.bind_some, ended]
    rfl
  · have forked : s.parent ≠ .pipe := by
      intro at_
      cases (wired.forkedLs.mpr (.inl at_)).symm.trans present
    obtain ⟨c', moved, less⟩ := childStep_progress (wired.fresh forked).lsEnds (wired.ls c present) live at_
    refine ⟨.ls .done, { s with ls := some c' }, ⟨rfl, nofun, nofun⟩, ?_, State.rank_setLs present less⟩
    unfold step
    dsimp only
    rw [present, Option.bind_some, lsStep, moved]
    rfl

theorem wc_progress {before : Files φ} (wired : Wired before s) (present : s.wc = some c)
    (live : c.pc.ended = false) (atEnd : c.pc = .program → s.open_ .write = false) :
    ∃ action t, Action.Healthy action ∧ step s action = some t ∧ t.rank < s.rank := by
  by_cases at_ : c.pc = .program
  · have ended : programEnds .success c = some { c with pc := .exited .success } := if_pos at_
    have goes : ¬ (ExitStatus.success = .success ∧ s.open_ .write = true) := by
      rintro ⟨-, waiting⟩
      rw [atEnd at_] at waiting
      cases waiting
    refine ⟨.wcEnds .success, { s with wc := some { c with pc := .exited .success } }, ⟨trivial, nofun, nofun⟩, ?_,
      State.rank_setWc present (programEnds_rank ended).1⟩
    unfold step
    dsimp only
    rw [present, Option.bind_some, if_neg goes, ended]
    rfl
  · have forked : s.parent ≠ .pipe := by
      intro at_
      cases (wired.forkedWc.mpr (.inl at_)).symm.trans present
    obtain ⟨c', moved, less⟩ := childStep_progress (wired.fresh forked).wcEnds (wired.wc c present) live at_
    refine ⟨.wc .done, { s with wc := some c' }, ⟨rfl, nofun, nofun⟩, ?_, State.rank_setWc present less⟩
    unfold step
    dsimp only
    rw [present, Option.bind_some, wcStep, moved]
    rfl

theorem Wired.children {before : Files φ} (wired : Wired before s) (closed : s.parent.closed = true) :
    ∃ ls wc, s.ls = some ls ∧ s.wc = some wc := by
  have forkedLs : s.ls ≠ none := by
    intro none
    rcases wired.forkedLs.mp none with at_ | at_ <;> simp [at_, ParentPc.closed] at closed
  have forkedWc : s.wc ≠ none := by
    intro none
    rcases wired.forkedWc.mp none with at_ | at_ | at_ <;> simp [at_, ParentPc.closed] at closed
  obtain ⟨ls, lsThere⟩ := Option.ne_none_iff_exists'.mp forkedLs
  obtain ⟨wc, wcThere⟩ := Option.ne_none_iff_exists'.mp forkedWc
  exact ⟨ls, wc, lsThere, wcThere⟩

/-- While the parent waits, `ls` or, once that has ended, `wc` can go on. -/
theorem children_progress {table : Descriptors φ} {ls wc : Child φ} (wired : Wired (inherit table).file s)
    (closed : s.parent.closed = true) (lsThere : s.ls = some ls) (wcThere : s.wc = some wc)
    (live : ls.pc.ended = false ∨ wc.pc.ended = false) :
    ∃ action t, Action.Healthy action ∧ step s action = some t ∧ t.rank < s.rank := by
  cases running : ls.pc.ended with
  | false => exact ls_progress wired lsThere running
  | true =>
    rw [running] at live
    have wcLive : wc.pc.ended = false := live.resolve_left (by decide)
    have atEnd : wc.pc = .program → s.open_ .write = false := by
      intro at_
      apply wired.endOfFile closed
      · intro c present
        cases lsThere.symm.trans present
        exact running
      · intro c present
        cases wcThere.symm.trans present
        rw [at_]
        exact .inl rfl
    exact wc_progress wired wcThere wcLive atEnd

theorem parent_progress {table : Descriptors φ} (wired : Wired (inherit table).file s)
    (live : s.parent.ended = false) :
    ∃ action t, Action.Healthy action ∧ step s action = some t ∧ t.rank < s.rank := by
  have healthy : Action.Healthy (.parent .done) := ⟨rfl, nofun, nofun⟩
  cases at_ : s.parent with
  | pipe =>
    refine ⟨.pipe false, _, ⟨trivial, nofun, nofun⟩, if_pos at_, ?_⟩
    simp [State.rank, at_, ParentPc.rank]
  | forkLs =>
    have none : s.ls = none := wired.forkedLs.mpr (.inr at_)
    refine ⟨.parent .done, { s with parent := .forkWc, ls := some ⟨.close, s.table⟩ }, healthy, ?_, ?_⟩
    · simp [step, parentStep, at_]
    · simp [State.rank, at_, none, ParentPc.rank, ChildPc.rank]
  | forkWc =>
    have none : s.wc = none := wired.forkedWc.mpr (.inr (.inr at_))
    refine ⟨.parent .done, { s with parent := .closeRead, wc := some ⟨.close, s.table⟩ }, healthy, ?_, ?_⟩
    · simp [step, parentStep, at_]
    · simp [State.rank, at_, none, ParentPc.rank, ChildPc.rank]
  | closeRead =>
    have ends := (wired.fresh (by simp [at_])).wcEnds
    have present : (s.table.file s.pfd.1).isSome := by
      rw [wired.parent, at_, parentFiles, ends.keeps]
      rfl
    refine ⟨.parent .done, { s with parent := .closeWrite, table := s.table.close s.pfd.1 }, healthy, ?_, ?_⟩
    · simp [step, parentStep, at_, present]
    · simp [State.rank, at_, ParentPc.rank]
  | closeWrite =>
    have ends := (wired.fresh (by simp [at_])).lsEnds
    have present : (s.table.file s.pfd.2).isSome := by
      rw [wired.parent, at_, parentFiles, Function.update_of_ne ends.apart.symm, ends.keeps]
      rfl
    refine ⟨.parent .done, { s with parent := .waitFirst, table := s.table.close s.pfd.2 }, healthy, ?_, ?_⟩
    · simp [step, parentStep, at_, present]
    · simp [State.rank, at_, ParentPc.rank]
  | waitFirst =>
    have closed : s.parent.closed = true := by rw [at_]; rfl
    obtain ⟨ls, wc, lsThere, wcThere⟩ := wired.children closed
    cases waiting : ls.pc.ended || wc.pc.ended with
    | true =>
      refine ⟨.parent .done, { s with parent := .waitSecond }, healthy, ?_, ?_⟩
      · simp only [step, parentStep, at_, lsThere, wcThere, Option.any_some]
        rw [if_pos waiting]
      · simp [State.rank, at_, ParentPc.rank]
    | false =>
      have both := Bool.or_eq_false_iff.mp waiting
      exact children_progress wired closed lsThere wcThere (.inl both.1)
  | waitSecond =>
    have closed : s.parent.closed = true := by rw [at_]; rfl
    obtain ⟨ls, wc, lsThere, wcThere⟩ := wired.children closed
    cases waiting : ls.pc.ended && wc.pc.ended with
    | true =>
      refine ⟨.parent .done, { s with parent := .exited .success }, healthy, ?_, ?_⟩
      · simp only [step, parentStep, at_, lsThere, wcThere, Option.any_some]
        rw [if_pos waiting]
      · simp [State.rank, at_, ParentPc.rank]
    | false =>
      rw [Bool.and_eq_false_iff] at waiting
      exact children_progress wired closed lsThere wcThere waiting
  | exited status =>
    rw [at_] at live
    cases live

/-- From wherever the processes have got to, the pipeline can be run to its end: no call meets a closed
    descriptor, and `wc` gets to its end of file. -/
theorem pipeline_completes {table : Descriptors φ} {pfd : Nat × Nat} {actions : List Action}
    (succeed : Along step (fun _ action => action.Succeeds) actions (initial table pfd))
    (run : exec step actions (initial table pfd) = some s) :
    ∃ t, Reaches step (fun _ action => action.Healthy) s t ∧ t.parent = .exited .success := by
  apply exists_reaches (I := Wired (inherit table).file) State.rank ?_ (wired_of_run succeed run)
  intro r wired unfinished
  have live : r.parent.ended = false := by
    cases at_ : r.parent with
    | exited status =>
      cases status with
      | success => exact absurd at_ unfinished
      | failure => exact absurd at_ wired.unfailed
    | _ => rfl
  obtain ⟨action, t, healthy, taken, less⟩ := parent_progress wired live
  exact ⟨action, t, healthy, taken, step_wired wired healthy.1 taken, less⟩

theorem childStep_lower {unused used standard : Nat} {c' : Child φ}
    (moved : childStep unused used standard c .done = some c') :
    c'.pc.rank < c.pc.rank ∧ c'.pc.ended = false := by
  unfold childStep at moved
  cases at_ : c.pc <;> simp only [at_] at moved
  case close =>
    split at moved
    · cases moved
      split
      · exact ⟨Nat.lt_succ_self 4, rfl⟩
      · exact ⟨by simp [ChildPc.rank], rfl⟩
    · cases moved
  case dup2 =>
    split at moved
    · cases moved
      exact ⟨Nat.lt_succ_self 3, rfl⟩
    · cases moved
  case closeOld =>
    split at moved
    · cases moved
      exact ⟨Nat.lt_succ_self 2, rfl⟩
    · cases moved
  case exec =>
    cases moved
    exact ⟨Nat.lt_succ_self 1, rfl⟩
  case program | exited => cases moved

structure Ended (past : List Action) (s : State φ) : Prop where
  ls : ∀ c status, s.ls = some c → c.pc = .exited status → .lsEnds status ∈ past
  wc : ∀ c status, s.wc = some c → c.pc = .exited status → .wcEnds status ∈ past
  last : s.parent.ended = true → s.ls.any (·.pc.ended) = true ∧ s.wc.any (·.pc.ended) = true

theorem any_ended_eq_false {c c' : Child φ} (less : c'.pc.rank < c.pc.rank) : (some c).any (·.pc.ended) = false := by
  rw [Option.any_some]
  cases at_ : c.pc with
  | exited status =>
    rw [at_] at less
    cases less
  | _ => rfl

theorem ne_exited {c : Child φ} {status : ExitStatus} (live : c.pc.ended = false) : c.pc ≠ .exited status := by
  intro at_
  rw [at_] at live
  cases live

section Ended

variable {past : List Action} {action : Action}

theorem Ended.setLs {c' : Child φ} (ended : Ended past s) (present : s.ls = some c)
    (less : c'.pc.rank < c.pc.rank)
    (exit : ∀ status, c'.pc = .exited status → action = .lsEnds status) :
    Ended (past ++ [action]) { s with ls := some c' } := by
  refine ⟨?_, ?_, ?_⟩
  · intro child status there at_
    cases there
    rw [exit status at_]
    exact List.mem_append_right past (List.mem_singleton_self _)
  · intro child status there at_
    exact List.mem_append_left _ (ended.wc child status there at_)
  · intro over_
    have both := ended.last over_
    rw [present, any_ended_eq_false less] at both
    cases both.1

theorem Ended.setWc {c' : Child φ} (ended : Ended past s) (present : s.wc = some c)
    (less : c'.pc.rank < c.pc.rank)
    (exit : ∀ status, c'.pc = .exited status → action = .wcEnds status) :
    Ended (past ++ [action]) { s with wc := some c' } := by
  refine ⟨?_, ?_, ?_⟩
  · intro child status there at_
    exact List.mem_append_left _ (ended.ls child status there at_)
  · intro child status there at_
    cases there
    rw [exit status at_]
    exact List.mem_append_right past (List.mem_singleton_self _)
  · intro over_
    have both := ended.last over_
    rw [present, any_ended_eq_false less] at both
    cases both.2

/-- A step of the parent that ends no child. -/
theorem Ended.setParent {t : State φ} (ended : Ended past s)
    (ls : ∀ c, t.ls = some c → s.ls = some c ∨ c.pc.ended = false)
    (wc : ∀ c, t.wc = some c → s.wc = some c ∨ c.pc.ended = false)
    (last : t.parent.ended = true → t.ls.any (·.pc.ended) = true ∧ t.wc.any (·.pc.ended) = true) :
    Ended (past ++ [action]) t := by
  refine ⟨?_, ?_, last⟩
  · intro c status there at_
    rcases ls c there with old | live
    · exact List.mem_append_left _ (ended.ls c status old at_)
    · exact absurd at_ (ne_exited live)
  · intro c status there at_
    rcases wc c there with old | live
    · exact List.mem_append_left _ (ended.wc c status old at_)
    · exact absurd at_ (ne_exited live)

theorem parentStep_ended {t : State φ} {before : Files φ} (wired : Wired before s) (ended : Ended past s)
    (taken : parentStep s .done = some t) : t.rank < s.rank ∧ Ended (past ++ [action]) t := by
  unfold parentStep at taken
  dsimp only at taken
  cases at_ : s.parent <;> simp only [at_] at taken
  case pipe | exited => cases taken
  case forkLs =>
    cases taken
    have absent := wired.forkedLs.mpr (.inr at_)
    refine ⟨?_, ended.setParent ?_ (fun c there => .inl there) nofun⟩
    · simp [State.rank, at_, absent, ParentPc.rank, ChildPc.rank]
    · rintro c ⟨⟩
      exact .inr rfl
  case forkWc =>
    cases taken
    have absent := wired.forkedWc.mpr (.inr (.inr at_))
    refine ⟨?_, ended.setParent (fun c there => .inl there) ?_ nofun⟩
    · simp [State.rank, at_, absent, ParentPc.rank, ChildPc.rank]
    · rintro c ⟨⟩
      exact .inr rfl
  case closeRead | closeWrite | waitFirst =>
    split at taken
    · cases taken
      refine ⟨?_, ended.setParent (fun c there => .inl there) (fun c there => .inl there) nofun⟩
      simp [State.rank, at_, ParentPc.rank]
    · cases taken
  case waitSecond =>
    split at taken
    · rename_i both
      cases taken
      refine ⟨?_, ended.setParent (fun c there => .inl there) (fun c there => .inl there)
        fun _ => (Bool.and_eq_true_iff).mp both⟩
      simp [State.rank, at_, ParentPc.rank]
    · cases taken

theorem step_ended {t : State φ} {before : Files φ} (wired : Wired before s) (ended : Ended past s)
    (succeeds : action.Succeeds) (taken : step s action = some t) :
    t.rank < s.rank ∧ Ended (past ++ [action]) t := by
  cases action with
  | pipe swapped =>
    unfold step at taken
    dsimp only at taken
    split at taken
    · rename_i at_
      cases taken
      refine ⟨?_, ended.setParent (fun c there => .inl there) (fun c there => .inl there) nofun⟩
      simp only [State.rank, at_, ParentPc.rank]
      omega
    · cases taken
  | ls outcome =>
    cases succeeds
    obtain ⟨c, present, rest⟩ := Option.bind_eq_some_iff.mp taken
    obtain ⟨c', moved, same⟩ := Option.map_eq_some_iff.mp rest
    cases same
    obtain ⟨less, live⟩ := childStep_lower moved
    exact ⟨State.rank_setLs present less,
      ended.setLs present less fun status at_ => absurd at_ (ne_exited live)⟩
  | lsEnds status =>
    obtain ⟨c, present, rest⟩ := Option.bind_eq_some_iff.mp taken
    obtain ⟨c', over_, same⟩ := Option.map_eq_some_iff.mp rest
    cases same
    obtain ⟨less, at_⟩ := programEnds_rank over_
    refine ⟨State.rank_setLs present less, ended.setLs present less ?_⟩
    intro other there
    cases at_.symm.trans there
    rfl
  | wc outcome =>
    cases succeeds
    obtain ⟨c, present, rest⟩ := Option.bind_eq_some_iff.mp taken
    obtain ⟨c', moved, same⟩ := Option.map_eq_some_iff.mp rest
    cases same
    obtain ⟨less, live⟩ := childStep_lower moved
    exact ⟨State.rank_setWc present less,
      ended.setWc present less fun status at_ => absurd at_ (ne_exited live)⟩
  | wcEnds status =>
    obtain ⟨c, present, rest⟩ := Option.bind_eq_some_iff.mp taken
    split at rest
    · cases rest
    · obtain ⟨c', over_, same⟩ := Option.map_eq_some_iff.mp rest
      cases same
      obtain ⟨less, at_⟩ := programEnds_rank over_
      refine ⟨State.rank_setWc present less, ended.setWc present less ?_⟩
      intro other there
      cases at_.symm.trans there
      rfl
  | parent outcome =>
    cases succeeds
    exact parentStep_ended wired ended taken

end Ended

theorem exited_of_ended {child : Option (Child φ)} (ended : child.any (·.pc.ended) = true) :
    ∃ c status, child = some c ∧ c.pc = .exited status := by
  obtain ⟨c, present, exited⟩ := (Option.any_eq_true _ _).mp ended
  cases at_ : c.pc with
  | exited status => exact ⟨c, status, present, at_⟩
  | _ => simp [at_, ChildPc.ended] at exited

/-- Whatever descriptors the program starts with, however `ls` and `wc` end and whatever the order of the steps,
    the pipeline comes to its end without a deadlock: no call meets a closed descriptor, and the parent exits
    after both children. -/
theorem pipeline_ends {table : Descriptors φ} {pfd : Nat × Nat} {actions : List Action}
    (succeed : Along step (fun _ action => action.Succeeds) actions (initial table pfd))
    (run : exec step actions (initial table pfd) = some s) :
    actions.length ≤ 19 ∧
      (s.parent.ended = false → ∃ action t, Action.Healthy action ∧ step s action = some t) ∧
      (s.parent.ended = true → s.parent = .exited .success ∧
        (∃ ls status, s.ls = some ls ∧ ls.pc = .exited status ∧ .lsEnds status ∈ actions) ∧
        ∃ wc status, s.wc = some wc ∧ wc.pc = .exited status ∧ .wcEnds status ∈ actions) := by
  have start : Ended [] (initial table pfd) := ⟨nofun, nofun, nofun⟩
  obtain ⟨bound, wired, ended⟩ :
      actions.length + s.rank ≤ 19 ∧ Wired (inherit table).file s ∧ Ended actions s := by
    apply exec_history
      (I := fun past s => past.length + s.rank ≤ 19 ∧ Wired (inherit table).file s ∧ Ended past s)
      ?_ ⟨Nat.le_refl 19, wired_initial table pfd, start⟩ succeed run
    rintro past r action t - ⟨bound, wired, ended⟩ succeeds taken
    obtain ⟨less, next⟩ := step_ended wired ended succeeds taken
    refine ⟨?_, step_wired wired succeeds taken, next⟩
    rw [List.length_append, List.length_singleton]
    omega
  refine ⟨by omega, ?_, ?_⟩
  · intro live
    obtain ⟨action, t, healthy, taken, -⟩ := parent_progress wired live
    exact ⟨action, t, healthy, taken⟩
  · intro over_
    obtain ⟨first, second⟩ := ended.last over_
    obtain ⟨ls, lsStatus, lsThere, lsAt⟩ := exited_of_ended first
    obtain ⟨wc, wcStatus, wcThere, wcAt⟩ := exited_of_ended second
    refine ⟨?_, ⟨ls, lsStatus, lsThere, lsAt, ended.ls ls lsStatus lsThere lsAt⟩,
      ⟨wc, wcStatus, wcThere, wcAt, ended.wc wc wcStatus wcThere wcAt⟩⟩
    cases at_ : s.parent with
    | exited status =>
      cases status with
      | success => rfl
      | failure => exact absurd at_ wired.unfailed
    | _ => simp [at_, ParentPc.ended] at over_

/-- Standard output is closed, so that `wc` cannot print its count. -/
theorem pipeline_ends_outputClosed :
    ∃ s, exec step (untilLsEnds ++ [.wcEnds .failure, .parent .done, .parent .done]) (initial onlyInput (0, 0)) =
        some s ∧ s.parent = .exited .success := by
  have reached : ∃ s, exec step (untilLsEnds ++ [.wcEnds .failure, .parent .done, .parent .done])
      (initial onlyInput (0, 0)) = some s ∧ s.parent.ended = true := ⟨_, rfl, rfl⟩
  obtain ⟨s, run, ended⟩ := reached
  exact ⟨s, run, ((pipeline_ends (by decide) run).2.2 ended).1⟩

end SystemProgramming.PipeLsWc
