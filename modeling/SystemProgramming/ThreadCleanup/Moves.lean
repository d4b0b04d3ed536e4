import SystemProgramming.ThreadCleanup.Model

namespace SystemProgramming.ThreadCleanup

inductive Quiet (s : State) : ThreadPc → ThreadPc → Prop where
  | noBlock : Quiet s .malloc .printAlloc
  | printed (enabled : s.pending = false) : Quiet s .printAlloc .lock
  | pushed : Quiet s .push .test
  | waits (unset : s.glob = 0) : Quiet s .test .wait
  | completed (set : s.glob ≠ 0) : Quiet s .test .printDone
  | notWaiting (pending : s.pending = true) : Quiet s .wait (.handler .printFree true)
  | wokenUp : Quiet s .blocked (.woken s.pending)
  | finished : Quiet s .printDone (.handler .printFree s.pending)
  | freeing (cancelled : Bool) : Quiet s (.handler .printFree cancelled) (.handler .free cancelled)
  | unlocking (cancelled : Bool) : Quiet s (.handler .printUnlock cancelled) (.handler .unlock cancelled)

inductive ThreadMove (s : State) : State → Prop where
  | quiet (pc pc' : ThreadPc) (out : List Line) (at_ : s.thread = some pc) (moved : Quiet s pc pc') :
      ThreadMove s { s.goto pc' with stdout := out }
  | allocated (at_ : s.thread = some .malloc) : ThreadMove s { s.goto .printAlloc with allocated := true }
  | leaked (at_ : s.thread = some .printAlloc) (pending : s.pending = true) :
      ThreadMove s (s.goto (.terminated true))
  | abandoned (pc : HandlerPc) (at_ : s.thread = some (.handler pc false)) (pending : s.pending = true) :
      ThreadMove s (s.goto (.terminated true))
  | locked (at_ : s.thread = some .lock) : ThreadMove s { s.goto .push with locked := true }
  | relocked (cancelled : Bool) (at_ : s.thread = some (.woken cancelled)) :
      ThreadMove s
        { s.goto (if cancelled then .handler .printFree true else .test) with locked := true }
  | released (at_ : s.thread = some .wait) : ThreadMove s { s.goto .blocked with locked := false }
  | freed (cancelled : Bool) (at_ : s.thread = some (.handler .free cancelled)) :
      ThreadMove s { s.goto (.handler .printUnlock cancelled) with
        frees := if s.allocated = true then s.frees + 1 else s.frees }
  | unlocked (cancelled : Bool) (at_ : s.thread = some (.handler .unlock cancelled)) :
      ThreadMove s { s.goto (.terminated cancelled) with locked := false }
  | failed (pc : ThreadPc) (at_ : s.thread = some pc) (checks : pc.checks = true) :
      ThreadMove s { s with main := .exited .failure }

theorem handlerDone_moves {s : State} {pc : HandlerPc} {cancelled : Bool}
    (at_ : s.thread = some (.handler pc cancelled)) : ThreadMove s (handlerDone s pc cancelled) := by
  unfold handlerDone
  cases pc with
  | free => exact .freed cancelled at_
  | unlock => exact .unlocked cancelled at_
  | printFree =>
    dsimp only
    split
    · rename_i acts
      obtain ⟨pending, rfl⟩ := acts
      exact .abandoned _ at_ pending
    · exact .quiet _ _ _ at_ (.freeing cancelled)
  | printUnlock =>
    dsimp only
    split
    · rename_i acts
      obtain ⟨pending, rfl⟩ := acts
      exact .abandoned _ at_ pending
    · exact .quiet _ _ _ at_ (.unlocking cancelled)

theorem threadDone_moves {s t : State} {pc : ThreadPc} (at_ : s.thread = some pc)
    (taken : threadDone s pc = some t) : ThreadMove s t := by
  unfold threadDone at taken
  cases pc with
  | malloc =>
    cases taken
    exact .allocated at_
  | printAlloc =>
    dsimp only at taken
    split at taken
    · rename_i pending
      cases taken
      exact .leaked at_ pending
    · rename_i enabled
      cases taken
      exact .quiet _ _ _ at_ (.printed (Bool.eq_false_iff.mpr enabled))
  | lock =>
    dsimp only at taken
    split at taken
    · cases taken
      exact .locked at_
    · cases taken
  | push =>
    cases taken
    exact .quiet _ _ _ at_ .pushed
  | test =>
    cases taken
    by_cases unset : s.glob = 0
    · rw [if_pos unset]
      exact .quiet _ _ _ at_ (.waits unset)
    · rw [if_neg unset]
      exact .quiet _ _ _ at_ (.completed unset)
  | wait =>
    dsimp only at taken
    split at taken
    · rename_i pending
      cases taken
      exact .quiet _ _ _ at_ (.notWaiting pending)
    · cases taken
      exact .released at_
  | blocked =>
    cases taken
    exact .quiet _ _ _ at_ .wokenUp
  | woken cancelled =>
    dsimp only at taken
    split at taken
    · cases taken
      exact .relocked cancelled at_
    · cases taken
  | printDone =>
    have next := Quiet.finished (s := s)
    dsimp only at taken
    split at taken
    · rename_i pending
      cases taken
      rw [pending] at next
      exact .quiet _ _ _ at_ next
    · rename_i enabled
      cases taken
      rw [Bool.eq_false_iff.mpr enabled] at next
      exact .quiet _ _ _ at_ next
  | handler pc cancelled =>
    cases taken
    exact handlerDone_moves at_
  | terminated cancelled => cases taken

theorem threadStep_moves {s t : State} {outcome : Outcome} (taken : threadStep s outcome = some t) :
    ThreadMove s t := by
  obtain ⟨pc, at_, moved⟩ := Option.bind_eq_some_iff.mp taken
  cases outcome with
  | done => exact threadDone_moves at_ moved
  | count n => cases moved
  | error errno =>
    dsimp only at moved
    split at moved
    · rename_i same
      subst same
      cases moved
      exact .quiet _ _ _ at_ .noBlock
    · split at moved
      · rename_i checks
        cases moved
        exact .failed pc at_ checks
      · cases moved

inductive MainMove (argc : Nat) (s : State) : State → Prop where
  | created (at_ : s.main = .create) : MainMove argc s { s.goto .malloc with main := .sleep }
  | slept (at_ : s.main = .sleep) :
      MainMove argc s { s with main := if argc = 1 then .printCancel else .printSignal }
  | printed (pc : MainPc) (out : List Line)
      (at_ : (s.main = .printCancel ∧ pc = .cancel) ∨ (s.main = .printSignal ∧ pc = .assign)) :
      MainMove argc s { s with main := pc, stdout := out }
  | cancelled (at_ : s.main = .cancel) : MainMove argc s { s with main := .join, pending := true }
  | assigned (at_ : s.main = .assign) : MainMove argc s { s with main := .signal, glob := 1 }
  | signalled (at_ : s.main = .signal) : MainMove argc s { s with main := .join, thread := wake s.thread }
  | joined (cancelled : Bool) (at_ : s.main = .join) (ended : s.thread = some (.terminated cancelled)) :
      MainMove argc s { s with main := .report cancelled }
  | exited (status : ExitStatus) (out : List Line) :
      MainMove argc s { s with main := .exited status, stdout := out }

theorem mainStep_moves {argc : Nat} {s t : State} {outcome : Outcome}
    (taken : mainStep argc s outcome = some t) : MainMove argc s t := by
  unfold mainStep at taken
  cases outcome with
  | count n => cases taken
  | error errno =>
    dsimp only at taken
    split at taken
    · cases taken
      exact .exited .failure s.stdout
    · cases taken
  | done =>
    dsimp only at taken
    unfold mainDone at taken
    split at taken
    case h_1 at_ =>
      cases taken
      exact .created at_
    case h_2 at_ =>
      cases taken
      exact .slept at_
    case h_3 at_ =>
      cases taken
      exact .printed .cancel _ (.inl ⟨at_, rfl⟩)
    case h_4 at_ =>
      cases taken
      exact .cancelled at_
    case h_5 at_ =>
      cases taken
      exact .printed .assign _ (.inr ⟨at_, rfl⟩)
    case h_6 at_ =>
      cases taken
      exact .assigned at_
    case h_7 at_ =>
      cases taken
      exact .signalled at_
    case h_8 at_ =>
      split at taken
      · rename_i cancelled ended
        cases taken
        exact .joined cancelled at_ ended
      · cases taken
    case h_9 cancelled at_ =>
      cases taken
      exact .exited .success _
    case h_10 => cases taken

theorem step_moves {argc : Nat} {s t : State} {action : Action} (taken : step argc s action = some t) :
    (∃ outcome, action = .main outcome ∧ MainMove argc s t) ∨
      ∃ outcome, action = .thread outcome ∧ threadStep s outcome = some t ∧ ThreadMove s t := by
  unfold step at taken
  split at taken
  · cases taken
  · cases action with
    | main outcome => exact .inl ⟨outcome, rfl, mainStep_moves taken⟩
    | thread outcome => exact .inr ⟨outcome, rfl, taken, threadStep_moves taken⟩

end SystemProgramming.ThreadCleanup
