import SystemProgramming.ThreadMultijoin.Model

namespace SystemProgramming.ThreadMultijoin

variable {sleepTimes : List Int}

namespace State

@[simp] theorem states_setPc (s : State) (i : Nat) (pc : ThreadPc) : (s.setPc i pc).states = s.states := rfl

@[simp] theorem length_states (s : State) : s.states.length = s.thread.length := List.length_map _

theorem states_setSlot {s : State} {idx : Nat} {f : Slot → Slot} (kept : ∀ slot, (f slot).state = slot.state) :
    (s.setSlot idx f).states = s.states := by
  show (s.thread.modify idx f).map (·.state) = s.thread.map (·.state)
  apply List.ext_getElem?
  intro j
  rw [List.getElem?_map, List.getElem?_map, List.getElem?_modify]
  by_cases same : idx = j
  · cases s.thread[j]? <;> simp [same, kept]
  · simp [same]

theorem states_setSlot_state {s : State} {idx : Nat} {f : Slot → Slot} (state : TState)
    (written : ∀ slot, (f slot).state = state) :
    (s.setSlot idx f).states = s.states.set idx state := by
  show (s.thread.modify idx f).map (·.state) = (s.thread.map (·.state)).set idx state
  apply List.ext_getElem?
  intro j
  rw [List.getElem?_map, List.getElem?_set, List.getElem?_modify, List.getElem?_map, List.length_map]
  by_cases same : idx = j
  · subst same
    by_cases inside : idx < s.thread.length
    · simp [inside, written]
    · simp [inside]
  · simp [same]

end State

inductive ThreadMove (s : State) (i : Nat) : Outcome → State → Prop where
  | started (at_ : s.threads i = some .start) : ThreadMove s i .done (s.setPc i (.sleep s.idx))
  | slept (idx : Nat) (at_ : s.threads i = some (.sleep idx)) :
      ThreadMove s i .done (s.setPc i (.lock idx))
  | locked (idx : Nat) (at_ : s.threads i = some (.lock idx)) (free : s.mutex = none) :
      ThreadMove s i .done { s.setPc i (.update idx) with mutex := some (.thread i) }
  | updated (idx : Nat) (at_ : s.threads i = some (.update idx)) :
      ThreadMove s i .done { (s.setPc i (.unlock idx)).setState idx .TS_TERMINATED with
        numUnjoined := s.numUnjoined + 1 }
  | unlocked (idx : Nat) (at_ : s.threads i = some (.unlock idx)) :
      ThreadMove s i .done { s.setPc i (.signal idx) with mutex := none }
  | signalled (idx : Nat) (at_ : s.threads i = some (.signal idx)) :
      ThreadMove s i .done (s.setPc i (.returned idx))
  | failed (pc : ThreadPc) (errno : Errno) (at_ : s.threads i = some pc) :
      ThreadMove s i (.error errno) { s with main := .exited .failure }

theorem threadStep_moves {s t : State} {i : Nat} {outcome : Outcome}
    (taken : threadStep s i outcome = some t) : ThreadMove s i outcome t := by
  unfold threadStep at taken
  split at taken
  case h_1 at_ =>
    cases taken
    exact .started at_
  case h_2 idx at_ =>
    cases taken
    exact .slept idx at_
  case h_3 idx at_ =>
    split at taken
    · rename_i free
      cases taken
      exact .locked idx at_ free
    · cases taken
  case h_4 idx at_ =>
    cases taken
    exact .updated idx at_
  case h_5 idx at_ =>
    cases taken
    exact .unlocked idx at_
  case h_6 idx at_ =>
    cases taken
    exact .signalled idx at_
  case h_10 => cases taken
  all_goals
    rename_i at_
    cases taken
    exact .failed _ _ at_

inductive MainMove (sleepTimes : List Int) (s : State) : Outcome → State → Prop where
  | refused (at_ : s.main = .usage) (nothing : sleepTimes = []) :
      MainMove sleepTimes s .done { s with main := .exited .failure }
  | accepted (at_ : s.main = .usage) (something : sleepTimes ≠ []) :
      MainMove sleepTimes s .done { s with main := .calloc }
  | allocated (at_ : s.main = .calloc) :
      MainMove sleepTimes s .done
        { s with
          main := .fill
          idx := 0
          thread := List.replicate sleepTimes.length ⟨none, .TS_ALIVE, 0⟩ }
  | filled (sleepTime : Int) (at_ : s.main = .fill) (more : s.idx < sleepTimes.length) :
      MainMove sleepTimes s .done ({ s with main := .create }.setSlot s.idx fun slot =>
        { slot with sleepTime, state := .TS_ALIVE })
  | filledAll (at_ : s.main = .fill) (last : sleepTimes.length ≤ s.idx) :
      MainMove sleepTimes s .done { s with main := .totals }
  | created (at_ : s.main = .create) : MainMove sleepTimes s .done (createThread s)
  | next (at_ : s.main = .next) : MainMove sleepTimes s .done { s with main := .fill, idx := s.idx + 1 }
  | totalled (at_ : s.main = .totals) :
      MainMove sleepTimes s .done { s with
        main := whileLive sleepTimes.length
        totThreads := sleepTimes.length
        numLive := sleepTimes.length }
  | locked (at_ : s.main = .lock ∨ s.main = .wait) (free : s.mutex = none) :
      MainMove sleepTimes s .done { s with main := .condition, mutex := some .main }
  | waits (at_ : s.main = .condition) (dead : s.numLive = 0) :
      MainMove sleepTimes s .done { s with main := .wait, mutex := none }
  | scans (at_ : s.main = .condition) (live : s.numLive ≠ 0) :
      MainMove sleepTimes s .done { s with main := .scan, idx := 0 }
  | found (at_ : s.main = .scan) (more : s.idx < s.totThreads)
      (terminated : s.states[s.idx]? = some .TS_TERMINATED) :
      MainMove sleepTimes s .done { s with main := .join }
  | skipped (state : TState) (at_ : s.main = .scan) (more : s.idx < s.totThreads)
      (there : s.states[s.idx]? = some state) (other : state ≠ .TS_TERMINATED) :
      MainMove sleepTimes s .done { s with main := .mark }
  | ended (at_ : s.main = .scan) (last : s.totThreads ≤ s.idx) :
      MainMove sleepTimes s .done { s with main := whileLive s.numLive }
  | joined (i idx : Nat) (slot : Slot) (at_ : s.main = .join) (there : s.thread[s.idx]? = some slot)
      (tid : slot.tid = some i) (returned : s.threads i = some (.returned idx)) :
      MainMove sleepTimes s .done { s with main := .mark, joined := s.joined ++ [i] }
  | marked (at_ : s.main = .mark) : MainMove sleepTimes s .done (markSlot s)
  | unlocked (at_ : s.main = .unlock) :
      MainMove sleepTimes s .done { s with main := .exit, mutex := none }
  | exits (at_ : s.main = .exit) : MainMove sleepTimes s .done { s with main := .exited .success }
  | failed (errno : Errno) (at_ : s.main.calls = true) :
      MainMove sleepTimes s (.error errno) { s with main := .exited .failure }

theorem fillSlot_moves {s t : State} (at_ : s.main = .fill) (taken : fillSlot sleepTimes s = some t) :
    MainMove sleepTimes s .done t := by
  unfold fillSlot at taken
  split at taken
  · rename_i sleepTime present
    cases taken
    exact .filled sleepTime at_ (List.getElem?_eq_some_iff.mp present).1
  · rename_i absent
    cases taken
    exact .filledAll at_ (List.getElem?_eq_none_iff.mp absent)

theorem scanSlot_moves {s t : State} (at_ : s.main = .scan) (taken : scanSlot s = some t) :
    MainMove sleepTimes s .done t := by
  unfold scanSlot at taken
  split at taken
  · rename_i more
    rcases Option.map_eq_some_iff.mp taken with ⟨state, there, same⟩
    by_cases terminated : state = .TS_TERMINATED
    · subst terminated
      cases same
      exact .found at_ more there
    · rw [if_neg terminated] at same
      cases same
      exact .skipped state at_ more there terminated
  · rename_i last
    cases taken
    exact .ended at_ (Nat.le_of_not_lt last)

theorem joinThread_moves {s t : State} (at_ : s.main = .join) (taken : joinThread s = some t) :
    MainMove sleepTimes s .done t := by
  rcases Option.bind_eq_some_iff.mp taken with ⟨i, found, rest⟩
  rcases Option.bind_eq_some_iff.mp found with ⟨slot, there, tid⟩
  split at rest
  · rename_i idx returned
    cases rest
    exact .joined i idx slot at_ there tid returned
  · cases rest

theorem mainDone_moves {s t : State} (taken : mainDone sleepTimes s = some t) :
    MainMove sleepTimes s .done t := by
  unfold mainDone at taken
  split at taken
  case h_1 at_ =>
    by_cases nothing : sleepTimes = []
    · rw [if_pos nothing] at taken
      cases taken
      exact .refused at_ nothing
    · rw [if_neg nothing] at taken
      cases taken
      exact .accepted at_ nothing
  case h_2 at_ =>
    cases taken
    exact .allocated at_
  case h_3 at_ => exact fillSlot_moves at_ taken
  case h_4 at_ =>
    cases taken
    exact .created at_
  case h_5 at_ =>
    cases taken
    exact .next at_
  case h_6 at_ =>
    cases taken
    exact .totalled at_
  case h_7 at_ =>
    split at taken
    · rename_i free
      cases taken
      exact .locked (.inl at_) free
    · cases taken
  case h_8 at_ =>
    split at taken
    · rename_i dead
      cases taken
      exact .waits at_ dead
    · rename_i live
      cases taken
      exact .scans at_ live
  case h_9 at_ =>
    split at taken
    · rename_i free
      cases taken
      exact .locked (.inr at_) free
    · cases taken
  case h_10 at_ => exact scanSlot_moves at_ taken
  case h_11 at_ => exact joinThread_moves at_ taken
  case h_12 at_ =>
    cases taken
    exact .marked at_
  case h_13 at_ =>
    cases taken
    exact .unlocked at_
  case h_14 at_ =>
    cases taken
    exact .exits at_
  case h_15 => cases taken

theorem mainStep_moves {s t : State} {outcome : Outcome}
    (taken : mainStep sleepTimes s outcome = some t) : MainMove sleepTimes s outcome t := by
  cases outcome with
  | done => exact mainDone_moves taken
  | count n => cases taken
  | error errno =>
    dsimp only [mainStep] at taken
    split at taken
    · rename_i at_
      cases taken
      exact .failed errno at_
    · cases taken

theorem step_some {s t : State} {action : Action} (taken : step sleepTimes s action = some t) :
    (∀ status, s.main ≠ .exited status) ∧
      match action with
      | .main outcome => MainMove sleepTimes s outcome t
      | .thread i outcome => ThreadMove s i outcome t := by
  unfold step at taken
  split at taken
  · cases taken
  · rename_i running
    constructor
    · exact running
    · cases action with
      | main outcome => exact mainStep_moves taken
      | thread i outcome => exact threadStep_moves taken

end SystemProgramming.ThreadMultijoin
