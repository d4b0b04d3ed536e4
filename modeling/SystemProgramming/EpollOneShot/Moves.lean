import SystemProgramming.EpollOneShot.Model

namespace SystemProgramming.EpollOneShot

variable {lfd : Fd}

inductive MainMove (lfd : Fd) (s : State) : Outcome → State → Prop where
  | aborted (errno : Errno) (at_ : s.main = .waiting) :
      MainMove lfd s (.error errno) { s with main := .aborted }
  | looped (at_ : s.main = .dispatching []) : MainMove lfd s .done { s with main := .waiting }
  | accepted (e : Event) (events : List Event) (cfd : Fd) (at_ : s.main = .dispatching (e :: events))
      (listening : e.fd = lfd) (free : s.isOpen cfd = false) :
      MainMove lfd s (.count cfd)
        { s with main := .adding cfd events, isOpen := Function.update s.isOpen cfd true }
  | stored (e : Event) (events : List Event) (at_ : s.main = .dispatching (e :: events))
      (readable : e.Readable lfd) :
      MainMove lfd s .done { s with main := .creating e.fd events, slot := some e.fd }
  | dropped (outcome : Outcome) (e : Event) (events : List Event)
      (at_ : s.main = .dispatching (e :: events)) (other : ¬ e.Readable lfd) :
      MainMove lfd s outcome { s with main := .dispatching events }
  | added (cfd : Fd) (events : List Event) (at_ : s.main = .adding cfd events) :
      MainMove lfd s .done
        { s with main := .dispatching events, armed := Function.update s.armed cfd true }
  | notAdded (errno : Errno) (cfd : Fd) (events : List Event) (at_ : s.main = .adding cfd events) :
      MainMove lfd s (.error errno) { s with main := .dispatching events }
  | created (fd : Fd) (events : List Event) (at_ : s.main = .creating fd events) :
      MainMove lfd s .done
        { s with main := .dispatching events, workers := s.workers ++ [⟨fd, none, .starting⟩] }
  | notCreated (errno : Errno) (fd : Fd) (events : List Event) (at_ : s.main = .creating fd events) :
      MainMove lfd s (.error errno) { s with main := .dispatching events }

theorem mainStep_moves {s t : State} {outcome : Outcome} (taken : mainStep lfd s outcome = some t) :
    MainMove lfd s outcome t := by
  unfold mainStep at taken
  split at taken
  case h_1 at_ =>
    cases outcome with
    | error errno =>
      cases taken
      exact .aborted errno at_
    | _ => cases taken
  case h_2 at_ =>
    cases outcome with
    | done =>
      cases taken
      exact .looped at_
    | _ => cases taken
  case h_3 e events at_ =>
    by_cases listening : e.fd = lfd
    · rw [if_pos listening] at taken
      cases outcome with
      | done => cases taken
      | count cfd =>
        dsimp only at taken
        split at taken
        · rename_i free
          cases taken
          exact .accepted e events cfd at_ listening free
        · cases taken
      | error errno =>
        cases taken
        exact .dropped _ e events at_ (fun readable => readable.1 listening)
    · rw [if_neg listening] at taken
      by_cases epollin : e.epollin = true
      · rw [if_pos epollin] at taken
        cases outcome with
        | done =>
          cases taken
          exact .stored e events at_ ⟨listening, epollin⟩
        | _ => cases taken
      · rw [if_neg epollin] at taken
        cases outcome with
        | done =>
          cases taken
          exact .dropped _ e events at_ (fun readable => epollin readable.2)
        | _ => cases taken
  case h_4 cfd events at_ =>
    cases outcome with
    | done =>
      cases taken
      exact .added cfd events at_
    | count n => cases taken
    | error errno =>
      cases taken
      exact .notAdded errno cfd events at_
  case h_5 fd events at_ =>
    cases outcome with
    | done =>
      cases taken
      exact .created fd events at_
    | count n => cases taken
    | error errno =>
      cases taken
      exact .notCreated errno fd events at_
  case h_6 => cases taken

inductive WorkerGoto : WorkerPc → WorkerPc → Prop where
  | received (pc : WorkerPc) (next : pc = .receiving ∨ pc = .closing ∨ pc = .resetting) :
      WorkerGoto .receiving pc
  | notClosed : WorkerGoto .closing .receiving
  | notReset : WorkerGoto .resetting .finished

inductive WorkerMove (s : State) (index : Nat) (w : Worker) : State → Prop where
  | started (at_ : w.pc = .starting) :
      WorkerMove s index w (s.setWorker index { w with sockfd := s.slot, pc := .receiving })
  | goto (pc : WorkerPc) (next : WorkerGoto w.pc pc) :
      WorkerMove s index w (s.setWorker index { w with pc })
  | closed (sockfd : Fd) (at_ : w.pc = .closing) (socket : w.sockfd = some sockfd) :
      WorkerMove s index w { s.setWorker index { w with pc := .receiving } with
        isOpen := Function.update s.isOpen sockfd false
        armed := Function.update s.armed sockfd false }
  | rearmed (sockfd : Fd) (at_ : w.pc = .resetting) (socket : w.sockfd = some sockfd) :
      WorkerMove s index w { s.setWorker index { w with pc := .finished } with
        armed := Function.update s.armed sockfd (s.isOpen sockfd) }

theorem workerStep_moves {s t : State} {index : Nat} {outcome : Outcome}
    (taken : workerStep s index outcome = some t) :
    ∃ w, s.workers[index]? = some w ∧ WorkerMove s index w t := by
  rcases Option.bind_eq_some_iff.mp taken with ⟨w, here, moved⟩
  refine ⟨w, here, ?_⟩
  dsimp only at moved
  split at moved
  case h_1 at_ =>
    cases outcome with
    | done =>
      cases moved
      exact .started at_
    | _ => cases moved
  case h_2 sockfd at_ socket =>
    cases outcome with
    | done => cases moved
    | count n =>
      dsimp only at moved
      split at moved
      · cases moved
        apply WorkerMove.goto
        rw [at_]
        apply WorkerGoto.received
        split
        · exact .inr (.inl rfl)
        · exact .inl rfl
      · cases moved
    | error errno =>
      dsimp only at moved
      split at moved
      · split at moved
        · cases moved
          exact .goto _ (at_ ▸ .received _ (.inr (.inr rfl)))
        · cases moved
      · cases moved
        exact .goto _ (at_ ▸ .received _ (.inl rfl))
  case h_3 sockfd at_ socket =>
    cases outcome with
    | done =>
      cases moved
      exact .closed sockfd at_ socket
    | count n => cases moved
    | error errno =>
      cases moved
      exact .goto _ (at_ ▸ .notClosed)
  case h_4 sockfd at_ socket =>
    cases outcome with
    | done =>
      cases moved
      exact .rearmed sockfd at_ socket
    | count n => cases moved
    | error errno =>
      cases moved
      exact .goto _ (at_ ▸ .notReset)
  case h_5 => cases moved

theorem reportStep_some {s t : State} {batch : List Event} (taken : reportStep lfd s batch = some t) :
    s.main = .waiting ∧ (batch.map (·.fd)).Nodup ∧
      (∀ e ∈ batch, e.fd = lfd ∨ s.armed e.fd = true) ∧
      t = { s with
        main := .dispatching batch
        armed := fun fd => s.armed fd && !decide (fd ∈ batch.map (·.fd))
        reported := s.reported ++ toServe lfd batch } := by
  unfold reportStep at taken
  split at taken
  · rename_i at_
    split at taken
    · rename_i valid
      cases taken
      exact ⟨at_, valid.2.2.1, valid.2.2.2, rfl⟩
    · cases taken
  · cases taken

end SystemProgramming.EpollOneShot
