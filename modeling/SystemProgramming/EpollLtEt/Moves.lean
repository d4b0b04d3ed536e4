import SystemProgramming.EpollLtEt.Model

namespace SystemProgramming.EpollLtEt

inductive LtRead (s : State) (events : List Event) : Outcome → State → Prop where
  | content (n : Nat) (counted : RecvCount s n) (some_bytes : n ≠ 0) :
      LtRead s events (.count n) { printContent (received s n) n with pc := .handling events }
  | ended (counted : RecvCount s 0) :
      LtRead s events (.count 0) { received s 0 with pc := .closing events }
  | failed (errno : Errno) :
      LtRead s events (.error errno) { printContent s (-1) with pc := .handling events, errno }

theorem ltReceive_moves {s t : State} {events : List Event} {outcome : Outcome}
    (taken : ltReceive s events outcome = some t) : LtRead s events outcome t := by
  unfold ltReceive at taken
  cases outcome with
  | done => cases taken
  | error errno =>
    dsimp only at taken
    split at taken
    · cases taken
      exact .failed errno
    · cases taken
  | count n =>
    dsimp only at taken
    split at taken
    · rename_i counted
      cases taken
      by_cases some_bytes : n = 0
      · subst some_bytes
        exact .ended counted
      · rw [if_pos some_bytes]
        exact .content n counted some_bytes
    · cases taken

inductive EtRead (s : State) (events : List Event) : Outcome → State → Prop where
  | content (n : Nat) (counted : RecvCount s n) (some_bytes : n ≠ 0) :
      EtRead s events (.count n) { printContent (received s n) 0 with pc := .receiving events }
  | ended (counted : RecvCount s 0) :
      EtRead s events (.count 0) (checkErrno (received s 0) events)
  | failed (errno : Errno) (possible : RecvErrno s errno) :
      EtRead s events (.error errno) (checkErrno { s with errno } events)

theorem etReceive_moves {s t : State} {events : List Event} {outcome : Outcome}
    (taken : etReceive s events outcome = some t) : EtRead s events outcome t := by
  unfold etReceive at taken
  cases outcome with
  | done => cases taken
  | error errno =>
    dsimp only at taken
    split at taken
    · rename_i possible
      cases taken
      exact .failed errno possible
    · cases taken
  | count n =>
    dsimp only at taken
    split at taken
    · rename_i counted
      cases taken
      by_cases some_bytes : n = 0
      · subst some_bytes
        exact .ended counted
      · rw [if_neg some_bytes]
        exact .content n counted some_bytes
    · cases taken

def Handler.read : Handler → State → List Event → Outcome → State → Prop
  | .lt => LtRead
  | .et => EtRead

inductive Move (handler : Handler) (s : State) : Outcome → State → Prop where
  | returned (at_ : s.pc = .handling []) : Move handler s .done { s with pc := .waiting }
  | accepted (n : Nat) (epollin : Bool) (events : List Event)
      (at_ : s.pc = .handling (⟨.listener, epollin⟩ :: events)) :
      Move handler s (.count n) { s with pc := .handling events }
  | notAccepted (errno : Errno) (epollin : Bool) (events : List Event)
      (at_ : s.pc = .handling (⟨.listener, epollin⟩ :: events)) :
      Move handler s (.error errno) { s with pc := .handling events, errno }
  | triggered (events : List Event) (at_ : s.pc = .handling (⟨.connection, true⟩ :: events)) :
      Move handler s .done
        { s with pc := .receiving events, buf := zeros, stdout := s.stdout ++ [.triggered] }
  | wrong (events : List Event) (at_ : s.pc = .handling (⟨.connection, false⟩ :: events)) :
      Move handler s .done { s with pc := .handling events, stdout := s.stdout ++ [.wrong] }
  | receive (outcome : Outcome) (events : List Event) (t : State) (at_ : s.pc = .receiving events)
      (chunk : handler.read s events outcome t) : Move handler s outcome t
  | closed (events : List Event) (at_ : s.pc = .closing events) :
      Move handler s .done { s with pc := .handling events, isOpen := false, closes := s.closes + 1 }
  | notClosed (errno : Errno) (events : List Event) (at_ : s.pc = .closing events) :
      Move handler s (.error errno) { s with pc := .handling events }

theorem handlerStep_moves {handler : Handler} {s t : State} {outcome : Outcome}
    (taken : handlerStep handler s outcome = some t) : Move handler s outcome t := by
  unfold handlerStep at taken
  split at taken
  case h_1 => cases taken
  case h_2 at_ =>
    cases outcome <;> cases taken
    exact .returned at_
  case h_3 epollin events at_ =>
    cases outcome with
    | done => cases taken
    | count n =>
      cases taken
      exact .accepted n epollin events at_
    | error errno =>
      cases taken
      exact .notAccepted errno epollin events at_
  case h_4 epollin events at_ =>
    cases outcome <;> cases taken
    cases epollin with
    | true => exact .triggered events at_
    | false => exact .wrong events at_
  case h_5 events at_ =>
    cases handler with
    | lt => exact .receive outcome events t at_ (ltReceive_moves taken)
    | et => exact .receive outcome events t at_ (etReceive_moves taken)
  case h_6 events at_ =>
    cases outcome with
    | count n => cases taken
    | done =>
      cases taken
      exact .closed events at_
    | error errno =>
      cases taken
      exact .notClosed errno events at_

theorem reportStep_some {handler : Handler} {s t : State} {batch : List Event}
    (taken : reportStep handler s batch = some t) :
    ∃ edge, s.pc = .waiting ∧ t = { s with pc := .handling batch, edge } := by
  unfold reportStep at taken
  split at taken
  · rename_i at_
    split at taken
    · cases taken
      exact ⟨_, at_, rfl⟩
    · cases taken
  · cases taken

theorem step_data {handler : Handler} {s t : State} {bytes : List Byte}
    (taken : step handler s (.data bytes) = some t) :
    s.isOpen = true ∧ s.peerClosed = false ∧
      t = { s with pending := s.pending ++ bytes, edge := true } := by
  unfold step at taken
  dsimp only at taken
  split at taken
  · rename_i arriving
    cases taken
    exact ⟨arriving.1, arriving.2.1, rfl⟩
  · cases taken

theorem step_hangup {handler : Handler} {s t : State} (taken : step handler s .hangup = some t) :
    t = { s with peerClosed := true, edge := true } := by
  unfold step at taken
  dsimp only at taken
  split at taken
  · cases taken
    rfl
  · cases taken

theorem step_handler {handler : Handler} {s t : State} {outcome : Outcome}
    (taken : step handler s (.handler outcome) = some t) : Move handler s outcome t :=
  handlerStep_moves taken

end SystemProgramming.EpollLtEt
