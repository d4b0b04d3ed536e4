import SystemProgramming.EpollLtEt.Handlers

namespace SystemProgramming.EpollLtEt

open Transition

structure Unclosed (s : State) : Prop where
  isOpen : s.isOpen = true
  closes : s.closes = 0
  idle : ∀ events, s.pc ≠ .closing events

theorem unclosed_initial (errno : Errno) : Unclosed (initial errno) := ⟨rfl, rfl, nofun⟩

theorem checkErrno_unclosed {s : State} (events : List Event) (isOpen : s.isOpen = true)
    (closes : s.closes = 0) : Unclosed (checkErrno s events) := by
  unfold checkErrno
  split
  · exact ⟨isOpen, closes, nofun⟩
  · exact ⟨isOpen, closes, nofun⟩

theorem EtRead.unclosed {s t : State} {events : List Event} {outcome : Outcome}
    (unclosed : Unclosed s) (chunk : EtRead s events outcome t) : Unclosed t := by
  cases chunk with
  | content n counted some_bytes => exact ⟨unclosed.isOpen, unclosed.closes, nofun⟩
  | ended counted => exact checkErrno_unclosed events unclosed.isOpen unclosed.closes
  | failed errno possible => exact checkErrno_unclosed events unclosed.isOpen unclosed.closes

theorem Move.unclosed {s t : State} {outcome : Outcome} (unclosed : Unclosed s)
    (move : Move .et s outcome t) : Unclosed t := by
  cases move with
  | returned at_ | accepted n epollin events at_ | notAccepted errno epollin events at_
  | triggered events at_ | wrong events at_ => exact ⟨unclosed.isOpen, unclosed.closes, nofun⟩
  | receive outcome events t at_ chunk => exact EtRead.unclosed unclosed chunk
  | closed events at_ => exact absurd at_ (unclosed.idle events)
  | notClosed errno events at_ => exact absurd at_ (unclosed.idle events)

theorem step_unclosed {s t : State} {action : Action} (unclosed : Unclosed s)
    (taken : step .et s action = some t) : Unclosed t := by
  cases action with
  | data bytes =>
    rcases step_data taken with ⟨-, -, rfl⟩
    exact ⟨unclosed.isOpen, unclosed.closes, unclosed.idle⟩
  | hangup =>
    rw [step_hangup taken]
    exact ⟨unclosed.isOpen, unclosed.closes, unclosed.idle⟩
  | report batch =>
    rcases reportStep_some taken with ⟨edge, at_, rfl⟩
    exact ⟨unclosed.isOpen, unclosed.closes, nofun⟩
  | handler outcome => exact (step_handler taken).unclosed unclosed

theorem et_unclosed {errno : Errno} {actions : List Action} {e : State}
    (run : exec (step .et) actions (initial errno) = some e) : Unclosed e :=
  exec_invariant (I := Unclosed) (fun _ _ _ unclosed _ taken => step_unclosed unclosed taken)
    (unclosed_initial errno) (along_true actions _) run

section Endless

structure Looping (events : List Event) (s : State) : Prop where
  at_ : s.pc = .receiving events
  blocking : s.flags &&& O_NONBLOCK = 0
  errno : s.errno ≠ .EAGAIN

theorem checkErrno_looping {events : List Event} {s : State} (blocking : s.flags &&& O_NONBLOCK = 0)
    (other : s.errno ≠ .EAGAIN) : Looping events (checkErrno s events) := by
  rw [checkErrno, if_neg other]
  exact ⟨rfl, blocking, other⟩

theorem EtRead.looping {events : List Event} {s t : State} {outcome : Outcome}
    (looping : Looping events s) (chunk : EtRead s events outcome t) : Looping events t := by
  cases chunk with
  | content n counted some_bytes => exact ⟨rfl, looping.blocking, looping.errno⟩
  | ended counted => exact checkErrno_looping looping.blocking looping.errno
  | failed errno possible =>
    exact checkErrno_looping looping.blocking (fun again => (possible again).1 looping.blocking)

theorem handlerStep_looping {events : List Event} {s t : State} {outcome : Outcome}
    (looping : Looping events s) (taken : handlerStep .et s outcome = some t) : Looping events t := by
  unfold handlerStep at taken
  rw [looping.at_] at taken
  exact (etReceive_moves taken).looping looping

/-- Such a call of `et` does not get out of its loop, whatever `recv` returns. -/
theorem et_loops {events : List Event} {outcomes : List Outcome} {s t : State}
    (looping : Looping events s) (run : exec (handlerStep .et) outcomes s = some t) :
    Looping events t :=
  exec_invariant (I := Looping events) (fun _ _ _ looping _ taken => handlerStep_looping looping taken)
    looping (along_true outcomes s) run

theorem et_endless {events : List Event} {s : State} (looping : Looping events s)
    (isOpen : s.isOpen = true) (nothing : s.pending = []) (hungUp : s.peerClosed = true) :
    ¬ Ends (handlerStep .et) s := by
  have progress : ∀ s, (Looping events s ∧ s.isOpen = true ∧ s.pending = [] ∧ s.peerClosed = true) →
      ∃ outcome t, handlerStep .et s outcome = some t ∧
        Looping events t ∧ t.isOpen = true ∧ t.pending = [] ∧ t.peerClosed = true := by
    intro s here
    rcases here with ⟨looping, isOpen, nothing, hungUp⟩
    have counted : RecvCount s 0 := ⟨isOpen, Nat.zero_le _, Nat.zero_le _, fun _ => ⟨nothing, hungUp⟩⟩
    have taken : handlerStep .et s (.count 0) = some (checkErrno (received s 0) events) := by
      unfold handlerStep
      rw [looping.at_]
      exact if_pos counted
    refine ⟨.count 0, _, taken, handlerStep_looping looping taken, ?_⟩
    unfold checkErrno
    rw [if_neg (show (received s 0).errno ≠ .EAGAIN from looping.errno)]
    exact ⟨isOpen, nothing, hungUp⟩
  exact not_ends progress ⟨looping, isOpen, nothing, hungUp⟩

end Endless

structure Agree (l e : State) : Prop where
  content : e.content = l.content
  closed : l.closes = 1 ∧ e.closes = 1
  returns : Ends (handlerStep .lt) l ∧ Ends (handlerStep .et) e

/-- However a stream arrives and is read, the two handlers never end alike. -/
theorem handlers_disagree (ltErrno etErrno : Errno) (ltActions etActions : List Action) :
    ¬ ∃ l e, exec (step .lt) ltActions (initial ltErrno) = some l ∧
      exec (step .et) etActions (initial etErrno) = some e ∧ Agree l e := by
  intro both
  rcases both with ⟨l, e, -, etRun, agree⟩
  have closes := (et_unclosed etRun).closes
  rw [agree.closed.2] at closes
  cases closes

def oneByte : List Action := [.data [7], .hangup, .report [⟨.connection, true⟩], .handler .done,
  .handler (.count 1)]

def ltDrive : List Action := oneByte ++ [.handler .done, .report [⟨.connection, true⟩], .handler .done,
  .handler (.count 0), .handler .done, .handler .done]

def etDrive : List Action := oneByte ++ [.handler (.count 0), .handler .done]

/-- Both handlers have returned, and nothing is left to report; `et` has not closed the connection. -/
theorem et_leaves_open :
    ∃ l e, exec (step .lt) ltDrive (initial .EAGAIN) = some l ∧
      exec (step .et) etDrive (initial .EAGAIN) = some e ∧
      l.pc = .waiting ∧ l.closes = 1 ∧ e.pc = .waiting ∧ ¬ Ready .et e ∧ ¬ Agree l e := by
  refine ⟨_, _, rfl, rfl, rfl, rfl, rfl, by decide, ?_⟩
  intro agree
  cases agree.closed.2

end SystemProgramming.EpollLtEt
