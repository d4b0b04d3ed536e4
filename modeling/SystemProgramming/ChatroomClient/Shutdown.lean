import SystemProgramming.ChatroomClient.Model
import SystemProgramming.Library.Termination

namespace SystemProgramming.ChatroomClient

open Transition

variable {capacity : Nat}

def Leaves (capacity : Nat) (s : State) : Prop := Inevitable (clientStep capacity) (fun s => s.pc = .exited) s

structure InLoop (s : State) : Prop where
  open_ : s.pc ≠ .closing
  running : s.pc ≠ .exited

theorem inLoop_of_pc {s : State} {pc : Pc} (at_ : s.pc = pc) (open_ : pc ≠ .closing) (running : pc ≠ .exited) :
    InLoop s := ⟨at_ ▸ open_, at_ ▸ running⟩

/-- `POLLRDHUP` never comes without `POLLIN`, which is looked at first. -/
theorem dispatch_pc {s : State} {r : Revents} (reports : Reports s r) :
    (dispatch s r).pc = .receiving ∨ (dispatch s r).pc = .filling ∨ (dispatch s r).pc = s.pc := by
  obtain ⟨-, -, hungUp, both⟩ := reports
  unfold dispatch
  by_cases pollin : r.pollin = true
  · rw [if_pos pollin]
    exact .inl rfl
  · rw [if_neg pollin]
    have connected : ¬ r.rdhup = true := fun rdhup => pollin (both (hungUp rdhup)).1
    rw [if_neg connected]
    split
    · exact .inr (.inl rfl)
    · exact .inr (.inr rfl)

theorem receive_pc {s t : State} {outcome : Outcome} (taken : receive s outcome = some t) :
    t.pc = .polling := by
  unfold receive at taken
  cases outcome with
  | done => cases taken
  | count n =>
    dsimp only at taken
    split at taken
    · cases taken
      rfl
    · cases taken
  | error errno =>
    dsimp only at taken
    split at taken
    · cases taken
      rfl
    · cases taken

theorem clientStep_inLoop {s t : State} {result : Result} (inLoop : InLoop s)
    (taken : clientStep capacity s result = some t) : InLoop t := by
  unfold clientStep at taken
  split at taken
  case h_1 r at_ =>
    split at taken
    · rename_i reports
      cases taken
      rcases dispatch_pc reports with pc | pc | pc
      · exact inLoop_of_pc pc Pc.noConfusion Pc.noConfusion
      · exact inLoop_of_pc pc Pc.noConfusion Pc.noConfusion
      · exact inLoop_of_pc pc inLoop.open_ inLoop.running
    · cases taken
  case h_3 outcome at_ => exact inLoop_of_pc (receive_pc taken) Pc.noConfusion Pc.noConfusion
  case h_4 n at_ =>
    split at taken
    · cases taken
      exact inLoop_of_pc rfl Pc.noConfusion Pc.noConfusion
    · cases taken
  case h_2 errno at_ | h_5 errno at_ =>
    cases taken
    exact inLoop_of_pc rfl Pc.noConfusion Pc.noConfusion
  case h_6 n at_ =>
    split at taken
    · cases taken
      exact inLoop_of_pc rfl Pc.noConfusion Pc.noConfusion
    · cases taken
  case h_7 errno at_ =>
    cases taken
    refine inLoop_of_pc rfl ?_ ?_
    · split <;> exact Pc.noConfusion
    · split <;> exact Pc.noConfusion
  case h_8 at_ | h_9 errno at_ => exact absurd at_ inLoop.open_
  case h_10 => cases taken

theorem step_inLoop {s t : State} {action : Action} (inLoop : InLoop s)
    (taken : step capacity s action = some t) : InLoop t := by
  cases action with
  | typed bytes | data bytes =>
    dsimp only [step] at taken
    split at taken
    · cases taken
      exact ⟨inLoop.open_, inLoop.running⟩
    · cases taken
  | inputEnds | serverCloses =>
    cases taken
    exact ⟨inLoop.open_, inLoop.running⟩
  | client result => exact clientStep_inLoop inLoop taken

theorem run_inLoop {buf : List Byte} {actions : List Action} {s : State}
    (run : exec (step capacity) actions (initial buf) = some s) : InLoop s :=
  exec_invariant (I := InLoop) (fun _ _ _ inLoop _ taken => step_inLoop inLoop taken)
    ⟨Pc.noConfusion, Pc.noConfusion⟩ (along_true actions _) run

section Closed

structure Spinning (s : State) : Prop where
  at_ : s.pc = .polling ∨ s.pc = .receiving
  closed : s.serverClosed = true

theorem spinning_next {s : State} (spinning : Spinning s) :
    ∃ result t, clientStep capacity s result = some t ∧ Spinning t := by
  obtain ⟨at_, closed⟩ := spinning
  rcases at_ with polling | receiving
  · refine ⟨.revents ⟨false, true, true⟩, { s with pc := .receiving }, ?_, ⟨.inr rfl, closed⟩⟩
    have reports : Reports s ⟨false, true, true⟩ := by simp [Reports, closed]
    unfold clientStep
    rw [polling]
    exact if_pos reports
  · -- What is left of the data comes first, and then the end of the stream again and again.
    let n := min BUF_SIZE s.unread.length
    have readable : n ≤ BUF_SIZE ∧ n ≤ s.unread.length ∧ (n = 0 → s.unread = [] ∧ s.serverClosed = true) := by
      refine ⟨Nat.min_le_left _ _, Nat.min_le_right _ _, fun nothing => ⟨?_, closed⟩⟩
      have empty : s.unread.length = 0 := by
        unfold n BUF_SIZE at nothing
        omega
      exact List.length_eq_zero_iff.mp empty
    let buf := Buffer.overwrite (s.unread.take n) (memset s.buf (BitVec.ofNat 8 1024) 0)
    have taken : clientStep capacity s (.call (.count n)) =
        some { received s n buf with unread := s.unread.drop n } := by
      unfold clientStep
      rw [receiving]
      exact if_pos readable
    exact ⟨_, _, taken, .inl rfl, closed⟩

/-- In no run does the client leave its loop after the server has closed: once it is back at `poll` it
    can go round for ever. -/
theorem never_leaves {buf : List Byte} {actions : List Action} {s : State}
    (run : exec (step capacity) actions (initial buf) = some s) (closed : s.serverClosed = true) :
    ¬ Leaves capacity s ∧ (s.pc = .polling → ¬ Ends (clientStep capacity) s) := by
  constructor
  · exact not_inevitable (I := InLoop) (fun _ _ _ inLoop taken => clientStep_inLoop inLoop taken)
      (fun _ inLoop => inLoop.running) (run_inLoop run)
  · intro polling
    exact not_ends (I := Spinning) (fun _ spinning => spinning_next spinning) ⟨.inl polling, closed⟩

def shutdown : List Action :=
  [.data [104, 105], .serverCloses, .client (.revents ⟨false, true, true⟩), .client (.call (.count 2)),
    .client (.revents ⟨false, true, true⟩), .client (.call (.count 0))]

def memory : List Byte := List.replicate BUF_SIZE 0

theorem shutdown_never_leaves :
    ∃ s, exec (step 65536) shutdown (initial memory) = some s ∧ s.pc = .polling ∧ s.unread = [] ∧
      s.stdout = [.received 2 [104, 105], .received 0 [104, 105]] ∧ ¬ Leaves 65536 s := by
  have run : exec (step 65536) shutdown (initial memory) = some _ := rfl
  exact ⟨_, run, rfl, rfl, rfl, (never_leaves run rfl).1⟩

theorem shutdown_stays :
    ¬ ∀ actions s, exec (step 65536) actions (initial memory) = some s → s.serverClosed = true → Leaves 65536 s := by
  intro always
  have leaves := always [.serverCloses] _ rfl rfl
  refine not_inevitable (I := InLoop) (fun _ _ _ inLoop taken => clientStep_inLoop inLoop taken)
    (fun _ inLoop => inLoop.running) ?_ leaves
  exact ⟨Pc.noConfusion, Pc.noConfusion⟩

end Closed

end SystemProgramming.ChatroomClient
