import SystemProgramming.EpollEcho.Draining

namespace SystemProgramming.EpollEcho

open Transition

variable {sockets : Sockets}

def Idle (s : State) : Prop := s.pc = .waiting ∧ ∀ fd, s.ready fd = false

def atStart (backlog : Nat) : EdgeTriggered where
  backlog := backlog
  edge := decide (0 < backlog)
  serving := false
  covered := by
    rw [Bool.toNat_false, Nat.add_zero]
    cases backlog <;> simp

theorem atStart_accounted (backlog : Nat) : (atStart backlog).Accounted ↔ backlog ≤ 1 := by
  unfold EdgeTriggered.Accounted atStart
  cases backlog with
  | zero => simp
  | succ n => simp

theorem reads_initial (w : Watched) (connections : Nat) (datagrams : List Datagram) :
    Reads sockets w (initial sockets connections datagrams)
      (atStart ((initial sockets connections datagrams).backlog w)) := by
  have distinct := sockets.distinct
  refine ⟨rfl, ?_, rfl, List.nodup_nil, rfl⟩
  cases w with
  | listening => simp [atStart, initial, State.backlog, Watched.fd, distinct]
  | udp => simp [atStart, initial, State.backlog, Watched.fd, distinct.symm, List.length_pos_iff]

theorem backlog_when_idle {connections : Nat} {datagrams : List Datagram} {actions : List Action}
    {s : State} (run : exec (step sockets) actions (initial sockets connections datagrams) = some s)
    (idle : Idle s) (w : Watched) :
    s.backlog w = 0 ↔ (initial sockets connections datagrams).backlog w ≤ 1 ∧
      Along (step sockets) (Separate sockets w) actions (initial sockets connections datagrams) := by
  rcases exec_simulate (R := Reads sockets w) (reads_initial w connections datagrams)
    (fun _ _ _ _ reads taken => step_matches reads taken) run
    with ⟨seen, source, sourceRun, reads, same⟩
  have edge : source.edge = false := by
    rw [reads.edge]
    exact idle.2 _
  have serving : source.serving = false := by
    rw [reads.serving, idle.1]
    rfl
  rw [← reads.backlog, EdgeTriggered.drained_iff edge serving, EdgeTriggered.accounted_run sourceRun,
    atStart_accounted, same]

def OneAtATime (sockets : Sockets) (s : State) (action : Action) : Prop :=
  Separate sockets .listening s action ∧ Separate sockets .udp s action

instance (s : State) (action : Action) : Decidable (OneAtATime sockets s action) :=
  inferInstanceAs (Decidable (_ ∧ _))

/-- At rest nothing is left on the two sockets if and only if at most one thing was waiting on each
    at the start, and every later one came to a socket without an unreported edge. -/
theorem drained_when_idle {connections : Nat} {datagrams : List Datagram} (actions : List Action)
    (s : State) (run : exec (step sockets) actions (initial sockets connections datagrams) = some s)
    (idle : Idle s) :
    (s.connections = 0 ∧ s.datagrams = []) ↔
      (connections ≤ 1 ∧ datagrams.length ≤ 1) ∧
        Along (step sockets) (OneAtATime sockets) actions (initial sockets connections datagrams) := by
  have listening := backlog_when_idle run idle .listening
  have udp := backlog_when_idle run idle .udp
  have empty : s.datagrams = [] ↔ s.datagrams.length = 0 := List.length_eq_zero_iff.symm
  unfold OneAtATime
  rw [along_and, empty]
  simp only [State.backlog] at listening udp
  rw [listening, udp]
  exact and_and_and_comm

def threeFour : Sockets := ⟨3, 4, by decide⟩

def apart : List Action :=
  [.connect, .report [⟨3, true⟩], .server (.count 5), .server .done, .server .done,
    .datagram ⟨80, [1, 2, 3]⟩, .report [⟨4, true⟩], .server (.count 3), .server .done, .server .done]

theorem drained_apart :
    ∃ s, exec (step threeFour) apart (initial threeFour 0 []) = some s ∧
      s.connections = 0 ∧ s.datagrams = [] := by
  have run : exec (step threeFour) apart (initial threeFour 0 []) = some _ := rfl
  have atRest := drained_when_idle apart _ run
  have drained := atRest ⟨rfl, fun fd => match fd with
    | 0 | 1 | 2 | 3 | 4 | 5 => rfl
    | _ + 6 => rfl⟩
  exact ⟨_, run, drained.mpr ⟨by decide, by decide⟩⟩

def burst : List Action :=
  [.connect, .connect, .report [⟨3, true⟩], .server (.count 5), .server .done, .server .done]

theorem burst_strands :
    ¬ ∀ s, Reaches (step threeFour) (fun _ _ => True) (initial threeFour 0 []) s → Idle s →
      s.connections = 0 ∧ s.datagrams = [] := by
  intro always
  have atRest := always _ ⟨burst, along_true _ _, rfl⟩
  have drained := atRest ⟨rfl, fun fd => match fd with
    | 0 | 1 | 2 | 3 | 4 | 5 => rfl
    | _ + 6 => rfl⟩
  exact absurd drained.1 (by decide)

end SystemProgramming.EpollEcho
