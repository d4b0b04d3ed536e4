import SystemProgramming.EpollEcho.Idle

namespace SystemProgramming.EpollEcho

open Transition

variable {sockets : Sockets}

def Asserted (s : State) : Prop := ∀ events, s.pc ≠ .aborted events

def State.recvfromNext (sockets : Sockets) (s : State) : Bool :=
  match s.pc with
  | .dispatching (e :: _) => e.fd = sockets.udpfd
  | _ => false

def State.sendtoNext (s : State) : Bool :=
  match s.pc with
  | .replying _ _ => true
  | _ => false

/-- `recvfrom` fails only where nothing has arrived, which leaves out datagrams with a wrong checksum, and `sendto`
    does not fail, as it would for a reply to port 0. -/
def Healthy (sockets : Sockets) (s : State) : Action → Prop
  | .server (.error _) => (s.recvfromNext sockets = true → s.datagrams = []) ∧ s.sendtoNext = false
  | _ => True

instance (s : State) : (action : Action) → Decidable (Healthy sockets s action)
  | .server (.error _) => inferInstanceAs (Decidable ((_ → _) ∧ _))
  | .server .done | .server (.count _) | .connect | .datagram _ | .data _ _ | .hangup _ | .report _ =>
    isTrue trivial

def TakesBytes (sockets : Sockets) (s : State) : Action → Prop
  | .server (.count _) => s.recvfromNext sockets = true → ∀ d ∈ s.datagrams.head?, d.payload ≠ []
  | _ => True

instance (s : State) : (action : Action) → Decidable (TakesBytes sockets s action)
  | .server (.count _) => inferInstanceAs (Decidable (_ → ∀ d ∈ s.datagrams.head?, _))
  | .server .done | .server (.error _) | .connect | .datagram _ | .data _ _ | .hangup _ | .report _ =>
    isTrue trivial

section Queue

/-- Where an event of the UDP socket is served there is a datagram to take. -/
theorem Reads.queued {s : State} {source : EdgeTriggered} (reads : Reads sockets .udp s source)
    (udp : s.recvfromNext sockets = true) : s.datagrams ≠ [] := by
  intro nothing
  have serving : source.serving = true := by
    rw [reads.serving, decide_eq_true_eq]
    unfold State.recvfromNext at udp
    split at udp
    · rename_i e events at_
      rw [at_]
      exact List.mem_map.mpr ⟨e, List.mem_cons_self, of_decide_eq_true udp⟩
    · cases udp
  have backlog : source.backlog = 0 := by
    rw [reads.backlog, State.backlog, nothing]
    rfl
  have covered := source.covered
  rw [serving, Bool.toNat_true, backlog] at covered
  omega

/-- A call that fails before any connection is looked at is `accept` or `recvfrom`. -/
theorem dispatch_error {s t : State} {e : Event} {events : List Event} {errno : Errno}
    (notListening : e.fd ≠ sockets.lfd) (taken : dispatch sockets s e events (.error errno) = some t) :
    e.fd = sockets.udpfd := by
  unfold dispatch at taken
  rw [if_neg notListening] at taken
  by_contra other
  rw [if_neg other] at taken
  cases taken

end Queue

section Step

theorem asserted_of_pc {s : State} {pc : Pc} (at_ : s.pc = pc) (running : ∀ events, pc ≠ .aborted events) :
    Asserted s := by
  intro events
  rw [at_]
  exact running events

theorem asserted_step {s t : State} {cond : Prop} (before : Asserted s) (after : Asserted t) (holds : cond) :
    Asserted t ↔ Asserted s ∧ cond := iff_of_true after ⟨before, holds⟩

theorem takesBytes_of_elsewhere {s : State} {action : Action}
    (elsewhere : s.recvfromNext sockets = false) : TakesBytes sockets s action := by
  unfold TakesBytes
  split
  · intro here
    rw [elsewhere] at here
    cases here
  · trivial

theorem recvfromNext_of_other {s : State} {pc : Pc} (at_ : s.pc = pc)
    (other : ∀ e events, pc ≠ .dispatching (e :: events)) : s.recvfromNext sockets = false := by
  unfold State.recvfromNext
  rw [at_]
  split
  · rename_i e events
    exact absurd rfl (other e events)
  · rfl

theorem recvfromNext_dispatching {s : State} {e : Event} {events : List Event}
    (at_ : s.pc = .dispatching (e :: events)) :
    s.recvfromNext sockets = decide (e.fd = sockets.udpfd) := by
  unfold State.recvfromNext
  rw [at_]

theorem Asserted.datagram {s t : State} {e : Event} {events : List Event} {d : Datagram}
    {datagrams : List Datagram} (at_ : s.pc = .dispatching (e :: events)) (udp : e.fd = sockets.udpfd)
    (arrived : s.datagrams = d :: datagrams)
    (pc : t.pc = if 0 < min d.payload.length UDP_BUFFER_SIZE then .replying d.sender events
      else .aborted events) (n : Nat) :
    Asserted t ↔ Asserted s ∧ TakesBytes sockets s (.server (.count n)) := by
  have before : Asserted s := asserted_of_pc at_ (fun _ => Pc.noConfusion)
  have bytes : TakesBytes sockets s (.server (.count n)) ↔ d.payload ≠ [] := by
    unfold TakesBytes
    dsimp only
    rw [recvfromNext_dispatching at_, arrived]
    simp [udp]
  rw [bytes, and_iff_right before]
  constructor
  · intro after empty
    apply after events
    rw [pc, empty]
    rfl
  · intro some_bytes
    have positive : 0 < min d.payload.length UDP_BUFFER_SIZE := by
      have := List.length_pos_iff.mpr some_bytes
      unfold UDP_BUFFER_SIZE
      omega
    rw [if_pos positive] at pc
    exact asserted_of_pc pc (fun _ => Pc.noConfusion)

theorem ServerMove.asserted {s t : State} {outcome : Outcome} {source : EdgeTriggered}
    (reads : Reads sockets .udp s source) (healthy : Healthy sockets s (.server outcome))
    (taken : serverStep sockets s outcome = some t) (move : ServerMove sockets s outcome t) :
    Asserted t ↔ Asserted s ∧ TakesBytes sockets s (.server outcome) := by
  cases move with
  | stopped errno at_ | looped at_ | added cfd events c at_ | notAdded errno cfd events at_
  | replied sender events at_ | received fd events n c at_ | ended fd events c at_
  | again errno fd events at_ | failed errno fd events at_ | sent fd events n c at_
  | notSent errno fd events at_ =>
    exact asserted_step (asserted_of_pc at_ (fun _ => Pc.noConfusion)) (fun _ => Pc.noConfusion)
      (takesBytes_of_elsewhere (recvfromNext_of_other at_ (by simp)))
  | closed fd again events c at_ present | notClosed errno fd again events at_ =>
    refine asserted_step (asserted_of_pc at_ (fun _ => Pc.noConfusion)) (asserted_of_pc rfl ?_)
      (takesBytes_of_elsewhere (recvfromNext_of_other at_ (by simp)))
    cases again <;> exact fun _ => Pc.noConfusion
  | accepted e events cfd at_ listening =>
    refine asserted_step (asserted_of_pc at_ (fun _ => Pc.noConfusion)) (fun _ => Pc.noConfusion)
      (takesBytes_of_elsewhere ?_)
    rw [recvfromNext_dispatching at_, listening, decide_eq_false_iff_not]
    exact sockets.distinct
  | notAccepted errno e events at_ listening =>
    exact asserted_step (asserted_of_pc at_ (fun _ => Pc.noConfusion)) (fun _ => Pc.noConfusion) trivial
  | passed e events at_ notListening notUdp =>
    refine asserted_step (asserted_of_pc at_ (fun _ => Pc.noConfusion)) (asserted_of_pc rfl ?_) trivial
    split <;> exact fun _ => Pc.noConfusion
  | datagram e events d datagrams n at_ notListening udp arrived length =>
    subst length
    exact Asserted.datagram at_ udp arrived rfl _
  | noDatagram errno e events at_ notListening =>
    -- The report of an edge is covered by a datagram, and `recvfrom` finds it.
    have udp : e.fd = sockets.udpfd := by
      unfold serverStep at taken
      rw [at_] at taken
      exact dispatch_error notListening taken
    have here : s.recvfromNext sockets = true := by
      rw [recvfromNext_dispatching at_, decide_eq_true_eq]
      exact udp
    exact absurd (healthy.1 here) (reads.queued here)
  | notReplied errno sender events at_ =>
    have fine := healthy.2
    unfold State.sendtoNext at fine
    rw [at_] at fine
    cases fine

theorem step_asserted {s t : State} {action : Action} (watched : ∃ source, Reads sockets .udp s source)
    (healthy : Healthy sockets s action) (taken : step sockets s action = some t) :
    Asserted t ↔ Asserted s ∧ TakesBytes sockets s action := by
  cases action with
  | connect | datagram d =>
    cases taken
    exact (and_iff_left trivial).symm
  | data fd bytes | hangup fd =>
    obtain ⟨c, -, rfl⟩ := Option.map_eq_some_iff.mp taken
    exact (and_iff_left trivial).symm
  | report batch =>
    obtain ⟨at_, pc⟩ : s.pc = .waiting ∧ t.pc = .dispatching batch := by
      unfold step reportStep at taken
      dsimp only at taken
      split at taken
      · rename_i at_
        split at taken
        · cases taken
          exact ⟨at_, rfl⟩
        · cases taken
      · cases taken
    exact asserted_step (asserted_of_pc at_ (fun _ => Pc.noConfusion))
      (asserted_of_pc pc (fun _ => Pc.noConfusion)) trivial
  | server outcome =>
    obtain ⟨source, reads⟩ := watched
    exact (serverStep_moves taken).asserted reads healthy taken

end Step

/-- On healthy sockets no `assert` of the event loop fails if and only if no datagram that is taken is
    empty. -/
theorem asserted_iff {connections : Nat} {datagrams : List Datagram} {actions : List Action} {s : State}
    (healthy : Along (step sockets) (Healthy sockets) actions (initial sockets connections datagrams))
    (run : exec (step sockets) actions (initial sockets connections datagrams) = some s) :
    Asserted s ↔
      Along (step sockets) (TakesBytes sockets) actions (initial sockets connections datagrams) := by
  have kept : ∀ s a t, (∃ source, Reads sockets .udp s source) → Healthy sockets s a →
      step sockets s a = some t → ∃ source, Reads sockets .udp t source := by
    intro s a t watched _ taken
    obtain ⟨source, reads⟩ := watched
    obtain ⟨-, source', -, next, -⟩ := step_matches reads taken
    exact ⟨source', next⟩
  have start : Asserted (initial sockets connections datagrams) := fun _ => Pc.noConfusion
  have tracked := along_iff_of_along kept (fun s a t => step_asserted)
    ⟨_, reads_initial .udp connections datagrams⟩ healthy run
  rwa [and_iff_right start] at tracked

def echo : List Action :=
  [.datagram ⟨80, [1, 2, 3]⟩, .report [⟨4, true⟩], .server (.count 3), .server .done, .server .done]

theorem echo_asserted :
    ∃ s, exec (step threeFour) echo (initial threeFour 0 []) = some s ∧ Asserted s := by
  have healthy : Along (step threeFour) (Healthy threeFour) echo (initial threeFour 0 []) := by decide
  exact ⟨_, rfl, (asserted_iff healthy rfl).mpr (by decide)⟩

theorem empty_datagram_aborts :
    ¬ ∀ actions s, Along (step threeFour) (Healthy threeFour) actions (initial threeFour 0 []) →
      exec (step threeFour) actions (initial threeFour 0 []) = some s → Asserted s := by
  intro always
  have asserted := always [.datagram ⟨80, []⟩, .report [⟨4, true⟩], .server (.count 0)] _ (by decide) rfl
  exact asserted [] rfl

end SystemProgramming.EpollEcho
