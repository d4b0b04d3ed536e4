import SystemProgramming.EpollEcho.Moves
import SystemProgramming.Library.EdgeTriggered

namespace SystemProgramming.EpollEcho

open Transition

variable {sockets : Sockets}

inductive Watched where
  | listening
  | udp
  deriving DecidableEq

def Watched.fd (sockets : Sockets) : Watched → Fd
  | .listening => sockets.lfd
  | .udp => sockets.udpfd

def State.backlog (s : State) : Watched → Nat
  | .listening => s.connections
  | .udp => s.datagrams.length

def Pc.events : Pc → List Event
  | .dispatching events | .adding _ events | .replying _ events | .receiving _ events
  | .sending _ events | .closing _ _ events | .aborted events => events
  | .waiting | .exited => []

def State.acceptNext (sockets : Sockets) (s : State) : Bool :=
  match s.pc with
  | .dispatching (e :: _) => e.fd = sockets.lfd
  | _ => false

/-- What arrives on this descriptor arrives when it has no unreported edge, and `accept` takes what
    it was called for. -/
def Separate (sockets : Sockets) (w : Watched) (s : State) : Action → Prop
  | .connect => w = .listening → s.ready sockets.lfd = false
  | .datagram _ => w = .udp → s.ready sockets.udpfd = false
  | .server (.error _) => w = .listening → s.acceptNext sockets = false
  | _ => True

instance (w : Watched) (s : State) : (action : Action) → Decidable (Separate sockets w s action)
  | .connect | .datagram _ | .server (.error _) => inferInstanceAs (Decidable (w = _ → _ = _))
  | .server .done | .server (.count _) | .data _ _ | .hangup _ | .report _ => isTrue trivial

structure Reads (sockets : Sockets) (w : Watched) (s : State) (source : EdgeTriggered) : Prop where
  backlog : source.backlog = s.backlog w
  edge : source.edge = s.ready (w.fd sockets)
  serving : source.serving = decide (w.fd sockets ∈ s.pc.events.map (·.fd))
  distinct : (s.pc.events.map (·.fd)).Nodup
  notConn : s.conns (w.fd sockets) = none

def Unnoticed (sockets : Sockets) (w : Watched) (s t : State) : Prop :=
  t.backlog w = s.backlog w ∧ t.ready (w.fd sockets) = s.ready (w.fd sockets) ∧
    t.pc.events.map (·.fd) = s.pc.events.map (·.fd) ∧
    (s.conns (w.fd sockets) = none → t.conns (w.fd sockets) = none)

theorem Reads.unnoticed {w : Watched} {s t : State} {source : EdgeTriggered}
    (reads : Reads sockets w s source) (same : Unnoticed sockets w s t) : Reads sockets w t source := by
  rcases same with ⟨backlog, ready, events, conns⟩
  exact ⟨reads.backlog.trans backlog.symm, reads.edge.trans ready.symm, by rw [events]; exact reads.serving,
    by rw [events]; exact reads.distinct, conns reads.notConn⟩

def Matches (sockets : Sockets) (w : Watched) (t : State) (source : EdgeTriggered) (cond : Prop) : Prop :=
  ∃ actions source', exec EdgeTriggered.step actions source = some source' ∧
    Reads sockets w t source' ∧ (Along EdgeTriggered.step EdgeTriggered.Separate actions source ↔ cond)

theorem Reads.skip {w : Watched} {s t : State} {source : EdgeTriggered} {cond : Prop}
    (reads : Reads sockets w s source) (same : Unnoticed sockets w s t) (holds : cond) :
    Matches sockets w t source cond :=
  ⟨[], source, rfl, reads.unnoticed same, iff_of_true trivial holds⟩

theorem Matches.single {w : Watched} {t : State} {source source' : EdgeTriggered} {cond : Prop}
    (action : EdgeTriggered.Action) (taken : EdgeTriggered.step source action = some source')
    (reads : Reads sockets w t source') (same : source.Separate action ↔ cond) :
    Matches sockets w t source cond := by
  refine ⟨[action], source', by simp [taken], reads, ?_⟩
  rw [← same]
  exact and_iff_left (fun _ _ => trivial)

theorem fd_injective (sockets : Sockets) {v w : Watched} (same : v.fd sockets = w.fd sockets) : v = w := by
  have distinct := sockets.distinct
  cases v <;> cases w <;> simp_all [Watched.fd, eq_comm]

theorem Reads.arrival {v w : Watched} {s t : State} {source : EdgeTriggered}
    (reads : Reads sockets w s source)
    (backlog : ∀ u, t.backlog u = if u = v then s.backlog u + 1 else s.backlog u)
    (ready : t.ready = Function.update s.ready (v.fd sockets) true) (pc : t.pc = s.pc)
    (conns : t.conns = s.conns) :
    Matches sockets w t source (w = v → s.ready (v.fd sockets) = false) := by
  by_cases same : w = v
  · subst same
    apply Matches.single .arrive rfl
    · refine ⟨?_, ?_, ?_, ?_, ?_⟩
      · rw [backlog, if_pos rfl, ← reads.backlog]
        rfl
      · rw [ready, Function.update_self]
        rfl
      · rw [pc]
        exact reads.serving
      · rw [pc]
        exact reads.distinct
      · rw [conns]
        exact reads.notConn
    · rw [EdgeTriggered.Separate, reads.edge]
      simp
  · apply reads.skip
    · refine ⟨?_, ?_, by rw [pc], ?_⟩
      · rw [backlog, if_neg same]
      · rw [ready, Function.update_of_ne (fun equal => same (fd_injective sockets equal))]
      · rw [conns]
        exact id
    · intro equal
      exact absurd equal same

theorem reportStep_matches {w : Watched} {s t : State} {source : EdgeTriggered} {batch : List Event}
    (reads : Reads sockets w s source) (taken : reportStep s batch = some t) :
    Matches sockets w t source True := by
  unfold reportStep at taken
  split at taken
  · rename_i at_
    split at taken
    · rename_i valid
      rcases valid with ⟨-, -, distinct, allReady⟩
      cases taken
      have idle : source.serving = false := by
        rw [reads.serving, at_]
        rfl
      by_cases reported : w.fd sockets ∈ batch.map (·.fd)
      · have edge : source.edge = true := by
          rw [reads.edge]
          rcases List.mem_map.mp reported with ⟨e, member, same⟩
          rw [← same]
          exact allReady e member
        apply Matches.single .report (dif_pos ⟨edge, idle⟩)
        · refine ⟨reads.backlog, ?_, ?_, distinct, reads.notConn⟩
          · simp [EdgeTriggered.report, reported]
          · simp [EdgeTriggered.report, Pc.events, reported]
        · rfl
      · refine ⟨[], source, rfl, ⟨reads.backlog, ?_, ?_, distinct, reads.notConn⟩, Iff.rfl⟩
        · rw [reads.edge]
          simp [reported]
        · rw [idle]
          simp [Pc.events, reported]
    · cases taken
  · cases taken

theorem Reads.ne_conn {w : Watched} {s : State} {source : EdgeTriggered} (reads : Reads sockets w s source)
    {fd : Fd} {c : Conn} (there : s.conns fd = some c) : w.fd sockets ≠ fd := by
  rintro rfl
  rw [reads.notConn] at there
  cases there

theorem Reads.passOver {w : Watched} {s t : State} {source : EdgeTriggered} {e : Event}
    {events : List Event} (reads : Reads sockets w s source) (head : s.pc.events = e :: events)
    (other : e.fd ≠ w.fd sockets) (backlog : t.backlog w = s.backlog w)
    (ready : t.ready (w.fd sockets) = s.ready (w.fd sockets)) (rest : t.pc.events = events)
    (conns : t.conns (w.fd sockets) = none) : Reads sockets w t source := by
  have serving := reads.serving
  have distinct := reads.distinct
  rw [head, List.map_cons] at serving distinct
  refine ⟨reads.backlog.trans backlog.symm, reads.edge.trans ready.symm, ?_, ?_, conns⟩
  · rw [serving, rest]
    simp [other.symm]
  · rw [rest]
    exact distinct.of_cons

theorem Reads.handled {w : Watched} {s : State} {source : EdgeTriggered} {e : Event}
    {events : List Event} (reads : Reads sockets w s source) (head : s.pc.events = e :: events)
    (same : e.fd = w.fd sockets) :
    source.serving = true ∧ (events.map (·.fd)).Nodup ∧ w.fd sockets ∉ events.map (·.fd) := by
  have serving := reads.serving
  have distinct := reads.distinct
  rw [head, List.map_cons] at serving distinct
  rw [List.nodup_cons, same] at distinct
  rw [serving, same]
  exact ⟨by simp, distinct.2, distinct.1⟩

theorem Reads.served {w : Watched} {s t : State} {source : EdgeTriggered} {e : Event} {cond : Prop}
    {events : List Event} (reads : Reads sockets w s source) (head : s.pc.events = e :: events)
    (same : e.fd = w.fd sockets) (backlog : t.backlog w = s.backlog w - 1)
    (ready : t.ready (w.fd sockets) = s.ready (w.fd sockets)) (rest : t.pc.events = events)
    (conns : t.conns (w.fd sockets) = none) (holds : cond) : Matches sockets w t source cond := by
  rcases reads.handled head same with ⟨busy, distinct, absent⟩
  apply Matches.single .serve (dif_pos busy)
  · refine ⟨?_, ?_, ?_, by rw [rest]; exact distinct, conns⟩
    · rw [backlog, ← reads.backlog]
      rfl
    · rw [ready, ← reads.edge]
      rfl
    · rw [rest]
      exact (decide_eq_false absent).symm
  · exact iff_of_true trivial holds

theorem Reads.failed {w : Watched} {s t : State} {source : EdgeTriggered} {e : Event} {cond : Prop}
    {events : List Event} (reads : Reads sockets w s source) (head : s.pc.events = e :: events)
    (same : e.fd = w.fd sockets) (backlog : t.backlog w = s.backlog w)
    (ready : t.ready (w.fd sockets) = s.ready (w.fd sockets)) (rest : t.pc.events = events)
    (conns : t.conns (w.fd sockets) = none) (fails : ¬ cond) : Matches sockets w t source cond := by
  rcases reads.handled head same with ⟨busy, distinct, absent⟩
  apply Matches.single .fail (if_pos busy)
  · refine ⟨?_, ?_, ?_, by rw [rest]; exact distinct, conns⟩
    · rw [backlog, ← reads.backlog]
      rfl
    · rw [ready, ← reads.edge]
      rfl
    · rw [rest]
      exact (decide_eq_false absent).symm
  · exact iff_of_false id fails

theorem Reads.over {w : Watched} {s t : State} {source : EdgeTriggered} {e : Event} {cond : Prop}
    {events : List Event} (reads : Reads sockets w s source) (head : s.pc.events = e :: events)
    (other : e.fd ≠ w.fd sockets) (backlog : t.backlog w = s.backlog w)
    (ready : t.ready (w.fd sockets) = s.ready (w.fd sockets)) (rest : t.pc.events = events)
    (conns : t.conns (w.fd sockets) = none) (holds : cond) : Matches sockets w t source cond :=
  ⟨[], source, rfl, reads.passOver head other backlog ready rest conns, iff_of_true trivial holds⟩

theorem separate_of_other {w : Watched} {s : State} {outcome : Outcome}
    (other : ∀ e events, s.pc ≠ .dispatching (e :: events)) :
    Separate sockets w s (.server outcome) := by
  cases outcome with
  | error errno =>
    show w = .listening → s.acceptNext sockets = false
    intro _
    unfold State.acceptNext
    split
    · rename_i e events at_
      exact absurd at_ (other e events)
    · rfl
  | _ => trivial

theorem ServerMove.matches {w : Watched} {s t : State} {source : EdgeTriggered} {outcome : Outcome}
    (reads : Reads sockets w s source) (move : ServerMove sockets s outcome t) :
    Matches sockets w t source (Separate sockets w s (.server outcome)) := by
  cases move with
  | accepted e events cfd at_ listening absent notListening notUdp =>
    have head : s.pc.events = e :: events := by rw [at_]; rfl
    have conns : Function.update s.conns cfd (some ⟨false, [], false, []⟩) (w.fd sockets) = none := by
      rw [Function.update_of_ne]
      · exact reads.notConn
      · cases w with
        | listening => exact notListening.symm
        | udp => exact notUdp.symm
    cases w with
    | listening => exact reads.served head listening rfl rfl rfl conns trivial
    | udp => exact reads.over head (listening ▸ sockets.distinct) rfl rfl rfl conns trivial
  | notAccepted errno e events at_ listening =>
    have head : s.pc.events = e :: events := by rw [at_]; rfl
    cases w with
    | listening =>
      refine reads.failed head listening rfl rfl rfl reads.notConn ?_
      intro separate
      have other := separate rfl
      simp only [State.acceptNext, at_, listening] at other
      exact absurd other (by simp)
    | udp =>
      refine reads.over head (listening ▸ sockets.distinct) rfl rfl rfl reads.notConn ?_
      exact fun same => nomatch same
  | datagram e events d datagrams n at_ notListening udp arrived length =>
    have head : s.pc.events = e :: events := by rw [at_]; rfl
    have rest : (if 0 < n then Pc.replying d.sender events else .aborted events).events = events := by
      split <;> rfl
    cases w with
    | listening => exact reads.over head notListening rfl rfl rest reads.notConn trivial
    | udp =>
      refine reads.served head udp ?_ rfl rest reads.notConn trivial
      simp [State.backlog, arrived]
  | noDatagram errno e events at_ notListening =>
    apply reads.skip
    · exact ⟨rfl, rfl, by rw [at_]; rfl, id⟩
    · show w = .listening → s.acceptNext sockets = false
      intro _
      simp only [State.acceptNext, at_]
      exact decide_eq_false notListening
  | passed e events at_ notListening notUdp =>
    have head : s.pc.events = e :: events := by rw [at_]; rfl
    have rest : (if e.epollin then Pc.receiving e.fd events else .dispatching events).events = events := by
      split <;> rfl
    have other : e.fd ≠ w.fd sockets := by
      cases w with
      | listening => exact notListening
      | udp => exact notUdp
    exact reads.over head other rfl rfl rest reads.notConn trivial
  | added cfd events c at_ present =>
    have other := reads.ne_conn present
    apply reads.skip _ (separate_of_other (by rw [at_]; nofun))
    refine ⟨rfl, Function.update_of_ne other _ _, by rw [at_]; rfl, fun free => ?_⟩
    exact (Function.update_of_ne other _ _).trans free
  | received fd events n c at_ present some_bytes fits available =>
    apply reads.skip _ (separate_of_other (by rw [at_]; nofun))
    refine ⟨rfl, rfl, by rw [at_]; rfl, fun free => ?_⟩
    exact (Function.update_of_ne (reads.ne_conn present) _ _).trans free
  | sent fd events n c at_ present =>
    apply reads.skip _ (separate_of_other (by rw [at_]; nofun))
    refine ⟨rfl, rfl, by rw [at_]; rfl, fun free => ?_⟩
    exact (Function.update_of_ne (reads.ne_conn present) _ _).trans free
  | closed fd again events c at_ present =>
    have other := reads.ne_conn present
    apply reads.skip _ (separate_of_other (by rw [at_]; nofun))
    refine ⟨rfl, Function.update_of_ne other _ _, ?_, fun free => ?_⟩
    · rw [at_]
      cases again <;> rfl
    · exact (Function.update_of_ne other _ _).trans free
  | notClosed errno fd again events at_ =>
    apply reads.skip _ (separate_of_other (by rw [at_]; nofun))
    refine ⟨rfl, rfl, ?_, id⟩
    rw [at_]
    cases again <;> rfl
  | stopped errno at_ | looped at_ | notAdded errno cfd events at_ | replied sender events at_
  | notReplied errno sender events at_ | ended fd events c at_ present | again errno fd events at_
  | failed errno fd events at_ | notSent errno fd events at_ =>
    apply reads.skip _ (separate_of_other (by rw [at_]; nofun))
    exact ⟨rfl, rfl, by rw [at_]; rfl, id⟩

theorem arriveAt_unnoticed {w : Watched} {s t : State} {source : EdgeTriggered} {fd : Fd} {f : Conn → Conn}
    (reads : Reads sockets w s source) (taken : arriveAt s fd f = some t) : Unnoticed sockets w s t := by
  rcases Option.map_eq_some_iff.mp taken with ⟨c, there, rfl⟩
  have other := reads.ne_conn there
  exact ⟨rfl, Function.update_of_ne other _ _, rfl, fun free => (Function.update_of_ne other _ _).trans free⟩

theorem step_matches {w : Watched} {s t : State} {source : EdgeTriggered} {action : Action}
    (reads : Reads sockets w s source) (taken : step sockets s action = some t) :
    Matches sockets w t source (Separate sockets w s action) := by
  cases action with
  | connect =>
    cases taken
    refine reads.arrival (v := .listening) ?_ rfl rfl rfl
    intro u
    cases u <;> rfl
  | datagram d =>
    cases taken
    refine reads.arrival (v := .udp) ?_ rfl rfl rfl
    intro u
    cases u with
    | listening => rfl
    | udp => exact List.length_append
  | data fd bytes => exact reads.skip (arriveAt_unnoticed reads taken) trivial
  | hangup fd => exact reads.skip (arriveAt_unnoticed reads taken) trivial
  | report batch => exact reportStep_matches reads taken
  | server outcome => exact (serverStep_moves taken).matches reads

end SystemProgramming.EpollEcho
