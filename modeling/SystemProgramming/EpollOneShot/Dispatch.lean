import SystemProgramming.EpollOneShot.Moves
import SystemProgramming.Library.Holders
import SystemProgramming.Library.Parties

namespace SystemProgramming.EpollOneShot

open Holders Transition

variable {lfd : Fd}

def MainPc.events : MainPc → List Event
  | .dispatching events | .adding _ events => events
  | .creating fd events => ⟨fd, true⟩ :: events
  | _ => []

def Worker.holds (w : Worker) : Option Fd := if w.pc = .finished then none else some w.event

def State.Busy (s : State) (fd : Fd) : Prop := Held Worker.holds s.workers fd

/-- `main` stores into `fds_new` only when every worker has read its arguments, no `pthread_create`
    fails, and `accept` returns no descriptor that a worker still uses. -/
def Orderly (lfd : Fd) (s : State) : Action → Prop
  | .main .done =>
    match s.main with
    | .dispatching (e :: _) => e.Readable lfd → ∀ w ∈ s.workers, w.pc ≠ .starting
    | _ => True
  | .main (.count cfd) => ∀ w ∈ s.workers, w.pc = .finished ∨ w.sockfd ≠ some cfd
  | .main (.error _) =>
    match s.main with
    | .creating _ _ => False
    | _ => True
  | _ => True

instance (s : State) (action : Action) : Decidable (Orderly lfd s action) := by
  unfold Orderly
  repeat' split
  all_goals infer_instance

/-- A connection socket is armed, or in the batch, or held by one worker; and the workers that have
    read their argument have read the right one. -/
structure Tracked (lfd : Fd) (s : State) : Prop where
  served : s.workers.map (·.event) ++ toServe lfd s.main.events = s.reported
  stored : ∀ fd events, s.main = .creating fd events → s.slot = some fd ∧ fd ≠ lfd
  waiting : ∀ w ∈ s.workers, w.pc = .starting → s.slot = some w.event ∧ s.isOpen w.event = true
  started : ∀ w ∈ s.workers, w.pc ≠ .starting → w.sockfd = some w.event
  alone : Exclusive Worker.holds s.workers
  distinct : (s.main.events.map (·.fd)).Nodup
  inBatch : ∀ e ∈ s.main.events, e.fd ≠ lfd →
    s.isOpen e.fd = true ∧ s.armed e.fd = false ∧ ¬ s.Busy e.fd
  armed : ∀ fd, s.armed fd = true → s.isOpen fd = true ∧ ¬ s.Busy fd
  fresh : ∀ cfd events, s.main = .adding cfd events →
    s.isOpen cfd = true ∧ ¬ s.Busy cfd ∧ cfd ∉ events.map (·.fd)

theorem tracked_initial : Tracked lfd (initial lfd) := by
  refine ⟨rfl, nofun, nofun, nofun, exclusive_nil, List.nodup_nil, nofun, ?_, nofun⟩
  intro fd armed
  cases armed

theorem reportStep_tracked {s t : State} {batch : List Event} (tracked : Tracked lfd s)
    (taken : reportStep lfd s batch = some t) : Tracked lfd t := by
  rcases reportStep_some taken with ⟨at_, distinct, ready, rfl⟩
  have served := tracked.served
  simp only [at_, MainPc.events, toServe, List.filter_nil, List.map_nil, List.append_nil] at served
  constructor
  case served =>
    show s.workers.map (·.event) ++ toServe lfd batch = s.reported ++ toServe lfd batch
    rw [served]
  case stored => nofun
  case waiting => exact tracked.waiting
  case started => exact tracked.started
  case alone => exact tracked.alone
  case distinct => exact distinct
  case inBatch =>
    intro e member connection
    rcases ready e member with listening | armed
    · exact absurd listening connection
    · have idle := tracked.armed e.fd armed
      have listed : e.fd ∈ batch.map (·.fd) := List.mem_map_of_mem member
      refine ⟨idle.1, ?_, idle.2⟩
      simp [listed]
  case armed =>
    intro fd armed
    simp only [Bool.and_eq_true] at armed
    exact tracked.armed fd armed.1
  case fresh => nofun

theorem toServe_cons (e : Event) (events : List Event) (readable : e.Readable lfd) :
    toServe lfd (e :: events) = e.fd :: toServe lfd events := by
  simp [toServe, readable]

theorem toServe_cons_other (e : Event) (events : List Event) (other : ¬ e.Readable lfd) :
    toServe lfd (e :: events) = toServe lfd events := by
  simp [toServe, other]

theorem Tracked.advance {s : State} (tracked : Tracked lfd s) (pc : MainPc)
    (events : pc.events.Sublist s.main.events)
    (serve : toServe lfd pc.events = toServe lfd s.main.events)
    (plain : ∀ fd more, pc ≠ .creating fd more ∧ pc ≠ .adding fd more) :
    Tracked lfd { s with main := pc } := by
  constructor
  case served =>
    show _ ++ toServe lfd pc.events = _
    rw [serve]
    exact tracked.served
  case stored => exact fun fd more at_ => absurd at_ (plain fd more).1
  case waiting => exact tracked.waiting
  case started => exact tracked.started
  case alone => exact tracked.alone
  case distinct => exact tracked.distinct.sublist (events.map _)
  case inBatch => exact fun e member => tracked.inBatch e (events.subset member)
  case armed => exact tracked.armed
  case fresh => exact fun cfd more at_ => absurd at_ (plain cfd more).2

theorem dispatching_plain (events : List Event) (fd : Fd) (more : List Event) :
    MainPc.dispatching events ≠ .creating fd more ∧ MainPc.dispatching events ≠ .adding fd more :=
  ⟨nofun, nofun⟩

theorem Tracked.unused {s : State} {cfd : Fd} (tracked : Tracked lfd s) (free : s.isOpen cfd = false)
    (orderly : ∀ w ∈ s.workers, w.pc = .finished ∨ w.sockfd ≠ some cfd) : ¬ s.Busy cfd := by
  rintro ⟨w, member, held⟩
  unfold Worker.holds at held
  split at held
  · cases held
  · rename_i running
    rw [Option.some.injEq] at held
    by_cases starting : w.pc = .starting
    · have opened := (tracked.waiting w member starting).2
      rw [held, free] at opened
      cases opened
    · have socket := tracked.started w member starting
      rw [held] at socket
      rcases orderly w member with finished | different
      · exact running finished
      · exact different socket

theorem Tracked.accept {s : State} {e : Event} {events : List Event} {cfd : Fd} (tracked : Tracked lfd s)
    (at_ : s.main = .dispatching (e :: events)) (listening : e.fd = lfd) (free : s.isOpen cfd = false)
    (unused : ¬ s.Busy cfd) :
    Tracked lfd { s with main := .adding cfd events, isOpen := Function.update s.isOpen cfd true } := by
  have whole : s.main.events = e :: events := by rw [at_]; rfl
  have served := tracked.served
  have distinct := tracked.distinct
  have inBatch := tracked.inBatch
  rw [whole] at served distinct inBatch
  rw [toServe_cons_other e events (fun readable => readable.1 listening)] at served
  rw [List.map_cons, List.nodup_cons] at distinct
  have other : ∀ fd, s.isOpen fd = true → fd ≠ cfd := by
    rintro fd opened rfl
    rw [free] at opened
    cases opened
  have opened : ∀ fd, s.isOpen fd = true → Function.update s.isOpen cfd true fd = true := by
    intro fd before
    rw [Function.update_of_ne (other fd before)]
    exact before
  constructor
  case served => exact served
  case stored => nofun
  case waiting =>
    intro w member starting
    have before := tracked.waiting w member starting
    exact ⟨before.1, opened _ before.2⟩
  case started => exact tracked.started
  case alone => exact tracked.alone
  case distinct => exact distinct.2
  case inBatch =>
    intro d member connection
    have before := inBatch d (List.mem_cons_of_mem _ member) connection
    exact ⟨opened _ before.1, before.2⟩
  case armed =>
    intro fd armed
    have before := tracked.armed fd armed
    exact ⟨opened _ before.1, before.2⟩
  case fresh =>
    intro fd more same
    cases same
    refine ⟨Function.update_self _ _ _, unused, ?_⟩
    intro member
    rcases List.mem_map.mp member with ⟨d, inRest, same⟩
    by_cases listed : d.fd = lfd
    · rw [← listening] at listed
      exact distinct.1 (listed ▸ List.mem_map_of_mem inRest)
    · exact other _ (inBatch d (List.mem_cons_of_mem _ inRest) listed).1 same

theorem Tracked.store {s : State} {e : Event} {events : List Event} (tracked : Tracked lfd s)
    (at_ : s.main = .dispatching (e :: events)) (readable : e.Readable lfd)
    (settled : ∀ w ∈ s.workers, w.pc ≠ .starting) :
    Tracked lfd { s with main := .creating e.fd events, slot := some e.fd } := by
  have same : (⟨e.fd, true⟩ : Event) = e := by rw [← readable.2]
  have events_eq : (MainPc.creating e.fd events).events = s.main.events := by
    rw [at_, MainPc.events, MainPc.events, same]
  constructor
  case served =>
    show _ ++ toServe lfd (MainPc.creating e.fd events).events = _
    rw [events_eq]
    exact tracked.served
  case stored =>
    intro fd more equal
    cases equal
    exact ⟨rfl, readable.1⟩
  case waiting =>
    intro w member starting
    exact absurd starting (settled w member)
  case started => exact tracked.started
  case alone => exact tracked.alone
  case distinct =>
    show ((MainPc.creating e.fd events).events.map _).Nodup
    rw [events_eq]
    exact tracked.distinct
  case inBatch =>
    intro d member
    rw [events_eq] at member
    exact tracked.inBatch d member
  case armed => exact tracked.armed
  case fresh => nofun

theorem Tracked.add {s : State} {cfd : Fd} {events : List Event} (tracked : Tracked lfd s)
    (at_ : s.main = .adding cfd events) :
    Tracked lfd { s with main := .dispatching events, armed := Function.update s.armed cfd true } := by
  have whole : s.main.events = events := by rw [at_]; rfl
  have fresh := tracked.fresh cfd events at_
  have served := tracked.served
  have distinct := tracked.distinct
  have inBatch := tracked.inBatch
  rw [whole] at served distinct inBatch
  constructor
  case served => exact served
  case stored => nofun
  case waiting => exact tracked.waiting
  case started => exact tracked.started
  case alone => exact tracked.alone
  case distinct => exact distinct
  case inBatch =>
    intro e member connection
    have before := inBatch e member connection
    have other : e.fd ≠ cfd := by
      intro same
      exact fresh.2.2 (same ▸ List.mem_map_of_mem member)
    have disarmed : Function.update s.armed cfd true e.fd = false := by
      rw [Function.update_of_ne other]
      exact before.2.1
    exact ⟨before.1, disarmed, before.2.2⟩
  case armed =>
    apply Parties.forall_update (P := fun fd armed => armed = true → s.isOpen fd = true ∧ ¬ s.Busy fd)
      tracked.armed
    exact fun _ => ⟨fresh.1, fresh.2.1⟩
  case fresh => nofun

theorem Tracked.create {s : State} {fd : Fd} {events : List Event} (tracked : Tracked lfd s)
    (at_ : s.main = .creating fd events) :
    Tracked lfd { s with
      main := .dispatching events, workers := s.workers ++ [⟨fd, none, .starting⟩] } := by
  have whole : s.main.events = ⟨fd, true⟩ :: events := by rw [at_]; rfl
  rcases tracked.stored fd events at_ with ⟨slot, connection⟩
  have served := tracked.served
  have inBatch := tracked.inBatch
  have distinct := tracked.distinct
  rw [whole] at served inBatch distinct
  rw [toServe_cons _ _ ⟨connection, rfl⟩] at served
  rw [List.map_cons, List.nodup_cons] at distinct
  rcases inBatch ⟨fd, true⟩ (by simp) connection with ⟨opened, disarmed, free⟩
  have holds : Worker.holds ⟨fd, none, .starting⟩ = some fd := rfl
  have busy : ∀ other, ¬ s.Busy other → other ≠ fd →
      ¬ Held Worker.holds (s.workers ++ [⟨fd, none, .starting⟩]) other := by
    intro other idle different held
    rcases held_concat.mp held with before | new
    · exact idle before
    · rw [holds, Option.some.injEq] at new
      exact different new.symm
  constructor
  case served =>
    show List.map _ (s.workers ++ [_]) ++ toServe lfd events = s.reported
    rw [List.map_append, List.append_assoc]
    exact served
  case stored => nofun
  case waiting =>
    intro w member starting
    rcases List.mem_append.mp member with old | new
    · exact tracked.waiting w old starting
    · rw [List.mem_singleton] at new
      subst new
      exact ⟨slot, opened⟩
  case started =>
    intro w member running
    rcases List.mem_append.mp member with old | new
    · exact tracked.started w old running
    · rw [List.mem_singleton] at new
      subst new
      exact absurd rfl running
  case alone =>
    apply tracked.alone.concat
    intro other held
    rw [holds, Option.some.injEq] at held
    subst held
    exact free
  case distinct => exact distinct.2
  case inBatch =>
    intro e member listed
    have before := inBatch e (List.mem_cons_of_mem _ member) listed
    have inRest : e.fd ∈ events.map (·.fd) := List.mem_map_of_mem member
    refine ⟨before.1, before.2.1, busy _ before.2.2 ?_⟩
    intro same
    rw [same] at inRest
    exact distinct.1 inRest
  case armed =>
    intro other armed
    have before := tracked.armed other armed
    refine ⟨before.1, busy _ before.2 ?_⟩
    intro same
    rw [same, disarmed] at armed
    cases armed
  case fresh => nofun

theorem MainMove.tracked {s t : State} {outcome : Outcome} (tracked : Tracked lfd s)
    (orderly : Orderly lfd s (.main outcome)) (move : MainMove lfd s outcome t) : Tracked lfd t := by
  cases move with
  | aborted errno at_ =>
    apply tracked.advance .aborted (List.nil_sublist _)
    · rw [at_]
      rfl
    · exact fun _ _ => ⟨nofun, nofun⟩
  | looped at_ =>
    apply tracked.advance .waiting (List.nil_sublist _)
    · rw [at_]
      rfl
    · exact fun _ _ => ⟨nofun, nofun⟩
  | dropped _ e events at_ other =>
    apply tracked.advance _ _ _ (dispatching_plain events)
    · rw [at_]
      exact List.sublist_cons_self e events
    · rw [at_]
      exact (toServe_cons_other e events other).symm
  | notAdded errno cfd events at_ =>
    apply tracked.advance _ _ _ (dispatching_plain events)
    · rw [at_]
      exact .refl _
    · rw [at_]
      rfl
  | notCreated errno fd events at_ => simp only [Orderly, at_] at orderly
  | accepted e events cfd at_ listening free =>
    exact tracked.accept at_ listening free (tracked.unused free orderly)
  | stored e events at_ readable =>
    simp only [Orderly, at_] at orderly
    exact tracked.store at_ readable (orderly readable)
  | added cfd events at_ => exact tracked.add at_
  | created fd events at_ => exact tracked.create at_

theorem map_event_set {workers : List Worker} {index : Nat} {w v : Worker}
    (here : workers[index]? = some w) (same : v.event = w.event) :
    (workers.set index v).map (·.event) = workers.map (·.event) := by
  apply List.ext_getElem?
  intro j
  rw [List.map_set, List.getElem?_set]
  split
  · rename_i equal
    subst equal
    rcases List.getElem?_eq_some_iff.mp here with ⟨inside, at_⟩
    rw [List.length_map, if_pos inside, List.getElem?_map, here, same]
    rfl
  · rfl

theorem Tracked.setWorker {s : State} {index : Nat} {w v : Worker} (tracked : Tracked lfd s)
    (here : s.workers[index]? = some w) (same : v.event = w.event)
    (less : ∀ fd, v.holds = some fd → w.holds = some fd) (running : v.pc ≠ .starting)
    (socket : v.sockfd = some v.event) : Tracked lfd (s.setWorker index v) := by
  have idle : ∀ fd, ¬ s.Busy fd → ¬ (s.setWorker index v).Busy fd :=
    fun fd free held => free (held_of_set here less held)
  constructor
  case served =>
    show (s.workers.set index v).map (·.event) ++ _ = _
    rw [map_event_set here same]
    exact tracked.served
  case stored => exact tracked.stored
  case waiting =>
    intro u member starting
    rcases List.mem_or_eq_of_mem_set member with old | rfl
    · exact tracked.waiting u old starting
    · exact absurd starting running
  case started =>
    intro u member settled
    rcases List.mem_or_eq_of_mem_set member with old | rfl
    · exact tracked.started u old settled
    · exact socket
  case alone => exact tracked.alone.set here less
  case distinct => exact tracked.distinct
  case inBatch =>
    intro e member connection
    have before := tracked.inBatch e member connection
    exact ⟨before.1, before.2.1, idle _ before.2.2⟩
  case armed =>
    intro fd armed
    have before := tracked.armed fd armed
    exact ⟨before.1, idle _ before.2⟩
  case fresh =>
    intro cfd events at_
    have before := tracked.fresh cfd events at_
    exact ⟨before.1, idle _ before.2.1, before.2.2⟩

theorem Tracked.close {s : State} {fd : Fd} (tracked : Tracked lfd s) (busy : s.Busy fd)
    (settled : ∀ w ∈ s.workers, w.pc = .starting → w.event ≠ fd) :
    Tracked lfd { s with
      isOpen := Function.update s.isOpen fd false
      armed := Function.update s.armed fd false } := by
  have kept : ∀ other, other ≠ fd → s.isOpen other = true →
      Function.update s.isOpen fd false other = true := by
    intro other different before
    rw [Function.update_of_ne different]
    exact before
  have different : ∀ other, ¬ s.Busy other → other ≠ fd := by
    intro other idle same
    exact idle (same ▸ busy)
  constructor
  case served => exact tracked.served
  case stored => exact tracked.stored
  case waiting =>
    intro w member starting
    have before := tracked.waiting w member starting
    exact ⟨before.1, kept _ (settled w member starting) before.2⟩
  case started => exact tracked.started
  case alone => exact tracked.alone
  case distinct => exact tracked.distinct
  case inBatch =>
    intro e member connection
    have before := tracked.inBatch e member connection
    have other := different _ before.2.2
    have disarmed : Function.update s.armed fd false e.fd = false := by
      rw [Function.update_of_ne other]
      exact before.2.1
    exact ⟨kept _ other before.1, disarmed, before.2.2⟩
  case armed =>
    apply Parties.forall_update₂ (P := fun fd opened armed => armed = true → opened = true ∧ ¬ s.Busy fd)
      tracked.armed
    intro armed
    cases armed
  case fresh =>
    intro cfd events at_
    have before := tracked.fresh cfd events at_
    exact ⟨kept _ (different _ before.2.1) before.1, before.2⟩

theorem Tracked.rearm {s : State} {fd : Fd} (tracked : Tracked lfd s) (free : ¬ s.Busy fd)
    (notListed : ∀ e ∈ s.main.events, e.fd ≠ lfd → e.fd ≠ fd) :
    Tracked lfd { s with armed := Function.update s.armed fd (s.isOpen fd) } := by
  constructor
  case served => exact tracked.served
  case stored => exact tracked.stored
  case waiting => exact tracked.waiting
  case started => exact tracked.started
  case alone => exact tracked.alone
  case distinct => exact tracked.distinct
  case inBatch =>
    intro e member connection
    have before := tracked.inBatch e member connection
    have disarmed : Function.update s.armed fd (s.isOpen fd) e.fd = false := by
      rw [Function.update_of_ne (notListed e member connection)]
      exact before.2.1
    exact ⟨before.1, disarmed, before.2.2⟩
  case armed =>
    apply Parties.forall_update (P := fun fd armed => armed = true → s.isOpen fd = true ∧ ¬ s.Busy fd)
      tracked.armed
    exact fun armed => ⟨armed, free⟩
  case fresh => exact tracked.fresh

theorem Worker.holds_of_running {w : Worker} (running : w.pc ≠ .finished) : w.holds = some w.event := by
  rw [Worker.holds, if_neg running]

theorem WorkerMove.tracked {s t : State} {index : Nat} {w : Worker} (tracked : Tracked lfd s)
    (here : s.workers[index]? = some w) (move : WorkerMove s index w t) : Tracked lfd t := by
  have member : w ∈ s.workers := List.mem_of_getElem? here
  cases move with
  | started at_ =>
    have slot := (tracked.waiting w member at_).1
    have held : w.holds = some w.event := Worker.holds_of_running (by rw [at_]; decide)
    refine tracked.setWorker here rfl ?_ nofun slot
    intro fd holds
    rw [held]
    exact holds
  | goto pc next =>
    have running : w.pc ≠ .starting ∧ w.pc ≠ .finished ∧ pc ≠ .starting := by
      generalize w.pc = before at next
      cases next with
      | received pc which => rcases which with rfl | rfl | rfl <;> decide
      | _ => decide
    have socket := tracked.started w member running.1
    refine tracked.setWorker here rfl ?_ running.2.2 socket
    intro fd holds
    rw [Worker.holds_of_running running.2.1]
    unfold Worker.holds at holds
    split at holds
    · cases holds
    · exact holds
  | closed sockfd at_ socket =>
    have known := tracked.started w member (by rw [at_]; decide)
    have held : w.holds = some w.event := Worker.holds_of_running (by rw [at_]; decide)
    rw [socket, Option.some.injEq] at known
    subst known
    have next : Tracked lfd (s.setWorker index { w with pc := .receiving }) :=
      tracked.setWorker here rfl (fun fd holds => by rw [held]; exact holds) nofun socket
    apply next.close
    · exact ⟨{ w with pc := .receiving }, List.mem_set (List.getElem?_eq_some_iff.mp here).1 _, rfl⟩
    · intro v inside starting same
      rcases List.mem_or_eq_of_mem_set inside with old | rfl
      · rcases List.getElem?_of_mem old with ⟨j, there⟩
        have holds : v.holds = some w.event := by
          rw [Worker.holds_of_running (by rw [starting]; decide), same]
        have equal := tracked.alone _ _ _ _ _ there here holds held
        rw [equal, here, Option.some.injEq] at there
        rw [there, starting] at at_
        cases at_
      · cases starting
  | rearmed sockfd at_ socket =>
    have known := tracked.started w member (by rw [at_]; decide)
    have held : w.holds = some w.event := Worker.holds_of_running (by rw [at_]; decide)
    rw [socket, Option.some.injEq] at known
    subst known
    have busy : s.Busy w.event := ⟨w, member, held⟩
    have next : Tracked lfd (s.setWorker index { w with pc := .finished }) :=
      tracked.setWorker here rfl nofun nofun socket
    apply next.rearm
    · exact tracked.alone.released here held rfl
    · intro e listed connection same
      have idle := (tracked.inBatch e listed connection).2.2
      rw [same] at idle
      exact idle busy

end SystemProgramming.EpollOneShot
