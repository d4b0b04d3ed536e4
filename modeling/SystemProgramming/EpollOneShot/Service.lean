import SystemProgramming.EpollOneShot.Dispatch

namespace SystemProgramming.EpollOneShot

open Holders Transition

variable {lfd : Fd}

def Worker.RunsOn (w : Worker) (fd : Fd) : Prop :=
  w.pc ≠ .starting ∧ w.pc ≠ .finished ∧ w.sockfd = some fd

instance (w : Worker) (fd : Fd) : Decidable (w.RunsOn fd) := inferInstanceAs (Decidable (_ ∧ _ ∧ _))

structure OneWorkerEach (lfd : Fd) (s : State) : Prop where
  served : s.workers.map (·.event) ++ toServe lfd s.main.events = s.reported
  own : ∀ w ∈ s.workers, w.pc ≠ .starting → w.sockfd = some w.event
  alone : ∀ (i j : Nat) (w v : Worker) (fd : Fd), s.workers[i]? = some w → s.workers[j]? = some v →
    w.RunsOn fd → v.RunsOn fd → i = j

theorem Tracked.holds_of_runsOn {s : State} {w : Worker} {fd : Fd} (tracked : Tracked lfd s)
    (member : w ∈ s.workers) (runs : w.RunsOn fd) : w.holds = some fd := by
  rcases runs with ⟨started, running, socket⟩
  have known := tracked.started w member started
  rw [socket] at known
  rw [Worker.holds_of_running running]
  exact known.symm

theorem step_tracked {s t : State} {action : Action} (tracked : Tracked lfd s)
    (orderly : Orderly lfd s action) (taken : step lfd s action = some t) : Tracked lfd t := by
  cases action with
  | report batch => exact reportStep_tracked tracked taken
  | main outcome => exact (mainStep_moves taken).tracked tracked orderly
  | worker index outcome =>
    rcases workerStep_moves taken with ⟨w, here, move⟩
    exact move.tracked tracked here

/-- In every orderly run each event is served by a worker of its own. -/
theorem one_worker_each {s : State} (run : Reaches (step lfd) (Orderly lfd) (initial lfd) s) :
    OneWorkerEach lfd s := by
  have tracked : Tracked lfd s := run.invariant (I := Tracked lfd) tracked_initial
    (fun _ _ _ tracked orderly taken => step_tracked tracked orderly taken)
  refine ⟨tracked.served, tracked.started, ?_⟩
  intro i j w v fd first second runsFirst runsSecond
  have holdsFirst := tracked.holds_of_runsOn (List.mem_of_getElem? first) runsFirst
  have holdsSecond := tracked.holds_of_runsOn (List.mem_of_getElem? second) runsSecond
  exact tracked.alone i j w v fd first second holdsFirst holdsSecond

def connected : List Action :=
  [.report [⟨3, true⟩], .main (.count 5), .main .done, .main .done, .report [⟨3, true⟩],
    .main (.count 6), .main .done, .main .done]

def inTurn : List Action :=
  connected ++ [.report [⟨5, true⟩, ⟨6, true⟩], .main .done, .main .done, .worker 0 .done, .main .done,
    .main .done, .worker 1 .done, .worker 0 (.count 7), .worker 0 (.error .EAGAIN), .worker 0 .done,
    .main .done, .report [⟨5, true⟩], .main .done, .main .done, .worker 2 .done]

theorem one_worker_each_inTurn :
    ∃ s, exec (step 3) inTurn (initial 3) = some s ∧ s.reported = [5, 6, 5] ∧ OneWorkerEach 3 s := by
  have run : Reaches (step 3) (Orderly 3) (initial 3) _ := ⟨inTurn, by decide, rfl⟩
  exact ⟨_, rfl, rfl, one_worker_each run⟩

def readLate : List Action :=
  connected ++ [.report [⟨5, true⟩, ⟨6, true⟩], .main .done, .main .done, .main .done, .main .done,
    .worker 0 .done, .worker 1 .done]

theorem readLate_same_socket :
    ¬ ∀ s, Reaches (step 3) (fun _ _ => True) (initial 3) s → OneWorkerEach 3 s := by
  intro always
  have each := always _ ⟨readLate, along_true _ _, rfl⟩
  have same := each.alone 0 1 _ _ 6 rfl rfl (by decide) (by decide)
  cases same

end SystemProgramming.EpollOneShot
