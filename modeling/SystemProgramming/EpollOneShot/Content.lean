import SystemProgramming.EpollOneShot.Moves
import SystemProgramming.Library.Buffer

namespace SystemProgramming.EpollOneShot

open Buffer Transition

variable {lfd : Fd}

structure Talk where
  state : State
  buf : Nat → List Byte
  printed : Nat → List (List Byte)

namespace Talk

inductive Action where
  | recv (index : Nat) (chunk : List Byte)
  | other (action : EpollOneShot.Action)

def zeros (n : Nat) : List Byte := List.replicate n 0

def stored (o : Talk) (t : State) (index : Nat) (chunk : List Byte) : Talk :=
  let buf := overwrite chunk (o.buf index)
  { state := t
    buf := Function.update o.buf index buf
    printed := Function.update o.printed index (o.printed index ++ [formatString (-1) buf]) }

/-- The one `memset` is in the statement that also reads the argument of the worker. -/
def cleared (o : Talk) (t : State) : EpollOneShot.Action → Talk
  | .worker index _ =>
    if (o.state.workers[index]?).map (·.pc) = some .starting then
      { o with state := t, buf := Function.update o.buf index (zeros BUFFER_SIZE) }
    else { o with state := t }
  | .report _ | .main _ => { o with state := t }

def step (lfd : Fd) (o : Talk) : Action → Option Talk
  | .recv index chunk =>
    (EpollOneShot.step lfd o.state (.worker index (.count chunk.length))).map fun t =>
      if chunk = [] then { o with state := t } else o.stored t index chunk
  | .other action =>
    match action with
    | .worker _ (.count _) => none
    | _ => (EpollOneShot.step lfd o.state action).map fun t => o.cleared t action

def initial (lfd : Fd) : Talk where
  state := EpollOneShot.initial lfd
  buf := fun _ => []
  printed := fun _ => []

def received (index : Nat) (_ : Talk) : Action → List (List Byte)
  | .recv i chunk => if i = index ∧ chunk ≠ [] then [chunk] else []
  | .other _ => []

def Plain (_ : Talk) : Action → Prop
  | .recv _ chunk => 0 ∉ chunk
  | .other _ => True

instance (o : Talk) : (action : Action) → Decidable (Plain o action)
  | .recv _ chunk => inferInstanceAs (Decidable (0 ∉ chunk))
  | .other _ => isTrue trivial

end Talk

section Started

def State.Started (s : State) (index : Nat) : Prop :=
  ∃ w, s.workers[index]? = some w ∧ w.pc ≠ .starting

theorem started_iff_of_workers {s t : State} (same : t.workers = s.workers) (index : Nat) :
    t.Started index ↔ s.Started index := by
  unfold State.Started
  rw [same]

theorem started_concat {s : State} {main : MainPc} {fd : Fd} (index : Nat) :
    State.Started { s with main, workers := s.workers ++ [⟨fd, none, .starting⟩] } index ↔
      s.Started index := by
  constructor
  · intro started
    obtain ⟨w, here, running⟩ := started
    by_cases inside : index < s.workers.length
    · exact ⟨w, (List.getElem?_append_left inside).symm.trans here, running⟩
    · rw [List.getElem?_append_right (by omega)] at here
      have last := List.mem_of_getElem? here
      rw [List.mem_singleton] at last
      exact absurd (congrArg Worker.pc last) running
  · intro started
    obtain ⟨w, here, running⟩ := started
    have inside : index < s.workers.length := (List.getElem?_eq_some_iff.mp here).1
    exact ⟨w, (List.getElem?_append_left inside).trans here, running⟩

theorem MainMove.started {s t : State} {outcome : Outcome} (move : MainMove lfd s outcome t) (index : Nat) :
    t.Started index ↔ s.Started index := by
  cases move with
  | created fd events at_ => exact started_concat index
  | _ => exact started_iff_of_workers rfl index

theorem WorkerMove.workers {s t : State} {index : Nat} {w : Worker} (move : WorkerMove s index w t) :
    ∃ v, t.workers = s.workers.set index v ∧ v.pc ≠ .starting := by
  cases move with
  | started at_ | closed sockfd at_ socket | rearmed sockfd at_ socket =>
    exact ⟨_, rfl, WorkerPc.noConfusion⟩
  | goto pc next =>
    refine ⟨{ w with pc }, rfl, ?_⟩
    show pc ≠ .starting
    generalize w.pc = old at next
    cases next with
    | received pc next => rcases next with rfl | rfl | rfl <;> exact WorkerPc.noConfusion
    | notClosed | notReset => exact WorkerPc.noConfusion

theorem WorkerMove.started_self {s t : State} {index : Nat} {w : Worker} (here : s.workers[index]? = some w)
    (move : WorkerMove s index w t) : t.Started index := by
  obtain ⟨v, workers, running⟩ := move.workers
  have inside : index < s.workers.length := (List.getElem?_eq_some_iff.mp here).1
  refine ⟨v, ?_, running⟩
  rw [workers, List.getElem?_set_self inside]

theorem WorkerMove.started_other {s t : State} {index other : Nat} {w : Worker}
    (move : WorkerMove s index w t) (apart : index ≠ other) : t.Started other ↔ s.Started other := by
  obtain ⟨v, workers, -⟩ := move.workers
  unfold State.Started
  rw [workers, List.getElem?_set_ne apart]

theorem not_started_of_starting {s : State} {index : Nat} {w : Worker} (here : s.workers[index]? = some w)
    (at_ : w.pc = .starting) : ¬ s.Started index := by
  intro started
  obtain ⟨v, there, running⟩ := started
  rw [here] at there
  cases there
  exact running at_

theorem workerStep_count {s t : State} {index n : Nat} (taken : workerStep s index (.count n) = some t) :
    n ≤ BUFFER_SIZE - 1 ∧ s.Started index ∧ t.Started index ∧
      ∀ other, index ≠ other → (t.Started other ↔ s.Started other) := by
  obtain ⟨w, here, move⟩ := workerStep_moves taken
  obtain ⟨v, there, moved⟩ := Option.bind_eq_some_iff.mp taken
  rw [here] at there
  cases there
  dsimp only at moved
  have receiving : w.pc = .receiving ∧ n ≤ BUFFER_SIZE - 1 := by
    split at moved
    case h_2 sockfd at_ socket =>
      split at moved
      · rename_i valid
        exact ⟨at_, valid.2⟩
      · cases moved
    all_goals cases moved
  refine ⟨receiving.2, ⟨w, here, ?_⟩, move.started_self here, fun other => move.started_other⟩
  rw [receiving.1]
  exact WorkerPc.noConfusion

end Started

namespace Talk

section Padded

def padded (text : List Byte) : List Byte := text ++ zeros (BUFFER_SIZE - text.length)

theorem formatString_padded {text : List Byte} (plain : 0 ∉ text) (short : text.length < BUFFER_SIZE) :
    formatString (-1) (padded text) = text := by
  have behind : zeros (BUFFER_SIZE - text.length) = 0 :: zeros (BUFFER_SIZE - text.length - 1) := by
    rw [zeros, zeros, ← List.replicate_succ]
    congr 1
    omega
  rw [padded, behind]
  exact formatString_terminated plain _

theorem overwrite_padded (chunk text : List Byte) :
    overwrite chunk (padded text) = padded (overwrite chunk text) := by
  rw [padded, padded, overwrite_append, zeros, zeros, List.drop_replicate, length_overwrite]
  congr 2
  omega

end Padded

structure Holds (chunks : List (List Byte)) (index : Nat) (text : List Byte) (o : Talk) : Prop where
  reused : Reused chunks (o.printed index) text
  plain : 0 ∉ text
  short : text.length < BUFFER_SIZE
  buf : o.state.Started index → o.buf index = padded text
  blank : ¬ o.state.Started index → text = []

theorem holds_initial (lfd : Fd) (index : Nat) : Holds [] index [] (initial lfd) where
  reused := reused_nil
  plain := List.not_mem_nil
  short := by decide
  buf := by
    intro started
    obtain ⟨w, here, -⟩ := started
    cases here
  blank := fun _ => rfl

theorem Holds.unchanged {chunks : List (List Byte)} {index : Nat} {text : List Byte} {o p : Talk}
    (holds : Holds chunks index text o) (started : p.state.Started index ↔ o.state.Started index)
    (buf : p.buf index = o.buf index) (printed : p.printed index = o.printed index) :
    Holds chunks index text p where
  reused := printed ▸ holds.reused
  plain := holds.plain
  short := holds.short
  buf := fun running => buf.trans (holds.buf (started.mp running))
  blank := fun idle => holds.blank (fun running => idle (started.mpr running))

theorem Holds.stored {chunks : List (List Byte)} {index : Nat} {text chunk : List Byte} {o : Talk} {t : State}
    (holds : Holds chunks index text o) (plain : 0 ∉ chunk) (short : chunk.length ≤ BUFFER_SIZE - 1)
    (started : o.state.Started index) (running : t.Started index) :
    Holds (chunks ++ [chunk]) index (overwrite chunk text) (o.stored t index chunk) := by
  have unbroken : 0 ∉ overwrite chunk text := by
    intro member
    rcases List.mem_append.mp member with new | old
    · exact plain new
    · exact holds.plain (List.mem_of_mem_drop old)
  have fits : (overwrite chunk text).length < BUFFER_SIZE := by
    rw [length_overwrite]
    have before := holds.short
    unfold BUFFER_SIZE at *
    omega
  have buf : overwrite chunk (o.buf index) = padded (overwrite chunk text) := by
    rw [holds.buf started, overwrite_padded]
  have line : formatString (-1) (overwrite chunk (o.buf index)) = overwrite chunk text := by
    rw [buf, formatString_padded unbroken fits]
  refine ⟨?_, unbroken, fits, fun _ => ?_, fun idle => absurd running idle⟩
  · show Reused _ (Function.update o.printed index _ index) _
    rw [Function.update_self, line]
    exact holds.reused.concat chunk
  · show Function.update o.buf index _ index = _
    rw [Function.update_self, buf]

theorem cleared_worker (o : Talk) (t : State) (index : Nat) (outcome : Outcome) :
    o.cleared t (.worker index outcome) =
      if (o.state.workers[index]?).map (·.pc) = some .starting then
        { o with state := t, buf := Function.update o.buf index (zeros BUFFER_SIZE) }
      else { o with state := t } := rfl

theorem Holds.started {chunks : List (List Byte)} {index : Nat} {text : List Byte} {o : Talk} {t : State}
    {outcome : Outcome} (holds : Holds chunks index text o)
    (taken : workerStep o.state index outcome = some t) :
    Holds chunks index text (o.cleared t (.worker index outcome)) := by
  obtain ⟨w, here, move⟩ := workerStep_moves taken
  have running := move.started_self here
  rw [cleared_worker, here, Option.map_some]
  by_cases at_ : w.pc = .starting
  · -- The argument is read: nothing has been received yet.
    have nothing := holds.blank (not_started_of_starting here at_)
    rw [if_pos (congrArg some at_)]
    refine ⟨holds.reused, holds.plain, holds.short, fun _ => ?_, fun idle => absurd running idle⟩
    show Function.update o.buf index _ index = padded text
    rw [Function.update_self, nothing]
    rfl
  · rw [if_neg (fun same => at_ (Option.some.inj same))]
    exact holds.unchanged ⟨fun _ => ⟨w, here, at_⟩, fun _ => running⟩ rfl rfl

theorem cleared_other {o : Talk} {t : State} {index other : Nat} {outcome : Outcome} (apart : index ≠ other) :
    (o.cleared t (.worker index outcome)).buf other = o.buf other := by
  rw [cleared_worker]
  split
  · exact Function.update_of_ne apart.symm _ _
  · rfl

theorem cleared_state (o : Talk) (t : State) (action : EpollOneShot.Action) :
    (o.cleared t action).state = t ∧ (o.cleared t action).printed = o.printed := by
  unfold cleared
  split
  · split <;> exact ⟨rfl, rfl⟩
  · exact ⟨rfl, rfl⟩
  · exact ⟨rfl, rfl⟩

/-- A step of the system other than a `recv` that returns a count. -/
theorem Holds.other {chunks : List (List Byte)} {index : Nat} {text : List Byte} {o : Talk} {t : State}
    {action : EpollOneShot.Action} (holds : Holds chunks index text o)
    (taken : EpollOneShot.step lfd o.state action = some t) :
    Holds chunks index text (o.cleared t action) := by
  cases action with
  | report batch =>
    obtain ⟨-, -, -, rfl⟩ := reportStep_some taken
    exact holds.unchanged Iff.rfl rfl rfl
  | main outcome => exact holds.unchanged ((mainStep_moves taken).started index) rfl rfl
  | worker i outcome =>
    by_cases same : i = index
    · subst same
      exact holds.started taken
    · obtain ⟨w, -, move⟩ := workerStep_moves taken
      obtain ⟨state, printed⟩ := cleared_state o t (.worker i outcome)
      apply holds.unchanged
      · rw [state]
        exact move.started_other same
      · exact cleared_other same
      · rw [printed]

theorem step_holds {chunks : List (List Byte)} {index : Nat} {o p : Talk} {action : Action}
    (held : ∃ text, Holds chunks index text o) (plain : Plain o action)
    (taken : step lfd o action = some p) :
    ∃ text, Holds (chunks ++ received index o action) index text p := by
  obtain ⟨text, holds⟩ := held
  cases action with
  | recv i chunk =>
    obtain ⟨t, moved, rfl⟩ := Option.map_eq_some_iff.mp taken
    obtain ⟨short, started, running, others⟩ := workerStep_count moved
    by_cases mine : i = index ∧ chunk ≠ []
    · obtain ⟨rfl, some_bytes⟩ := mine
      rw [if_neg some_bytes, received, if_pos ⟨rfl, some_bytes⟩]
      exact ⟨_, holds.stored plain short started running⟩
    · rw [received, if_neg mine, List.append_nil]
      have same : t.Started index ↔ o.state.Started index := by
        by_cases own : i = index
        · subst own
          exact ⟨fun _ => started, fun _ => running⟩
        · exact others index own
      refine ⟨text, ?_⟩
      split
      · exact holds.unchanged same rfl rfl
      · rename_i some_bytes
        have apart : index ≠ i := fun own => mine ⟨own.symm, some_bytes⟩
        exact holds.unchanged same (Function.update_of_ne apart _ _) (Function.update_of_ne apart _ _)
  | other action =>
    rw [received, List.append_nil]
    refine ⟨text, ?_⟩
    unfold step at taken
    dsimp only at taken
    split at taken
    · cases taken
    · obtain ⟨t, moved, rfl⟩ := Option.map_eq_some_iff.mp taken
      exact holds.other moved

/-- A worker prints its chunks as it receives them exactly when none of them is shorter than one
    before it: the end of the longer one is still in the buffer. -/
theorem printed_eq_received_iff {actions : List Action} {o : Talk}
    (plain : Along (step lfd) Plain actions (initial lfd))
    (run : exec (step lfd) actions (initial lfd) = some o) (index : Nat) :
    o.printed index = trace (step lfd) (received index) actions (initial lfd) ↔
      (trace (step lfd) (received index) actions (initial lfd)).Pairwise
        fun earlier later => earlier.length ≤ later.length := by
  have held : ∃ text, Holds (trace (step lfd) (received index) actions (initial lfd)) index text o := by
    apply exec_trace (I := fun chunks o => ∃ text, Holds chunks index text o) ?_
      ⟨[], holds_initial lfd index⟩ plain run
    intro chunks o action p held ok taken
    exact step_holds held ok taken
  obtain ⟨text, holds⟩ := held
  exact holds.reused.fresh

def served : List Action :=
  [.other (.report [⟨3, true⟩]), .other (.main (.count 5)), .other (.main .done), .other (.main .done),
    .other (.report [⟨5, true⟩]), .other (.main .done), .other (.main .done), .other (.worker 0 .done)]

theorem growing_printed :
    ∃ o, exec (step 3) (served ++ [.recv 0 [7], .recv 0 [8, 9]]) (initial 3) = some o ∧
      o.printed 0 = [[7], [8, 9]] := by
  have plain : Along (step 3) Plain (served ++ [.recv 0 [7], .recv 0 [8, 9]]) (initial 3) := by decide
  refine ⟨_, rfl, (printed_eq_received_iff plain rfl 0).mpr ?_⟩
  show ([[7], [8, 9]] : List (List Byte)).Pairwise _
  decide

theorem shrinking_mixed :
    ¬ ∀ actions o, Along (step 3) Plain actions (initial 3) →
      exec (step 3) actions (initial 3) = some o →
        ∀ index, o.printed index = trace (step 3) (received index) actions (initial 3) := by
  intro always
  have printed := always (served ++ [.recv 0 [7, 8], .recv 0 [9]]) _ (by decide) rfl 0
  have differs : ([[7, 8], [9, 8]] : List (List Byte)) ≠ [[7, 8], [9]] := by decide
  exact differs printed

end Talk

end SystemProgramming.EpollOneShot
