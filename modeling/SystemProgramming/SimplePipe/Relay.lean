import SystemProgramming.Library.Termination
import SystemProgramming.SimplePipe.Moves

namespace SystemProgramming.SimplePipe

open CFormat (ascii)
open Transition

variable {setting : Setting} {s t : State} {action : Action} {c : Child}

def Works (s : State) : Action → Prop
  | .parent outcome =>
    outcome.isError = false ∧
      (s.parent = .write → outcome = .done → s.left = [] ∨ s.isOpen .read = false)
  | .child outcome =>
    outcome.isError = false ∧
      ∀ c ∈ s.child, (c.pc = .write → outcome = .count c.numRead) ∧ (c.pc = .newline → outcome = .count 1)

instance (s : State) : (action : Action) → Decidable (Works s action)
  | .parent _ => inferInstanceAs (Decidable (_ ∧ (_ → _ → _)))
  | .child _ => inferInstanceAs (Decidable (_ ∧ ∀ c ∈ s.child, _))

def State.Ended (s : State) : Prop := s.parent.hasEnded = true ∧ ∀ c ∈ s.child, c.pc.hasEnded = true

def relays (s : State) : Action → List Byte
  | .child (.count k) =>
    match s.child with
    | some c =>
      match c.pc with
      | .write => c.buf.take k
      | .newline => (ascii "\n").take k
      | _ => []
    | none => []
  | _ => []

def State.pending (s : State) : List Byte :=
  let rest := s.pipe.inFlight ++ (s.left ++ ascii "\n")
  match s.child with
  | none => rest
  | some c =>
    match c.pc with
    | .closeWrite | .read => rest
    | .write => c.buf.take c.numRead ++ rest
    | .closeRead | .newline => ascii "\n"
    | .exited _ => []

def ParentPc.rank : ParentPc → Nat
  | .pipe => 6
  | .fork => 5
  | .closeRead => 4
  | .write => 3
  | .closeWrite => 2
  | .wait => 1
  | .exited _ | .killed => 0

def ChildPc.rank : ChildPc → Nat
  | .closeWrite => 5
  | .write => 4
  | .read => 3
  | .closeRead => 2
  | .newline => 1
  | .exited _ => 0

def State.work (s : State) : Nat :=
  3 * s.left.length + 2 * s.pipe.inFlight.length + s.parent.rank + s.child.elim 6 (·.pc.rank)

@[simp] theorem printf_child (terminal : Bool) (text : List Byte) (s : State) :
    (s.printf terminal text).child = s.child := by
  unfold State.printf
  split <;> rfl

@[simp] theorem printf_left (terminal : Bool) (text : List Byte) (s : State) :
    (s.printf terminal text).left = s.left := by
  unfold State.printf
  split <;> rfl

@[simp] theorem printf_pipe (terminal : Bool) (text : List Byte) (s : State) :
    (s.printf terminal text).pipe = s.pipe := by
  unfold State.printf
  split <;> rfl

theorem rank_pos_of_live {pc : ParentPc} (live : pc.hasEnded = false) : 0 < pc.rank := by
  cases pc <;> simp_all [ParentPc.hasEnded, ParentPc.rank]

theorem child_rank_pos_of_live {pc : ChildPc} (live : pc.hasEnded = false) : 0 < pc.rank := by
  cases pc <;> simp_all [ChildPc.hasEnded, ChildPc.rank]

theorem Move.work (move : Move setting s action t) (unforked : s.parent = .fork → s.child = none) :
    t.work < s.work := by
  cases move with
  | forked at_ => simp [State.work, State.parentAt, at_, unforked at_, ParentPc.rank, ChildPc.rank]
  | copied n at_ some_ inside =>
    simp only [State.work, Channel.put_inFlight, List.length_append, List.length_take, List.length_drop]
    omega
  | cutShort at_ more readers =>
    simp only [State.work, State.parentAt, printf_child, printf_left, printf_pipe, at_, ParentPc.rank]
    omega
  | waited outcome at_ over_ => simp [State.work, State.exit, at_, ParentPc.rank]
  | failed errno text live =>
    have positive := rank_pos_of_live live
    simpa [State.work, State.fail, State.exit, ParentPc.rank] using positive
  | childRead c n forked at_ some_ inside =>
    simp only [State.work, State.setChild, Channel.take_inFlight, forked, at_, ChildPc.rank, List.length_drop,
      Option.elim_some]
    omega
  | childFailed c errno text forked live =>
    have positive := child_rank_pos_of_live live
    simpa [State.work, childFail, State.setChild, forked, ChildPc.rank] using positive
  | _ => simp_all [State.work, State.parentAt, State.setChild, ParentPc.rank, ChildPc.rank]

theorem isOpen_eq_false {e : End} (forked : s.child = some c) :
    s.isOpen e = false ↔ s.parent.holds e = false ∧ c.pc.holds e = false := by
  simp [State.isOpen, forked]

/-- What a step puts on the standard output comes off what is pending, in order, and what is lost is
    lost by a call that fails or writes less than it should. -/
theorem Move.pending (move : Move setting s action t) (unforked : s.parent = .fork → s.child = none) :
    List.Sublist (relays s action ++ t.pending) s.pending ∧
      (Works s action → (∀ c ∈ s.child, s.parent.holds .write = false → s.left = []) →
        relays s action ++ t.pending = s.pending) := by
  have whole : relays s action ++ t.pending = s.pending →
      List.Sublist (relays s action ++ t.pending) s.pending ∧
        (Works s action → (∀ c ∈ s.child, s.parent.holds .write = false → s.left = []) →
          relays s action ++ t.pending = s.pending) := fun same => by simp [same]
  have fails : List.Sublist (relays s action ++ t.pending) s.pending → ¬ Works s action →
      List.Sublist (relays s action ++ t.pending) s.pending ∧
        (Works s action → (∀ c ∈ s.child, s.parent.holds .write = false → s.left = []) →
          relays s action ++ t.pending = s.pending) := fun less broken => ⟨less, fun works => absurd works broken⟩
  cases move with
  | forked at_ =>
    apply whole
    simp [State.pending, State.parentAt, relays, unforked at_]
  | copied n at_ some_ inside =>
    apply whole
    have split : s.left.take n ++ (s.left.drop n ++ ascii "\n") = s.left ++ ascii "\n" := by
      rw [← List.append_assoc, List.take_append_drop]
    simp only [State.pending, relays, List.nil_append, Channel.put_inFlight, List.append_assoc, split]
  | failed errno text live =>
    apply whole
    simp [State.pending, relays, State.fail, State.exit]
  | cutShort at_ more readers =>
    apply whole
    simp [State.pending, relays, State.parentAt]
  | childClosedWrite c forked at_ =>
    apply whole
    simp [State.pending, relays, State.setChild, forked, at_]
  | childRead c n forked at_ some_ inside =>
    apply whole
    have fills := Buffer.take_overwrite_take s.pipe.inFlight c.buf inside
    simp only [State.pending, relays, forked, at_, fills, List.nil_append, State.setChild, Channel.take_inFlight]
    rw [← List.append_assoc, List.take_append_drop]
  | childAtEnd c forked at_ empty closed =>
    have unheld := (isOpen_eq_false forked).mp closed
    simp only [State.pending, relays, State.setChild, forked, at_, empty, List.nil_append]
    refine ⟨List.sublist_append_right _ _, ?_⟩
    intro _ sent
    rw [sent c rfl unheld.1, List.nil_append]
  | childWrote c k forked at_ fits =>
    simp only [State.pending, relays, State.setChild, forked, at_]
    refine ⟨(List.take_sublist_take_left fits).append_right _, ?_⟩
    intro works _
    have same := (works.2 c (by simp [forked])).1 at_
    cases same
    rfl
  | childUnwritten c errno forked at_ =>
    apply fails
    · simp [State.pending, relays, State.setChild, forked, at_]
    · simp [Works, Outcome.isError]
  | childClosedRead c forked at_ =>
    apply whole
    simp [State.pending, relays, State.setChild, forked, at_]
  | childEnded c k forked at_ fits =>
    simp only [State.pending, relays, State.setChild, forked, at_, List.append_nil]
    refine ⟨List.take_sublist _ _, ?_⟩
    intro works _
    have same := (works.2 c (by simp [forked])).2 at_
    cases same
    rfl
  | childUnended c errno forked at_ =>
    apply fails
    · simp [State.pending, relays, State.setChild]
    · simp [Works, Outcome.isError]
  | childFailed c errno text forked live =>
    apply fails
    · simp [State.pending, relays, childFail, State.setChild]
    · simp [Works, Outcome.isError]
  | _ => exact whole rfl

structure Formed (setting : Setting) (s : State) : Prop where
  before : s.parent = .pipe ∨ s.parent = .fork → s.child = none
  after : s.parent = .closeRead ∨ s.parent = .write ∨ s.parent = .closeWrite ∨ s.parent = .wait →
    s.child ≠ none
  missing : setting.argument = none → s.left = []

theorem Move.formed (formed : Formed setting s) (move : Move setting s action t) : Formed setting t := by
  obtain ⟨before, after, missing⟩ := formed
  cases move <;> constructor <;>
    simp_all [State.parentAt, State.setChild, State.exit, State.fail, childFail]

theorem formed_initial : Formed setting (initial setting) := by
  refine ⟨fun _ => rfl, by simp [initial], ?_⟩
  intro missing
  simp [initial, Setting.message, missing]

structure Orderly (setting : Setting) (s : State) : Prop where
  formed : Formed setting s
  forked : s.child = none → s.parent = .pipe ∨ s.parent = .fork
  sent : s.parent = .closeWrite ∨ s.parent = .wait ∨ s.parent.hasEnded = true → s.left = []
  atEnd : ∀ c ∈ s.child, c.pc.holds .read = false ∨ c.pc = .closeRead → s.parent.holds .write = false
  parent : s.parent ≠ .exited .failure ∧ (s.parent = .killed → setting.argument = none) ∧
    (s.parent = .closeWrite ∨ s.parent = .wait ∨ s.parent = .exited .success → setting.argument ≠ none)
  child : ∀ c ∈ s.child, c.pc ≠ .exited .failure
  flushed : s.unflushed = []
  flow : s.stdout ++ s.pending = setting.message ++ ascii "\n"

theorem Orderly.closed (orderly : Orderly setting s) (forked : c ∈ s.child)
    (closed : s.parent.holds .write = false) : s.left = [] := by
  have begun : s.parent ≠ .pipe := by
    intro at_
    simp [orderly.formed.before (.inl at_)] at forked
  apply orderly.sent
  cases at_ : s.parent <;> simp_all [ParentPc.holds, ParentPc.hasEnded]

/-- Nobody takes the reading end away from a `write` that has something left. -/
theorem Orderly.readable (orderly : Orderly setting s) (at_ : s.parent = .write) : s.isOpen .read = true := by
  obtain ⟨c, forked⟩ := Option.ne_none_iff_exists'.mp (orderly.formed.after (.inr (.inl at_)))
  have writes : s.parent.holds .write = true := by rw [at_]; rfl
  cases held : c.pc.holds .read with
  | true => simp [State.isOpen, forked, held]
  | false =>
    have closed := orderly.atEnd c (by simp [forked]) (.inl held)
    rw [writes] at closed
    cases closed

theorem Orderly.whole (orderly : Orderly setting s) (at_ : s.parent = .write) (works : Works s (.parent .done)) :
    s.left = [] := by
  have either := works.2 at_ rfl
  rw [orderly.readable at_] at either
  simpa using either

theorem Move.stdout (move : Move setting s action t) (orderly : Orderly setting s) (works : Works s action) :
    t.stdout = s.stdout ++ relays s action ∧ t.unflushed = [] := by
  have flushed := orderly.flushed
  cases move with
  | cutShort at_ more readers => exact absurd (orderly.whole at_ works) more
  | failed errno text live => exact absurd works.1 (by simp [Outcome.isError])
  | childFailed c errno text forked live => exact absurd works.1 (by simp [Outcome.isError])
  | childUnwritten c errno forked at_ => exact absurd works.1 (by simp [Outcome.isError])
  | childUnended c errno forked at_ => exact absurd works.1 (by simp [Outcome.isError])
  | waited outcome at_ over_ => cases outcome <;> simp [State.exit, relays, flushed]
  | _ => simp_all [State.parentAt, State.setChild, relays]

theorem Move.orderly (move : Move setting s action t) (orderly : Orderly setting s) (works : Works s action) :
    Orderly setting t := by
  have formed := move.formed orderly.formed
  obtain ⟨stdout, flushed⟩ := move.stdout orderly works
  have flow : t.stdout ++ t.pending = setting.message ++ ascii "\n" := by
    have kept := (move.pending (fun at_ => orderly.formed.before (.inr at_))).2 works
    rw [stdout, List.append_assoc, kept (fun c forked => orderly.closed forked), orderly.flow]
  have readable := orderly.readable
  have whole := orderly.whole
  obtain ⟨⟨before, after, missing⟩, forked, sent, atEnd, parent, child, -, -⟩ := orderly
  cases move with
  | cutShort at_ more readers => exact absurd (whole at_ works) more
  | signalled at_ more unread =>
    rw [readable at_] at unread
    cases unread
  | piped at_ =>
    have none := before (.inl at_)
    refine ⟨formed, ?_, ?_, ?_, ?_, ?_, flushed, flow⟩ <;> simp_all [State.parentAt, ParentPc.hasEnded]
  | childAtEnd c forked at_ empty closed =>
    have unheld := ((isOpen_eq_false forked).mp closed).1
    refine ⟨formed, ?_, ?_, ?_, ?_, ?_, flushed, flow⟩ <;> simp_all [State.setChild]
  | failed errno text live => exact absurd works.1 (by simp [Outcome.isError])
  | childFailed c errno text forked live => exact absurd works.1 (by simp [Outcome.isError])
  | _ =>
    refine ⟨formed, ?_, ?_, ?_, ?_, ?_, flushed, flow⟩ <;>
      simp_all [State.parentAt, State.setChild, State.exit, ParentPc.hasEnded, ParentPc.holds, ChildPc.holds]

theorem orderly_initial : Orderly setting (initial setting) := by
  refine ⟨formed_initial, fun _ => .inl rfl, ?_, ?_, ?_, ?_, rfl, rfl⟩ <;> simp [initial, ParentPc.hasEnded]

theorem advances_of_isSome (action : Action) (works : Works s action) (enabled : (step setting s action).isSome) :
    ∃ action t, Works s action ∧ step setting s action = some t := by
  obtain ⟨t, taken⟩ := Option.isSome_iff_exists.mp enabled
  exact ⟨action, t, works, taken⟩

theorem Orderly.complete (orderly : Orderly setting s) (ended : s.Ended) :
    s.stdout = setting.message ++ ascii "\n" ∧ s.child.map (·.pc) = some (.exited .success) ∧
      s.parent = if setting.argument.isSome then .exited .success else .killed := by
  obtain ⟨parentEnded, childEnded⟩ := ended
  obtain ⟨unfailed, killed, given⟩ := orderly.parent
  have forked : s.child ≠ none := by
    intro none
    rcases orderly.forked none with at_ | at_ <;> simp [at_, ParentPc.hasEnded] at parentEnded
  obtain ⟨c, present⟩ := Option.ne_none_iff_exists'.mp forked
  have done : c.pc = .exited .success := by
    have over_ := childEnded c present
    have unfailed := orderly.child c present
    cases at_ : c.pc with
    | exited status => cases status <;> simp_all
    | _ => simp [at_, ChildPc.hasEnded] at over_
  have flow := orderly.flow
  refine ⟨?_, ?_, ?_⟩
  · simpa [State.pending, present, done] using flow
  · simp [present, done]
  · cases at_ : s.parent with
    | exited status =>
      cases status with
      | success => simp [Option.isSome_iff_ne_none.mpr (given (.inr (.inr at_)))]
      | failure => exact absurd at_ unfailed
    | killed => simp [killed at_]
    | _ => simp [at_, ParentPc.hasEnded] at parentEnded

/-- The child waits only for bytes that may still come. -/
theorem child_advances (forked : s.child = some c) (live : c.pc.hasEnded = false)
    (fed : s.pipe.inFlight ≠ [] ∨ s.parent.holds .write = false) :
    ∃ action t, Works s action ∧ step setting s action = some t := by
  have goes : ∀ outcome, Works s (.child outcome) → (childStep s c outcome).isSome →
      ∃ action t, Works s action ∧ step setting s action = some t := by
    intro outcome works enabled
    apply advances_of_isSome _ works
    rwa [step, forked, Option.bind_some]
  cases at_ : c.pc with
  | closeWrite =>
    apply goes .done
    · simp [Works, forked, at_, Outcome.isError]
    · simp [childStep, at_]
  | read =>
    by_cases empty : s.pipe.inFlight = []
    · have closed : s.isOpen .write = false := by
        rw [isOpen_eq_false forked, at_]
        exact ⟨fed.resolve_left (fun some_ => some_ empty), rfl⟩
      apply goes (.count 0)
      · simp [Works, forked, at_, Outcome.isError]
      · simp [childStep, at_, empty, closed]
    · have one : 1 ≤ s.pipe.inFlight.length := List.length_pos_of_ne_nil empty
      apply goes (.count 1)
      · simp [Works, forked, at_, Outcome.isError]
      · simp [childStep, at_, one, BUF_SIZE]
  | write =>
    apply goes (.count c.numRead)
    · simp [Works, forked, at_, Outcome.isError]
    · simp [childStep, at_]
  | closeRead =>
    apply goes .done
    · simp [Works, forked, at_, Outcome.isError]
    · simp [childStep, at_]
  | newline =>
    apply goes (.count 1)
    · simp [Works, forked, at_, Outcome.isError]
    · simp [childStep, at_]
  | exited status => simp [at_, ChildPc.hasEnded] at live

/-- A `write` waits only while there is no room, and then the child has something to read. -/
theorem write_advances (room : 0 < setting.capacity) (formed : Formed setting s) (at_ : s.parent = .write) :
    ∃ action t, Works s action ∧ step setting s action = some t := by
  have goes : ∀ outcome : Outcome, outcome.isError = false →
      (outcome = .done → s.left = [] ∨ s.isOpen .read = false) → (parentStep setting s outcome).isSome →
      ∃ action t, Works s action ∧ step setting s action = some t :=
    fun outcome succeeds done enabled =>
      advances_of_isSome (.parent outcome) ⟨succeeds, fun _ => done⟩ enabled
  cases given : setting.argument with
  | none =>
    apply goes .done rfl
    · exact fun _ => .inl (formed.missing given)
    · simp [parentStep, at_, given]
  | some message =>
    by_cases whole : s.left = []
    · apply goes .done rfl
      · exact fun _ => .inl whole
      · simp [parentStep, at_, given, parentWrite, whole]
    · cases readers : s.isOpen .read with
      | false =>
        apply goes .done rfl
        · exact fun _ => .inr readers
        · simp [parentStep, at_, given, parentWrite, whole, readers]
      | true =>
        by_cases full : s.pipe.inFlight.length < setting.capacity
        · have one : 1 ≤ s.left.length := List.length_pos_of_ne_nil whole
          apply goes (.count 1) rfl
          · simp
          · simp only [parentStep, at_, given, parentWrite]
            rw [if_pos ⟨Nat.one_pos, one, full, readers⟩]
            rfl
        · obtain ⟨c, forked⟩ := Option.ne_none_iff_exists'.mp (formed.after (.inr (.inl at_)))
          have some_ : s.pipe.inFlight ≠ [] := by
            intro empty
            rw [empty] at full
            exact full room
          have live : c.pc.hasEnded = false := by
            simp only [State.isOpen, at_, ParentPc.holds, forked, Option.any_some, Bool.false_or] at readers
            cases pc : c.pc <;> simp_all [ChildPc.holds, ChildPc.hasEnded]
          exact child_advances forked live (.inl some_)

/-- Neither process ever waits for ever: while one has not ended, one can go on. -/
theorem advances (room : 0 < setting.capacity) (formed : Formed setting s) (unended : ¬ s.Ended) :
    ∃ action t, Works s action ∧ step setting s action = some t := by
  have simple : s.parent ≠ .write → (parentStep setting s .done).isSome →
      ∃ action t, Works s action ∧ step setting s action = some t :=
    fun other enabled => advances_of_isSome (.parent .done) ⟨rfl, fun at_ => absurd at_ other⟩ enabled
  have childLeft : s.parent.hasEnded = true → s.parent.holds .write = false →
      ∃ action t, Works s action ∧ step setting s action = some t := by
    intro ended closed
    have live : ∃ c ∈ s.child, c.pc.hasEnded = false := by
      by_contra none
      apply unended ⟨ended, ?_⟩
      intro c forked
      by_contra live
      exact none ⟨c, forked, by simpa using live⟩
    obtain ⟨c, forked, live⟩ := live
    exact child_advances forked live (.inr closed)
  cases at_ : s.parent with
  | write => exact write_advances room formed at_
  | wait =>
    obtain ⟨c, forked⟩ := Option.ne_none_iff_exists'.mp (formed.after (.inr (.inr (.inr at_))))
    cases ended : c.pc.hasEnded with
    | true => exact simple (by simp [at_]) (by simp [parentStep, at_, forked, ended])
    | false => exact child_advances forked ended (.inr (by rw [at_]; rfl))
  | exited status => exact childLeft (by rw [at_]; rfl) (by rw [at_]; rfl)
  | killed => exact childLeft (by rw [at_]; rfl) (by rw [at_]; rfl)
  | _ => exact simple (by simp [at_]) (by simp [parentStep, at_])

/-- Whatever fails, both processes end, after a bounded number of steps, and the child has written
    nothing but parts of the argument, in order; if nothing fails, it has written all of it. -/
theorem relays_argument (room : 0 < setting.capacity) {actions : List Action}
    (run : exec (step setting) actions (initial setting) = some s) :
    actions.length ≤ 3 * setting.message.length + 12 ∧
    (¬ s.Ended → ∃ action t, Works s action ∧ step setting s action = some t) ∧
    List.Sublist (trace (step setting) relays actions (initial setting)) (setting.message ++ ascii "\n") ∧
    (Along (step setting) Works actions (initial setting) → s.Ended →
      s.stdout = setting.message ++ ascii "\n" ∧ (s.child.map (·.pc)) = some (.exited .success) ∧
      s.parent = if setting.argument.isSome then .exited .success else .killed) := by
  have kept : ∀ s action t, Formed setting s → True → step setting s action = some t → Formed setting t :=
    fun s action t formed _ taken => (step_moves taken).formed formed
  refine ⟨?_, ?_, ?_, ?_⟩
  · have bound := count_add_measure_le (fun _ => true) State.work kept
      (fun s action t formed _ taken => (step_moves taken).work fun at_ => formed.before (.inr at_))
      formed_initial (along_true actions _) run
    have start : (initial setting).work = 3 * setting.message.length + 12 := rfl
    rw [List.countP_true, start] at bound
    omega
  · exact advances room (exec_invariant kept formed_initial (along_true actions _) run)
  · have all : Formed setting s ∧ List.Sublist
        (trace (step setting) relays actions (initial setting) ++ s.pending) (setting.message ++ ascii "\n") := by
      apply exec_trace_always (I := fun seen s =>
        Formed setting s ∧ List.Sublist (seen ++ s.pending) (setting.message ++ ascii "\n")) ?_
        ⟨formed_initial, .refl _⟩ run
      intro seen s action t ⟨formed, sub⟩ taken
      have move := step_moves taken
      refine ⟨move.formed formed, ?_⟩
      rw [List.append_assoc]
      exact ((move.pending fun at_ => formed.before (.inr at_)).1.append_left seen).trans sub
    exact (List.sublist_append_left _ _).trans all.2
  · intro works ended
    have orderly : Orderly setting s := exec_invariant (I := Orderly setting)
      (fun s action t orderly works taken => (step_moves taken).orderly orderly works) orderly_initial works run
    exact orderly.complete ended

def ok : Setting := ⟨some ⟨[111, 107], by decide⟩, [], 1, true⟩

def okActions : List Action :=
  [.parent .done, .parent .done, .parent .done, .parent (.count 1), .child .done, .child (.count 1),
    .parent (.count 1), .parent .done, .child (.count 1), .parent .done, .child (.count 1), .child (.count 1),
    .child (.count 0), .child .done, .child (.count 1), .parent .done]

theorem relays_argument_ok : ∃ s, exec (step ok) okActions (initial ok) = some s ∧ okActions.length ≤ 18 ∧
    s.stdout = [111, 107, 10] ∧ s.parent = .exited .success := by
  obtain ⟨s, run⟩ : ∃ s, exec (step ok) okActions (initial ok) = some s :=
    Option.isSome_iff_exists.mp (by decide +kernel)
  have whole := relays_argument (by decide) run
  have ended : s.Ended := by
    by_contra unended
    obtain ⟨action, t, -, taken⟩ := whole.2.1 unended
    have stuck : ∀ s action, exec (step ok) okActions (initial ok) = some s → step ok s action = none := by
      intro s action run
      cases run
      cases action <;> rfl
    rw [stuck s action run] at taken
    cases taken
  have complete := whole.2.2.2 (by decide +kernel) ended
  exact ⟨s, run, whole.1, complete.1, complete.2.2⟩

end SystemProgramming.SimplePipe
