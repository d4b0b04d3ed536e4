import SystemProgramming.Library.Mutex
import SystemProgramming.Library.Parties
import SystemProgramming.ThreadIncr.Model

namespace SystemProgramming.ThreadIncr

open Mutex Transition

def stores (s : State) : Action → List Tid
  | .main _ => []
  | .thread i => if (s.threads i).any (fun th => th.pc = .store) = true then [i] else []

def ThreadPc.critical : ThreadPc → Bool
  | .load | .add | .store | .unlock => true
  | .start | .test | .lock | .next | .returned => false

def Critical (th : Option Thread) : Prop := th.any (fun th => th.pc.critical) = true

section Moves

inductive Local (s : State) (th : Thread) : Thread → Prop where
  | started (at_ : th.pc = .start) : Local s th { th with pc := .test, loops := s.loops, j := 0 }
  | entered (at_ : th.pc = .test) (less : th.j.slt th.loops = true) : Local s th { th with pc := .lock }
  | ended (at_ : th.pc = .test) (last : ¬ th.j.slt th.loops = true) : Local s th { th with pc := .returned }
  | loaded (at_ : th.pc = .load) : Local s th { th with pc := .add, loc := s.glob }
  | added (at_ : th.pc = .add) : Local s th { th with pc := .store, loc := th.loc + 1 }
  | stepped (at_ : th.pc = .next) : Local s th { th with pc := .test, j := th.j + 1 }

inductive ThreadMove (s : State) (i : Tid) (th : Thread) : State → Prop where
  | local (th' : Thread) (moved : Local s th th') : ThreadMove s i th (s.setThread i th')
  | locked (at_ : th.pc = .lock) (free : s.owner = none) :
      ThreadMove s i th { s.setThread i { th with pc := .load } with owner := some i }
  | stored (at_ : th.pc = .store) :
      ThreadMove s i th { s.setThread i { th with pc := .unlock } with glob := th.loc }
  | unlocked (at_ : th.pc = .unlock) :
      ThreadMove s i th { s.setThread i { th with pc := .next } with owner := none }

theorem threadStep_moves {s t : State} {i : Tid} (taken : threadStep s i = some t) :
    ∃ th, s.threads i = some th ∧ ThreadMove s i th t := by
  obtain ⟨th, here, moved⟩ := Option.bind_eq_some_iff.mp taken
  refine ⟨th, here, ?_⟩
  cases at_ : th.pc with
  | start =>
    rw [at_] at moved
    cases moved
    exact .local _ (.started at_)
  | test =>
    rw [at_] at moved
    dsimp only at moved
    split at moved
    · rename_i less
      cases moved
      exact .local _ (.entered at_ less)
    · rename_i last
      cases moved
      exact .local _ (.ended at_ last)
  | lock =>
    rw [at_] at moved
    dsimp only at moved
    split at moved
    · rename_i free
      cases moved
      exact .locked at_ free
    · cases moved
  | load =>
    rw [at_] at moved
    cases moved
    exact .local _ (.loaded at_)
  | add =>
    rw [at_] at moved
    cases moved
    exact .local _ (.added at_)
  | store =>
    rw [at_] at moved
    cases moved
    exact .stored at_
  | unlock =>
    rw [at_] at moved
    cases moved
    exact .unlocked at_
  | next =>
    rw [at_] at moved
    cases moved
    exact .local _ (.stepped at_)
  | returned =>
    rw [at_] at moved
    cases moved

theorem stores_thread {s : State} {i : Tid} {th : Thread} (here : s.threads i = some th) :
    stores s (.thread i) = if th.pc = .store then [i] else [] := by
  simp [stores, here]

end Moves

section Progress

variable {loops glob : BitVec 32}

structure Thread.Turn (loops : BitVec 32) (n : Nat) (th : Thread) : Prop where
  same : th.loops = loops
  round : th.j.toInt = n
  less : (n : Int) < loops.toInt

/-- Where a thread is that has completed `n` stores; a value on its way to `glob` is one more than what
    is there. -/
def Thread.Progress (loops glob : BitVec 32) (n : Nat) (th : Thread) : Prop :=
  match th.pc with
  | .start => n = 0
  | .test => th.loops = loops ∧ th.j.toInt = n ∧ (n : Int) ≤ max loops.toInt 0
  | .lock | .load => th.Turn loops n
  | .add => th.Turn loops n ∧ th.loc = glob
  | .store => th.Turn loops n ∧ th.loc = glob + 1
  | .unlock | .next => ∃ m, n = m + 1 ∧ th.Turn loops m
  | .returned => (n : Int) = max loops.toInt 0

def Progress (loops glob : BitVec 32) (n : Nat) (th : Option Thread) : Prop :=
  th.elim (n = 0) (Thread.Progress loops glob n)

theorem toInt_add_one {j : BitVec 32} {n : Nat} (round : j.toInt = n) (less : (n : Int) < loops.toInt) :
    (j + 1).toInt = (n + 1 : Nat) := by
  have top := BitVec.toInt_lt (x := loops)
  rw [BitVec.toInt_add, round, show (1 : BitVec 32).toInt = 1 from rfl]
  apply Int.bmod_eq_of_le <;> omega

theorem Local.progress {s : State} {th th' : Thread} {n : Nat} (same : s.loops = loops)
    (progress : th.Progress loops s.glob n) (moved : Local s th th') : th'.Progress loops s.glob n := by
  unfold Thread.Progress at progress
  cases moved with
  | started at_ =>
    rw [at_] at progress
    subst progress
    exact ⟨same, rfl, Int.le_max_right _ _⟩
  | entered at_ less =>
    rw [at_] at progress
    obtain ⟨own, round, -⟩ := progress
    rw [BitVec.slt_iff_toInt_lt, own, round] at less
    exact ⟨own, round, less⟩
  | ended at_ last =>
    rw [at_] at progress
    obtain ⟨own, round, bound⟩ := progress
    rw [BitVec.slt_iff_toInt_lt, own, round] at last
    show (n : Int) = max loops.toInt 0
    omega
  | loaded at_ =>
    rw [at_] at progress
    exact ⟨⟨progress.same, progress.round, progress.less⟩, rfl⟩
  | added at_ =>
    rw [at_] at progress
    obtain ⟨turn, loc⟩ := progress
    exact ⟨⟨turn.same, turn.round, turn.less⟩, by rw [loc]⟩
  | stepped at_ =>
    rw [at_] at progress
    obtain ⟨m, rfl, turn⟩ := progress
    have bound := turn.less
    exact ⟨turn.same, toInt_add_one turn.round turn.less, by omega⟩

theorem Progress.other {glob' : BitVec 32} {n : Nat} {th : Option Thread}
    (progress : Progress loops glob n th) (outside : ¬ Critical th) : Progress loops glob' n th := by
  cases th with
  | none => exact progress
  | some th =>
    show th.Progress loops glob' n
    have before : th.Progress loops glob n := progress
    have idle : ¬ th.pc.critical = true := outside
    unfold Thread.Progress at before ⊢
    cases at_ : th.pc with
    | add | store =>
      rw [at_] at idle
      exact absurd rfl idle
    | _ =>
      rw [at_] at before
      exact before

end Progress

def MainPc.hasJoined : MainPc → Tid → Bool
  | .join .t2, .t1 | .print, _ | .exited .success, _ => true
  | _, _ => false

def MainPc.isToCreate : MainPc → Tid → Bool
  | .create .t1, _ | .create .t2, .t2 => true
  | _, _ => false

structure Lifecycle (s : State) : Prop where
  pending : ∀ i, s.main.isToCreate i = true → s.threads i = none
  joined : ∀ i, s.main.hasJoined i = true → s.hasReturned i = true

structure Counted (loops : BitVec 32) (done : List Tid) (s : State) : Prop where
  constant : s.loops = loops
  guarded : Guards Critical s.owner s.threads
  glob : s.glob = BitVec.ofNat 32 done.length
  progress : ∀ i, Progress loops s.glob (done.count i) (s.threads i)
  lifecycle : Lifecycle s

theorem counted_initial (loops : BitVec 32) : Counted loops [] (initial loops) where
  constant := rfl
  guarded := fun _ => iff_of_false Bool.false_ne_true (fun same => nomatch same)
  glob := rfl
  progress := fun _ => rfl
  lifecycle := by
    refine ⟨fun _ _ => rfl, ?_⟩
    intro i joined
    cases i <;> cases joined

section Step

variable {loops : BitVec 32} {done : List Tid} {s t : State} {i : Tid}

theorem progress_update {th' : Thread} (progress : ∀ j, Progress loops s.glob (done.count j) (s.threads j))
    (moved : th'.Progress loops s.glob (done.count i)) (j : Tid) :
    Progress loops s.glob (done.count j) (Function.update s.threads i (some th') j) := by
  have here : Progress loops s.glob (done.count i) (some th') := moved
  exact Parties.forall_update (P := fun j th => Progress loops s.glob (done.count j) th) progress here j

theorem Lifecycle.update {th th' : Thread} (lifecycle : Lifecycle s) (here : s.threads i = some th)
    (running : th.pc ≠ .returned) : Lifecycle (s.setThread i th') := by
  constructor
  · intro j toCreate
    have absent := lifecycle.pending j toCreate
    have apart : j ≠ i := by
      rintro rfl
      rw [here] at absent
      cases absent
    exact (Function.update_of_ne apart _ _).trans absent
  · intro j waited
    have returned := lifecycle.joined j waited
    have apart : j ≠ i := by
      rintro rfl
      rw [State.hasReturned, here] at returned
      exact running (of_decide_eq_true returned)
    rw [State.hasReturned, State.setThread]
    dsimp only
    rw [Function.update_of_ne apart]
    exact returned

theorem Counted.stored {th : Thread} (counted : Counted loops done s) (here : s.threads i = some th)
    (at_ : th.pc = .store) :
    Counted loops (done ++ [i]) { s.setThread i { th with pc := .unlock } with glob := th.loc } := by
  have inside : Critical (s.threads i) := by
    rw [here, Critical, Option.any_some, at_]
    rfl
  have before : th.Progress loops s.glob (done.count i) := by
    have progress := counted.progress i
    rwa [here] at progress
  unfold Thread.Progress at before
  rw [at_] at before
  obtain ⟨turn, loc⟩ := before
  have lifecycle : Lifecycle (s.setThread i { th with pc := .unlock }) :=
    counted.lifecycle.update here (by simp [at_])
  refine ⟨counted.constant, counted.guarded.keep (iff_of_true rfl inside), ?_, ?_,
    ⟨lifecycle.pending, lifecycle.joined⟩⟩
  · show th.loc = _
    rw [loc, counted.glob, List.length_append, List.length_singleton, BitVec.ofNat_add]
    rfl
  · intro j
    show Progress loops th.loc _ (Function.update s.threads i _ j)
    by_cases same : j = i
    · subst same
      rw [Function.update_self, List.count_append, List.count_singleton_self]
      exact ⟨_, rfl, turn.same, turn.round, turn.less⟩
    · rw [Function.update_of_ne same, List.count_append, List.count_singleton, if_neg (by simpa using Ne.symm same),
        Nat.add_zero]
      exact (counted.progress j).other (fun other => same (counted.guarded.exclusive other inside))

theorem ThreadMove.counted {th : Thread} (counted : Counted loops done s) (here : s.threads i = some th)
    (move : ThreadMove s i th t) : Counted loops (done ++ stores s (.thread i)) t := by
  have before : th.Progress loops s.glob (done.count i) := by
    have progress := counted.progress i
    rwa [here] at progress
  have owned : Critical (s.threads i) ↔ th.pc.critical = true := by rw [here, Critical, Option.any_some]
  rw [stores_thread here]
  cases move with
  | stored at_ =>
    rw [if_pos at_]
    exact counted.stored here at_
  | «local» th' moved =>
    have border : th.pc ≠ .store ∧ th.pc ≠ .returned ∧ th'.pc.critical = th.pc.critical := by
      cases moved with
      | started at_ | entered at_ less | ended at_ last | loaded at_ | added at_ | stepped at_ =>
        rw [at_]
        exact ⟨ThreadPc.noConfusion, ThreadPc.noConfusion, rfl⟩
    obtain ⟨other, running, critical⟩ := border
    rw [if_neg other, List.append_nil]
    refine ⟨counted.constant, counted.guarded.keep ?_, counted.glob,
      progress_update counted.progress (moved.progress counted.constant before),
      counted.lifecycle.update here running⟩
    rw [owned, ← critical]
    exact Iff.rfl
  | locked at_ free =>
    unfold Thread.Progress at before
    rw [at_] at before
    rw [if_neg (by simp [at_]), List.append_nil]
    have lifecycle : Lifecycle (s.setThread i { th with pc := .load }) :=
      counted.lifecycle.update here (by simp [at_])
    have moved : Thread.Progress loops s.glob (done.count i) { th with pc := .load } :=
      ⟨before.same, before.round, before.less⟩
    exact ⟨counted.constant, counted.guarded.acquire free rfl, counted.glob,
      progress_update counted.progress moved, ⟨lifecycle.pending, lifecycle.joined⟩⟩
  | unlocked at_ =>
    unfold Thread.Progress at before
    rw [at_] at before
    obtain ⟨m, more, turn⟩ := before
    rw [if_neg (by simp [at_]), List.append_nil]
    have inside : Critical (s.threads i) := owned.mpr (by rw [at_]; rfl)
    have lifecycle : Lifecycle (s.setThread i { th with pc := .next }) :=
      counted.lifecycle.update here (by simp [at_])
    have moved : Thread.Progress loops s.glob (done.count i) { th with pc := .next } :=
      ⟨m, more, turn.same, turn.round, turn.less⟩
    exact ⟨counted.constant, counted.guarded.release inside Bool.false_ne_true, counted.glob,
      progress_update counted.progress moved, ⟨lifecycle.pending, lifecycle.joined⟩⟩

theorem Counted.created (counted : Counted loops done s) (at_ : s.main = .create i) :
    Counted loops done { s.setThread i ⟨.start, 0, 0, 0⟩ with main := .afterCreate i } := by
  have absent : s.threads i = none := by
    apply counted.lifecycle.pending
    rw [at_]
    cases i <;> rfl
  have unstored : done.count i = 0 := by
    have progress := counted.progress i
    rwa [absent] at progress
  refine ⟨counted.constant, counted.guarded.keep ?_, counted.glob, progress_update counted.progress unstored, ?_, ?_⟩
  · rw [absent]
    exact Iff.rfl
  · intro j toCreate
    cases i with
    | t1 =>
      cases j with
      | t1 => cases toCreate
      | t2 =>
        apply counted.lifecycle.pending
        rw [at_]
        rfl
    | t2 => cases j <;> cases toCreate
  · intro j joined
    cases i <;> cases j <;> cases joined

theorem Lifecycle.joinedNext (lifecycle : Lifecycle s) (at_ : s.main = .join i)
    (returned : s.hasReturned i = true) : Lifecycle { s with main := .afterJoin i } := by
  constructor
  · intro j toCreate
    cases i <;> cases j <;> cases toCreate
  · intro j joined
    cases i with
    | t1 =>
      cases j with
      | t1 => exact returned
      | t2 => cases joined
    | t2 =>
      cases j with
      | t1 => exact lifecycle.joined .t1 (by rw [at_]; rfl)
      | t2 => exact returned

theorem mainStep_counted {outcome : Outcome} (counted : Counted loops done s)
    (taken : mainStep s outcome = some t) : Counted loops done t := by
  unfold mainStep at taken
  split at taken
  case h_1 i at_ =>
    cases taken
    exact counted.created at_
  case h_2 i errno at_ | h_3 i errno at_ =>
    cases taken
    exact ⟨counted.constant, counted.guarded, counted.glob, counted.progress, nofun, nofun⟩
  case h_4 i at_ =>
    split at taken
    · rename_i returned
      cases taken
      exact ⟨counted.constant, counted.guarded, counted.glob, counted.progress,
        counted.lifecycle.joinedNext at_ returned⟩
    · cases taken
  case h_5 at_ =>
    cases taken
    refine ⟨counted.constant, counted.guarded, counted.glob, counted.progress, nofun, ?_⟩
    intro i _
    exact counted.lifecycle.joined i (by rw [at_]; rfl)
  case h_6 => cases taken

theorem step_counted {action : Action} (counted : Counted loops done s) (taken : step s action = some t) :
    Counted loops (done ++ stores s action) t := by
  unfold step at taken
  split at taken
  · cases taken
  · cases action with
    | main outcome =>
      rw [stores, List.append_nil]
      exact mainStep_counted counted taken
    | thread i =>
      obtain ⟨th, here, move⟩ := threadStep_moves taken
      exact move.counted counted here

end Step

section Run

def State.Joined (s : State) : Prop := s.main = .print ∨ s.main = .exited .success

theorem length_eq_count (done : List Tid) : done.length = done.count .t1 + done.count .t2 := by
  induction done with
  | nil => rfl
  | cons i done ih =>
    rw [List.length_cons, ih]
    cases i with
    | t1 =>
      rw [List.count_cons_self, List.count_cons_of_ne (by decide)]
      omega
    | t2 =>
      rw [List.count_cons_self, List.count_cons_of_ne (by decide)]
      omega

theorem Counted.rounds {loops : BitVec 32} {done : List Tid} {s : State} (counted : Counted loops done s)
    {i : Tid} (joined : s.main.hasJoined i = true) : (done.count i : Int) = max loops.toInt 0 := by
  have returned := counted.lifecycle.joined i joined
  have progress := counted.progress i
  unfold State.hasReturned at returned
  cases here : s.threads i with
  | none =>
    rw [here] at returned
    cases returned
  | some th =>
    rw [here] at returned progress
    have last : th.Progress loops s.glob (done.count i) := progress
    unfold Thread.Progress at last
    rwa [of_decide_eq_true returned] at last

/-- In every state `glob` is the number of completed stores, and after both joins it is twice the
    number of rounds. -/
theorem glob_counts (loops : BitVec 32) {actions : List Action} {s : State}
    (run : exec step actions (initial loops) = some s) :
    s.glob = BitVec.ofNat 32 (trace step stores actions (initial loops)).length ∧
      (s.Joined → s.glob = BitVec.ofInt 32 (2 * max loops.toInt 0)) := by
  have counted : Counted loops (trace step stores actions (initial loops)) s := by
    apply exec_trace_always (I := Counted loops) ?_ (counted_initial loops) run
    intro seen s action t counted taken
    exact step_counted counted taken
  refine ⟨counted.glob, ?_⟩
  intro joined
  have both : ∀ i, s.main.hasJoined i = true := by
    rcases joined with printing | exited
    · rw [printing]
      exact fun _ => rfl
    · rw [exited]
      exact fun _ => rfl
  have first := counted.rounds (both .t1)
  have second := counted.rounds (both .t2)
  rw [counted.glob, length_eq_count, ← BitVec.ofInt_natCast]
  congr 1
  omega

def oneRound : List Action :=
  [.main .done, .main .done, .thread .t1, .thread .t1, .thread .t1, .thread .t1, .thread .t2, .thread .t2,
    .thread .t1, .thread .t1, .thread .t1, .thread .t1, .thread .t1] ++
    List.replicate 7 (.thread .t2) ++ [.main .done, .main .done]

theorem glob_counts_oneRound :
    ∃ s, exec step oneRound (initial 1) = some s ∧ s.glob = BitVec.ofInt 32 2 := by
  have run : exec step oneRound (initial 1) = some _ := rfl
  exact ⟨_, run, (glob_counts 1 run).2 (.inl rfl)⟩

end Run

end SystemProgramming.ThreadIncr
