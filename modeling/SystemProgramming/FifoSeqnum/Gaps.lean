import SystemProgramming.FifoSeqnum.Uniqueness

namespace SystemProgramming.FifoSeqnum

open Transition

def ServerPc.between : ServerPc → Bool
  | .openClient | .update | .write => false
  | .mkfifo | .openServer | .openDummy | .read | .exited => true

/-- The system with the `seqNum` at which the iteration has begun, and with those before and after each
    iteration that has delivered no response. -/
structure Iterations where
  state : State
  before : BitVec 32
  undelivered : List (BitVec 32 × BitVec 32)

namespace Iterations

def start (s : State) : Iterations := ⟨s, s.server.seqNum, []⟩

def finish (r : Iterations) (t : State) : Iterations :=
  { state := t
    before := t.server.seqNum
    undelivered :=
      if t.answers = r.state.answers then r.undelivered ++ [(r.before, t.server.seqNum)] else r.undelivered }

variable (argv : Pid → BitVec 32) (capacity : Nat)

def step (r : Iterations) (action : Action) : Option Iterations :=
  (FifoSeqnum.step argv capacity r.state action).map fun t =>
    match action with
    | .server _ => if t.server.pc = .read then r.finish t else { r with state := t }
    | .client _ _ => { r with state := t }

def WritesDelivered (r : Iterations) : Action → Prop
  | .server (.error _) => r.state.server.pc = .write → r.state.server.request.seqLen = 0
  | _ => True

instance (r : Iterations) : (action : Action) → Decidable (WritesDelivered r action)
  | .server (.error _) => inferInstanceAs (Decidable (_ → _))
  | .server .done | .server (.count _) | .client _ _ => isTrue trivial

end Iterations

def Consecutive : BitVec 32 → List Answer → Prop
  | _, [] => True
  | last, a :: answers => a.seqNum = last + a.req.seqLen ∧ Consecutive a.seqNum answers

def lastGranted (last : BitVec 32) (answers : List Answer) : BitVec 32 :=
  (answers.map Answer.seqNum).getLastD last

def granted (answers : List Answer) : Set Int := {n | ∃ a ∈ answers, 0 < a.req.seqLen.toInt ∧ n ∈ a.block}

def NoGap (last : BitVec 32) (answers : List Answer) : Prop :=
  granted answers = Set.Ioc last.toInt (lastGranted last answers).toInt

def Answer.Upward (a : Answer) : Prop :=
  0 ≤ a.req.seqLen.toInt ∧ (a.seqNum - a.req.seqLen).toInt + a.req.seqLen.toInt < 2 ^ 31

section Consecutive

variable {last : BitVec 32} {answers : List Answer}

theorem consecutive_concat {a : Answer} (consecutive : Consecutive last answers)
    (next : a.seqNum = lastGranted last answers + a.req.seqLen) : Consecutive last (answers ++ [a]) := by
  induction answers generalizing last with
  | nil => exact ⟨next, trivial⟩
  | cons first answers ih =>
    obtain ⟨begins, rest⟩ := consecutive
    refine ⟨begins, ih rest ?_⟩
    rw [next]
    cases answers <;> rfl

theorem lastGranted_concat (a : Answer) : lastGranted last (answers ++ [a]) = a.seqNum := by
  simp [lastGranted]

theorem lastGranted_cons (a : Answer) : lastGranted last (a :: answers) = lastGranted a.seqNum answers := by
  cases answers <;> rfl

theorem Answer.Upward.block_eq {a : Answer} (upward : a.Upward) (next : a.seqNum = last + a.req.seqLen) :
    last.toInt ≤ a.seqNum.toInt ∧ a.block = Set.Ioc last.toInt a.seqNum.toInt := by
  obtain ⟨nonneg, fits⟩ := upward
  have before : a.seqNum - a.req.seqLen = last := by rw [next, BitVec.add_sub_cancel]
  rw [before] at fits
  have value : a.seqNum.toInt = last.toInt + a.req.seqLen.toInt := by
    rw [next]
    exact toInt_add_of_lt nonneg fits
  refine ⟨by omega, ?_⟩
  rw [block, value, Int.add_sub_cancel]

theorem granted_cons (a : Answer) :
    granted (a :: answers) = (if 0 < a.req.seqLen.toInt then a.block else ∅) ∪ granted answers := by
  ext n
  by_cases positive : 0 < a.req.seqLen.toInt <;> simp [granted, positive]

theorem Consecutive.upward_le (consecutive : Consecutive last answers) (upward : ∀ a ∈ answers, a.Upward) :
    last.toInt ≤ (lastGranted last answers).toInt := by
  induction answers generalizing last with
  | nil => exact Int.le_refl _
  | cons a answers ih =>
    obtain ⟨begins, rest⟩ := consecutive
    have first := (upward a List.mem_cons_self).block_eq begins
    have behind := ih rest fun b member => upward b (List.mem_cons_of_mem a member)
    rw [lastGranted_cons]
    exact first.1.trans behind

theorem Consecutive.noGap (consecutive : Consecutive last answers) (upward : ∀ a ∈ answers, a.Upward) :
    NoGap last answers := by
  induction answers generalizing last with
  | nil =>
    rw [NoGap, lastGranted, List.map_nil, List.getLastD_nil, Set.Ioc_self]
    simp [granted]
  | cons a answers ih =>
    obtain ⟨begins, rest⟩ := consecutive
    have later : ∀ b ∈ answers, b.Upward := fun b member => upward b (List.mem_cons_of_mem a member)
    obtain ⟨up, block⟩ := (upward a List.mem_cons_self).block_eq begins
    have first : (if 0 < a.req.seqLen.toInt then a.block else ∅) = Set.Ioc last.toInt a.seqNum.toInt := by
      split
      · exact block
      · rename_i none
        have nonneg := (upward a List.mem_cons_self).1
        have value : a.seqNum.toInt ≤ last.toInt := by
          rw [begins, toInt_add_of_lt nonneg (by have := last.toInt_lt; omega)]
          omega
        exact (Set.Ioc_eq_empty (not_lt.mpr value)).symm
    have behind : granted answers = _ := ih rest later
    rw [NoGap, granted_cons, first, behind, lastGranted_cons]
    exact Set.Ioc_union_Ioc_eq_Ioc up (rest.upward_le later)

end Consecutive

section Step

variable {argv : Pid → BitVec 32} {capacity : Nat}

def Iterations.Counting (r : Iterations) : Prop :=
  match r.state.server.pc with
  | .write => r.state.server.seqNum = r.before + r.state.server.request.seqLen ∧
      r.state.server.rspSeqNum = r.state.server.seqNum
  | _ => r.state.server.seqNum = r.before

def Iterations.Kept (r : Iterations) : Prop := ∀ seqNums ∈ r.undelivered, seqNums.2 = seqNums.1

theorem counting_start {s : State} (between : s.server.pc.between = true) :
    (Iterations.start s).Counting := by
  unfold Iterations.Counting Iterations.start
  split
  · rename_i at_
    rw [at_] at between
    cases between
  · rfl

theorem Iterations.Counting.same {r : Iterations} (counting : r.Counting) {pc : ServerPc}
    (at_ : r.state.server.pc = pc) (other : pc ≠ .write) : r.state.server.seqNum = r.before := by
  unfold Iterations.Counting at counting
  split at counting
  · rename_i writing
    exact absurd (at_.symm.trans writing) other
  · exact counting

theorem Iterations.counting_of_same {r : Iterations} (other : r.state.server.pc ≠ .write)
    (same : r.state.server.seqNum = r.before) : r.Counting := by
  unfold Iterations.Counting
  split
  · contradiction
  · exact same

inductive Iterations.Move (r : Iterations) : Action → Iterations → Prop where
  | client (pid : Pid) (outcome : Outcome) (t : State) (server : t.server = r.state.server)
      (answers : t.answers = r.state.answers) : Move r (.client pid outcome) { r with state := t }
  | inside (outcome : Outcome) (t : State) (before : r.state.server.pc ≠ .write)
      (after : t.server.pc ≠ .write) (inside : t.server.pc ≠ .read)
      (seqNum : t.server.seqNum = r.state.server.seqNum) (answers : t.answers = r.state.answers) :
      Move r (.server outcome) { r with state := t }
  | updated (outcome : Outcome) (at_ : r.state.server.pc = .update) :
      Move r (.server outcome) { r with state := updateSeqNum r.state }
  | unanswered (outcome : Outcome) (t : State) (before : r.state.server.pc ≠ .write)
      (at_ : t.server.pc = .read) (seqNum : t.server.seqNum = r.state.server.seqNum)
      (answers : t.answers = r.state.answers) : Move r (.server outcome) (r.finish t)
  | unwritten (errno : Errno) (at_ : r.state.server.pc = .write) :
      Move r (.server (.error errno)) (r.finish (r.state.serverAt .read))
  | answered (t : State) (pid : Pid) (at_ : r.state.server.pc = .write) (read : t.server.pc = .read)
      (seqNum : t.server.seqNum = r.state.server.seqNum)
      (answers : t.answers = r.state.answers ++ [⟨pid, r.state.server.request, r.state.server.rspSeqNum⟩]) :
      Move r (.server .done) (r.finish t)

theorem writeStep_cases {s t : State} {outcome : Outcome} (at_ : s.server.pc = .write)
    (stepped : serverStep s outcome = some t) :
    (∃ errno, outcome = .error errno ∧ t = s.serverAt .read) ∨
      (outcome = .done ∧ t.server = { s.server with pc := .read } ∧
        ∃ pid, t.answers = s.answers ++ [⟨pid, s.server.request, s.server.rspSeqNum⟩]) := by
  unfold serverStep at stepped
  rw [at_] at stepped
  cases outcome with
  | done =>
    dsimp only at stepped
    split at stepped
    · rename_i pid fds clientFd
      split at stepped
      · split at stepped
        · cases stepped
          exact .inr ⟨rfl, rfl, pid, rfl⟩
        · cases stepped
      · cases stepped
    · cases stepped
  | count n => cases stepped
  | error errno =>
    cases stepped
    exact .inl ⟨errno, rfl, rfl⟩

theorem ServerMove.outside_write {s t : State} (move : ServerMove s t) (before : s.server.pc ≠ .write) :
    (s.server.pc = .update ∧ t = updateSeqNum s) ∨
      (t.server.pc ≠ .write ∧ t.server.seqNum = s.server.seqNum ∧ t.answers = s.answers) := by
  cases move with
  | goto pc next => exact .inr ⟨next.not_write, rfl, rfl⟩
  | created at_ => exact .inr ⟨ServerPc.noConfusion, rfl, rfl⟩
  | discarded at_ => exact .inr ⟨before, rfl, rfl⟩
  | taken n at_ available positive =>
    right
    unfold readRequest
    split
    · exact ⟨ServerPc.noConfusion, rfl, rfl⟩
    · exact ⟨before, rfl, rfl⟩
  | openedClient at_ => exact .inr ⟨ServerPc.noConfusion, rfl, rfl⟩
  | updated at_ => exact .inl ⟨at_, rfl⟩
  | answered pid fds content at_ clientFd => exact absurd at_ before

theorem Iterations.step_moves {r r' : Iterations} {action : Action}
    (stepped : r.step argv capacity action = some r') : r.Move action r' := by
  obtain ⟨t, taken, moved⟩ := Option.map_eq_some_iff.mp stepped
  cases action with
  | client pid outcome =>
    obtain ⟨server, -, -, answers⟩ := (clientStep_moves taken).server
    cases moved
    exact .client pid outcome t server answers
  | server outcome =>
    dsimp only at moved
    by_cases at_ : r.state.server.pc = .write
    · rcases writeStep_cases at_ taken with ⟨errno, rfl, rfl⟩ | ⟨rfl, server, pid, answers⟩
      · have read : (r.state.serverAt .read).server.pc = .read := rfl
        rw [if_pos read] at moved
        cases moved
        exact .unwritten errno at_
      · have read : t.server.pc = .read := by rw [server]
        rw [if_pos read] at moved
        cases moved
        exact .answered t pid at_ read (by rw [server]) answers
    · rcases (serverStep_moves taken).outside_write at_ with ⟨updating, rfl⟩ | ⟨after, seqNum, answers⟩
      · rw [if_neg ServerPc.noConfusion] at moved
        cases moved
        exact .updated outcome updating
      · by_cases read : t.server.pc = .read
        · rw [if_pos read] at moved
          cases moved
          exact .unanswered outcome t at_ read seqNum answers
        · rw [if_neg read] at moved
          cases moved
          exact .inside outcome t at_ after read seqNum answers

theorem Iterations.finish_counting (r : Iterations) {t : State} (read : t.server.pc = .read) :
    (r.finish t).Counting :=
  counting_of_same (fun writing => ServerPc.noConfusion (read.symm.trans writing)) rfl

theorem Iterations.Move.counting {r r' : Iterations} {action : Action} (counting : r.Counting)
    (move : r.Move action r') : r'.Counting := by
  cases move with
  | client pid outcome t server answers =>
    unfold Counting at counting ⊢
    rw [server]
    exact counting
  | inside outcome t before after inside seqNum answers =>
    exact counting_of_same after (seqNum.trans (counting.same rfl before))
  | updated outcome at_ =>
    have same := counting.same at_ ServerPc.noConfusion
    show r.state.server.seqNum + r.state.server.request.seqLen = r.before + _ ∧ _
    rw [same]
    exact ⟨rfl, rfl⟩
  | unanswered outcome t before at_ seqNum answers => exact r.finish_counting at_
  | unwritten errno at_ => exact r.finish_counting rfl
  | answered t pid at_ read seqNum answers => exact r.finish_counting read

theorem Iterations.kept_finish {r : Iterations} {t : State} (undelivered : t.answers = r.state.answers) :
    (r.finish t).Kept ↔ r.Kept ∧ t.server.seqNum = r.before := by
  unfold Kept finish
  rw [if_pos undelivered, List.forall_mem_append, List.forall_mem_singleton]

theorem Iterations.writesDelivered_of_ne {r : Iterations} (other : r.state.server.pc ≠ .write)
    (action : Action) : r.WritesDelivered action := by
  unfold WritesDelivered
  split
  · exact fun writing => absurd writing other
  · trivial

/-- The `write` that fails is the one exit of the loop behind the update of the counter. -/
theorem Iterations.Move.kept_iff {r r' : Iterations} {action : Action} (counting : r.Counting)
    (move : r.Move action r') : r'.Kept ↔ r.Kept ∧ r.WritesDelivered action := by
  cases move with
  | client pid outcome t server answers => exact (and_iff_left trivial).symm
  | inside outcome t before after inside seqNum answers =>
    exact (and_iff_left (writesDelivered_of_ne before _)).symm
  | updated outcome at_ =>
    have other : r.state.server.pc ≠ .write := by
      rw [at_]
      exact ServerPc.noConfusion
    exact (and_iff_left (writesDelivered_of_ne other _)).symm
  | unanswered outcome t before at_ seqNum answers =>
    have same : t.server.seqNum = r.before := seqNum.trans (counting.same rfl before)
    rw [kept_finish answers]
    exact and_congr_right fun _ => iff_of_true same (writesDelivered_of_ne before _)
  | unwritten errno at_ =>
    unfold Counting at counting
    rw [at_] at counting
    have gone : r.state.server.seqNum = r.before ↔ r.state.server.request.seqLen = 0 := by
      rw [counting.1]
      exact BitVec.add_right_eq_self
    have answers : (r.state.serverAt .read).answers = r.state.answers := rfl
    rw [kept_finish answers]
    apply and_congr_right
    intro _
    show r.state.server.seqNum = r.before ↔ _
    rw [gone]
    exact ⟨fun none _ => none, fun delivered => delivered at_⟩
  | answered t pid at_ read seqNum answers =>
    have delivered : t.answers ≠ r.state.answers := by
      rw [answers]
      simp
    have same : (r.finish t).undelivered = r.undelivered := if_neg delivered
    unfold Kept
    rw [same]
    exact (and_iff_left trivial).symm

def Iterations.Granting (last : BitVec 32) (past : List Answer) (r : Iterations) : Prop :=
  ∃ answers, r.state.answers = past ++ answers ∧ Consecutive last answers ∧
    lastGranted last answers = r.before

theorem Iterations.Move.granting {last : BitVec 32} {past : List Answer} {r r' : Iterations} {action : Action}
    (counting : r.Counting) (granting : r.Granting last past) (delivered : r.WritesDelivered action)
    (move : r.Move action r') : r'.Granting last past := by
  obtain ⟨granted, whole, consecutive, ends⟩ := granting
  cases move with
  | client pid outcome t server answers => exact ⟨granted, answers.trans whole, consecutive, ends⟩
  | inside outcome t before after inside seqNum answers =>
    exact ⟨granted, answers.trans whole, consecutive, ends⟩
  | updated outcome at_ => exact ⟨granted, whole, consecutive, ends⟩
  | unanswered outcome t before at_ seqNum answers =>
    have same : t.server.seqNum = r.before := seqNum.trans (counting.same rfl before)
    exact ⟨granted, answers.trans whole, consecutive, ends.trans same.symm⟩
  | unwritten errno at_ =>
    unfold Counting at counting
    rw [at_] at counting
    have same : r.state.server.seqNum = r.before := by
      rw [counting.1, delivered at_]
      exact BitVec.add_zero _
    exact ⟨granted, whole, consecutive, ends.trans same.symm⟩
  | answered t pid at_ read seqNum answers =>
    unfold Counting at counting
    rw [at_] at counting
    obtain ⟨ahead, computed⟩ := counting
    refine ⟨granted ++ [⟨pid, r.state.server.request, r.state.server.rspSeqNum⟩], ?_, ?_, ?_⟩
    · show t.answers = _
      rw [answers, whole, List.append_assoc]
    · apply consecutive_concat consecutive
      show r.state.server.rspSeqNum = _ + r.state.server.request.seqLen
      rw [ends, computed, ahead]
    · rw [lastGranted_concat]
      show r.state.server.rspSeqNum = t.server.seqNum
      rw [seqNum, computed]

def Iterations.CountedUp (past : List Answer) (r : Iterations) : Prop :=
  ∃ answers, r.state.answers = past ++ answers ∧ (∀ a ∈ answers, a.Upward) ∧
    (r.state.server.pc = .write → 0 ≤ r.state.server.request.seqLen.toInt ∧
      (r.state.server.seqNum - r.state.server.request.seqLen).toInt +
        r.state.server.request.seqLen.toInt < 2 ^ 31)

theorem Iterations.Move.countedUp {past : List Answer} {r r' : Iterations} {action : Action}
    (counting : r.Counting) (countedUp : r.CountedUp past) (countsUp : CountsUp r.state action)
    (stepped : r.step argv capacity action = some r') (move : r.Move action r') : r'.CountedUp past := by
  obtain ⟨granted, whole, upward, pending⟩ := countedUp
  have notWriting {t : State} {pc : ServerPc} (at_ : t.server.pc = pc) (other : pc ≠ .write) :
      ¬ t.server.pc = .write := fun writing => other (at_.symm.trans writing)
  cases move with
  | client pid outcome t server answers =>
    refine ⟨granted, answers.trans whole, upward, ?_⟩
    rw [server]
    exact pending
  | inside outcome t before after inside seqNum answers =>
    exact ⟨granted, answers.trans whole, upward, fun writing => absurd writing after⟩
  | updated outcome at_ =>
    refine ⟨granted, whole, upward, fun _ => ?_⟩
    have bounds : 0 ≤ r.state.server.request.seqLen.toInt ∧
        r.state.server.seqNum.toInt + r.state.server.request.seqLen.toInt < 2 ^ 31 := by
      cases outcome with
      | done => exact countsUp at_
      | _ =>
        obtain ⟨t, taken, -⟩ := Option.map_eq_some_iff.mp stepped
        simp [FifoSeqnum.step, serverStep, at_] at taken
    show 0 ≤ r.state.server.request.seqLen.toInt ∧
      (r.state.server.seqNum + r.state.server.request.seqLen - r.state.server.request.seqLen).toInt +
        r.state.server.request.seqLen.toInt < 2 ^ 31
    rw [BitVec.add_sub_cancel]
    exact bounds
  | unanswered outcome t before at_ seqNum answers =>
    exact ⟨granted, answers.trans whole, upward, fun writing => absurd writing (notWriting at_ (by decide))⟩
  | unwritten errno at_ =>
    have back : (r.finish (r.state.serverAt .read)).state.server.pc = .read := rfl
    exact ⟨granted, whole, upward, fun writing => absurd writing (notWriting back (by decide))⟩
  | answered t pid at_ read seqNum answers =>
    unfold Counting at counting
    rw [at_] at counting
    refine ⟨granted ++ [⟨pid, r.state.server.request, r.state.server.rspSeqNum⟩], ?_, ?_, ?_⟩
    · show t.answers = _
      rw [answers, whole, List.append_assoc]
    · intro a member
      rcases List.mem_append.mp member with old | new
      · exact upward a old
      · rw [List.mem_singleton.mp new, Answer.Upward]
        dsimp only
        rw [counting.2]
        exact pending at_
    · exact fun writing => absurd writing (notWriting read (by decide))

/-- What is recorded beside the state does not get in the way of a run. -/
theorem exists_iterations {t : State} {actions : List Action} (r : Iterations)
    (run : exec (step argv capacity) actions r.state = some t) :
    ∃ r', exec (Iterations.step argv capacity) actions r = some r' ∧ r'.state = t := by
  induction actions generalizing r with
  | nil =>
    cases run
    exact ⟨r, rfl, rfl⟩
  | cons action actions ih =>
    obtain ⟨m, stepped, rest⟩ := exec_cons_some run
    have recorded : ∃ next, r.step argv capacity action = some next ∧ next.state = m := by
      unfold Iterations.step
      rw [stepped, Option.map_some]
      refine ⟨_, rfl, ?_⟩
      cases action with
      | client pid outcome => rfl
      | server outcome =>
        dsimp only
        split <;> rfl
    obtain ⟨next, taken, rfl⟩ := recorded
    obtain ⟨last, run, same⟩ := ih next rest
    exact ⟨last, by rw [exec_cons, taken]; exact run, same⟩

end Step

/-- An iteration that delivers no response leaves `seqNum` as it was if and only if no `write` of a response
    fails; each answer then goes on from the one before, and the numbers granted leave no gap where the lengths
    only count up. -/
theorem seqNum_kept_iff {argv : Pid → BitVec 32} {capacity : Nat} {s : State} {actions : List Action}
    {r : Iterations} (between : s.server.pc.between = true)
    (run : exec (Iterations.step argv capacity) actions (.start s) = some r) :
    (r.Kept ↔ Along (Iterations.step argv capacity) Iterations.WritesDelivered actions (.start s)) ∧
    (Along (Iterations.step argv capacity) Iterations.WritesDelivered actions (.start s) →
      Consecutive s.server.seqNum (r.state.answers.drop s.answers.length)) ∧
    (Along (Iterations.step argv capacity) (fun r action => r.WritesDelivered action ∧ CountsUp r.state action)
        actions (.start s) →
      NoGap s.server.seqNum (r.state.answers.drop s.answers.length)) := by
  have counting := counting_start between
  have tracked : r.Kept ↔ (Iterations.start s).Kept ∧
      Along (Iterations.step argv capacity) Iterations.WritesDelivered actions (.start s) := by
    apply along_iff (I := Iterations.Counting) (P := Iterations.Kept) ?_ ?_ counting run
    · intro r action r' counting stepped
      exact (Iterations.step_moves stepped).counting counting
    · intro r action r' counting stepped
      exact (Iterations.step_moves stepped).kept_iff counting
  have begins : (Iterations.start s).Kept := nofun
  rw [and_iff_right begins] at tracked
  have consecutive : Along (Iterations.step argv capacity) Iterations.WritesDelivered actions (.start s) →
      Consecutive s.server.seqNum (r.state.answers.drop s.answers.length) := by
    intro delivered
    have both : r.Counting ∧ r.Granting s.server.seqNum s.answers := by
      apply exec_invariant (I := fun r => r.Counting ∧ r.Granting s.server.seqNum s.answers) ?_ ?_ delivered run
      · rintro r action r' ⟨counting, granting⟩ delivered stepped
        have move := Iterations.step_moves stepped
        exact ⟨move.counting counting, move.granting counting granting delivered⟩
      · exact ⟨counting, [], (List.append_nil _).symm, trivial, rfl⟩
    obtain ⟨-, granted, whole, consecutive, -⟩ := both
    rw [whole, List.drop_left]
    exact consecutive
  refine ⟨tracked, consecutive, ?_⟩
  intro both
  obtain ⟨delivered, countsUp⟩ := (along_and _ actions _).mp both
  have upward : r.Counting ∧ r.CountedUp s.answers := by
    apply exec_invariant (I := fun r => r.Counting ∧ r.CountedUp s.answers) ?_ ?_ countsUp run
    · rintro r action r' ⟨counting, countedUp⟩ countsUp stepped
      have move := Iterations.step_moves stepped
      exact ⟨move.counting counting, move.countedUp counting countedUp countsUp stepped⟩
    · refine ⟨counting, [], (List.append_nil _).symm, nofun, ?_⟩
      intro writing
      have at_ : s.server.pc = .write := writing
      rw [at_] at between
      cases between
  obtain ⟨-, granted, whole, upward, -⟩ := upward
  have noGap := (consecutive delivered).noGap
  rw [whole, List.drop_left] at noGap ⊢
  exact noGap upward

def served (pid : Pid) (outcome : Outcome) : List Action :=
  List.replicate 4 (.client pid .done) ++ [.server (.count 8), .server .done, .server .done, .server outcome]

def firstWrite (outcome : Outcome) : List Action :=
  .server .done :: .server .done :: .server .done :: (served 7 outcome ++ served 9 .done)

theorem seqNum_kept_bothWritten :
    ∃ r, exec (Iterations.step (fun pid => pid) 4096) (firstWrite .done)
        (.start (initial false (fun _ => false) (List.replicate 8 0) 0)) = some r ∧
      NoGap 0 [⟨7, ⟨7, 7⟩, 7⟩, ⟨9, ⟨9, 9⟩, 16⟩] := by
  have run : exec (Iterations.step (fun pid => pid) 4096) (firstWrite .done)
      (.start (initial false (fun _ => false) (List.replicate 8 0) 0)) = some _ := rfl
  exact ⟨_, run, (seqNum_kept_iff rfl run).2.2 (by decide)⟩

/-- The first `write` fails, as for a client that has gone: its numbers 1 to 7 are lost. -/
theorem unwritten_response_leaves_gap :
    ¬ ∀ actions r, exec (Iterations.step (fun pid => pid) 4096) actions
        (.start (initial false (fun _ => false) (List.replicate 8 0) 0)) = some r →
      r.Kept ∧ NoGap 0 r.state.answers := by
  intro always
  have kept := (always (firstWrite (.error (.other 32))) _ rfl).1
  have lost : ((0, 7) : BitVec 32 × BitVec 32).2 = 0 := kept (0, 7) (by decide)
  exact absurd lost (by decide)

end SystemProgramming.FifoSeqnum
