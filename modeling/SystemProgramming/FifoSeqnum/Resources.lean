import SystemProgramming.FifoSeqnum.Moves
import SystemProgramming.Library.Descriptors

namespace SystemProgramming.FifoSeqnum

open Transition Descriptors

variable {argv : Pid → BitVec 32} {capacity : Nat} {serverFifo : Bool} {left : Pid → Bool}
  {req : List Byte} {rsp : BitVec 32} {φ : Type}

def State.descriptors (fifo : Pid → φ) (started : Descriptors φ) (s : State) : Descriptors φ :=
  started.openAll (s.server.fds.map fifo)

def Opens (s : State) : Action → Prop
  | .server .done => s.server.pc = .openClient
  | _ => False

instance (s : State) : (action : Action) → Decidable (Opens s action)
  | .server .done => inferInstanceAs (Decidable (_ = _))
  | .server (.count _) | .server (.error _) | .client _ _ => isFalse id

theorem serverStep_fds {s t : State} {outcome : Outcome}
    (stepped : serverStep s outcome = some t) :
    (Opens s (.server outcome) ∧ t.server.fds = s.server.request.pid :: s.server.fds) ∨
      (¬ Opens s (.server outcome) ∧ t.server.fds = s.server.fds) := by
  by_cases at_ : s.server.pc = .openClient
  · unfold serverStep at stepped
    simp only [at_] at stepped
    cases outcome with
    | done =>
      dsimp only at stepped
      split at stepped
      · cases stepped
        exact .inl ⟨at_, rfl⟩
      · cases stepped
    | count n => cases stepped
    | error errno =>
      cases stepped
      exact .inr ⟨id, rfl⟩
  · right
    constructor
    · cases outcome with
      | done => exact at_
      | count n => exact id
      | error errno => exact id
    · cases serverStep_moves stepped with
      | openedClient here => exact absurd here at_
      | taken n _ available positive =>
        unfold readRequest
        split <;> rfl
      | _ => rfl

theorem step_fds {s t : State} {action : Action} (stepped : step argv capacity s action = some t) :
    (Opens s action ∧ t.server.fds = s.server.request.pid :: s.server.fds) ∨
      (¬ Opens s action ∧ t.server.fds = s.server.fds) := by
  cases action with
  | server outcome => exact serverStep_fds stepped
  | client pid outcome => exact .inr ⟨id, by rw [(clientStep_moves stepped).server.1]⟩

theorem step_descriptors (fifo : Pid → φ) (started : Descriptors φ) {s t : State} {action : Action}
    (stepped : step argv capacity s action = some t) :
    (Opens s action ∧ t.descriptors fifo started =
      (s.descriptors fifo started).install (s.descriptors fifo started).lowest
        (fifo s.server.request.pid)) ∨
      (¬ Opens s action ∧ t.descriptors fifo started = s.descriptors fifo started) := by
  rcases step_fds stepped with ⟨opens, fds⟩ | ⟨quiet, fds⟩
  · refine .inl ⟨opens, ?_⟩
    unfold State.descriptors
    rw [fds, List.map_cons]
    rfl
  · refine .inr ⟨quiet, ?_⟩
    unfold State.descriptors
    rw [fds]

/-- A run, of one iteration or of any number of them, leaves the set of open descriptors as it was if
    and only if no client FIFO is opened in it: nothing in the loop closes one. -/
theorem openSet_kept_iff (fifo : Pid → φ) (started : Descriptors φ) {s t : State}
    {actions : List Action} (run : exec (step argv capacity) actions s = some t) :
    (t.descriptors fifo started).openSet = (s.descriptors fifo started).openSet ↔
      Along (step argv capacity) (fun s action => ¬ Opens s action) actions s := by
  have kept : ∀ m action n,
      (s.descriptors fifo started).openSet ⊆ (m.descriptors fifo started).openSet →
      step argv capacity m action = some n →
      (s.descriptors fifo started).openSet ⊆ (n.descriptors fifo started).openSet := by
    intro m action n grown stepped
    rcases step_descriptors fifo started stepped with ⟨-, opened⟩ | ⟨-, same⟩
    · rw [opened, openSet_install]
      exact grown.trans (Set.subset_insert _ _)
    · rw [same]
      exact grown
  have tracked : ∀ m action n,
      (s.descriptors fifo started).openSet ⊆ (m.descriptors fifo started).openSet →
      step argv capacity m action = some n →
      ((n.descriptors fifo started).openSet = (s.descriptors fifo started).openSet ↔
        (m.descriptors fifo started).openSet = (s.descriptors fifo started).openSet ∧
          ¬ Opens m action) := by
    intro m action n grown stepped
    rcases step_descriptors fifo started stepped with ⟨opens, opened⟩ | ⟨quiet, same⟩
    · rw [opened]
      exact iff_of_false (openSet_install_lowest_ne _ _ grown) (fun kept => kept.2 opens)
    · rw [same]
      exact (and_iff_left quiet).symm
  rw [along_iff kept tracked (Set.Subset.refl _) run]
  exact and_iff_right rfl

def entered : Descriptors String where
  file fd := ["terminal", "terminal", "terminal", "serverFd", "dummyFd"][fd]?
  limit := 5
  beyond _ far := List.getElem?_eq_none far

def untilRequest : List Action :=
  [.server .done, .server .done, .server .done] ++ List.replicate 4 (.client 7 .done)

theorem openSet_kept_unopened :
    ∃ t, exec (step (fun pid => pid) 4096)
        (untilRequest ++ [.server (.count 8), .server (.error (.other 2))])
        (initial false (fun _ => false) (List.replicate 8 0) 0) = some t ∧
      t.server.pc = .read ∧ t.taken = [⟨7, 7⟩] ∧
      (t.descriptors (fun _ => "clientFd") entered).openSet = entered.openSet := by
  have run : exec (step (fun pid => pid) 4096)
      (untilRequest ++ [.server (.count 8), .server (.error (.other 2))])
      (initial false (fun _ => false) (List.replicate 8 0) 0) = some _ := rfl
  have kept := openSet_kept_iff (fun _ => "clientFd") entered run
  exact ⟨_, run, rfl, by decide, kept.mpr (by decide)⟩

/-- One request is served: descriptor 5 stays open. -/
theorem served_keeps_open :
    ¬ ∀ (actions : List Action) (s t : State),
      Reaches (step (fun pid => pid) 4096) (fun _ _ => True)
        (initial false (fun _ => false) (List.replicate 8 0) 0) s →
      s.server.pc = .read → exec (step (fun pid => pid) 4096) actions s = some t →
      t.server.pc = .read →
        (t.descriptors (fun _ => "clientFd") entered).openSet =
          (s.descriptors (fun _ => "clientFd") entered).openSet := by
  intro always
  have same := always [.server (.count 8), .server .done, .server .done, .server .done] _ _
    ⟨untilRequest, along_true _ _, rfl⟩ rfl rfl rfl
  exact openSet_ne_of_file 5 (Option.some_ne_none "clientFd") rfl same

def ServerPc.inHand : ServerPc → Bool
  | .update | .write => true
  | _ => false

structure State.Paid (s : State) : Prop where
  written : s.answers.length ≤ s.server.fds.length
  inHand : s.server.pc.inHand = true → s.answers.length < s.server.fds.length

theorem ServerGoto.idle {pc next : ServerPc} (goto : ServerGoto pc next) : next.inHand = false := by
  cases goto with
  | unmade _ next =>
    rcases next with rfl | rfl
    · rfl
    · rfl
  | _ => rfl

theorem ServerMove.paid {s t : State} (move : ServerMove s t) (paid : s.Paid) : t.Paid := by
  cases move with
  | goto pc next =>
    refine ⟨paid.written, ?_⟩
    intro serving
    cases serving.symm.trans next.idle
  | created at_ => exact ⟨paid.written, nofun⟩
  | discarded at_ => exact paid
  | taken n at_ available positive =>
    unfold readRequest
    split
    · exact ⟨paid.written, nofun⟩
    · exact ⟨paid.written, paid.inHand⟩
  | openedClient at_ =>
    have opened := Nat.lt_succ_of_le paid.written
    exact ⟨Nat.le_of_lt opened, fun _ => opened⟩
  | updated at_ => exact ⟨paid.written, fun _ => paid.inHand (by rw [at_]; rfl)⟩
  | answered pid fds content at_ clientFd =>
    have used := paid.inHand (by rw [at_]; rfl)
    constructor
    case written =>
      show (s.answers ++ [_]).length ≤ s.server.fds.length
      rw [List.length_append]
      exact used
    case inHand => nofun

theorem step_paid {s t : State} {action : Action} (paid : s.Paid)
    (stepped : step argv capacity s action = some t) : t.Paid := by
  cases action with
  | server outcome => exact (serverStep_moves stepped).paid paid
  | client pid outcome =>
    rcases (clientStep_moves stepped).server with ⟨server, -, -, answers⟩
    constructor
    · rw [server, answers]
      exact paid.written
    · rw [server, answers]
      exact paid.inHand

/-- A process with `limit` descriptors answers no more requests than it had free ones. -/
theorem answers_within_limit (fifo : Pid → φ) (started : Descriptors φ) {s : State} {limit : Nat}
    (run : Reaches (step argv capacity) (fun _ _ => True) (initial serverFifo left req rsp) s)
    (within : (s.descriptors fifo started).openSet ⊆ Set.Iio limit) :
    started.openSet.ncard + s.answers.length ≤ limit := by
  have paid : s.Paid := by
    apply run.invariant (I := State.Paid)
    · exact ⟨Nat.le_refl 0, nofun⟩
    · exact fun _ _ _ paid _ stepped => step_paid paid stepped
  have size := Set.ncard_le_ncard within (Set.finite_lt_nat limit)
  have opened : (s.descriptors fifo started).openSet.ncard =
      started.openSet.ncard + s.server.fds.length := by
    rw [State.descriptors, ncard_openSet_openAll, List.length_map]
  have answered := paid.written
  have bound : (Set.Iio limit).ncard = limit := by
    rw [← Finset.coe_range, Set.ncard_coe_finset, Finset.card_range]
  omega

end SystemProgramming.FifoSeqnum
