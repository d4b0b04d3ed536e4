import Mathlib
import SystemProgramming.FifoSeqnum.Moves
import SystemProgramming.Library.Ledger

namespace SystemProgramming.FifoSeqnum

open Transition

variable {argv : Pid → BitVec 32} {capacity : Nat} {serverFifo : Bool} {left : Pid → Bool}
  {req : List Byte} {rsp : BitVec 32}

def Answer.block (a : Answer) : Set Int := Set.Ioc (a.seqNum.toInt - a.req.seqLen.toInt) a.seqNum.toInt

def CountsUp (s : State) : Action → Prop
  | .server .done => s.server.pc = .update → 0 ≤ s.server.request.seqLen.toInt ∧
      s.server.seqNum.toInt + s.server.request.seqLen.toInt < 2 ^ 31
  | _ => True

instance (s : State) : (action : Action) → Decidable (CountsUp s action)
  | .server .done => inferInstanceAs (Decidable (_ → _ ∧ _))
  | .server (.count _) | .server (.error _) | .client _ _ => isTrue trivial

def State.floor (s : State) : Int :=
  match s.server.pc with
  | .write => s.server.seqNum.toInt - s.server.request.seqLen.toInt
  | _ => s.server.seqNum.toInt

structure Granted (s : State) (l : Ledger Int) : Prop where
  blocks : l.blocks = s.answers.map Answer.block
  bound : l.bound ≤ s.floor
  waiting : s.server.pc = .write →
    s.server.rspSeqNum = s.server.seqNum ∧ 0 ≤ s.server.request.seqLen.toInt

theorem granted_initial : Granted (initial serverFifo left req rsp) (Ledger.empty 0) :=
  ⟨rfl, le_refl (0 : Int), nofun⟩

theorem State.floor_eq {s : State} (other : s.server.pc ≠ .write) : s.floor = s.server.seqNum.toInt := by
  unfold State.floor
  split
  · contradiction
  · rfl

theorem Granted.frame {s t : State} {l : Ledger Int} (granted : Granted s l) (pc : ServerPc)
    (answers : t.answers = s.answers) (seqNum : t.server.seqNum = s.server.seqNum)
    (now : t.server.pc = pc) (notWrite : pc ≠ .write) : Granted t l := by
  have other : t.server.pc ≠ .write := by rwa [now]
  refine ⟨by rw [answers]; exact granted.blocks, ?_, fun at_ => absurd at_ other⟩
  rw [State.floor_eq other, seqNum]
  have bound := granted.bound
  by_cases at_ : s.server.pc = .write
  · have positive := (granted.waiting at_).2
    have floor : s.floor = s.server.seqNum.toInt - s.server.request.seqLen.toInt := by
      simp only [State.floor, at_]
    omega
  · rwa [State.floor_eq at_] at bound

theorem ServerGoto.not_write {before pc : ServerPc} (next : ServerGoto before pc) : pc ≠ .write := by
  cases next with
  | unmade pc which => rcases which with rfl | rfl <;> decide
  | _ => decide

theorem toInt_add_of_lt {x y : BitVec 32} (nonneg : 0 ≤ y.toInt) (fits : x.toInt + y.toInt < 2 ^ 31) :
    (x + y).toInt = x.toInt + y.toInt := by
  have low := BitVec.le_toInt x
  rw [BitVec.toInt_add]
  apply Int.bmod_eq_of_le <;> omega

theorem ServerMove.granted {s t : State} {l : Ledger Int} (granted : Granted s l)
    (move : ServerMove s t)
    (countsUp : s.server.pc = .update → 0 ≤ s.server.request.seqLen.toInt ∧
      s.server.seqNum.toInt + s.server.request.seqLen.toInt < 2 ^ 31) :
    ∃ l', Granted t l' := by
  cases move with
  | goto pc next => exact ⟨l, granted.frame pc rfl rfl rfl next.not_write⟩
  | created at_ => exact ⟨l, granted.frame .openServer rfl rfl rfl (by decide)⟩
  | discarded at_ => exact ⟨l, granted⟩
  | taken n at_ available positive =>
    refine ⟨l, ?_⟩
    unfold readRequest
    dsimp only
    split
    · exact granted.frame .openClient rfl rfl rfl (by decide)
    · exact granted.frame .read rfl rfl at_ (by decide)
  | openedClient at_ => exact ⟨l, granted.frame .update rfl rfl rfl (by decide)⟩
  | updated at_ =>
    rcases countsUp at_ with ⟨nonneg, fits⟩
    have bound := granted.bound
    rw [State.floor_eq (by rw [at_]; decide)] at bound
    refine ⟨l, granted.blocks, ?_, fun _ => ⟨rfl, nonneg⟩⟩
    show l.bound ≤ (s.server.seqNum + s.server.request.seqLen).toInt - s.server.request.seqLen.toInt
    rw [toInt_add_of_lt nonneg fits]
    omega
  | answered pid fds content at_ clientFd =>
    rcases granted.waiting at_ with ⟨same, nonneg⟩
    have bound := granted.bound
    simp only [State.floor, at_] at bound
    have upward : s.server.seqNum.toInt - s.server.request.seqLen.toInt ≤ s.server.seqNum.toInt := by
      omega
    refine ⟨l.grant _ _ bound upward, ?_, le_refl _, nofun⟩
    show l.blocks ++ [_] = List.map _ (s.answers ++ [_])
    rw [List.map_append, granted.blocks, List.map_singleton, Answer.block, same]

theorem step_granted {s t : State} {l : Ledger Int} {action : Action} (granted : Granted s l)
    (countsUp : CountsUp s action) (stepped : step argv capacity s action = some t) :
    ∃ l', Granted t l' := by
  cases action with
  | server outcome =>
    apply (serverStep_moves stepped).granted granted
    intro at_
    cases outcome with
    | done => exact countsUp at_
    | _ => simp [step, serverStep, at_] at stepped
  | client pid outcome =>
    have move := clientStep_moves stepped
    refine ⟨l, ?_⟩
    cases move <;> exact ⟨granted.blocks, granted.bound, granted.waiting⟩

/-- In every run in which the counter only counts up, no number is granted twice. -/
theorem granted_disjoint {s : State}
    (run : Reaches (step argv capacity) CountsUp (initial serverFifo left req rsp) s) :
    s.answers.Pairwise fun a b => Disjoint a.block b.block := by
  have granted : ∃ l, Granted s l :=
    run.invariant (I := fun s => ∃ l, Granted s l) ⟨_, granted_initial⟩
      (fun _ _ _ ⟨_, granted⟩ countsUp stepped => step_granted granted countsUp stepped)
  rcases granted with ⟨l, granted⟩
  have disjoint := l.disjoint
  rw [granted.blocks, List.pairwise_map] at disjoint
  exact disjoint

def answeredInTurn (pids : List Pid) : List Action :=
  [.server .done, .server .done, .server .done] ++
    pids.flatMap fun pid => [.client pid .done, .client pid .done, .client pid .done,
      .client pid .done, .server (.count 8), .server .done, .server .done, .server .done]

theorem granted_answeredInTurn :
    ∃ s, exec (step (fun pid => pid) 4096) (answeredInTurn [7, 9])
        (initial false (fun _ => false) (List.replicate 8 0) 0) = some s ∧
      s.answers = [⟨7, ⟨7, 7⟩, 7⟩, ⟨9, ⟨9, 9⟩, 16⟩] ∧
      s.answers.Pairwise fun a b => Disjoint a.block b.block := by
  have run : Reaches (step (fun pid => pid) 4096) CountsUp
      (initial false (fun _ => false) (List.replicate 8 0) 0) _ := ⟨answeredInTurn [7, 9], by decide, rfl⟩
  exact ⟨_, rfl, by decide, granted_disjoint run⟩

theorem overlap_of_sublist (a b : Answer) (n : Int) {answers : List Answer} (two : [a, b].Sublist answers)
    (first : a.seqNum.toInt - a.req.seqLen.toInt < n ∧ n ≤ a.seqNum.toInt)
    (second : b.seqNum.toInt - b.req.seqLen.toInt < n ∧ n ≤ b.seqNum.toInt) :
    ¬ answers.Pairwise fun a b => Disjoint a.block b.block := by
  intro disjoint
  have apart := List.pairwise_pair.mp (disjoint.sublist two)
  exact Set.disjoint_left.mp apart first second

def backwards : Pid → BitVec 32
  | 8 => -5
  | _ => 5

def around : Pid → BitVec 32
  | 9 => 5
  | _ => 0x7fffffff

theorem granted_twice :
    (¬ ∀ s, Reaches (step backwards 4096) (fun _ _ => True)
        (initial false (fun _ => false) (List.replicate 8 0) 0) s →
          s.answers.Pairwise fun a b => Disjoint a.block b.block) ∧
    ¬ ∀ s, Reaches (step around 4096) (fun _ _ => True)
        (initial false (fun _ => false) (List.replicate 8 0) 0) s →
          s.answers.Pairwise fun a b => Disjoint a.block b.block := by
  constructor
  · intro always
    have disjoint := always _ ⟨answeredInTurn [7, 8, 9], along_true _ _, rfl⟩
    exact overlap_of_sublist ⟨7, ⟨5, 7⟩, 5⟩ ⟨9, ⟨5, 9⟩, 5⟩ 1 (by decide) (by decide) (by decide) disjoint
  · intro always
    have disjoint := always _ ⟨answeredInTurn [7, 8, 9], along_true _ _, rfl⟩
    exact overlap_of_sublist ⟨7, ⟨0x7fffffff, 7⟩, 0x7fffffff⟩ ⟨9, ⟨5, 9⟩, 3⟩ 3 (by decide) (by decide)
      (by decide) disjoint

end SystemProgramming.FifoSeqnum
