import Mathlib.Algebra.Ring.Nat
import SystemProgramming.Library.Weights
import SystemProgramming.MultiWait.Model

namespace SystemProgramming.MultiWait

open Transition

variable {sleepTimes : List Int}

structure Tree (bound : Nat) (s : State) : Prop where
  root : ∃ p : Process, s[0]? = some p ∧ p.parent = none
  descends : ∀ (i : Nat) (p : Process), s[i]? = some p → i ≠ 0 → p.parent ≠ none
  older : ∀ (i : Nat) (p : Process) (q : Nat), s[i]? = some p → p.parent = some q → q < i
  alive : ∀ (i : Nat) (c : Process) (q : Nat), s[i]? = some c → c.unreapedChildOf q = true →
    ∃ p : Process, s[q]? = some p ∧ p.pc.live = true
  forks : ∀ (i : Nat) (p : Process), s[i]? = some p → p.pc = .fork → p.j ≤ bound
  sleeps : ∀ (i : Nat) (p : Process), s[i]? = some p → p.pc = .sleep → p.j < bound

theorem unreapedChildOf_iff (pid : Nat) (p : Process) :
    p.unreapedChildOf pid = true ↔ p.parent = some pid ∧ p.pc.isReaped = false := by
  unfold Process.unreapedChildOf
  exact decide_eq_true_iff

theorem inside {s : State} {pid : Nat} {p : Process} (here : s[pid]? = some p) : pid < s.length :=
  (List.getElem?_eq_some_iff.mp here).1

theorem Tree.set {bound : Nat} {s : State} (tree : Tree bound s) {pid : Nat} {p p' : Process}
    (here : s[pid]? = some p) (parent : p'.parent = p.parent)
    (unreaped : p'.pc.isReaped = false → p.pc.isReaped = false)
    (lives : p.pc.live = true → p'.pc.live = true ∨ ∀ c ∈ s, c.unreapedChildOf pid = false)
    (forks : p'.pc = .fork → p'.j ≤ bound) (sleeps : p'.pc = .sleep → p'.j < bound) :
    Tree bound (s.set pid p') where
  root := by
    rcases tree.root with ⟨r, first, orphan⟩
    by_cases same : pid = 0
    · subst same
      rw [here, Option.some.injEq] at first
      refine ⟨p', List.getElem?_set_self (inside here), ?_⟩
      rw [parent, first, orphan]
    · exact ⟨r, by rw [List.getElem?_set_ne same, first], orphan⟩
  descends := by
    intro i q there other
    rcases Holders.getElem?_set_cases there with ⟨rfl, rfl⟩ | ⟨-, before⟩
    · rw [parent]
      exact tree.descends i p here other
    · exact tree.descends i q before other
  older := by
    intro i q r there child
    rcases Holders.getElem?_set_cases there with ⟨rfl, rfl⟩ | ⟨-, before⟩
    · exact tree.older i p r here (parent ▸ child)
    · exact tree.older i q r before child
  alive := by
    intro i c q there child
    have before : ∃ c', s[i]? = some c' ∧ c'.unreapedChildOf q = true := by
      rcases Holders.getElem?_set_cases there with ⟨rfl, rfl⟩ | ⟨-, before⟩
      · rw [unreapedChildOf_iff] at child
        refine ⟨p, here, (unreapedChildOf_iff q p).mpr ⟨?_, unreaped child.2⟩⟩
        rw [← parent, child.1]
      · exact ⟨c, before, child⟩
    rcases before with ⟨c', old, still⟩
    rcases tree.alive i c' q old still with ⟨r, present, live⟩
    by_cases same : pid = q
    · subst same
      rw [here, Option.some.injEq] at present
      rw [← present] at live
      rcases lives live with goes | alone
      · exact ⟨p', List.getElem?_set_self (inside here), goes⟩
      · rw [alone c' (List.mem_of_getElem? old)] at still
        cases still
    · exact ⟨r, by rw [List.getElem?_set_ne same, present], live⟩
  forks := by
    intro i q there at_
    rcases Holders.getElem?_set_cases there with ⟨rfl, rfl⟩ | ⟨-, before⟩
    · exact forks at_
    · exact tree.forks i q before at_
  sleeps := by
    intro i q there at_
    rcases Holders.getElem?_set_cases there with ⟨rfl, rfl⟩ | ⟨-, before⟩
    · exact sleeps at_
    · exact tree.sleeps i q before at_

theorem getElem?_concat_cases {s : State} {c q : Process} {i : Nat} (there : (s ++ [c])[i]? = some q) :
    (i = s.length ∧ q = c) ∨ s[i]? = some q := by
  by_cases old : i < s.length
  · rw [List.getElem?_append_left old] at there
    exact .inr there
  · have last : i = s.length := by
      have inside : i < (s ++ [c]).length := (List.getElem?_eq_some_iff.mp there).1
      rw [List.length_append, List.length_singleton] at inside
      omega
    rw [last, List.getElem?_concat_length, Option.some.injEq] at there
    exact .inl ⟨last, there.symm⟩

theorem Tree.concat {bound : Nat} {s : State} (tree : Tree bound s) {pid : Nat} {p c : Process}
    (here : s[pid]? = some p) (live : p.pc.live = true) (parent : c.parent = some pid)
    (at_ : c.pc = .sleep) (more : c.j < bound) : Tree bound (s ++ [c]) := by
  have kept : ∀ (i : Nat) (q : Process), s[i]? = some q → (s ++ [c])[i]? = some q := by
    intro i q there
    rw [List.getElem?_append_left (inside there), there]
  constructor
  case root =>
    rcases tree.root with ⟨r, first, orphan⟩
    exact ⟨r, kept 0 r first, orphan⟩
  case descends =>
    intro i q there other
    rcases getElem?_concat_cases there with ⟨-, rfl⟩ | before
    · rw [parent]
      exact Option.some_ne_none pid
    · exact tree.descends i q before other
  case older =>
    intro i q r there child
    rcases getElem?_concat_cases there with ⟨rfl, rfl⟩ | before
    · rw [parent, Option.some.injEq] at child
      rw [← child]
      exact inside here
    · exact tree.older i q r before child
  case alive =>
    intro i q r there child
    rcases getElem?_concat_cases there with ⟨rfl, rfl⟩ | before
    · rw [unreapedChildOf_iff, parent, Option.some.injEq] at child
      exact ⟨p, by rw [← child.1, kept pid p here], live⟩
    · rcases tree.alive i q r before child with ⟨q', present, lives⟩
      exact ⟨q', kept r q' present, lives⟩
  case forks =>
    intro i q there fork
    rcases getElem?_concat_cases there with ⟨-, rfl⟩ | before
    · rw [at_] at fork
      cases fork
    · exact tree.forks i q before fork
  case sleeps =>
    intro i q there sleep
    rcases getElem?_concat_cases there with ⟨-, rfl⟩ | before
    · exact more
    · exact tree.sleeps i q before sleep

theorem tree_initial (bound : Nat) : Tree bound initial := by
  have only : ∀ (i : Nat) (p : Process), initial[i]? = some p → i = 0 ∧ p = ⟨none, .usage, 0, 0⟩ := by
    intro i p there
    rcases getElem?_concat_cases (s := []) there with ⟨rfl, rfl⟩ | before
    · exact ⟨rfl, rfl⟩
    · cases before
  constructor
  case root => exact ⟨_, rfl, rfl⟩
  case descends =>
    intro i p there other
    exact absurd (only i p there).1 other
  case older =>
    intro i p q there child
    rw [(only i p there).2] at child
    cases child
  case alive =>
    intro i p q there child
    rw [(only i p there).2] at child
    cases child
  case forks =>
    intro i p there fork
    rw [(only i p there).2] at fork
    cases fork
  case sleeps =>
    intro i p there sleep
    rw [(only i p there).2] at sleep
    cases sleep

/-- Nobody waits for itself, so the parent is where it was. -/
theorem parent_kept {s : State} {pid child : Nat} {p c : Process} {status : ExitStatus}
    (here : s[pid]? = some p) (there : s[child]? = some c) (at_ : p.pc = .wait)
    (dead : c.pc = .zombie status) (c' : Process) : (s.set child c')[pid]? = some p := by
  have other : child ≠ pid := by
    rintro rfl
    rw [here, Option.some.injEq] at there
    rw [there, dead] at at_
    cases at_
  rw [List.getElem?_set_ne other, here]

theorem tree_step {s t : State} (tree : Tree (argc sleepTimes) s) (some_times : 2 ≤ argc sleepTimes)
    (move : Move sleepTimes s t) : Tree (argc sleepTimes) t := by
  cases move with
  | refused pid p here at_ few => omega
  | accepted pid p here at_ enough =>
    exact tree.set here rfl (fun _ => by rw [at_]; rfl) (fun _ => .inl rfl)
      (fun _ => Nat.zero_le _) (fun sleep => by cases sleep)
  | forked pid p here at_ more =>
    have parent : Tree (argc sleepTimes) (s.set pid { p with j := p.j + 1 }) := by
      refine tree.set here rfl (fun unreaped => unreaped) (fun live => .inl live) ?_ ?_
      · intro _
        exact more
      · intro sleep
        rw [at_] at sleep
        cases sleep
    refine parent.concat (List.getElem?_set_self (inside here)) ?_ rfl rfl more
    rw [at_]
    rfl
  | forkedAll pid p here at_ last =>
    exact tree.set here rfl (fun _ => by rw [at_]; rfl) (fun _ => .inl rfl)
      (fun fork => by cases fork) (fun sleep => by cases sleep)
  | slept pid p here at_ =>
    refine tree.set here rfl (fun _ => by rw [at_]; rfl) (fun _ => .inl rfl) ?_ ?_
    · intro _
      exact tree.sleeps pid p here at_
    · intro sleep
      cases sleep
  | finished pid p here at_ alone =>
    exact tree.set here rfl (fun _ => by rw [at_]; rfl) (fun _ => .inr alone)
      (fun fork => by cases fork) (fun sleep => by cases sleep)
  | reaped pid child p c status here there at_ dead own =>
    have waited : Tree (argc sleepTimes) (s.set child { c with pc := .reaped status }) := by
      refine tree.set there rfl ?_ ?_ ?_ ?_
      · intro unreaped
        cases unreaped
      · intro live
        rw [dead] at live
        cases live
      · intro fork
        cases fork
      · intro sleep
        cases sleep
    have still := parent_kept here there at_ dead { c with pc := .reaped status }
    refine waited.set still rfl (fun unreaped => unreaped) (fun live => .inl live) ?_ ?_
    · intro fork
      rw [at_] at fork
      cases fork
    · intro sleep
      rw [at_] at sleep
      cases sleep

/-- A process lives no longer than its parent, so the initial process is the last to exit. -/
theorem Tree.all_exited {bound : Nat} {s : State} (tree : Tree bound s) (done : Done s) (i : Nat)
    (p : Process) (here : s[i]? = some p) : p.pc.live = false := by
  induction i using Nat.strongRecOn generalizing p with
  | _ i ih =>
    by_cases first : i = 0
    · rcases done with ⟨r, root, exited⟩
      rw [first, root, Option.some.injEq] at here
      rw [← here, exited]
    · by_contra live
      rw [Bool.not_eq_false] at live
      cases parent : p.parent with
      | none => exact tree.descends i p here first parent
      | some q =>
        have unreaped : p.pc.isReaped = false := by
          cases at_ : p.pc with
          | reaped status =>
            rw [at_] at live
            cases live
          | _ => rfl
        have child : p.unreapedChildOf q = true := (unreapedChildOf_iff q p).mpr ⟨parent, unreaped⟩
        rcases tree.alive i p q here child with ⟨above, present, lives⟩
        rw [ih q (tree.older i p q here parent) above present] at lives
        cases lives

def weight (bound : Nat) (p : Process) : Nat :=
  match p.pc with
  | .usage => 2 ^ bound
  | .fork => 2 ^ (bound - p.j)
  | .sleep => 2 ^ (bound - (p.j + 1))
  | .wait | .zombie _ | .reaped _ => 1

theorem weight_of_exited {bound : Nat} {p : Process} (exited : p.pc.live = false) :
    weight bound p = 1 := by
  unfold weight
  cases at_ : p.pc with
  | zombie status | reaped status => rfl
  | _ => simp [at_, Pc.live] at exited

theorem weight_step {s t : State} (tree : Tree (argc sleepTimes) s) (some_times : 2 ≤ argc sleepTimes)
    (move : Move sleepTimes s t) :
    Weights.total (weight (argc sleepTimes)) t = Weights.total (weight (argc sleepTimes)) s := by
  -- What a process becomes on its own weighs as much as it did.
  have kept : ∀ pid p p', s[pid]? = some p → weight (argc sleepTimes) p' = weight (argc sleepTimes) p →
      Weights.total (weight (argc sleepTimes)) (s.set pid p') =
        Weights.total (weight (argc sleepTimes)) s :=
    fun _ _ _ here same => Weights.total_set_of_same here same
  cases move with
  | refused pid p here at_ few => omega
  | accepted pid p here at_ enough =>
    apply kept pid p _ here
    simp only [weight, at_, Nat.sub_zero]
  | forked pid p here at_ more =>
    have exchanged := Weights.total_set (w := weight (argc sleepTimes))
      (b := { p with j := p.j + 1 }) here
    have before : weight (argc sleepTimes) p = 2 ^ (argc sleepTimes - p.j) := by
      simp only [weight, at_]
    have after : weight (argc sleepTimes) { p with j := p.j + 1 } =
        2 ^ (argc sleepTimes - (p.j + 1)) := by
      simp only [weight, at_]
    have doubles : 2 ^ (argc sleepTimes - p.j) = 2 * 2 ^ (argc sleepTimes - (p.j + 1)) := by
      rw [show argc sleepTimes - p.j = argc sleepTimes - (p.j + 1) + 1 by omega, Nat.pow_succ]
      omega
    have child : Weights.total (weight (argc sleepTimes)) [{ p with parent := some pid, pc := .sleep }] =
        2 ^ (argc sleepTimes - (p.j + 1)) := Nat.add_zero _
    rw [Weights.total_append, child]
    rw [before, after, doubles] at exchanged
    omega
  | forkedAll pid p here at_ last =>
    apply kept pid p _ here
    have bound := tree.forks pid p here at_
    have all : argc sleepTimes - p.j = 0 := by omega
    simp only [weight, at_, all, Nat.pow_zero]
  | slept pid p here at_ =>
    apply kept pid p _ here
    simp only [weight, at_]
  | finished pid p here at_ alone =>
    apply kept pid p _ here
    simp only [weight, at_]
  | reaped pid child p c status here there at_ dead own =>
    have still := parent_kept here there at_ dead { c with pc := .reaped status }
    have first := kept child c { c with pc := .reaped status } there (by simp only [weight, dead])
    have second := Weights.total_set (w := weight (argc sleepTimes))
      (b := { p with numDead := p.numDead + 1 }) still
    have same : weight (argc sleepTimes) { p with numDead := p.numDead + 1 } =
        weight (argc sleepTimes) p := rfl
    omega

theorem weight_initial (bound : Nat) : Weights.total (weight bound) initial = 2 ^ bound := Nat.add_zero _

def childOfInitial (p : Process) : Nat := if p.unreapedChildOf 0 = true then 1 else 0

def Process.WaitsFor (bound children : Nat) (r : Process) : Prop :=
  match r.pc with
  | .usage => children = 0
  | .fork => children = r.j
  | .sleep => False
  | .wait => r.numDead + children = bound
  | .zombie .success => r.numDead = bound
  | .zombie .failure | .reaped _ => True

theorem Process.waitsFor_wait {bound children : Nat} {r : Process} (at_ : r.pc = .wait) :
    r.WaitsFor bound children ↔ r.numDead + children = bound := by
  unfold Process.WaitsFor
  rw [at_]

def Waits (bound : Nat) (s : State) : Prop :=
  ∀ r, s[0]? = some r → r.WaitsFor bound (Weights.total childOfInitial s)

theorem childOfInitial_of_same {p p' : Process} (parent : p'.parent = p.parent)
    (reaped : p'.pc.isReaped = p.pc.isReaped) : childOfInitial p' = childOfInitial p := by
  unfold childOfInitial Process.unreapedChildOf
  rw [parent, reaped]

theorem Waits.set {bound : Nat} {s : State} {pid : Nat} {p p' : Process} (waits : Waits bound s)
    (here : s[pid]? = some p) (same : childOfInitial p' = childOfInitial p)
    (next : pid = 0 → p.WaitsFor bound (Weights.total childOfInitial s) →
      p'.WaitsFor bound (Weights.total childOfInitial s)) : Waits bound (s.set pid p') := by
  intro r first
  rw [Weights.total_set_of_same here same]
  by_cases initial_ : pid = 0
  · subst initial_
    rw [List.getElem?_set_self (inside here), Option.some.injEq] at first
    rw [← first]
    exact next rfl (waits p here)
  · rw [List.getElem?_set_ne initial_] at first
    exact waits r first

/-- The initial process counts its own `fork`, and no other process's. -/
theorem Waits.forked {bound : Nat} {s : State} {pid : Nat} {p : Process} (waits : Waits bound s)
    (tree : Tree bound s) (here : s[pid]? = some p) (at_ : p.pc = .fork) :
    Waits bound (s.set pid { p with j := p.j + 1 } ++
      [{ p with parent := some pid, pc := .sleep }]) := by
  have same : Weights.total childOfInitial (s.set pid { p with j := p.j + 1 }) =
      Weights.total childOfInitial s :=
    Weights.total_set_of_same here (childOfInitial_of_same rfl rfl)
  have parent : (s.set pid { p with j := p.j + 1 })[pid]? = some { p with j := p.j + 1 } :=
    List.getElem?_set_self (inside here)
  have grown : Weights.total childOfInitial (s.set pid { p with j := p.j + 1 } ++
      [{ p with parent := some pid, pc := .sleep }]) =
        Weights.total childOfInitial s + if pid = 0 then 1 else 0 := by
    rw [Weights.total_append, same]
    by_cases initial_ : pid = 0 <;>
      simp [Weights.total, childOfInitial, Process.unreapedChildOf, initial_, Pc.isReaped]
  intro r first
  rcases tree.root with ⟨old, root, -⟩
  rw [List.getElem?_append_left (by rw [List.length_set]; exact inside root)] at first
  by_cases initial_ : pid = 0
  · subst initial_
    have before := waits p here
    simp only [Process.WaitsFor, at_] at before
    rw [parent, Option.some.injEq] at first
    rw [← first, grown, if_pos rfl, before]
    simp only [Process.WaitsFor, at_]
  · rw [List.getElem?_set_ne initial_] at first
    rw [grown, if_neg initial_]
    exact waits r first

theorem Waits.reaped {bound : Nat} {s : State} {pid child : Nat} {p c : Process} {status : ExitStatus}
    (waits : Waits bound s) (tree : Tree bound s) (here : s[pid]? = some p)
    (there : s[child]? = some c) (at_ : p.pc = .wait) (dead : c.pc = .zombie status)
    (own : c.parent = some pid) :
    Waits bound ((s.set child { c with pc := .reaped status }).set pid
      { p with numDead := p.numDead + 1 }) := by
  have younger : pid < child := tree.older child c pid there own
  have still : (s.set child { c with pc := .reaped status })[pid]? = some p := by
    rw [List.getElem?_set_ne (by omega), here]
  have first := Weights.total_set (w := childOfInitial) (b := { c with pc := .reaped status }) there
  have second := Weights.total_set (w := childOfInitial)
    (b := { p with numDead := p.numDead + 1 }) still
  have parent : childOfInitial { p with numDead := p.numDead + 1 } = childOfInitial p := rfl
  have gone : childOfInitial { c with pc := .reaped status } = 0 := by
    simp [childOfInitial, Process.unreapedChildOf, Pc.isReaped]
  have there_ : childOfInitial c = if pid = 0 then 1 else 0 := by
    by_cases initial_ : pid = 0 <;>
      simp [childOfInitial, Process.unreapedChildOf, own, dead, Pc.isReaped, initial_]
  intro r root
  by_cases initial_ : pid = 0
  · subst initial_
    have count := waits p here
    simp only [Process.WaitsFor, at_] at count
    rw [List.getElem?_set_self (inside still), Option.some.injEq] at root
    rw [if_pos rfl] at there_
    have still_waits : r.pc = .wait := by rw [← root, at_]
    have counted : r.numDead = p.numDead + 1 := by rw [← root]
    rw [Process.waitsFor_wait still_waits]
    omega
  · rw [List.getElem?_set_ne initial_, List.getElem?_set_ne (by omega)] at root
    rw [if_neg initial_] at there_
    have same : Weights.total childOfInitial ((s.set child { c with pc := .reaped status }).set pid
        { p with numDead := p.numDead + 1 }) = Weights.total childOfInitial s := by omega
    rw [same]
    exact waits r root

theorem waits_step {s t : State} (tree : Tree (argc sleepTimes) s) (some_times : 2 ≤ argc sleepTimes)
    (waits : Waits (argc sleepTimes) s) (move : Move sleepTimes s t) : Waits (argc sleepTimes) t := by
  cases move with
  | refused pid p here at_ few => omega
  | accepted pid p here at_ enough =>
    refine waits.set here (childOfInitial_of_same rfl (by rw [at_]; rfl)) ?_
    intro _ count
    simp only [Process.WaitsFor, at_] at count
    exact count
  | forked pid p here at_ more => exact waits.forked tree here at_
  | forkedAll pid p here at_ last =>
    refine waits.set here (childOfInitial_of_same rfl (by rw [at_]; rfl)) ?_
    intro _ count
    simp only [Process.WaitsFor, at_] at count
    have bound := tree.forks pid p here at_
    show 0 + Weights.total childOfInitial s = argc sleepTimes
    omega
  | slept pid p here at_ =>
    refine waits.set here (childOfInitial_of_same rfl (by rw [at_]; rfl)) ?_
    intro _ never
    simp only [Process.WaitsFor, at_] at never
  | finished pid p here at_ alone =>
    refine waits.set here (childOfInitial_of_same rfl (by rw [at_]; rfl)) ?_
    rintro rfl count
    simp only [Process.WaitsFor, at_] at count
    have nobody : Weights.total childOfInitial s = s.length * 0 := by
      apply Weights.total_const
      intro c member
      unfold childOfInitial
      rw [alone c member]
      rfl
    show p.numDead = argc sleepTimes
    omega
  | reaped pid child p c status here there at_ dead own =>
    exact waits.reaped tree here there at_ dead own

theorem waits_initial (bound : Nat) : Waits bound initial := by
  intro r first
  cases first
  rfl

def forkRank : Nat → Nat
  | 0 => 3
  | left + 1 => 2 * forkRank left + 2

def rank (bound : Nat) (p : Process) : Nat :=
  match p.pc with
  | .usage => forkRank bound + 1
  | .fork => forkRank (bound - p.j)
  | .sleep => forkRank (bound - (p.j + 1)) + 1
  | .wait => 2
  | .zombie _ => 1
  | .reaped _ => 0

theorem forkRank_pos (left : Nat) : 3 ≤ forkRank left := by
  induction left with
  | zero => exact Nat.le_refl 3
  | succ left ih =>
    rw [forkRank]
    omega

theorem rank_lt {s t : State} (move : Move sleepTimes s t) :
    Weights.total (rank (argc sleepTimes)) t < Weights.total (rank (argc sleepTimes)) s := by
  have lowered : ∀ pid p p', s[pid]? = some p → rank (argc sleepTimes) p' < rank (argc sleepTimes) p →
      Weights.total (rank (argc sleepTimes)) (s.set pid p') <
        Weights.total (rank (argc sleepTimes)) s := by
    intro pid p p' here less
    have exchanged := Weights.total_set (w := rank (argc sleepTimes)) (b := p') here
    omega
  have positive := forkRank_pos (argc sleepTimes)
  cases move with
  | refused pid p here at_ few =>
    apply lowered pid p _ here
    simp only [rank, at_]
    omega
  | accepted pid p here at_ enough =>
    apply lowered pid p _ here
    simp only [rank, at_, Nat.sub_zero]
    omega
  | forked pid p here at_ more =>
    have exchanged := Weights.total_set (w := rank (argc sleepTimes))
      (b := { p with j := p.j + 1 }) here
    have before : rank (argc sleepTimes) p = 2 * forkRank (argc sleepTimes - (p.j + 1)) + 2 := by
      simp only [rank, at_]
      rw [show argc sleepTimes - p.j = argc sleepTimes - (p.j + 1) + 1 by omega, forkRank]
    have after : rank (argc sleepTimes) { p with j := p.j + 1 } =
        forkRank (argc sleepTimes - (p.j + 1)) := by
      simp only [rank, at_]
    have child : Weights.total (rank (argc sleepTimes)) [{ p with parent := some pid, pc := .sleep }] =
        forkRank (argc sleepTimes - (p.j + 1)) + 1 := Nat.add_zero _
    rw [Weights.total_append, child]
    omega
  | forkedAll pid p here at_ last =>
    apply lowered pid p _ here
    have some_left := forkRank_pos (argc sleepTimes - p.j)
    simp only [rank, at_]
    omega
  | slept pid p here at_ =>
    apply lowered pid p _ here
    simp only [rank, at_]
    omega
  | finished pid p here at_ alone =>
    apply lowered pid p _ here
    simp only [rank, at_]
    omega
  | reaped pid child p c status here there at_ dead own =>
    have still := parent_kept here there at_ dead { c with pc := .reaped status }
    have first := lowered child c { c with pc := .reaped status } there (by
      simp only [rank, dead]
      omega)
    have second := Weights.total_set (w := rank (argc sleepTimes))
      (b := { p with numDead := p.numDead + 1 }) still
    have same : rank (argc sleepTimes) { p with numDead := p.numDead + 1 } =
        rank (argc sleepTimes) p := rfl
    omega

theorem exists_youngest {s : State} (i : Nat) (p : Process) (here : s[i]? = some p)
    (live : p.pc.live = true) : ∃ k q, s[k]? = some q ∧ q.pc.live = true ∧
      ∀ (l : Nat) (r : Process), k < l → s[l]? = some r → r.pc.live = false := by
  induction left : s.length - i using Nat.strongRecOn generalizing i p with
  | _ left_ ih =>
    by_cases younger : ∃ k q, i < k ∧ s[k]? = some q ∧ q.pc.live = true
    · rcases younger with ⟨k, q, less, there, lives⟩
      have bound := inside there
      exact ih (s.length - k) (by omega) k q there lives rfl
    · refine ⟨i, p, here, live, ?_⟩
      intro l r less there
      by_contra lives
      rw [Bool.not_eq_false] at lives
      exact younger ⟨l, r, less, there, lives⟩

theorem Tree.progress {s : State} (tree : Tree (argc sleepTimes) s) (running : ¬ Done s) :
    ∃ action t, ForksSucceed s action ∧ step sleepTimes s action = some t := by
  rcases tree.root with ⟨r, root, -⟩
  have live : r.pc.live = true := by
    by_contra exited
    exact running ⟨r, root, (Bool.not_eq_true _).mp exited⟩
  rcases exists_youngest 0 r root live with ⟨k, q, here, lives, younger⟩
  have ran : ∀ outcome, ForksSucceed s (.run k outcome) →
      (runProcess sleepTimes s k q outcome).isSome = true →
        ∃ action t, ForksSucceed s action ∧ step sleepTimes s action = some t := by
    intro outcome succeed enabled
    rcases Option.isSome_iff_exists.mp enabled with ⟨t, taken⟩
    refine ⟨.run k outcome, t, succeed, ?_⟩
    rw [step, here]
    exact taken
  cases at_ : q.pc with
  | usage =>
    apply ran .done trivial
    simp only [runProcess, at_]
    by_cases few : argc sleepTimes < 2 <;> simp [few]
  | fork =>
    apply ran .done trivial
    simp only [runProcess, at_]
    by_cases more : q.j < argc sleepTimes <;> simp [more]
  | sleep =>
    apply ran .done trivial
    simp [runProcess, at_]
  | wait =>
    by_cases waits : s.any (Process.unreapedChildOf k) = true
    · rcases List.any_eq_true.mp waits with ⟨c, member, child⟩
      rcases List.getElem?_of_mem member with ⟨i, there⟩
      have own := (unreapedChildOf_iff k c).mp child
      have exited := younger i c (tree.older i c k there own.1) there
      cases dead : c.pc with
      | zombie status =>
        refine ⟨.reap k i, (s.set i { c with pc := .reaped status }).set k
          { q with numDead := q.numDead + 1 }, trivial, ?_⟩
        simp only [step, here, there, Option.bind_some, reapChild, at_, dead]
        exact if_pos own.1
      | reaped status =>
        rw [dead] at own
        cases own.2
      | _ => simp [dead, Pc.live] at exited
    · apply ran (.error ECHILD)
      · intro p present
        rw [Option.mem_def, here, Option.some.injEq] at present
        rw [← present]
        exact ⟨at_, rfl⟩
      · simp [runProcess, at_, waits]
  | zombie status => simp [at_, Pc.live] at lives
  | reaped status => simp [at_, Pc.live] at lives

theorem reachable_tree {s : State} (some_times : 2 ≤ argc sleepTimes)
    (run : Reaches (step sleepTimes) ForksSucceed initial s) :
    Tree (argc sleepTimes) s ∧ Waits (argc sleepTimes) s ∧
      Weights.total (weight (argc sleepTimes)) s = 2 ^ argc sleepTimes := by
  apply run.invariant (I := fun s => Tree (argc sleepTimes) s ∧ Waits (argc sleepTimes) s ∧
    Weights.total (weight (argc sleepTimes)) s = 2 ^ argc sleepTimes)
  · exact ⟨tree_initial _, waits_initial _, weight_initial _⟩
  · rintro s action t ⟨tree, waits, weighs⟩ succeed taken
    have move := step_moves succeed taken
    refine ⟨tree_step tree some_times move, waits_step tree some_times waits move, ?_⟩
    rw [weight_step tree some_times move, weighs]

/-- The loop runs once for the program name too, and every process that it creates goes on with it. -/
theorem created_of_done {s : State} (some_times : 2 ≤ argc sleepTimes)
    (run : Reaches (step sleepTimes) ForksSucceed initial s) (done : Done s) :
    s.length = 2 ^ (sleepTimes.length + 1) := by
  rcases reachable_tree some_times run with ⟨tree, -, weighs⟩
  have each : Weights.total (weight (argc sleepTimes)) s = s.length * 1 := by
    apply Weights.total_const
    intro p member
    rcases List.getElem?_of_mem member with ⟨i, here⟩
    exact weight_of_exited (tree.all_exited done i p here)
  rw [weighs, Nat.mul_one] at each
  exact each.symm

theorem numDead_of_done {s : State} (some_times : 2 ≤ argc sleepTimes)
    (run : Reaches (step sleepTimes) ForksSucceed initial s) {r : Process} (root : s[0]? = some r)
    (echild : r.pc = .zombie .success) : r.numDead = sleepTimes.length + 1 := by
  have waited := (reachable_tree some_times run).2.1 r root
  simp only [Process.WaitsFor, echild] at waited
  exact waited

theorem exists_done (some_times : 2 ≤ argc sleepTimes) :
    ∃ s, Reaches (step sleepTimes) ForksSucceed initial s ∧ Done s := by
  apply exists_reaches (I := Tree (argc sleepTimes)) (Weights.total (rank (argc sleepTimes)))
  · intro s tree running
    rcases tree.progress running with ⟨action, t, succeed, taken⟩
    have move := step_moves succeed taken
    exact ⟨action, t, succeed, taken, tree_step tree some_times move, rank_lt move⟩
  · exact tree_initial _

theorem refused_of_nil {s : State} (run : Reaches (step []) ForksSucceed initial s) :
    s = initial ∨ s = [⟨none, .zombie .failure, 0, 0⟩] := by
  apply run.invariant
    (I := fun s => s = initial ∨ s = [⟨none, .zombie .failure, 0, 0⟩]) (.inl rfl)
  have only : ∀ (q p : Process) (i : Nat), ([q] : State)[i]? = some p → i = 0 ∧ p = q := by
    intro q p i there
    rcases getElem?_concat_cases (s := []) there with ⟨rfl, rfl⟩ | before
    · exact ⟨rfl, rfl⟩
    · cases before
  rintro s action t (rfl | rfl) succeed taken
  · right
    cases step_moves succeed taken with
    | refused pid p here at_ few =>
      rcases only _ p pid here with ⟨rfl, rfl⟩
      rfl
    | accepted pid p here at_ enough => exact absurd enough (by decide)
    | forked pid p here at_ _ | forkedAll pid p here at_ _ | slept pid p here at_
    | finished pid p here at_ _ | reaped pid _ p _ _ here _ at_ _ _ =>
      rw [(only _ p pid here).2] at at_
      cases at_
  · cases step_moves succeed taken with
    | refused pid p here at_ _ | accepted pid p here at_ _ | forked pid p here at_ _
    | forkedAll pid p here at_ _ | slept pid p here at_ | finished pid p here at_ _
    | reaped pid _ p _ _ here _ at_ _ _ =>
      rw [(only _ p pid here).2] at at_
      cases at_

/-- With a sleep time or more, some run completes and none creates one process for each of them. -/
theorem oneForEach_iff (sleepTimes : List Int) :
    (∀ s, Reaches (step sleepTimes) ForksSucceed initial s → Done s →
      OneForEach sleepTimes.length s) ↔ sleepTimes = [] := by
  constructor
  · intro always
    by_contra some_time
    have some_times : 2 ≤ argc sleepTimes := by
      have positive := List.length_pos_of_ne_nil some_time
      unfold argc
      omega
    rcases exists_done some_times with ⟨s, run, done⟩
    have claimed := (always s run done).created
    rw [created_of_done some_times run done] at claimed
    have more : sleepTimes.length + 1 < 2 ^ (sleepTimes.length + 1) := Nat.lt_two_pow_self
    omega
  · rintro rfl s run done
    have final : s = [⟨none, .zombie .failure, 0, 0⟩] := by
      rcases refused_of_nil run with rfl | final
      · rcases done with ⟨p, first, exited⟩
        cases first
        cases exited
      · exact final
    rw [final]
    constructor
    case created => rfl
    case childless =>
      intro p member
      rw [List.mem_singleton.mp member]
      exact .inl rfl
    case numDead =>
      intro p first echild
      cases first
      cases echild

def oneTime : List Action :=
  [.run 0 .done, .run 0 .done, .run 0 .done, .run 0 .done, .run 1 .done, .run 1 .done, .run 1 .done,
    .run 2 .done, .run 2 .done, .run 3 .done, .run 3 .done, .run 3 (.error ECHILD), .reap 1 3,
    .run 1 (.error ECHILD), .run 2 (.error ECHILD), .reap 0 2, .reap 0 1, .run 0 (.error ECHILD)]

theorem oneTime_not_oneForEach :
    ¬ ∀ s, Reaches (step [1]) ForksSucceed initial s → Done s → OneForEach 1 s := by
  intro always
  have run : exec (step [1]) oneTime initial = some [⟨none, .zombie .success, 2, 2⟩,
      ⟨some 0, .reaped .success, 2, 1⟩, ⟨some 0, .reaped .success, 2, 0⟩,
      ⟨some 1, .reaped .success, 2, 0⟩] := by rfl
  have succeed : Along (step [1]) ForksSucceed oneTime initial := by decide +kernel
  have created := (always _ ⟨oneTime, succeed, run⟩ ⟨_, rfl, rfl⟩).created
  cases created

end SystemProgramming.MultiWait
