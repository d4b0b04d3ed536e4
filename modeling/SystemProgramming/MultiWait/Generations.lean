import Mathlib.Data.Nat.Choose.Basic
import SystemProgramming.Library.Termination
import SystemProgramming.MultiWait.ProcessTree

namespace SystemProgramming.MultiWait

open Transition

variable {sleepTimes : List Int} {bound k g : Nat} {s t : State} {p p' c : Process} {i pid : Nat}

def addGeneration (gens : List Nat) (parent : Option Nat) : List Nat :=
  gens ++ [parent.elim 0 fun q => gens.getD q 0 + 1]

def generations (s : State) : List Nat := (s.map (·.parent)).foldl addGeneration []

theorem length_foldl_addGeneration (parents : List (Option Nat)) (gens : List Nat) :
    (parents.foldl addGeneration gens).length = gens.length + parents.length := by
  induction parents generalizing gens with
  | nil => rfl
  | cons parent parents ih =>
    rw [List.foldl_cons, ih, addGeneration, List.length_append, List.length_singleton, List.length_cons]
    omega

theorem length_generations (s : State) : (generations s).length = s.length := by
  rw [generations, length_foldl_addGeneration, List.length_nil, List.length_map, Nat.zero_add]

theorem generations_set (here : s[i]? = some p) (same : p'.parent = p.parent) :
    generations (s.set i p') = generations s := by
  have parent : (s.map (·.parent))[i]? = some p'.parent := by
    rw [List.getElem?_map, here, Option.map_some, same]
  have within : i < (s.map (·.parent)).length := (List.getElem?_eq_some_iff.mp parent).1
  rw [generations, generations, List.map_set, ← (List.getElem?_eq_some_iff.mp parent).2, List.set_getElem_self within]

theorem generations_concat (there : (generations s)[pid]? = some g) (parent : c.parent = some pid) :
    generations (s ++ [c]) = generations s ++ [g + 1] := by
  have above : (generations s).getD pid 0 = g := by rw [List.getD_eq_getElem?_getD, there, Option.getD_some]
  rw [generations, List.map_append, List.map_singleton, List.foldl_append, ← generations, List.foldl_cons,
    List.foldl_nil, addGeneration, parent, Option.elim_some, above]

def Process.left (bound : Nat) (p : Process) : Nat :=
  match p.pc with
  | .usage => bound
  | .fork => bound - p.j
  | .sleep => bound - (p.j + 1)
  | .wait | .zombie _ | .reaped _ => 0

def heirs (bound k : Nat) (member : Process × Nat) : Nat :=
  if member.2 ≤ k then (member.1.left bound).choose (k - member.2) else 0

theorem choose_forked (left g k : Nat) :
    (if g ≤ k then (left + 1).choose (k - g) else 0) =
      (if g ≤ k then left.choose (k - g) else 0) + (if g + 1 ≤ k then left.choose (k - (g + 1)) else 0) := by
  rcases Nat.lt_trichotomy k g with above | rfl | below
  · rw [if_neg (by omega), if_neg (by omega), if_neg (by omega)]
  · rw [if_pos (Nat.le_refl _), if_pos (Nat.le_refl _), if_neg (by omega), Nat.sub_self, Nat.choose_zero_right,
      Nat.choose_zero_right]
  · have next : k - g = k - (g + 1) + 1 := by omega
    rw [if_pos (Nat.le_of_lt below), if_pos (Nat.le_of_lt below), if_pos (Nat.succ_le_of_lt below), next,
      Nat.choose_succ_succ', Nat.add_comm]

theorem zip_set {l : List Process} {gens : List Nat} (there : gens[i]? = some g) :
    (l.set i p').zip gens = (l.zip gens).set i (p', g) := by
  induction l generalizing i gens with
  | nil => rfl
  | cons p l ih =>
    cases gens with
    | nil => cases there
    | cons g' gens =>
      cases i with
      | zero =>
        rw [List.getElem?_cons_zero, Option.some.injEq] at there
        rw [there]
        rfl
      | succ i =>
        rw [List.getElem?_cons_succ] at there
        rw [List.set_cons_succ, List.zip_cons_cons, List.zip_cons_cons, List.set_cons_succ, ih there]

def generationSize (bound k : Nat) (s : State) : Nat := Weights.total (heirs bound k) (s.zip (generations s))

theorem exists_generation (here : s[i]? = some p) : ∃ g, (generations s)[i]? = some g := by
  have within : i < (generations s).length := by
    rw [length_generations]
    exact inside here
  exact ⟨_, List.getElem?_eq_getElem within⟩

theorem generationSize_set (here : s[i]? = some p) (parent : p'.parent = p.parent)
    (left : p'.left bound = p.left bound) :
    generationSize bound k (s.set i p') = generationSize bound k s := by
  obtain ⟨g, there⟩ := exists_generation here
  have both : (s.zip (generations s))[i]? = some (p, g) := List.getElem?_zip_eq_some.mpr ⟨here, there⟩
  rw [generationSize, generations_set here parent, zip_set there]
  apply Weights.total_set_of_same both
  rw [heirs, heirs, left]

theorem generationSize_forked (here : s[pid]? = some p) (at_ : p.pc = .fork) (more : p.j < bound) :
    generationSize bound k (s.set pid { p with j := p.j + 1 } ++ [{ p with parent := some pid, pc := .sleep }]) =
      generationSize bound k s := by
  obtain ⟨g, there⟩ := exists_generation here
  have kept : generations (s.set pid { p with j := p.j + 1 }) = generations s := generations_set here rfl
  have grown : generations (s.set pid { p with j := p.j + 1 } ++ [{ p with parent := some pid, pc := .sleep }]) =
      generations s ++ [g + 1] := by
    rw [generations_concat (kept ▸ there) rfl, kept]
  have before : p.left bound = bound - (p.j + 1) + 1 := by
    simp only [Process.left, at_]
    omega
  have after : Process.left bound { p with j := p.j + 1 } = bound - (p.j + 1) := by simp only [Process.left, at_]
  have child : Process.left bound { p with parent := some pid, pc := .sleep } = bound - (p.j + 1) := rfl
  have both : (s.zip (generations s))[pid]? = some (p, g) := List.getElem?_zip_eq_some.mpr ⟨here, there⟩
  have exchanged := Weights.total_set (w := heirs bound k) (b := ({ p with j := p.j + 1 }, g)) both
  have doubled := choose_forked (bound - (p.j + 1)) g k
  rw [generationSize, grown, List.zip_append (by rw [List.length_set, length_generations]), Weights.total_append,
    zip_set there]
  simp only [heirs, before, after] at exchanged
  simp only [generationSize, heirs, child, List.zip_cons_cons, List.zip_nil_left, Weights.total]
  omega

theorem generationSize_step (some_times : 2 ≤ argc sleepTimes)
    (move : Move sleepTimes s t) :
    generationSize (argc sleepTimes) k t = generationSize (argc sleepTimes) k s := by
  cases move with
  | refused pid p here at_ few => omega
  | accepted pid p here at_ enough =>
    refine generationSize_set here rfl ?_
    simp only [Process.left, at_, Nat.sub_zero]
  | forked pid p here at_ more => exact generationSize_forked here at_ more
  | forkedAll pid p here at_ last =>
    refine generationSize_set here rfl ?_
    simp only [Process.left, at_]
    omega
  | slept pid p here at_ | finished pid p here at_ alone =>
    refine generationSize_set here rfl ?_
    simp only [Process.left, at_]
  | reaped pid child p c status here there at_ dead own =>
    have still := parent_kept here there at_ dead { c with pc := .reaped status }
    have first : generationSize (argc sleepTimes) k (s.set child { c with pc := .reaped status }) =
        generationSize (argc sleepTimes) k s :=
      generationSize_set there rfl (by simp only [Process.left, dead])
    rw [← first]
    exact generationSize_set still rfl rfl

theorem generationSize_initial (bound k : Nat) : generationSize bound k initial = bound.choose k := by
  show heirs bound k (⟨none, .usage, 0, 0⟩, 0) + 0 = bound.choose k
  rw [heirs, if_pos (Nat.zero_le k)]
  rfl

theorem heirs_of_exited (exited : p.pc.live = false) (g : Nat) :
    heirs bound k (p, g) = if g = k then 1 else 0 := by
  have none_left : p.left bound = 0 := by
    unfold Process.left
    cases at_ : p.pc with
    | wait | zombie status | reaped status => rfl
    | usage | fork | sleep =>
      rw [at_] at exited
      cases exited
  rcases Nat.lt_trichotomy g k with below | rfl | above
  · rw [heirs, none_left, if_pos (Nat.le_of_lt below), if_neg (Nat.ne_of_lt below),
      Nat.choose_eq_zero_of_lt (Nat.sub_pos_of_lt below)]
  · rw [heirs, none_left, if_pos (Nat.le_refl _), if_pos rfl, Nat.sub_self, Nat.choose_zero_right]
  · rw [heirs, if_neg (Nat.not_le_of_lt above), if_neg (Nat.ne_of_gt above)]

theorem generationSize_of_exited (bound k : Nat) (exited : ∀ p ∈ s, p.pc.live = false) :
    generationSize bound k s = (generations s).count k := by
  have each : ∀ member ∈ s.zip (generations s), heirs bound k member = if member.2 = k then 1 else 0 :=
    fun (p, g) both => heirs_of_exited (exited p (List.of_mem_zip both).1) g
  rw [generationSize, Weights.total_eq_count each, List.map_snd_zip (Nat.le_of_eq (length_generations s))]

def Process.EndsWell (i : Nat) (p : Process) : Prop :=
  match p.pc with
  | .zombie status => status = .success
  | .reaped status => status = .success ∧ i ≠ 0
  | _ => True

def EndWell (s : State) : Prop := ∀ (i : Nat) (p : Process), s[i]? = some p → p.EndsWell i

theorem EndWell.set (well : EndWell s) (ends : p'.EndsWell pid) : EndWell (s.set pid p') := by
  intro i p there
  rcases Holders.getElem?_set_cases there with ⟨rfl, rfl⟩ | ⟨-, before⟩
  · exact ends
  · exact well i p before

theorem endWell_step (tree : Tree (argc sleepTimes) s) (some_times : 2 ≤ argc sleepTimes) (well : EndWell s)
    (move : Move sleepTimes s t) : EndWell t := by
  cases move with
  | refused pid p here at_ few => omega
  | accepted pid p here at_ | slept pid p here at_ | forkedAll pid p here at_ last => exact well.set trivial
  | finished pid p here at_ alone => exact well.set rfl
  | forked pid p here at_ more =>
    have parent : EndWell (s.set pid { p with j := p.j + 1 }) := by
      apply well.set
      simp only [Process.EndsWell, at_]
    intro i q there
    rcases getElem?_concat_cases there with ⟨-, rfl⟩ | before
    · trivial
    · exact parent i q before
  | reaped pid child p c status here there at_ dead own =>
    have ended := well child c there
    simp only [Process.EndsWell, dead] at ended
    have younger := tree.older child c pid there own
    have waited : EndWell (s.set child { c with pc := .reaped status }) :=
      well.set ⟨ended, Nat.ne_of_gt (Nat.zero_lt_of_lt younger)⟩
    apply waited.set
    simp only [Process.EndsWell, at_]

theorem endWell_initial : EndWell initial := by
  intro i p there
  rw [initial, List.getElem?_singleton] at there
  split at there
  · cases there
    trivial
  · cases there

theorem forkRank_eq (left : Nat) : forkRank left + 2 = 5 * 2 ^ left := by
  induction left with
  | zero => rfl
  | succ left ih =>
    rw [forkRank, Nat.pow_succ]
    omega

theorem rank_pos (tree : Tree bound s) (well : EndWell s) : 0 < Weights.total (rank bound) s := by
  obtain ⟨r, root, -⟩ := tree.root
  have ended := well 0 r root
  have positive : 0 < rank bound r := by
    have some_left := forkRank_pos
    unfold rank
    cases at_ : r.pc with
    | reaped status =>
      simp only [Process.EndsWell, at_] at ended
      exact absurd rfl ended.2
    | fork =>
      have more := some_left (bound - r.j)
      simp only []
      omega
    | usage | sleep | wait | zombie status =>
      simp only []
      omega
  have least := Weights.total_lower (v := fun _ => 0) (d := rank bound r) (List.mem_of_getElem? root)
    (Nat.le_of_eq (Nat.zero_add _)) fun p _ => Nat.zero_le (rank bound p)
  omega

/-- Everybody but the initial process has been waited for, and the initial process has exited. -/
theorem Tree.all_reaped (tree : Tree bound s) (well : EndWell s) (done : Done s) (here : s[i]? = some p)
    (other : i ≠ 0) : p.pc = .reaped .success := by
  have exited := tree.all_exited done i p here
  have ended := well i p here
  cases at_ : p.pc with
  | reaped status =>
    simp only [Process.EndsWell, at_] at ended
    rw [ended.1]
  | zombie status =>
    cases parent : p.parent with
    | none => exact absurd parent (tree.descends i p here other)
    | some q =>
      have child : p.unreapedChildOf q = true := (unreapedChildOf_iff q p).mpr ⟨parent, by rw [at_]; rfl⟩
      obtain ⟨above, present, lives⟩ := tree.alive i p q here child
      rw [tree.all_exited done q above present] at lives
      cases lives
  | usage | fork | sleep | wait =>
    rw [at_] at exited
    cases exited

/-- Every run without a failing `fork` is short enough and can be carried on until the initial process exits,
    and then the processes are a binomial tree, of which all but the root have been waited for. -/
theorem binomial_tree {actions : List Action} (some_time : sleepTimes ≠ [])
    (succeed : Along (step sleepTimes) ForksSucceed actions initial)
    (run : exec (step sleepTimes) actions initial = some s) :
    actions.length + 2 ≤ 5 * 2 ^ (sleepTimes.length + 1) ∧
      (¬ Done s → ∃ action t, ForksSucceed s action ∧ step sleepTimes s action = some t) ∧
      (Done s → (∀ k, (generations s).count k = (sleepTimes.length + 1).choose k) ∧
        ∀ i p, s[i]? = some p → i ≠ 0 → p.pc = .reaped .success) := by
  have some_times : 2 ≤ argc sleepTimes := Nat.succ_le_succ (List.length_pos_of_ne_nil some_time)
  have kept : ∀ s action t, Tree (argc sleepTimes) s ∧ EndWell s → ForksSucceed s action →
      step sleepTimes s action = some t → Tree (argc sleepTimes) t ∧ EndWell t := by
    rintro s action t ⟨tree, well⟩ succeed taken
    have move := step_moves succeed taken
    exact ⟨tree_step tree some_times move, endWell_step tree some_times well move⟩
  have start : Tree (argc sleepTimes) initial ∧ EndWell initial := ⟨tree_initial _, endWell_initial⟩
  obtain ⟨tree, well⟩ := exec_invariant kept start succeed run
  refine ⟨?_, tree.progress, ?_⟩
  · have bound := count_add_measure_le (fun _ => true) (fun s => Weights.total (rank (argc sleepTimes)) s) kept
      (fun s action t _ succeeds taken => rank_lt (step_moves succeeds taken)) start succeed run
    have positive := rank_pos tree well
    have whole : Weights.total (rank (argc sleepTimes)) initial = forkRank (argc sleepTimes) + 1 := rfl
    have closed := forkRank_eq (argc sleepTimes)
    have iterations : argc sleepTimes = sleepTimes.length + 1 := rfl
    rw [List.countP_true, whole] at bound
    rw [← iterations]
    omega
  · intro done
    refine ⟨fun k => ?_, fun i p here other => tree.all_reaped well done here other⟩
    have size : generationSize (argc sleepTimes) k s = (argc sleepTimes).choose k := by
      apply exec_invariant (I := fun s => generationSize (argc sleepTimes) k s = (argc sleepTimes).choose k) _
        (generationSize_initial _ k) succeed run
      intro s action t same succeeds taken
      rw [generationSize_step some_times (step_moves succeeds taken), same]
    rw [← generationSize_of_exited (argc sleepTimes) k, size]
    · rfl
    · intro p member
      obtain ⟨i, here⟩ := List.getElem?_of_mem member
      exact tree.all_exited done i p here

theorem binomial_tree_oneTime :
    ∃ s, exec (step [1]) oneTime initial = some s ∧ Done s ∧
      ∀ k, (generations s).count k = Nat.choose 2 k := by
  have reached : ∃ s, exec (step [1]) oneTime initial = some s ∧ Done s := ⟨_, rfl, _, rfl, rfl⟩
  obtain ⟨s, run, done⟩ := reached
  exact ⟨s, run, done, ((binomial_tree (by decide) (by decide +kernel) run).2.2 done).1⟩

end SystemProgramming.MultiWait
