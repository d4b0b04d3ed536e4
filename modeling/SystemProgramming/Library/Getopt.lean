import Mathlib.Algebra.GroupWithZero.Nat
import Mathlib.Algebra.Order.BigOperators.Group.List
import Mathlib.Tactic.Common

namespace Getopt

abbrev Text := List (BitVec 8)

structure Scan where
  bundle : Text
  rest : List Text
  deriving DecidableEq

inductive Event where
  | option (c : BitVec 8) (optarg : Option Text)
  | unknown (c : BitVec 8)
  | missing (c : BitVec 8)
  deriving DecidableEq

/-- The events for which `getopt` returns `?`. -/
def Event.bad : Event → Bool
  | .option _ _ => false
  | _ => true

def kind : Text → BitVec 8 → Option Bool
  | [], _ => none
  | o :: optstring, c => if o = c ∧ c ≠ 58 then some (optstring.head? = some 58) else kind optstring c

def letter (optstring : Text) (c : BitVec 8) (s : Scan) : Event × Scan :=
  match kind optstring c with
  | none => (.unknown c, s)
  | some false => (.option c none, s)
  | some true =>
    match s with
    | ⟨[], []⟩ => (.missing c, ⟨[], []⟩)
    | ⟨[], arg :: rest⟩ => (.option c (some arg), ⟨[], rest⟩)
    | ⟨bundle, rest⟩ => (.option c (some bundle), ⟨[], rest⟩)

/-- One call of POSIX's `getopt`; without an event it returns -1. -/
def next (optstring : Text) : Scan → Option Event × Scan
  | ⟨c :: bundle, rest⟩ => (letter optstring c ⟨bundle, rest⟩).map some id
  | ⟨[], [45, 45] :: rest⟩ => (none, ⟨[], rest⟩)
  | ⟨[], (45 :: c :: bundle) :: rest⟩ => (letter optstring c ⟨bundle, rest⟩).map some id
  | ⟨[], rest⟩ => (none, ⟨[], rest⟩)

namespace Scan

def size (s : Scan) : Nat := s.bundle.length + (s.rest.map List.length).sum

def remaining (s : Scan) : Nat := s.rest.length + if s.bundle = [] then 0 else 1

end Scan

section Events

variable {σ : Type} (next : σ → Option Event × σ)

def events : Nat → σ → List Event × σ
  | 0, s => ([], s)
  | fuel + 1, s =>
    match next s with
    | (none, t) => ([], t)
    | (some e, t) => ((events fuel t).map (e :: ·) id)

variable {next}

/-- Where every call that finds an option uses up some of the arguments, the loop ends. -/
theorem events_stable (size : σ → Nat) (less : ∀ s e t, next s = (some e, t) → size t < size s) {s : σ}
    {first second : Nat} (enough : size s < first) (enoughToo : size s < second) :
    events next first s = events next second s := by
  induction first generalizing s second with
  | zero => omega
  | succ first ih =>
    cases second with
    | zero => omega
    | succ second =>
      rw [events, events]
      cases read : next s with
      | mk event t =>
        cases event with
        | none => rfl
        | some e =>
          have shrinks := less s e t read
          dsimp only
          rw [ih (by omega : size t < first) (by omega : size t < second)]

theorem events_induction {P : σ → σ → Prop} (stay : ∀ s, P s s) (ended : ∀ s t, next s = (none, t) → P s t)
    (event : ∀ s e t u, next s = (some e, t) → P t u → P s u) (fuel : Nat) (s : σ) :
    P s (events next fuel s).2 := by
  induction fuel generalizing s with
  | zero => exact stay s
  | succ fuel ih =>
    rw [events]
    cases read : next s with
    | mk found t =>
      cases found with
      | none => exact ended s t read
      | some e => exact event s e t _ read (ih t)

end Events

/-- `while((opt = getopt(argc, argv, optstring)) != -1)` -/
def scan (optstring : Text) (s : Scan) : List Event × Scan := events (next optstring) (s.size + 1) s

def start (args : List Text) : Scan := ⟨[], args⟩

variable {optstring : Text} {s t : Scan} {e : Event}

theorem letter_size (optstring : Text) (c : BitVec 8) (s : Scan) : (letter optstring c s).2.size ≤ s.size := by
  unfold letter
  split
  · exact Nat.le_refl _
  · exact Nat.le_refl _
  · split
    · exact Nat.le_refl _
    · simp [Scan.size]
    · simp [Scan.size]

theorem letter_suffix (optstring : Text) (c : BitVec 8) (s : Scan) : (letter optstring c s).2.rest <:+ s.rest := by
  unfold letter
  split
  · exact List.suffix_rfl
  · exact List.suffix_rfl
  · split
    · exact List.suffix_rfl
    · exact List.suffix_cons _ _
    · exact List.suffix_rfl

theorem next_letter (event : next optstring s = (some e, t)) :
    ∃ c r, letter optstring c r = (e, t) ∧ r.size < s.size ∧ r.rest <:+ s.rest := by
  unfold next at event
  split at event
  · rename_i c bundle rest
    have same : letter optstring c ⟨bundle, rest⟩ = (e, t) := by
      simpa [Prod.ext_iff] using event
    refine ⟨c, ⟨bundle, rest⟩, same, ?_, ?_⟩
    · simp only [Scan.size, List.length_cons]
      omega
    · exact List.suffix_rfl
  · cases event
  · rename_i c bundle rest other
    have same : letter optstring c ⟨bundle, rest⟩ = (e, t) := by
      simpa [Prod.ext_iff] using event
    refine ⟨c, ⟨bundle, rest⟩, same, ?_, ?_⟩
    · simp only [Scan.size, List.map_cons, List.sum_cons, List.length_cons, List.length_nil]
      omega
    · exact List.suffix_cons _ _
  · cases event

theorem next_size (event : next optstring s = (some e, t)) : t.size < s.size := by
  obtain ⟨c, r, read, less, -⟩ := next_letter event
  have shrinks := letter_size optstring c r
  rw [read] at shrinks
  exact Nat.lt_of_le_of_lt shrinks less

theorem next_suffix (event : next optstring s = (some e, t)) : t.rest <:+ s.rest := by
  obtain ⟨c, r, read, -, suffix⟩ := next_letter event
  have shrinks := letter_suffix optstring c r
  rw [read] at shrinks
  exact shrinks.trans suffix

theorem ended_suffix (ended : next optstring s = (none, t)) : t.rest <:+ s.rest := by
  unfold next at ended
  split at ended
  · cases ended
  · cases ended
    exact List.suffix_cons _ _
  · cases ended
  · cases ended
    exact List.suffix_rfl

theorem ended_bundle (ended : next optstring s = (none, t)) : t.bundle = [] := by
  unfold next at ended
  split at ended
  · cases ended
  · cases ended
    rfl
  · cases ended
  · cases ended
    rfl

theorem scan_ended (ended : next optstring s = (none, t)) : scan optstring s = ([], t) := by
  rw [scan, events, ended]

theorem scan_event (event : next optstring s = (some e, t)) :
    scan optstring s = (e :: (scan optstring t).1, (scan optstring t).2) := by
  have less := next_size event
  rw [scan, events, event]
  dsimp only
  rw [events_stable Scan.size (fun _ _ _ => next_size) less (Nat.lt_succ_self _)]
  rfl

/-- Where options are looked for: behind operands too or, with `POSIXLY_CORRECT`, only before the first. -/
inductive Mode where
  | permute
  | requireOrder
  deriving DecidableEq

def isOperand : Text → Bool
  | 45 :: _ :: _ => false
  | _ => true

/-- The operands that have been passed over, and the argument that `scan.bundle` is the end of. -/
structure Reading where
  passed : List Text
  element : Text
  scan : Scan
  deriving DecidableEq

namespace Reading

def start (args : List Text) : Reading := ⟨[], [], Getopt.start args⟩

def remaining (r : Reading) : List Text :=
  if r.scan.bundle = [] then r.scan.rest else r.element :: r.scan.rest

def args (r : Reading) : List Text := r.passed ++ r.scan.rest

end Reading

namespace Mode

variable (mode : Mode) (optstring : Text)

def ahead (s : Scan) : List Text :=
  match mode, s.bundle with
  | .permute, [] => s.rest.takeWhile isOperand
  | _, _ => []

def beyond (s : Scan) : Scan := { s with rest := s.rest.drop (mode.ahead s).length }

/-- One call of glibc's `getopt`, which ends with the operands moved behind the options. -/
def next (r : Reading) : Option Event × Reading :=
  let operands := r.passed ++ mode.ahead r.scan
  let s := mode.beyond r.scan
  match Getopt.next optstring s with
  | (some e, t) => (some e, ⟨operands, if s.bundle = [] then s.rest.headD [] else r.element, t⟩)
  | (none, t) => (none, ⟨[], [], { t with rest := operands ++ t.rest }⟩)

def scan (args : List Text) : List Event × List Text :=
  (events (mode.next optstring) ((Reading.start args).scan.size + 1) (.start args)).map id (·.scan.rest)

end Mode

section Permuting

variable {mode : Mode} {r u : Reading}

theorem ahead_append (mode : Mode) (s : Scan) : mode.ahead s ++ (mode.beyond s).rest = s.rest := by
  apply List.prefix_iff_eq_append.mp
  unfold Mode.ahead
  split
  · exact List.takeWhile_prefix isOperand
  · exact List.nil_prefix

theorem beyond_size (mode : Mode) (s : Scan) : (mode.beyond s).size ≤ s.size := by
  have rest : ((mode.ahead s).map List.length).sum + ((mode.beyond s).rest.map List.length).sum =
      (s.rest.map List.length).sum := by
    rw [← List.sum_append, ← List.map_append, ahead_append]
  have bundle : (mode.beyond s).bundle = s.bundle := rfl
  rw [Scan.size, Scan.size, bundle, ← rest]
  omega

theorem mode_next_event (event : mode.next optstring r = (some e, u)) :
    next optstring (mode.beyond r.scan) = (some e, u.scan) ∧ u.passed = r.passed ++ mode.ahead r.scan := by
  unfold Mode.next at event
  dsimp only at event
  split at event
  · rename_i read
    cases event
    exact ⟨read, rfl⟩
  · cases event

theorem mode_next_ended (ended : mode.next optstring r = (none, u)) :
    ∃ t, next optstring (mode.beyond r.scan) = (none, t) ∧
      u = ⟨[], [], { t with rest := r.passed ++ mode.ahead r.scan ++ t.rest }⟩ := by
  unfold Mode.next at ended
  dsimp only at ended
  split at ended
  · cases ended
  · rename_i t read
    cases ended
    exact ⟨t, read, rfl⟩

theorem mode_next_size (event : mode.next optstring r = (some e, u)) : u.scan.size < r.scan.size :=
  Nat.lt_of_lt_of_le (next_size (mode_next_event event).1) (beyond_size mode r.scan)

/-- A larger bound finds no more options. -/
theorem mode_scan_eq (mode : Mode) (optstring : Text) (args : List Text) {bound : Nat}
    (enough : (start args).size < bound) :
    mode.scan optstring args = (events (mode.next optstring) bound (.start args)).map id (·.scan.rest) := by
  have stable : events (mode.next optstring) ((Reading.start args).scan.size + 1) (.start args) =
      events (mode.next optstring) bound (.start args) :=
    events_stable (fun r => r.scan.size) (fun _ _ _ => mode_next_size) (Nat.lt_succ_self _) enough
  rw [Mode.scan, stable]

theorem args_beyond (mode : Mode) (r : Reading) :
    r.args = r.passed ++ mode.ahead r.scan ++ (mode.beyond r.scan).rest := by
  rw [List.append_assoc, ahead_append]
  rfl

theorem event_sublist (event : mode.next optstring r = (some e, u)) : u.args.Sublist r.args := by
  obtain ⟨read, passed⟩ := mode_next_event event
  rw [args_beyond mode r, Reading.args, passed]
  exact (List.Sublist.refl _).append (next_suffix read).sublist

theorem ended_sublist (ended : mode.next optstring r = (none, u)) : u.args.Sublist r.args := by
  obtain ⟨t, read, rfl⟩ := mode_next_ended ended
  rw [args_beyond mode r]
  show (r.passed ++ mode.ahead r.scan ++ t.rest).Sublist _
  exact (List.Sublist.refl _).append (ended_suffix read).sublist

/-- The operands keep their order. -/
theorem mode_scan_sublist (mode : Mode) (optstring : Text) (args : List Text) :
    (mode.scan optstring args).2.Sublist args := by
  have kept : (events (mode.next optstring) ((start args).size + 1) (.start args)).2.args.Sublist args :=
    events_induction (P := fun r u => u.args.Sublist r.args) (fun r => List.Sublist.refl _)
      (fun r u ended => ended_sublist ended) (fun r e t u event later => later.trans (event_sublist event)) _ _
  exact (List.sublist_append_right _ _).trans kept

/-- A call after -1 finds what the one before it has found, unless that one has gone past a `--`. -/
theorem ended_again (fresh : r.passed = [] ∧ r.scan.bundle = [])
    (ended : mode.next optstring r = (none, u)) :
    u.scan = r.scan ∨ u.scan.rest.length < r.scan.rest.length := by
  obtain ⟨t, read, rfl⟩ := mode_next_ended ended
  have whole := ahead_append mode r.scan
  have bundle : (mode.beyond r.scan).bundle = [] := fresh.2
  rw [fresh.1, List.nil_append]
  unfold next at read
  split at read
  · cases read
  · rename_i rest behind
    cases read
    right
    rw [behind] at whole
    dsimp only
    rw [← whole, List.length_append, List.length_append, List.length_cons]
    omega
  · cases read
  · rename_i rest _ _ behind
    cases read
    left
    rw [behind] at whole
    dsimp only at whole ⊢
    rw [whole, ← fresh.2]

end Permuting

/-- `a -n b -- -n` -/
example : Mode.permute.scan [110] [[97], [45, 110], [98], [45, 45], [45, 110]] =
    ([.option 110 none], [[97], [98], [45, 110]]) := by decide

end Getopt
