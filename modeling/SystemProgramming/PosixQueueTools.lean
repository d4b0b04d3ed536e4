import SystemProgramming.Library.Getopt

namespace SystemProgramming.PosixQueueTools

open Getopt

def O_RDWR : BitVec 32 := 2
def O_NONBLOCK : BitVec 32 := 2048

def optstring : Text := [110]

structure Parsed (σ : Type) where
  flags : BitVec 32
  scan : σ
  deriving DecidableEq

inductive LoopResult (σ : Type) where
  | left (parsed : Parsed σ)
  | usageError
  deriving DecidableEq

/-- `while((opt = getopt(argc, argv, "n")) == -1)`: the `switch` is reached with -1 only, and any
    option ends the loop. Without enough fuel there is no result. -/
def optionLoop {σ : Type} (getopt : σ → Option Event × σ) (switch : Option Event → BitVec 32 → Option (BitVec 32)) :
    Nat → BitVec 32 → σ → Option (LoopResult σ)
  | 0, _, _ => none
  | fuel + 1, flags, s =>
    match getopt s with
    | (none, t) =>
      match switch none flags with
      | some flags => optionLoop getopt switch fuel flags t
      | none => some .usageError
    | (some _, t) => some (.left ⟨flags, t⟩)

/-- `defalult:` is a label like any other, so that the `switch` has no default case. -/
def sendSwitch : Option Event → BitVec 32 → Option (BitVec 32)
  | some (.option 110 _), flags => some (flags ||| O_NONBLOCK)
  | _, flags => some flags

def receiveSwitch : Option Event → BitVec 32 → Option (BitVec 32)
  | some (.option 110 _), flags => some (flags ||| O_NONBLOCK)
  | _, _ => none

/-- The indices of `argv` that are read as operands; none where `usageError` is called. -/
def sendOperands (argc optind : Nat) : Option (List Nat) :=
  if argc ≤ optind + 1 then none
  else if optind + 2 < argc then some [optind, optind + 2, optind + 1]
  else some [optind, optind + 1]

def receiveOperands (argc optind : Nat) : Option (List Nat) :=
  if argc < optind + 1 then none
  else if optind + 2 ≤ argc then some [optind + 2, optind]
  else some [optind]

structure Tool where
  switch : Option Event → BitVec 32 → Option (BitVec 32)
  operands : Nat → Nat → Option (List Nat)

def pmsg_send : Tool := ⟨sendSwitch, sendOperands⟩
def pmsg_receive : Tool := ⟨receiveSwitch, receiveOperands⟩

def argc (args : List Text) : Nat := args.length + 1

def optind (args : List Text) (s : Scan) : Nat := argc args - s.remaining

def Tool.run (tool : Tool) (args : List Text) (fuel : Nat) : Option (LoopResult Scan) :=
  optionLoop (next optstring) tool.switch fuel O_RDWR (start args)

def wanted (args : List Text) : Parsed Scan :=
  let (options, rest) := scan optstring (start args)
  ⟨if .option 110 none ∈ options then O_RDWR ||| O_NONBLOCK else O_RDWR, rest⟩

/-- A bad option is answered with a usage error, in the loop or by the test of the operands behind it. -/
def Tool.Rejects (tool : Tool) (args : List Text) : Prop :=
  ∃ fuel, tool.run args fuel = some .usageError ∨
    ∃ parsed, tool.run args fuel = some (.left parsed) ∧ tool.operands (argc args) (optind args parsed.scan) = none

/-- Without a bad option the loop ends with the flags that the options ask for and at the first
    operand, and no operand is read from behind the arguments. -/
def Tool.Accepts (tool : Tool) (args : List Text) : Prop :=
  ∃ fuel parsed, tool.run args fuel = some (.left parsed) ∧ parsed.flags = (wanted args).flags ∧
    optind args parsed.scan = optind args (wanted args).scan ∧
    ∀ operands, tool.operands (argc args) (optind args parsed.scan) = some operands →
      ∀ i ∈ operands, i < argc args

def Tool.Parses (tool : Tool) (args : List Text) : Prop :=
  if (scan optstring (start args)).1.any Event.bad then tool.Rejects args else tool.Accepts args

variable {args : List Text} {e : Event} {s t : Scan}

theorem letter_eq (c : BitVec 8) (s : Scan) :
    letter optstring c s = (if c = 110 then .option c none else .unknown c, s) := by
  by_cases isN : c = 110
  · subst isN
    rfl
  · have unknown : kind optstring c = none := by
      rw [optstring, kind, if_neg (fun both => isN both.1.symm)]
      rfl
    unfold letter
    rw [unknown, if_neg isN]

theorem next_start (event : next optstring (start args) = (some e, t)) :
    ∃ c bundle rest, args = (45 :: c :: bundle) :: rest ∧ ¬ (c = 45 ∧ bundle = []) ∧
      e = (if c = 110 then .option c none else .unknown c) ∧ t = ⟨bundle, rest⟩ := by
  unfold start next at event
  split at event
  · rename_i same
    cases same
  · cases event
  · rename_i c bundle rest other same
    cases same
    rw [letter_eq] at event
    cases event
    refine ⟨c, bundle, rest, rfl, ?_, rfl, rfl⟩
    rintro ⟨rfl, rfl⟩
    exact other rfl rfl
  · cases event

theorem run_event (tool : Tool) (event : next optstring (start args) = (some e, t)) {fuel : Nat}
    {result : LoopResult Scan} (run : tool.run args fuel = some result) : result = .left ⟨O_RDWR, t⟩ := by
  cases fuel with
  | zero => cases run
  | succ fuel =>
    rw [Tool.run, optionLoop, event] at run
    cases run
    rfl

theorem receive_ended (ended : next optstring (start args) = (none, t)) {fuel : Nat} {result : LoopResult Scan}
    (run : pmsg_receive.run args fuel = some result) : result = .usageError := by
  cases fuel with
  | zero => cases run
  | succ fuel =>
    rw [Tool.run, optionLoop, ended] at run
    cases run
    rfl

/-- Without options `pmsg_send` calls `getopt` for ever. -/
theorem send_never_ends (ended : next optstring (start args) = (none, start args)) (fuel : Nat) :
    pmsg_send.run args fuel = none := by
  have stays : ∀ fuel flags, optionLoop (next optstring) sendSwitch fuel flags (start args) = none := by
    intro fuel
    induction fuel with
    | zero =>
      intro flags
      rfl
    | succ fuel ih =>
      intro flags
      rw [optionLoop, ended]
      exact ih flags
  exact stays fuel O_RDWR

theorem sendOperands_inside {argc optind : Nat} {operands : List Nat}
    (read : sendOperands argc optind = some operands) : ∀ i ∈ operands, i < argc := by
  unfold sendOperands at read
  split at read
  · cases read
  · split at read
    · cases read
      simp only [List.mem_cons, List.not_mem_nil, or_false]
      omega
    · cases read
      simp only [List.mem_cons, List.not_mem_nil, or_false]
      omega

theorem receiveOperands_inside_iff {argc optind : Nat} :
    (∀ operands, receiveOperands argc optind = some operands → ∀ i ∈ operands, i < argc) ↔ argc ≠ optind + 2 := by
  unfold receiveOperands
  constructor
  · rintro inside rfl
    have outside := inside [optind + 2, optind] (by simp) (optind + 2) (by simp)
    omega
  · intro other operands read
    split at read
    · cases read
    · split at read
      · cases read
        simp only [List.mem_cons, List.not_mem_nil, or_false]
        omega
      · cases read
        simp only [List.mem_cons, List.not_mem_nil, or_false]
        omega

theorem wanted_option {c : BitVec 8} (event : next optstring (start args) = (some (.option c none), t))
    (isN : c = 110) : (wanted args).flags = O_RDWR ||| O_NONBLOCK := by
  subst isN
  simp [wanted, scan_event event]

theorem remaining_eq_zero (s : Scan) : s.remaining = 0 ↔ s.bundle = [] ∧ s.rest = [] := by
  unfold Scan.remaining
  by_cases letters : s.bundle = []
  · simp [letters]
  · simp [letters]

theorem receiveOperands_eq_none {argc optind : Nat} : receiveOperands argc optind = none ↔ argc ≤ optind := by
  unfold receiveOperands
  split
  · exact iff_of_true rfl (by omega)
  · split
    · exact iff_of_false nofun (by omega)
    · exact iff_of_false nofun (by omega)

theorem next_badLetter {c : BitVec 8} (notN : c ≠ 110) (notDash : c ≠ 45) :
    next optstring (start [[45, c]]) = (some (.unknown c), ⟨[], []⟩) := by
  unfold start next
  split
  · rename_i same
    cases same
  · rename_i rest same
    exact absurd (List.cons.inj (List.cons.inj (List.cons.inj (Scan.mk.inj same).2).1).2).1 notDash
  · rename_i c' bundle rest other same
    cases same
    rw [letter_eq, if_neg notN]
    rfl
  · rename_i rest notEnd notOption same
    cases same
    exact (notOption c [] [] rfl).elim

theorem parses_badLetter {c : BitVec 8} (notN : c ≠ 110) (notDash : c ≠ 45) :
    pmsg_send.Parses [[45, c]] ∧ pmsg_receive.Parses [[45, c]] := by
  have read := next_badLetter notN notDash
  have bad : (scan optstring (start [[45, c]])).1.any Event.bad = true := by
    rw [scan_event read]
    rfl
  have left : ∀ tool : Tool, tool.run [[45, c]] 1 = some (.left ⟨O_RDWR, ⟨[], []⟩⟩) := by
    intro tool
    rw [Tool.run, optionLoop, read]
  unfold Tool.Parses
  rw [if_pos bad, if_pos bad]
  exact ⟨⟨1, .inr ⟨_, left _, rfl⟩⟩, ⟨1, .inr ⟨_, left _, rfl⟩⟩⟩

/-- A bad option is rejected only behind the loop, where it leaves no operand. -/
theorem receive_rejects (read : next optstring (start args) = (some e, t)) (rejects : pmsg_receive.Rejects args) :
    t = ⟨[], []⟩ := by
  obtain ⟨fuel, run | ⟨parsed, run, rejected⟩⟩ := rejects
  · cases run_event _ read run
  · cases run_event _ read run
    have behind : argc args ≤ optind args t := receiveOperands_eq_none.mp rejected
    have nonempty : argc args = args.length + 1 := rfl
    have nothing : t.remaining = 0 := by
      unfold optind at behind
      omega
    obtain ⟨bundle, rest⟩ := (remaining_eq_zero t).mp nothing
    cases t
    rw [Scan.mk.injEq]
    exact ⟨bundle, rest⟩

theorem receive_not_accepts (read : next optstring (start args) = (some e, t)) (isN : e = .option 110 none) :
    ¬ pmsg_receive.Accepts args := by
  rintro ⟨fuel, parsed, run, flags, -⟩
  cases run_event _ read run
  subst isN
  rw [wanted_option read rfl] at flags
  have unset : O_RDWR = O_RDWR ||| O_NONBLOCK := flags
  exact absurd unset (by decide)

/-- Both tools parse their arguments as they should only where the one argument is a bad option. -/
theorem parses_iff (args : List Text) :
    pmsg_send.Parses args ∧ pmsg_receive.Parses args ↔ ∃ c, c ≠ 110 ∧ c ≠ 45 ∧ args = [[45, c]] := by
  constructor
  · rintro ⟨-, receives⟩
    unfold Tool.Parses at receives
    cases read : next optstring (start args) with
    | mk event t =>
      cases event with
      | none =>
        rw [scan_ended read] at receives
        obtain ⟨fuel, parsed, run, -⟩ := receives
        cases receive_ended read run
      | some e =>
        obtain ⟨c, bundle, rest, whole, notEnd, found, left⟩ := next_start read
        by_cases isN : c = 110
        · rw [if_pos isN] at found
          subst isN
          have accepts := receive_not_accepts read found
          split at receives
          · rename_i bad
            -- nothing is left behind a single `-n`, so that no option is bad
            have nothing := receive_rejects read receives
            rw [scan_event read, nothing, found] at bad
            cases bad
          · exact absurd receives accepts
        · rw [if_neg isN] at found
          have bad : (scan optstring (start args)).1.any Event.bad = true := by
            rw [scan_event read, found]
            rfl
          rw [if_pos bad] at receives
          have nothing := receive_rejects read receives
          rw [left, Scan.mk.injEq] at nothing
          obtain ⟨noLetters, noArguments⟩ := nothing
          subst noLetters noArguments
          exact ⟨c, isN, fun same => notEnd ⟨same, rfl⟩, whole⟩
  · rintro ⟨c, notN, notDash, rfl⟩
    exact parses_badLetter notN notDash

/-- `pmsg_send /q hi` -/
theorem twoOperands_not_parsed :
    ¬ ∀ args, pmsg_send.Parses args ∧ pmsg_receive.Parses args := by
  intro always
  have sends := (always [[47, 113], [104, 105]]).1
  unfold Tool.Parses at sends
  rw [if_neg (by decide)] at sends
  obtain ⟨fuel, parsed, run, -⟩ := sends
  have ended : next optstring (start [[47, 113], [104, 105]]) = (none, start [[47, 113], [104, 105]]) := rfl
  rw [send_never_ends ended] at run
  cases run

end SystemProgramming.PosixQueueTools
