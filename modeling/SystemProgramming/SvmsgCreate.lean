import SystemProgramming.CommandLine
import SystemProgramming.Library.CNumber

namespace SystemProgramming.SvmsgCreate

open Getopt CNumber

def IPC_CREAT : BitVec 32 := 512
def IPC_EXCL : BitVec 32 := 1024
def IPC_PRIVATE : BitVec 32 := 0

def ownerReadWrite : BitVec 32 := 384

def optstring : Text := [99, 102, 58, 107, 58, 112, 120]

/-- The variables that the option loop changes; they start with whatever the stack holds. -/
structure Vars where
  numKeyFlags : BitVec 32
  flags : BitVec 32
  key : BitVec 32
  deriving DecidableEq

inductive Failure where
  | badOption
  | ftok
  | notNumeric
  deriving DecidableEq

inductive Ending where
  | failed (failure : Failure)
  | keyOptions
  | msgget (key flags : BitVec 32)
  deriving DecidableEq

variable (ftok : Text → BitVec 32)

def option (v : Vars) : Event → Except Failure Vars
  | .option 99 _ => .ok { v with flags := v.flags ||| IPC_CREAT }
  | .option 102 (some path) =>
    let key := ftok path
    if key = -1 then .error .ftok else .ok { v with key, numKeyFlags := v.numKeyFlags + 1 }
  | .option 107 (some text) =>
    match scan 0 text with
    | none => .error .notNumeric
    | some lkey => .ok { v with key := BitVec.ofInt 32 lkey, numKeyFlags := v.numKeyFlags + 1 }
  | .option 112 _ => .ok { v with key := IPC_PRIVATE, numKeyFlags := v.numKeyFlags + 1 }
  | .option 120 _ => .ok { v with flags := v.flags ||| IPC_EXCL }
  | _ => .error .badOption

def options (v : Vars) : List Event → Except Failure Vars
  | [] => .ok v
  | e :: events =>
    match option ftok v e with
    | .error failure => .error failure
    | .ok v => options v events

def main (v : Vars) (line : CommandLine) : Ending :=
  let (events, operands) := line.parse optstring
  match options ftok v events with
  | .error failure => .failed failure
  | .ok v =>
    if v.numKeyFlags ≠ 1 then .keyOptions
    else
      let perms :=
        match operands with
        | [] => ownerReadWrite
        | operand :: _ => atoi operand.val
      .msgget v.key (v.flags ||| perms)

def keyOf : Event → Option (BitVec 32)
  | .option 102 (some path) => some (ftok path)
  | .option 107 (some text) => (scan 0 text).map (BitVec.ofInt 32)
  | .option 112 _ => some IPC_PRIVATE
  | _ => none

def keys (events : List Event) : List (BitVec 32) := events.filterMap (keyOf ftok)

/-- An unknown letter, a missing argument, or a `-k` without a number. -/
def bad : Event → Bool
  | .option 99 _ | .option 102 (some _) | .option 112 _ | .option 120 _ => false
  | .option 107 (some text) => (scan 0 text).isNone
  | _ => true

def isCreate : Event → Bool
  | .option 99 _ => true
  | _ => false

def isExclusive : Event → Bool
  | .option 120 _ => true
  | _ => false

def flagWord (create exclusive : Bool) : BitVec 32 :=
  (if create then IPC_CREAT else 0) ||| (if exclusive then IPC_EXCL else 0)

def optionFlags (events : List Event) : BitVec 32 := flagWord (events.any isCreate) (events.any isExclusive)

def octalPerms : List CString → BitVec 32
  | [] => ownerReadWrite
  | operand :: _ => BitVec.ofInt 32 ((scan 8 operand.val).getD 0)

def decimalPerms : List CString → BitVec 32
  | [] => ownerReadWrite
  | operand :: _ => atoi operand.val

def wanted (line : CommandLine) : Option (BitVec 32 × BitVec 32) :=
  let (events, operands) := line.parse optstring
  if events.any bad then none
  else
    match keys ftok events with
    | [key] => some (key, optionFlags events ||| octalPerms operands)
    | _ => none

def Ending.call : Ending → Option (BitVec 32 × BitVec 32)
  | .msgget key flags => some (key, flags)
  | _ => none

variable {ftok} {v : Vars} {e : Event} {events : List Event}

theorem option_good (succeeds : ∀ path, ftok path ≠ -1) (good : bad e = false) :
    option ftok v e = .ok ⟨v.numKeyFlags + BitVec.ofNat 32 (keyOf ftok e).toList.length,
      v.flags ||| optionFlags [e], (keyOf ftok e).getD v.key⟩ := by
  unfold bad at good
  split at good
  · simp [option, keyOf, optionFlags, flagWord, isCreate, isExclusive]
  · rename_i path
    simp only [option, if_neg (succeeds path)]
    simp [keyOf, optionFlags, flagWord, isCreate, isExclusive]
  · simp [option, keyOf, optionFlags, flagWord, isCreate, isExclusive]
  · simp [option, keyOf, optionFlags, flagWord, isCreate, isExclusive]
  · rename_i text
    cases number : scan 0 text with
    | none =>
      rw [number] at good
      cases good
    | some lkey => simp [option, keyOf, optionFlags, flagWord, isCreate, isExclusive, number]
  · cases good

theorem option_bad (ftok : Text → BitVec 32) (v : Vars) (wrong : bad e = true) :
    ∃ failure, option ftok v e = .error failure := by
  unfold bad at wrong
  split at wrong
  · cases wrong
  · cases wrong
  · cases wrong
  · cases wrong
  · rename_i text
    have none : scan 0 text = none := Option.isNone_iff_eq_none.mp wrong
    exact ⟨.notNumeric, by simp [option, none]⟩
  · rename_i notC notF notP notX notK
    refine ⟨.badOption, ?_⟩
    unfold option
    split
    · exact absurd rfl (notC _)
    · exact absurd rfl (notF _)
    · exact absurd rfl (notK _)
    · exact absurd rfl (notP _)
    · exact absurd rfl (notX _)
    · rfl

theorem flagWord_or (a b c d : Bool) : flagWord (a || c) (b || d) = flagWord a b ||| flagWord c d := by
  cases a <;> cases b <;> cases c <;> cases d <;> rfl

theorem optionFlags_cons (e : Event) (events : List Event) :
    optionFlags (e :: events) = optionFlags [e] ||| optionFlags events := by
  unfold optionFlags
  rw [List.any_cons, List.any_cons, flagWord_or, List.any_cons, List.any_cons, List.any_nil, List.any_nil,
    Bool.or_false, Bool.or_false]

theorem options_good (succeeds : ∀ path, ftok path ≠ -1) (good : events.any bad = false) (v : Vars) :
    options ftok v events = .ok ⟨v.numKeyFlags + BitVec.ofNat 32 (keys ftok events).length,
      v.flags ||| optionFlags events, (keys ftok events).getLast?.getD v.key⟩ := by
  induction events generalizing v with
  | nil => simp [options, keys, optionFlags, flagWord]
  | cons e events ih =>
    rw [List.any_cons, Bool.or_eq_false_iff] at good
    rw [options, option_good succeeds good.1]
    dsimp only
    rw [ih good.2, optionFlags_cons e events, ← BitVec.or_assoc]
    cases found : keyOf ftok e with
    | none => simp [keys, found]
    | some key =>
      have whole : keys ftok (e :: events) = key :: keys ftok events := by simp [keys, found]
      have counted : v.numKeyFlags + BitVec.ofNat 32 1 + BitVec.ofNat 32 (keys ftok events).length =
          v.numKeyFlags + BitVec.ofNat 32 ((keys ftok events).length + 1) := by
        rw [BitVec.add_assoc, ← BitVec.ofNat_add, Nat.add_comm]
      rw [whole, List.getLast?_cons, List.length_cons, ← counted]
      rfl

theorem options_bad (ftok : Text → BitVec 32) (wrong : events.any bad = true) (v : Vars) :
    ∃ failure, options ftok v events = .error failure := by
  induction events generalizing v with
  | nil => cases wrong
  | cons e events ih =>
    rw [options]
    cases taken : option ftok v e with
    | error failure => exact ⟨failure, rfl⟩
    | ok v' =>
      rw [List.any_cons, Bool.or_eq_true] at wrong
      rcases wrong with first | later
      · obtain ⟨failure, fails⟩ := option_bad ftok v first
        rw [taken] at fails
        cases fails
      · exact ih later v'

theorem perms_eq (operands : List CString) :
    (match operands with
      | [] => ownerReadWrite
      | operand :: _ => atoi operand.val) = decimalPerms operands := by
  cases operands with
  | nil => rfl
  | cons operand operands => rfl

theorem add_one_eq_one (n : BitVec 32) : n + 1 = 1 ↔ n = 0 := by
  constructor
  · intro same
    bv_omega
  · rintro rfl
    rfl

/-- The bits of two flag words agree where `options` does not set them anyway. -/
theorem or_or_eq_iff (flags options given asked : BitVec 32) :
    flags ||| options ||| given = options ||| asked ↔
      ∀ i, options.getLsbD i = false → (flags.getLsbD i || given.getLsbD i) = asked.getLsbD i := by
  constructor
  · intro same i unset
    have bit := congrArg (fun word => word.getLsbD i) same
    simpa only [BitVec.getLsbD_or, unset, Bool.or_false, Bool.false_or] using bit
  · intro agree
    apply BitVec.eq_of_getLsbD_eq
    intro i _
    rw [BitVec.getLsbD_or, BitVec.getLsbD_or, BitVec.getLsbD_or]
    cases set : options.getLsbD i with
    | true => simp
    | false => simpa using agree i set

/-- The call is right exactly where a bad option keeps it from being reached, where one key option finds
    `numKeyFlags` at 0 and every bit but those of `-c` and `-x` is in `flags` or the decimal operand just if it is
    in the octal one, and where `numKeyFlags` does not turn another number of key options into one. -/
theorem main_wanted_iff (ftok : Text → BitVec 32) (succeeds : ∀ path, ftok path ≠ -1) (v : Vars) (line : CommandLine) :
    (main ftok v line).call = wanted ftok line ↔
      let (events, operands) := line.parse optstring
      events.any bad = true ∨
        ((keys ftok events).length = 1 ∧ v.numKeyFlags = 0 ∧
          ∀ i, (optionFlags events).getLsbD i = false →
            (v.flags.getLsbD i || (decimalPerms operands).getLsbD i) = (octalPerms operands).getLsbD i) ∨
        ((keys ftok events).length ≠ 1 ∧ v.numKeyFlags + BitVec.ofNat 32 (keys ftok events).length ≠ 1) := by
  unfold main wanted
  cases line.parse optstring with
  | mk events operands =>
    dsimp only
    rw [perms_eq, ← or_or_eq_iff]
    by_cases wrong : events.any bad = true
    · obtain ⟨failure, fails⟩ := options_bad ftok wrong v
      rw [fails, if_pos wrong]
      exact iff_of_true rfl (.inl wrong)
    · rw [options_good succeeds (Bool.eq_false_iff.mpr wrong), if_neg wrong, or_iff_right wrong]
      dsimp only
      by_cases one : (keys ftok events).length = 1
      · obtain ⟨key, only⟩ := List.length_eq_one_iff.mp one
        have other : ¬ ((keys ftok events).length ≠ 1 ∧
            v.numKeyFlags + BitVec.ofNat 32 (keys ftok events).length ≠ 1) := fun both => both.1 one
        rw [or_iff_left other, and_iff_right one, only]
        by_cases fresh : v.numKeyFlags = 0
        · have counted : ¬ (v.numKeyFlags + BitVec.ofNat 32 [key].length ≠ 1) :=
            not_not.mpr ((add_one_eq_one v.numKeyFlags).mpr fresh)
          rw [if_neg counted, and_iff_right fresh]
          simp [Ending.call]
        · have counted : v.numKeyFlags + BitVec.ofNat 32 [key].length ≠ 1 :=
            fun same => fresh ((add_one_eq_one v.numKeyFlags).mp same)
          rw [if_pos counted]
          exact iff_of_false (by simp [Ending.call]) (fun both => fresh both.1)
      · have nothing : (match keys ftok events with
            | [key] => some (key, optionFlags events ||| octalPerms operands)
            | _ => none) = none := by
          split
          · rename_i key only
            rw [only] at one
            exact absurd rfl one
          · rfl
        have other : ¬ ((keys ftok events).length = 1 ∧ v.numKeyFlags = 0 ∧
            v.flags ||| optionFlags events ||| decimalPerms operands =
              optionFlags events ||| octalPerms operands) := fun both => one both.1
        rw [nothing, or_iff_right other, and_iff_right one]
        by_cases counted : v.numKeyFlags + BitVec.ofNat 32 (keys ftok events).length ≠ 1
        · rw [if_pos counted]
          exact iff_of_true rfl counted
        · rw [if_neg counted]
          exact iff_of_false (by simp [Ending.call]) counted

def dashP : CString := ⟨[45, 112], by decide⟩
def dashC : CString := ⟨[45, 99], by decide⟩
def sixHundred : CString := ⟨[54, 48, 48], by decide⟩

/-- `svmsg_create -p -c`, with a stack of zeros. -/
theorem main_wanted_private :
    (main (fun _ => 5) ⟨0, 0, 7⟩ ⟨.permute, [dashP, dashC]⟩).call =
      some (IPC_PRIVATE, IPC_CREAT ||| ownerReadWrite) := by
  have called := (main_wanted_iff (fun _ => 5) (fun _ => by decide) ⟨0, 0, 7⟩ ⟨.permute, [dashP, dashC]⟩).mpr
    (.inr (.inl ⟨rfl, rfl, fun i _ => congrArg (· || ownerReadWrite.getLsbD i) BitVec.getLsbD_zero⟩))
  exact called

/-- `svmsg_create -p 600`: the stack holds zeros, and the queue is created with the mode 1130. -/
theorem decimal_perms_not_wanted :
    ¬ ∀ (ftok : Text → BitVec 32) (v : Vars) (line : CommandLine), (∀ path, ftok path ≠ -1) →
      (main ftok v line).call = wanted ftok line := by
  intro always
  have called := always (fun _ => 5) ⟨0, 0, 7⟩ ⟨.permute, [dashP, sixHundred]⟩ (fun _ => by decide)
  exact absurd called (by decide)

end SystemProgramming.SvmsgCreate
