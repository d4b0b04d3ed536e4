import Mathlib.Tactic.Common
import SystemProgramming.Kernel
import SystemProgramming.Library.CNumber

namespace SystemProgramming.Nanosleep

open CNumber

structure Timespec where
  tv_sec : Int
  tv_nsec : Int
  deriving DecidableEq, Repr

namespace Timespec

def ns (t : Timespec) : Int := t.tv_sec * 1000000000 + t.tv_nsec

def Valid (t : Timespec) : Prop := 0 ≤ t.tv_sec ∧ 0 ≤ t.tv_nsec ∧ t.tv_nsec < 1000000000

instance (t : Timespec) : Decidable t.Valid := inferInstanceAs (Decidable (_ ∧ _))

def ofNs (n : Int) : Timespec := ⟨n / 1000000000, n % 1000000000⟩

@[simp] theorem ns_ofNs (n : Int) : (ofNs n).ns = n := by
  simp only [ns, ofNs]
  omega

theorem valid_ofNs {n : Int} (nonneg : 0 ≤ n) : (ofNs n).Valid := by
  simp only [Valid, ofNs]
  omega

end Timespec

inductive Sleep where
  | invalid
  | whole
  | interrupted (after : Int) (remain : Timespec)
  deriving DecidableEq, Repr

/-- `signal` is the time, in nanoseconds from the call, at which the next signal arrives. -/
def nanosleep (request : Timespec) (signal : Option Nat) : Sleep :=
  if request.Valid then
    match signal with
    | none => .whole
    | some after => if after ≤ request.ns then .interrupted after (.ofNs (request.ns - after)) else .whole
  else .invalid

inductive Call where
  | sigaction
  | gettimeofday
  | nanosleep
  deriving DecidableEq, Repr

inductive Ending where
  | usage
  | errExit (call : Call)
  | complete
  deriving DecidableEq, Repr

/-- How the other calls end: `interruptions` lists when signals arrive, each with the `gettimeofday`
    behind the sleep that it interrupts, and `finish` is the last `gettimeofday`. -/
structure Calls where
  sigaction : Bool
  start : Bool
  interruptions : List (Nat × Bool)
  finish : Bool

def Calls.Succeed (calls : Calls) : Prop :=
  calls.sigaction = true ∧ calls.start = true ∧ (∀ interruption ∈ calls.interruptions, interruption.2 = true) ∧
    calls.finish = true

/-- `slept` is the time spent in `nanosleep`; no statement looks at it. -/
structure Run where
  ending : Ending
  slept : Int
  remaining : List Timespec
  deriving DecidableEq, Repr

def sleepLoop (request : Timespec) (slept : Int) (remaining : List Timespec) (finish : Bool) :
    List (Nat × Bool) → Run
  | [] =>
    match nanosleep request none with
    | .invalid => ⟨.errExit .nanosleep, slept, remaining⟩
    | _ => ⟨if finish then .complete else .errExit .gettimeofday, slept + request.ns, remaining⟩
  | (signal, clock) :: interruptions =>
    match nanosleep request (some signal) with
    | .invalid => ⟨.errExit .nanosleep, slept, remaining⟩
    | .whole => ⟨if clock then .complete else .errExit .gettimeofday, slept + request.ns, remaining⟩
    | .interrupted after remain =>
      if clock then sleepLoop remain (slept + after) (remaining ++ [remain]) finish interruptions
      else ⟨.errExit .gettimeofday, slept + after, remaining⟩

def help : List Byte := [45, 45, 104, 101, 108, 112]

def main (argv : List CString) (calls : Calls) : Run :=
  match argv with
  | [secs, _] =>
    if secs.1 = help then ⟨.usage, 0, []⟩
    else
      -- both fields are read from `argv[1]`
      let request : Timespec := ⟨atol secs, atol secs⟩
      if calls.sigaction then
        if calls.start then sleepLoop request 0 [] calls.finish calls.interruptions
        else ⟨.errExit .gettimeofday, 0, []⟩
      else ⟨.errExit .sigaction, 0, []⟩
  | _ => ⟨.usage, 0, []⟩

/-- The whole time is slept, however often and whenever the sleep is interrupted. -/
theorem sleepLoop_complete {request : Timespec} (valid : request.Valid) (slept : Int) (remaining : List Timespec)
    {interruptions : List (Nat × Bool)} (clocks : ∀ interruption ∈ interruptions, interruption.2 = true) :
    (sleepLoop request slept remaining true interruptions).ending = .complete ∧
      (sleepLoop request slept remaining true interruptions).slept = slept + request.ns := by
  induction interruptions generalizing request slept remaining with
  | nil =>
    rw [sleepLoop, nanosleep, if_pos valid]
    exact ⟨rfl, rfl⟩
  | cons interruption interruptions ih =>
    obtain ⟨signal, clock⟩ := interruption
    have read : clock = true := clocks _ List.mem_cons_self
    have later := fun other member => clocks other (List.mem_cons_of_mem _ member)
    rw [sleepLoop, nanosleep, if_pos valid]
    by_cases early : signal ≤ request.ns
    · have left : (Timespec.ofNs (request.ns - signal)).Valid := Timespec.valid_ofNs (by omega)
      obtain ⟨ends, total⟩ := ih left (slept + signal) (remaining ++ [.ofNs (request.ns - signal)]) later
      rw [if_pos early]
      dsimp only
      rw [if_pos read]
      refine ⟨ends, ?_⟩
      rw [total, Timespec.ns_ofNs]
      omega
    · rw [if_neg early]
      dsimp only
      rw [if_pos read]
      exact ⟨rfl, rfl⟩

theorem sleepLoop_invalid {request : Timespec} (invalid : ¬ request.Valid) (slept : Int) (remaining : List Timespec)
    (finish : Bool) (interruptions : List (Nat × Bool)) :
    (sleepLoop request slept remaining finish interruptions).ending = .errExit .nanosleep := by
  cases interruptions with
  | nil => rw [sleepLoop, nanosleep, if_neg invalid]
  | cons interruption interruptions => rw [sleepLoop, nanosleep, if_neg invalid]

def SleepsExactly (secs nanosecs : CString) : Prop :=
  ∀ calls : Calls, calls.Succeed →
    (main [secs, nanosecs] calls).ending = .complete ∧
      (main [secs, nanosecs] calls).slept = atol secs * 1000000000 + atol nanosecs

def undisturbed : Calls := ⟨true, true, [], true⟩

theorem undisturbed_succeed : undisturbed.Succeed := ⟨rfl, rfl, nofun, rfl⟩

theorem main_two (secs nanosecs : CString) {calls : Calls} (succeed : calls.Succeed) (other : secs.1 ≠ help) :
    main [secs, nanosecs] calls = sleepLoop ⟨atol secs, atol secs⟩ 0 [] true calls.interruptions := by
  obtain ⟨sigaction, start, -, finish⟩ := succeed
  rw [main, if_neg other]
  dsimp only
  rw [if_pos sigaction, if_pos start, finish]

/-- The second argument is never read: the sleep is right exactly when it equals the first one, which
    has to be a number of nanoseconds below a second. -/
theorem main_sleepsExactly_iff (secs nanosecs : CString) :
    SleepsExactly secs nanosecs ↔
      secs.1 ≠ help ∧ atol secs = atol nanosecs ∧ 0 ≤ atol secs ∧ atol secs < 1000000000 := by
  constructor
  · intro exactly
    obtain ⟨ends, slept⟩ := exactly undisturbed undisturbed_succeed
    have other : secs.1 ≠ help := by
      intro same
      rw [main, if_pos same] at ends
      cases ends
    rw [main_two secs nanosecs undisturbed_succeed other] at ends slept
    have valid : Timespec.Valid ⟨atol secs, atol secs⟩ := by
      by_contra invalid
      rw [sleepLoop_invalid invalid] at ends
      cases ends
    have total := (sleepLoop_complete valid 0 [] undisturbed_succeed.2.2.1).2
    rw [total] at slept
    simp only [Timespec.ns] at slept
    exact ⟨other, by omega, valid.1, valid.2.2⟩
  · rintro ⟨other, same, nonneg, below⟩ calls succeed
    have valid : Timespec.Valid ⟨atol secs, atol secs⟩ := ⟨nonneg, nonneg, below⟩
    rw [main_two secs nanosecs succeed other]
    obtain ⟨ends, total⟩ := sleepLoop_complete valid 0 [] succeed.2.2.1
    refine ⟨ends, ?_⟩
    rw [total, ← same]
    simp only [Timespec.ns]
    omega

/-- Asked for 2 seconds, the program sleeps 2 nanoseconds more. -/
theorem twoSeconds_not_exactly :
    ¬ ∀ secs nanosecs : CString, 0 ≤ atol secs → 0 ≤ atol nanosecs ∧ atol nanosecs < 1000000000 →
      SleepsExactly secs nanosecs := by
  intro always
  have slept := (always ⟨[50], by decide⟩ ⟨[48], by decide⟩ (by decide) (by decide) undisturbed undisturbed_succeed).2
  exact absurd slept (by decide)

end SystemProgramming.Nanosleep
