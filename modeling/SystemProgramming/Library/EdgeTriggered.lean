import Mathlib.Tactic.Common
import SystemProgramming.Library.Transition

/-- A source of work that is watched edge-triggered: what has arrived, whether there is an edge to
    report, and whether the consumer has a report in hand. Reports never outnumber the arrivals. -/
structure EdgeTriggered where
  backlog : Nat
  edge : Bool
  serving : Bool
  covered : edge.toNat + serving.toNat ≤ backlog

namespace EdgeTriggered

open Transition

def arrive (s : EdgeTriggered) : EdgeTriggered where
  backlog := s.backlog + 1
  edge := true
  serving := s.serving
  covered := by
    have covered := s.covered
    rw [Bool.toNat_true]
    omega

def report (s : EdgeTriggered) (edge : s.edge = true) (idle : s.serving = false) : EdgeTriggered where
  backlog := s.backlog
  edge := false
  serving := true
  covered := by
    have covered := s.covered
    rw [edge, idle] at covered
    exact covered

def serve (s : EdgeTriggered) (busy : s.serving = true) : EdgeTriggered where
  backlog := s.backlog - 1
  edge := s.edge
  serving := false
  covered := by
    have covered := s.covered
    rw [busy, Bool.toNat_true] at covered
    rw [Bool.toNat_false]
    omega

def fail (s : EdgeTriggered) : EdgeTriggered where
  backlog := s.backlog
  edge := s.edge
  serving := false
  covered := by
    have covered := s.covered
    rw [Bool.toNat_false]
    omega

inductive Action where
  | arrive
  | report
  | serve
  | fail

def step (s : EdgeTriggered) : Action → Option EdgeTriggered
  | .arrive => some s.arrive
  | .report => if h : s.edge = true ∧ s.serving = false then some (s.report h.1 h.2) else none
  | .serve => if busy : s.serving = true then some (s.serve busy) else none
  | .fail => if s.serving = true then some s.fail else none

def Accounted (s : EdgeTriggered) : Prop := s.backlog = s.edge.toNat + s.serving.toNat

def Separate (s : EdgeTriggered) : Action → Prop
  | .arrive => s.edge = false
  | .fail => False
  | _ => True

theorem accounted_step {s t : EdgeTriggered} {action : Action} (taken : step s action = some t) :
    t.Accounted ↔ s.Accounted ∧ s.Separate action := by
  have covered := s.covered
  unfold Accounted
  cases action with
  | arrive =>
    cases taken
    simp only [arrive, Separate, Bool.toNat_true]
    cases edge : s.edge with
    | false =>
      rw [Bool.toNat_false, and_iff_left rfl]
      omega
    | true =>
      rw [edge, Bool.toNat_true] at covered
      have unequal : s.backlog + 1 ≠ 1 + s.serving.toNat := by omega
      simp [unequal]
  | report =>
    simp only [step] at taken
    split at taken
    · rename_i ready
      cases taken
      simp [report, Separate, ready.1, ready.2]
    · cases taken
  | serve =>
    simp only [step] at taken
    split at taken
    · rename_i busy
      cases taken
      rw [busy, Bool.toNat_true] at covered
      simp only [serve, Separate, busy, Bool.toNat_true, Bool.toNat_false, and_true]
      omega
    · cases taken
  | fail =>
    simp only [step] at taken
    split at taken
    · rename_i busy
      cases taken
      rw [busy, Bool.toNat_true] at covered
      have unequal : s.backlog ≠ s.edge.toNat := by omega
      simp [fail, Separate, unequal]
    · cases taken

theorem accounted_run {s t : EdgeTriggered} {actions : List Action} (run : exec step actions s = some t) :
    t.Accounted ↔ s.Accounted ∧ Along step Separate actions s :=
  along_iff (I := fun _ => True) (fun _ _ _ _ _ => trivial) (fun _ _ _ _ taken => accounted_step taken)
    trivial run

theorem drained_iff {s : EdgeTriggered} (quiet : s.edge = false) (idle : s.serving = false) :
    s.backlog = 0 ↔ s.Accounted := by
  rw [Accounted, quiet, idle]
  rfl

end EdgeTriggered
