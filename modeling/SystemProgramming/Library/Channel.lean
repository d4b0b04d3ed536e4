import Mathlib.Data.List.Infix
import SystemProgramming.Library.Transition

/-- A channel remembers all that was sent and received; nothing is lost, duplicated or
    reordered, so what is in flight is exactly what separates the two. -/
structure Channel (β : Type*) where
  sent : List β
  inFlight : List β
  received : List β
  conserved : received ++ inFlight = sent

namespace Channel

open Transition

variable {β : Type*}

def empty : Channel β := ⟨[], [], [], rfl⟩

def put (c : Channel β) (xs : List β) : Channel β :=
  ⟨c.sent ++ xs, c.inFlight ++ xs, c.received, by rw [← List.append_assoc, c.conserved]⟩

def take (c : Channel β) (n : Nat) : Channel β :=
  ⟨c.sent, c.inFlight.drop n, c.received ++ c.inFlight.take n, by
    rw [List.append_assoc, List.take_append_drop, c.conserved]⟩

@[simp] theorem put_sent (c : Channel β) (xs : List β) : (c.put xs).sent = c.sent ++ xs := rfl
@[simp] theorem put_inFlight (c : Channel β) (xs : List β) :
    (c.put xs).inFlight = c.inFlight ++ xs := rfl
@[simp] theorem take_sent (c : Channel β) (n : Nat) : (c.take n).sent = c.sent := rfl
@[simp] theorem take_inFlight (c : Channel β) (n : Nat) :
    (c.take n).inFlight = c.inFlight.drop n := rfl
@[simp] theorem take_received (c : Channel β) (n : Nat) :
    (c.take n).received = c.received ++ c.inFlight.take n := rfl

inductive Action (β : Type*) where
  | put (xs : List β)
  | take (n : Nat)

def step (capacity : Nat) (c : Channel β) : Action β → Option (Channel β)
  | .put xs => if c.inFlight.length + xs.length ≤ capacity then some (c.put xs) else none
  | .take n => if n ≤ c.inFlight.length then some (c.take n) else none

def Reachable (capacity : Nat) (c : Channel β) : Prop :=
  Reaches (step capacity) (fun _ _ => True) empty c

theorem received_isPrefix (c : Channel β) : c.received <+: c.sent := ⟨c.inFlight, c.conserved⟩

theorem received_of_drained (c : Channel β) (drained : c.inFlight = []) : c.received = c.sent := by
  rw [← c.conserved, drained, List.append_nil]

theorem put_step {capacity : Nat} {c : Channel β} {xs : List β}
    (room : c.inFlight.length + xs.length ≤ capacity) :
    step capacity c (.put xs) = some (c.put xs) := by
  simp [step, room]

theorem take_step {capacity : Nat} {c : Channel β} {n : Nat} (arrived : n ≤ c.inFlight.length) :
    step capacity c (.take n) = some (c.take n) := by
  simp [step, arrived]

theorem step_bounded {capacity : Nat} {c next : Channel β} {action : Action β}
    (bounded : c.inFlight.length ≤ capacity) (taken : step capacity c action = some next) :
    next.inFlight.length ≤ capacity := by
  cases action with
  | put xs =>
    simp only [step] at taken
    split at taken
    · rename_i room
      cases taken
      simpa using room
    · cases taken
  | take n =>
    simp only [step] at taken
    split at taken
    · cases taken
      simp only [take_inFlight, List.length_drop]
      omega
    · cases taken

theorem Reachable.bounded {capacity : Nat} {c : Channel β} (reached : Reachable capacity c) :
    c.inFlight.length ≤ capacity :=
  reached.invariant (I := fun c => c.inFlight.length ≤ capacity) (Nat.zero_le _)
    (fun _ _ _ bounded _ taken => step_bounded bounded taken)

end Channel
