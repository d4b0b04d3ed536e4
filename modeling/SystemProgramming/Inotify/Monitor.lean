import SystemProgramming.Inotify.Decoding

namespace SystemProgramming.Inotify

open Transition

def shown (s : State) (result : Read) : List Event :=
  match s.exited, result with
  | none, .bytes chunk =>
    let buf := Buffer.overwrite chunk s.buf
    (handleEvents buf chunk.length 0).1.map fun p => eventAt (buf.drop p)
  | _, _ => []

theorem frames_ne_nil {events : List Event} (some_event : events ≠ []) : frames events ≠ [] := by
  cases events with
  | nil => exact absurd rfl some_event
  | cons e events =>
    intro empty
    have size := congrArg List.length empty
    have long := length_encode e
    rw [show frames (e :: events) = e.encode ++ frames events from rfl, List.length_append,
      List.length_nil] at size
    unfold sizeofEvent at long
    omega

/-- A batch is displayed as a whole, and then the program exits. -/
theorem step_batch {s : State} {events : List Event} (running : s.exited = none)
    (some_event : events ≠ []) (fits : (frames events).length ≤ BUF_LEN) :
    shown s (.bytes (frames events)) = events ∧
      ∃ t, step s (.bytes (frames events)) = some t ∧ t.exited = some .success := by
  refine ⟨?_, ?_⟩
  · unfold shown
    rw [running]
    exact (handleEvents_batch events s.buf).2.2
  · unfold step
    rw [running]
    dsimp only
    rw [if_neg (Nat.not_lt.mpr fits), if_neg (by simpa using frames_ne_nil some_event)]
    exact ⟨_, rfl, rfl⟩

def Monitored (buf stdout : List Byte) (batches : List (List Event)) : Prop :=
  let reads := batches.map fun batch => Read.bytes (frames batch)
  trace step shown reads (initial buf stdout) = batches.flatten ∧
    ∃ s, exec step reads (initial buf stdout) = some s ∧ s.exited = none

/-- The program goes on only as long as it has not read any batch. -/
theorem monitored_iff (buf stdout : List Byte) (batches : List (List Event))
    (batched : ∀ batch ∈ batches, batch ≠ [] ∧ (frames batch).length ≤ BUF_LEN) :
    Monitored buf stdout batches ↔ batches = [] := by
  cases batches with
  | nil => exact iff_of_true ⟨rfl, _, rfl, rfl⟩ rfl
  | cons batch batches =>
    refine iff_of_false ?_ (List.cons_ne_nil _ _)
    intro monitored
    rcases monitored with ⟨-, s, run, running⟩
    rcases exec_cons_some run with ⟨t, read, rest⟩
    rcases batched batch List.mem_cons_self with ⟨some_event, fits⟩
    rcases (step_batch (s := initial buf stdout) rfl some_event fits).2 with ⟨u, taken, exited⟩
    rw [taken] at read
    cases read
    cases batches with
    | nil =>
      cases rest
      rw [exited] at running
      cases running
    | cons second batches =>
      rcases exec_cons_some rest with ⟨v, stuck, -⟩
      unfold step at stuck
      rw [exited] at stuck
      cases stuck

def opened : Event := ⟨1, 0x20, 0, [], by decide⟩

theorem monitored_iff_opened : ¬ Monitored [] [] [[opened]] := by
  have batched : ∀ batch ∈ [[opened]], batch ≠ [] ∧ (frames batch).length ≤ BUF_LEN := by
    intro batch member
    rw [List.mem_singleton.mp member]
    exact ⟨List.cons_ne_nil _ _, by decide⟩
  exact (monitored_iff [] [] [[opened]] batched).not.mpr (List.cons_ne_nil _ _)

theorem second_batch_unread :
    ¬ ∀ (buf stdout : List Byte) (batches : List (List Event)),
      (∀ batch ∈ batches, batch ≠ [] ∧ (frames batch).length ≤ BUF_LEN) → Monitored buf stdout batches := by
  intro always
  have batched : ∀ batch ∈ [[opened], [opened]], batch ≠ [] ∧ (frames batch).length ≤ BUF_LEN := by
    intro batch member
    have same : batch = [opened] := by simpa using member
    rw [same]
    exact ⟨List.cons_ne_nil _ _, by decide⟩
  rcases always [] [] [[opened], [opened]] batched with ⟨-, s, run, -⟩
  cases run

end SystemProgramming.Inotify
