import SystemProgramming.ThreadCleanup.Moves

namespace SystemProgramming.ThreadCleanup

open Transition

def Released (s : State) : Prop :=
  match s.thread with
  | some (.terminated _) => s.frees = s.allocated.toNat ∧ s.locked = false
  | _ => True

/-- No cancellation is pending at the `printf` between `malloc` and the registration of the handler, unless
    `malloc` has failed. -/
def Registered (s : State) : Action → Prop
  | .thread .done => s.thread = some .printAlloc → s.pending = true → s.allocated = false
  | _ => True

instance (s : State) : (action : Action) → Decidable (Registered s action)
  | .thread .done => inferInstanceAs (Decidable (_ → _ → _))
  | .thread (.count _) | .thread (.error _) | .main _ => isTrue trivial

def ThreadPc.Holds (s : State) : ThreadPc → Prop
  | .malloc => s.allocated = false ∧ s.frees = 0 ∧ s.locked = false
  | .printAlloc | .lock | .blocked | .woken _ => s.frees = 0 ∧ s.locked = false
  | .push | .test | .wait | .printDone | .handler .printFree _ | .handler .free _ =>
    s.frees = 0 ∧ s.locked = true
  | .handler .printUnlock _ | .handler .unlock _ => s.frees = s.allocated.toNat ∧ s.locked = true
  | .terminated _ => True

def Holds (s : State) : Option ThreadPc → Prop
  | none => s.allocated = false ∧ s.frees = 0 ∧ s.locked = false
  | some pc => pc.Holds s

def ThreadPc.isNormal : ThreadPc → Bool
  | .printDone | .handler _ false => true
  | _ => false

theorem not_normal {pc : ThreadPc} {P : Prop} (other : pc.isNormal = false) (normal : pc.isNormal = true) :
    P := absurd (other.symm.trans normal) Bool.false_ne_true

structure Sound (argc : Nat) (s : State) : Prop where
  holds : Holds s s.thread
  absent : s.main = .create → s.thread = none
  cancels : s.main = .printCancel ∨ s.main = .cancel ∨ s.pending = true → argc = 1
  signals : s.main = .printSignal ∨ s.main = .assign ∨ s.glob ≠ 0 → argc ≠ 1
  normal : ∀ pc, s.thread = some pc → pc.isNormal = true → s.glob ≠ 0

theorem sound_initial (argc : Nat) : Sound argc initial where
  holds := ⟨rfl, rfl, rfl⟩
  absent := fun _ => rfl
  cancels := by
    rintro (at_ | at_ | pending)
    · cases at_
    · cases at_
    · cases pending
  signals := by
    rintro (at_ | at_ | set)
    · cases at_
    · cases at_
    · exact absurd rfl set
  normal := by
    intro pc at_
    cases at_

theorem Sound.enabled {argc : Nat} {s : State} (sound : Sound argc s) (set : s.glob ≠ 0) : s.pending = false := by
  have signals := sound.signals (.inr (.inr set))
  by_contra pending
  exact signals (sound.cancels (.inr (.inr (Bool.not_eq_false _ ▸ pending))))

section Thread

variable {argc : Nat} {s t : State}

theorem Sound.here (sound : Sound argc s) {pc : ThreadPc} (at_ : s.thread = some pc) : pc.Holds s := by
  have holds := sound.holds
  rwa [at_] at holds

theorem Sound.move (sound : Sound argc s) {pc pc' : ThreadPc} (at_ : s.thread = some pc)
    (main : t.main = s.main) (glob : t.glob = s.glob) (pending : t.pending = s.pending)
    (thread : t.thread = some pc') (holds : pc'.Holds t) (normal : pc'.isNormal = true → s.glob ≠ 0) :
    Sound argc t := by
  refine ⟨?_, ?_, ?_, ?_, ?_⟩
  · rw [thread]
    exact holds
  · rw [main]
    intro creating
    rw [sound.absent creating] at at_
    cases at_
  · rw [main, pending]
    exact sound.cancels
  · rw [main, glob]
    exact sound.signals
  · rw [thread, glob]
    intro pc'' same
    cases same
    exact normal

theorem Quiet.holds {pc pc' : ThreadPc} {out : List Line} (holds : pc.Holds s) (moved : Quiet s pc pc') :
    pc'.Holds { s.goto pc' with stdout := out } := by
  cases moved with
  | noBlock => exact holds.2
  | printed | pushed | waits unset | completed set | notWaiting pending | wokenUp | finished
  | freeing cancelled | unlocking cancelled => exact holds

theorem Quiet.normal {pc pc' : ThreadPc} (before : pc.isNormal = true → s.glob ≠ 0) (moved : Quiet s pc pc') :
    pc'.isNormal = true → s.glob ≠ 0 := by
  cases moved with
  | completed set => exact fun _ => set
  | finished => exact fun _ => before rfl
  | freeing cancelled | unlocking cancelled =>
    cases cancelled with
    | false => exact before
    | true => exact not_normal rfl
  | _ => exact not_normal rfl

theorem ThreadMove.sound (sound : Sound argc s) (move : ThreadMove s t) : Sound argc t := by
  cases move with
  | quiet pc pc' out at_ moved =>
    exact sound.move at_ rfl rfl rfl rfl (moved.holds (sound.here at_)) (moved.normal (sound.normal pc at_))
  | allocated at_ =>
    exact sound.move at_ rfl rfl rfl rfl (sound.here at_).2 (not_normal rfl)
  | leaked at_ pending | abandoned pc at_ pending | unlocked cancelled at_ =>
    exact sound.move at_ rfl rfl rfl rfl trivial (not_normal rfl)
  | locked at_ =>
    exact sound.move at_ rfl rfl rfl rfl ⟨(sound.here at_).1, rfl⟩
      (not_normal rfl)
  | relocked cancelled at_ =>
    have unfreed := (sound.here at_).1
    cases cancelled with
    | false =>
      exact sound.move at_ rfl rfl rfl rfl ⟨unfreed, rfl⟩ (not_normal rfl)
    | true =>
      exact sound.move at_ rfl rfl rfl rfl ⟨unfreed, rfl⟩ (not_normal rfl)
  | released at_ =>
    exact sound.move at_ rfl rfl rfl rfl ⟨(sound.here at_).1, rfl⟩
      (not_normal rfl)
  | freed cancelled at_ =>
    obtain ⟨unfreed, locked⟩ := sound.here at_
    refine sound.move at_ rfl rfl rfl rfl ⟨?_, locked⟩ ?_
    · show (if s.allocated = true then s.frees + 1 else s.frees) = s.allocated.toNat
      rw [unfreed]
      cases s.allocated <;> rfl
    · exact fun normal => sound.normal _ at_ (by cases cancelled <;> trivial)
  | failed pc at_ checks =>
    refine ⟨sound.holds, fun now => MainPc.noConfusion now, ?_, ?_, sound.normal⟩
    · rintro (now | now | pending)
      · cases now
      · cases now
      · exact sound.cancels (.inr (.inr pending))
    · rintro (now | now | set)
      · cases now
      · cases now
      · exact sound.signals (.inr (.inr set))

end Thread

section Main

variable {argc : Nat} {s t : State}

/-- `main` moves on and leaves the thread and what it holds as they are. -/
theorem Sound.advance {pc : MainPc} {out : List Line} (sound : Sound argc s) (begun : pc ≠ .create)
    (cancels : pc = .printCancel ∨ pc = .cancel → argc = 1)
    (signals : pc = .printSignal ∨ pc = .assign → argc ≠ 1) :
    Sound argc { s with main := pc, stdout := out } := by
  refine ⟨sound.holds, fun now => absurd now begun, ?_, ?_, sound.normal⟩
  · rintro (now | now | pending)
    · exact cancels (.inl now)
    · exact cancels (.inr now)
    · exact sound.cancels (.inr (.inr pending))
  · rintro (now | now | set)
    · exact signals (.inl now)
    · exact signals (.inr now)
    · exact sound.signals (.inr (.inr set))

theorem holds_wake (holds : Holds s s.thread) : Holds s (wake s.thread) := by
  cases thread : s.thread with
  | none =>
    rw [thread] at holds
    exact holds
  | some pc =>
    rw [thread] at holds
    unfold wake
    rw [Option.map_some]
    split
    · rename_i blocked
      subst blocked
      exact holds
    · exact holds

theorem wake_some {thread : Option ThreadPc} {pc : ThreadPc} (same : wake thread = some pc) :
    thread = some pc ∨ pc = .woken false := by
  obtain ⟨before, here, moved⟩ := Option.map_eq_some_iff.mp same
  split at moved
  · exact .inr moved.symm
  · rw [moved] at here
    exact .inl here

theorem MainMove.sound (sound : Sound argc s) (move : MainMove argc s t) : Sound argc t := by
  cases move with
  | created at_ =>
    have holds := sound.holds
    rw [sound.absent at_] at holds
    refine ⟨holds, fun now => MainPc.noConfusion now, ?_, ?_, ?_⟩
    · rintro (now | now | pending)
      · cases now
      · cases now
      · exact sound.cancels (.inr (.inr pending))
    · rintro (now | now | set)
      · cases now
      · cases now
      · exact sound.signals (.inr (.inr set))
    · intro pc same
      cases same
      exact not_normal rfl
  | slept at_ =>
    by_cases one : argc = 1
    · rw [if_pos one]
      exact sound.advance MainPc.noConfusion (fun _ => one) (by simp)
    · rw [if_neg one]
      exact sound.advance MainPc.noConfusion (by simp) (fun _ => one)
  | printed pc out at_ =>
    rcases at_ with ⟨at_, rfl⟩ | ⟨at_, rfl⟩
    · exact sound.advance MainPc.noConfusion (fun _ => sound.cancels (.inl at_)) (by simp)
    · exact sound.advance MainPc.noConfusion (by simp) (fun _ => sound.signals (.inl at_))
  | cancelled at_ =>
    have one := sound.cancels (.inr (.inl at_))
    have next : Sound argc { s with main := .join } := sound.advance MainPc.noConfusion (by simp) (by simp)
    exact ⟨next.holds, next.absent, fun _ => one, next.signals, next.normal⟩
  | assigned at_ =>
    have several := sound.signals (.inr (.inl at_))
    have next : Sound argc { s with main := .signal } := sound.advance MainPc.noConfusion (by simp) (by simp)
    exact ⟨next.holds, next.absent, next.cancels, fun _ => several, fun _ _ _ => Int.one_ne_zero⟩
  | signalled at_ =>
    have next : Sound argc { s with main := .join } := sound.advance MainPc.noConfusion (by simp) (by simp)
    refine ⟨holds_wake sound.holds, fun now => MainPc.noConfusion now, next.cancels, next.signals, ?_⟩
    intro pc same
    rcases wake_some same with before | woken
    · exact sound.normal pc before
    · rw [woken]
      exact not_normal rfl
  | joined cancelled at_ ended =>
    exact sound.advance MainPc.noConfusion (by simp) (by simp)
  | exited status out => exact sound.advance MainPc.noConfusion (by simp) (by simp)

end Main

theorem step_sound {argc : Nat} {s t : State} {action : Action} (sound : Sound argc s)
    (taken : step argc s action = some t) : Sound argc t := by
  rcases step_moves taken with ⟨outcome, -, move⟩ | ⟨outcome, -, -, move⟩
  · exact move.sound sound
  · exact move.sound sound

section Released

variable {argc : Nat} {s t : State}

theorem released_iff {cancelled : Bool} (at_ : s.thread = some (.terminated cancelled)) :
    Released s ↔ s.frees = s.allocated.toNat ∧ s.locked = false := by
  unfold Released
  rw [at_]

theorem released_of_running (running : ∀ cancelled, s.thread ≠ some (.terminated cancelled)) : Released s := by
  unfold Released
  split
  · rename_i cancelled at_
    exact absurd at_ (running cancelled)
  · trivial

theorem registered_of_elsewhere {pc : ThreadPc} {outcome : Outcome} (at_ : s.thread = some pc)
    (other : pc ≠ .printAlloc) : Registered s (.thread outcome) := by
  unfold Registered
  split
  · intro here
    rw [at_] at here
    exact absurd (Option.some.inj here) other
  · trivial

theorem released_running {pc pc' : ThreadPc} {cond : Prop} (at_ : s.thread = some pc) (thread : t.thread = some pc')
    (before : ∀ cancelled, pc ≠ .terminated cancelled) (after : ∀ cancelled, pc' ≠ .terminated cancelled)
    (holds : cond) : Released t ↔ Released s ∧ cond := by
  apply iff_of_true
  · apply released_of_running
    intro cancelled same
    rw [thread] at same
    exact after cancelled (Option.some.inj same)
  · refine ⟨released_of_running ?_, holds⟩
    intro cancelled same
    rw [at_] at same
    exact before cancelled (Option.some.inj same)

theorem Quiet.running {pc pc' : ThreadPc} (moved : Quiet s pc pc') :
    (∀ cancelled, pc ≠ .terminated cancelled) ∧ ∀ cancelled, pc' ≠ .terminated cancelled := by
  cases moved with
  | _ => exact ⟨fun _ => ThreadPc.noConfusion, fun _ => ThreadPc.noConfusion⟩

theorem Quiet.registered {pc pc' : ThreadPc} {outcome : Outcome} (at_ : s.thread = some pc)
    (moved : Quiet s pc pc') : Registered s (.thread outcome) := by
  cases moved with
  | printed enabled =>
    unfold Registered
    split
    · intro _ pending
      rw [enabled] at pending
      cases pending
    · trivial
  | _ => exact registered_of_elsewhere at_ ThreadPc.noConfusion

theorem threadStep_printAlloc {outcome : Outcome} (at_ : s.thread = some .printAlloc)
    (taken : threadStep s outcome = some t) : outcome = .done := by
  cases outcome with
  | done => rfl
  | count n | error errno => simp [threadStep, at_, ThreadPc.checks] at taken

theorem ThreadMove.releases {outcome : Outcome} (sound : Sound argc s)
    (taken : threadStep s outcome = some t) (move : ThreadMove s t) :
    Released t ↔ Released s ∧ Registered s (.thread outcome) := by
  cases move with
  | quiet pc pc' out at_ moved =>
    exact released_running at_ rfl moved.running.1 moved.running.2 (moved.registered at_)
  | allocated at_ | locked at_ | released at_ | freed cancelled at_ =>
    exact released_running at_ rfl (fun _ => ThreadPc.noConfusion) (fun _ => ThreadPc.noConfusion)
      (registered_of_elsewhere at_ ThreadPc.noConfusion)
  | relocked cancelled at_ =>
    refine released_running at_ rfl (fun _ => ThreadPc.noConfusion) ?_
      (registered_of_elsewhere at_ ThreadPc.noConfusion)
    cases cancelled <;> exact fun _ => ThreadPc.noConfusion
  | leaked at_ pending =>
    obtain rfl := threadStep_printAlloc at_ taken
    obtain ⟨unfreed, unlocked⟩ := sound.here at_
    have before : Released s := by
      apply released_of_running
      rw [at_]
      exact fun _ same => nomatch same
    have leaks : Registered s (.thread .done) ↔ s.allocated = false :=
      ⟨fun registered => registered at_ pending, fun none _ _ => none⟩
    rw [released_iff rfl, and_iff_right before, leaks]
    show s.frees = s.allocated.toNat ∧ s.locked = false ↔ s.allocated = false
    rw [unfreed, unlocked, and_iff_left rfl]
    cases s.allocated <;> simp
  | abandoned pc at_ pending =>
    -- The handler has been popped only where `glob` is set, and then nobody cancels.
    have enabled := sound.enabled (sound.normal _ at_ rfl)
    rw [enabled] at pending
    cases pending
  | unlocked cancelled at_ =>
    obtain ⟨freed, -⟩ := sound.here at_
    have before : Released s := by
      apply released_of_running
      rw [at_]
      exact fun _ same => nomatch same
    rw [released_iff rfl, and_iff_right before]
    exact iff_of_true ⟨freed, rfl⟩ (registered_of_elsewhere at_ ThreadPc.noConfusion)
  | failed pc at_ checks =>
    refine (and_iff_left (registered_of_elsewhere at_ ?_)).symm
    rintro rfl
    cases checks

theorem MainMove.releases {cond : Prop} (sound : Sound argc s) (holds : cond) (move : MainMove argc s t) :
    Released t ↔ Released s ∧ cond := by
  rw [and_iff_left holds]
  cases move with
  | created at_ =>
    apply iff_of_true
    · exact released_of_running (fun _ same => nomatch same)
    · apply released_of_running
      rw [sound.absent at_]
      exact fun _ same => nomatch same
  | signalled at_ =>
    cases thread : s.thread with
    | none =>
      unfold Released
      rw [thread]
      exact Iff.rfl
    | some pc =>
      unfold Released
      rw [thread]
      cases pc <;> exact Iff.rfl
  | _ => exact Iff.rfl

end Released

/-- A terminated thread has released both resources if and only if no cancellation came through between
    the allocation of the block and the registration of the handler. -/
theorem released_iff_registered {argc : Nat} {actions : List Action} {s : State}
    (run : exec (step argc) actions initial = some s) :
    Released s ↔ Along (step argc) Registered actions initial := by
  have start : Released initial := trivial
  have tracked : Released s ↔ Released initial ∧ Along (step argc) Registered actions initial := by
    apply along_iff (I := Sound argc) (P := Released)
    · exact fun s a t sound taken => step_sound sound taken
    · intro s action t sound taken
      rcases step_moves taken with ⟨outcome, rfl, move⟩ | ⟨outcome, rfl, stepped, move⟩
      · exact move.releases sound (by unfold Registered; split <;> trivial)
      · exact move.releases sound stepped
    · exact sound_initial argc
    · exact run
  rwa [and_iff_right start] at tracked

def cancelledInWait : List Action :=
  .main .done :: List.replicate 6 (.thread .done) ++ List.replicate 3 (.main .done) ++
    List.replicate 6 (.thread .done) ++ List.replicate 2 (.main .done)

theorem released_cancelledInWait :
    ∃ s, exec (step 1) cancelledInWait initial = some s ∧ s.thread = some (.terminated true) ∧
      s.frees = 1 ∧ s.locked = false := by
  have run : exec (step 1) cancelledInWait initial = some _ := rfl
  have released := (released_iff_registered run).mpr (by decide)
  exact ⟨_, run, rfl, released.1, released.2⟩

/-- The thread has allocated its block when `main` cancels it, and is at its first `printf`. -/
theorem cancelled_leaks :
    ¬ ∀ argc actions s, exec (step argc) actions initial = some s → Released s := by
  intro always
  have released := always 1 ([.main .done, .thread .done, .main .done, .main .done, .main .done, .thread .done])
    _ rfl
  cases released.1

end SystemProgramming.ThreadCleanup
