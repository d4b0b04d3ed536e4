import SystemProgramming.CpHole.Existing

namespace SystemProgramming.CpHole

open SparseFile Transition

variable {source : List Byte} {old : SparseFile Byte}

def ReadOk (s : State) (outcome : Outcome) : Prop := s.pc = .read → outcome.isError = false

instance (s : State) (outcome : Outcome) : Decidable (ReadOk s outcome) :=
  inferInstanceAs (Decidable (_ → _))

def Steady (s : State) (outcome : Outcome) : Prop :=
  match s.pc with
  | .lseek _ => outcome.isError = false
  | .write n => outcome = .count n
  | .read | .tell | .ftruncate _ | .exited _ => True

instance (s : State) (outcome : Outcome) : Decidable (Steady s outcome) :=
  match at_ : s.pc with
  | .lseek _ => decidable_of_iff (outcome.isError = false) (by simp [Steady, at_])
  | .write n => decidable_of_iff (outcome = .count n) (by simp [Steady, at_])
  | .read | .tell | .ftruncate _ | .exited _ => isTrue (by simp [Steady, at_])

def Extended (s : State) (outcome : Outcome) : Prop :=
  ∀ len, s.pc = .ftruncate len → outcome.isError = true → s.offset ≤ s.outFile.length

instance (s : State) (outcome : Outcome) : Decidable (Extended s outcome) :=
  match at_ : s.pc with
  | .ftruncate _ =>
    decidable_of_iff (outcome.isError = true → s.offset ≤ s.outFile.length) (by simp [Extended, at_])
  | .read | .lseek _ | .write _ | .tell | .exited _ => isTrue (by simp [Extended, at_])

inductive Broken (s : State) : Outcome → State → Prop where
  | unread (errno : Errno) (at_ : s.pc = .read) : Broken s (.error errno) { s with pc := .tell }
  | unmoved (errno : Errno) (n : Nat) (at_ : s.pc = .lseek n) :
      Broken s (.error errno) { s with pc := .exited .failure }
  | unwritten (errno : Errno) (n : Nat) (at_ : s.pc = .write n) :
      Broken s (.error errno) { s with pc := .exited .failure }
  | short (n k : Nat) (at_ : s.pc = .write n) (cut : k ≠ n) :
      Broken s (.count k) { s with
        pc := .exited .failure
        outFile := s.outFile.write s.offset (s.buf.take k)
        offset := s.offset + k }
  | untold (errno : Errno) (at_ : s.pc = .tell) :
      Broken s (.error errno) { s with pc := .ftruncate (-1) }
  | untruncated (errno : Errno) (len : Int) (at_ : s.pc = .ftruncate len) :
      Broken s (.error errno) { s with pc := .exited .success }

theorem error_broken {s t : State} {errno : Errno} (taken : step s (.error errno) = some t) :
    Broken s (.error errno) t := by
  unfold step at taken
  cases at_ : s.pc with
  | read =>
    rw [at_] at taken
    cases taken
    exact .unread errno at_
  | lseek n =>
    rw [at_] at taken
    cases taken
    exact .unmoved errno n at_
  | write n =>
    rw [at_] at taken
    cases taken
    exact .unwritten errno n at_
  | tell =>
    rw [at_] at taken
    cases taken
    exact .untold errno at_
  | ftruncate len =>
    rw [at_] at taken
    cases taken
    exact .untruncated errno len at_
  | exited status =>
    rw [at_] at taken
    cases taken

theorem step_cases {s t : State} {outcome : Outcome} (taken : step s outcome = some t) :
    Move s outcome t ∨ Broken s outcome t := by
  cases outcome with
  | done => exact .inl (step_moves trivial taken)
  | error errno => exact .inr (error_broken taken)
  | count k =>
    by_cases cut : ∃ n, s.pc = .write n ∧ k ≠ n
    · rcases cut with ⟨n, at_, cut⟩
      unfold step at taken
      rw [at_] at taken
      dsimp only at taken
      split at taken
      · cases taken
        exact .inr (.short n k at_ cut)
      · cases taken
    · refine .inl (step_moves ?_ taken)
      intro n at_
      by_contra other
      exact cut ⟨n, at_, other⟩

/-- Where a step does not end the program with a failure: the two calls behind the loop may fail. -/
theorem step_steady {s t : State} {outcome : Outcome} (steady : Steady s outcome)
    (ok : ReadOk s outcome) (taken : step s outcome = some t) :
    Move s outcome t ∨ s.pc = .tell ∧ outcome.isError = true ∧ t = { s with pc := .ftruncate (-1) } ∨
      ∃ len, s.pc = .ftruncate len ∧ outcome.isError = true ∧ t = { s with pc := .exited .success } := by
  unfold Steady at steady
  rcases step_cases taken with move | broken
  · exact .inl move
  · cases broken with
    | unread errno at_ => cases ok at_
    | unmoved errno n at_ =>
      rw [at_] at steady
      cases steady
    | unwritten errno n at_ =>
      rw [at_] at steady
      cases steady
    | short n k at_ cut =>
      rw [at_] at steady
      exact absurd (Outcome.count.inj steady) cut
    | untold errno at_ => exact .inr (.inl ⟨at_, rfl, rfl⟩)
    | untruncated errno len at_ => exact .inr (.inr ⟨len, at_, rfl, rfl⟩)

structure Untold (source : List Byte) (s : State) : Prop where
  whole : s.offset = source.length
  closing : s.pc = .ftruncate (-1) ∨ s.pc = .exited .success

def Loop (source : List Byte) (old : SparseFile Byte) (s : State) : Prop :=
  Copying source old s ∨ Untold source s

theorem Loop.step {s t : State} {outcome : Outcome} (loop : Loop source old s)
    (steady : Steady s outcome) (ok : ReadOk s outcome) (taken : step s outcome = some t) :
    Loop source old t := by
  rcases loop with copying | untold
  · rcases step_steady steady ok taken with move | ⟨at_, -, rfl⟩ | ⟨len, at_, -, rfl⟩
    · exact .inl (move.copying copying)
    · have phase := copying.phase
      unfold Phase at phase
      rw [at_] at phase
      exact .inr ⟨phase, .inl rfl⟩
    · have phase := copying.phase
      unfold Phase at phase
      rw [at_] at phase
      exact .inr ⟨phase.1, .inr rfl⟩
  · rcases untold with ⟨whole, told | exited⟩
    · unfold CpHole.step at taken
      rw [told] at taken
      cases outcome with
      | done => cases taken
      | count n => cases taken
      | error errno =>
        cases taken
        exact .inr ⟨whole, .inr rfl⟩
    · unfold CpHole.step at taken
      rw [exited] at taken
      cases taken

def Right (source : List Byte) (s : State) : Prop :=
  s.copied = source.take s.offset ∧ (s.pc = .exited .success → s.offset ≤ s.outFile.length)

def Sound (old : SparseFile Byte) (s : State) (outcome : Outcome) : Prop :=
  Blank old s outcome ∧ Extended s outcome

instance (s : State) (outcome : Outcome) : Decidable (Sound old s outcome) :=
  inferInstanceAs (Decidable (_ ∧ _))

theorem right_of_running {s : State} (running : s.pc ≠ .exited .success) :
    Right source s ↔ s.copied = source.take s.offset :=
  and_iff_left (fun exited => absurd exited running)

theorem Move.settled {s t : State} {outcome : Outcome} (copying : Copying source old s)
    (move : Move s outcome t) : t.pc = .exited .success → t.offset ≤ t.outFile.length := by
  have phase := copying.phase
  unfold Phase at phase
  intro exited
  cases move with
  | truncated len at_ natural =>
    rw [at_] at phase
    show s.offset ≤ (s.outFile.resize len.toNat).length
    rw [length_resize, phase.2, Int.toNat_natCast]
  | ended at_ nothing => cases exited
  | blank n at_ inside bound zeros => cases exited
  | filled n at_ inside other => cases exited
  | skipped n at_ => cases exited
  | wrote n at_ => cases exited
  | told at_ => cases exited

theorem Move.sound {s t : State} {outcome : Outcome} (move : Move s outcome t) :
    s.pc ≠ .exited .success ∧ outcome.isError = false := by
  cases move with
  | ended at_ _ | blank _ at_ _ _ _ | filled _ at_ _ _ | skipped _ at_ | wrote _ at_ | told at_
  | truncated _ at_ _ =>
    rw [at_]
    exact ⟨nofun, rfl⟩

theorem Loop.right {s t : State} {outcome : Outcome} (loop : Loop source old s)
    (steady : Steady s outcome) (ok : ReadOk s outcome) (taken : CpHole.step s outcome = some t) :
    Right source t ↔ Right source s ∧ Sound old s outcome := by
  have running : s.pc ≠ .exited .success := by
    intro exited
    unfold CpHole.step at taken
    rw [exited] at taken
    cases taken
  rw [right_of_running running]
  rcases step_steady steady ok taken with move | ⟨at_, failed, rfl⟩ | ⟨len, at_, failed, rfl⟩
  · rcases loop with copying | untold
    · have extended : Extended s outcome := by
        intro len _ failed
        rw [move.sound.2] at failed
        cases failed
      rw [Right, and_iff_left (move.settled copying), move.copied copying, Sound, and_iff_left extended]
    · rcases untold with ⟨whole, told | exited⟩
      · cases move with
        | truncated len at_ natural =>
          rw [told] at at_
          cases at_
          exact absurd natural (by decide)
        | ended at_ _ | blank _ at_ _ _ _ | filled _ at_ _ _ | skipped _ at_ | wrote _ at_ | told at_ =>
          rw [told] at at_
          cases at_
      · exact absurd exited running
  · have sound : Sound old s outcome := by
      refine ⟨?_, ?_⟩
      · intro n at_n
        rw [at_] at at_n
        cases at_n
      · intro len at_len
        rw [at_] at at_len
        cases at_len
    rw [right_of_running (by simp), and_iff_left sound]
    rfl
  · have blank : Blank old s outcome := by
      intro n at_n
      rw [at_] at at_n
      cases at_n
    have extended : Extended s outcome ↔ s.offset ≤ s.outFile.length := by
      constructor
      · intro long
        exact long len at_ failed
      · intro long _ _ _
        exact long
    rw [Sound, and_iff_right blank, extended]
    exact and_congr Iff.rfl (imp_iff_right rfl)

theorem Move.steady {s t : State} {outcome : Outcome} (move : Move s outcome t) :
    t.pc ≠ .exited .failure ∧ Steady s outcome := by
  unfold Steady
  cases move with
  | ended at_ _ | blank _ at_ _ _ _ | filled _ at_ _ _ | skipped _ at_ | wrote _ at_ | told at_
  | truncated _ at_ _ =>
    rw [at_]
    simp [Outcome.isError]

theorem Broken.steady {s t : State} {outcome : Outcome} (broken : Broken s outcome t) :
    t.pc ≠ .exited .failure ↔ Steady s outcome := by
  unfold Steady
  cases broken with
  | unread _ at_ | untold _ at_ | untruncated _ _ at_ =>
    rw [at_]
    exact iff_of_true nofun trivial
  | unmoved _ _ at_ | unwritten _ _ at_ =>
    rw [at_]
    exact iff_of_false (fun other => other rfl) nofun
  | short _ _ at_ cut =>
    rw [at_]
    exact iff_of_false (fun other => other rfl) (fun same => cut (Outcome.count.inj same))

theorem step_failure {s t : State} {outcome : Outcome} (taken : CpHole.step s outcome = some t) :
    t.pc ≠ .exited .failure ↔ Steady s outcome := by
  rcases step_cases taken with move | broken
  · exact iff_of_true move.steady.1 move.steady.2
  · exact broken.steady

def AtEnd (s : State) : Prop :=
  match s.pc with
  | .tell | .ftruncate _ | .exited .success => s.input = []
  | .read | .lseek _ | .write _ | .exited .failure => True

theorem AtEnd.step {s t : State} {outcome : Outcome} (atEnd : AtEnd s) (steady : Steady s outcome)
    (ok : ReadOk s outcome) (taken : CpHole.step s outcome = some t) : AtEnd t := by
  unfold AtEnd at atEnd
  rcases step_steady steady ok taken with move | ⟨at_, -, rfl⟩ | ⟨len, at_, -, rfl⟩
  · cases move with
    | ended at_ nothing => exact nothing
    | blank n at_ inside bound zeros => exact trivial
    | filled n at_ inside other => exact trivial
    | skipped n at_ => exact trivial
    | wrote n at_ => exact trivial
    | told at_ =>
      rw [at_] at atEnd
      exact atEnd
    | truncated len at_ natural =>
      rw [at_] at atEnd
      exact atEnd
  · rw [at_] at atEnd
    exact atEnd
  · rw [at_] at atEnd
    exact atEnd

def Reported (source : List Byte) (old : SparseFile Byte) (buf : List Byte) (outcomes : List Outcome)
    (s : State) : Prop :=
  s.pc = .exited .success → Along step ReadOk outcomes (initial source old buf) ∧ s.input = [] ∧
    source <+: content 0 s.outFile

theorem steady_iff {buf : List Byte} {outcomes : List Outcome} {s : State}
    (run : exec step outcomes (initial source old buf) = some s) :
    s.pc ≠ .exited .failure ↔ Along step Steady outcomes (initial source old buf) := by
  have whole : s.pc ≠ .exited .failure ↔ (initial source old buf).pc ≠ .exited .failure ∧
      Along step Steady outcomes (initial source old buf) := by
    refine along_iff (I := fun _ => True) (P := fun s => s.pc ≠ .exited .failure)
      (fun _ _ _ _ _ => trivial) ?_ trivial run
    intro s outcome t _ taken
    have running : s.pc ≠ .exited .failure := by
      intro exited
      unfold step at taken
      rw [exited] at taken
      cases taken
    rw [step_failure taken, and_iff_right running]
  rw [whole, and_iff_right_iff_imp]
  exact fun _ => nofun

/-- A run that returns 0 without a failing `read` has copied the source exactly when the steps are
    sound. -/
theorem copied_iff_sound {buf : List Byte} {outcomes : List Outcome} {s : State}
    (steady : Along step Steady outcomes (initial source old buf))
    (ok : Along step ReadOk outcomes (initial source old buf))
    (run : exec step outcomes (initial source old buf) = some s) (exited : s.pc = .exited .success) :
    s.input = [] ∧
      (source <+: content 0 s.outFile ↔ Along step (Sound old) outcomes (initial source old buf)) := by
  have both := (along_and step outcomes (initial source old buf)).mpr ⟨steady, ok⟩
  have start : Loop source old (initial source old buf) := .inl (copying_initial source old buf)
  have loop : Loop source old s :=
    exec_invariant (fun _ _ _ loop meets taken => loop.step meets.1 meets.2 taken) start both run
  have atEnd : AtEnd s :=
    exec_invariant (fun _ _ _ atEnd meets taken => AtEnd.step atEnd meets.1 meets.2 taken)
      (show AtEnd (initial source old buf) from trivial) both run
  have whole : s.offset = source.length := by
    rcases loop with copying | untold
    · have phase := copying.phase
      unfold Phase at phase
      rw [exited] at phase
      exact phase.1
    · exact untold.whole
  have tracked : Right source s ↔ Right source (initial source old buf) ∧
      Along step (Sound old) outcomes (initial source old buf) :=
    along_iff_of_along (fun _ _ _ loop meets taken => Loop.step loop meets.1 meets.2 taken)
      (fun _ _ _ loop meets taken => Loop.right loop meets.1 meets.2 taken) start both run
  have nothing : Right source (initial source old buf) := by
    rw [right_of_running (show Pc.read ≠ _ by simp), State.copied, initial, resize_zero]
    rfl
  have begins : source <+: content 0 s.outFile ↔ Right source s := by
    rw [prefix_content, Right, imp_iff_right exited, State.copied, whole, List.take_length]
  unfold AtEnd at atEnd
  rw [exited] at atEnd
  refine ⟨atEnd, ?_⟩
  rw [begins, tracked, and_iff_right nothing]

/-- The status tells of a failure before the end of the source exactly when a call that ends the
    program fails, or when no `read` fails, each chunk of zeros falls on zeros, and the file is long
    enough when the last call fails. -/
theorem reported_iff {buf : List Byte} {outcomes : List Outcome} {s : State} {status : ExitStatus}
    (run : exec step outcomes (initial source old buf) = some s) (exited : s.pc = .exited status) :
    Reported source old buf outcomes s ↔
      ¬ Along step Steady outcomes (initial source old buf) ∨
        Along step (fun s outcome => ReadOk s outcome ∧ Sound old s outcome) outcomes
          (initial source old buf) := by
  rw [along_and, ← steady_iff run]
  cases status with
  | failure =>
    refine iff_of_true ?_ (.inl (not_not_intro exited))
    intro other
    rw [exited] at other
    cases other
  | success =>
    have running : s.pc ≠ .exited .failure := by
      rw [exited]
      exact nofun
    have steady := (steady_iff run).mp running
    rw [Reported, imp_iff_right exited, or_iff_right (not_not_intro running)]
    constructor
    · intro reported
      exact ⟨reported.1, (copied_iff_sound steady reported.1 run exited).2.mp reported.2.2⟩
    · intro meets
      have copied := copied_iff_sound steady meets.1 run exited
      exact ⟨meets.1, copied.1, copied.2.mpr meets.2⟩

end SystemProgramming.CpHole
