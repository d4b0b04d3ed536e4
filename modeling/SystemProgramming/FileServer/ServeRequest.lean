import SystemProgramming.FileServer.Moves

namespace SystemProgramming.FileServer

variable {files : List Byte → Option (List Byte)}

def AllData (msgs : List ResponseMsg) : Prop := ∀ m ∈ msgs, m.mtype = RESP_MT_DATA

def bodies (msgs : List ResponseMsg) : List Byte := msgs.flatMap (·.data)

def dataBodies (msgs : List ResponseMsg) : List Byte :=
  bodies (msgs.filter fun m => m.mtype = RESP_MT_DATA)

@[simp] theorem bodies_append (first second : List ResponseMsg) :
    bodies (first ++ second) = bodies first ++ bodies second := List.flatMap_append

@[simp] theorem dataBodies_append (first second : List ResponseMsg) :
    dataBodies (first ++ second) = dataBodies first ++ dataBodies second := by
  simp [dataBodies]

theorem AllData.dataBodies {msgs : List ResponseMsg} (data : AllData msgs) :
    dataBodies msgs = bodies msgs := by
  rw [FileServer.dataBodies, List.filter_eq_self.mpr]
  intro m member
  simpa using data m member

theorem AllData.append_single {msgs : List ResponseMsg} {m : ResponseMsg} (data : AllData msgs)
    (last : m.mtype = RESP_MT_DATA) : AllData (msgs ++ [m]) := by
  intro other member
  rw [List.mem_append, List.mem_singleton] at member
  rcases member with member | rfl
  · exact data other member
  · exact last

namespace Child

structure Sent (files : List Byte → Option (List Byte)) (k : Child) (data : List ResponseMsg)
    (unsent : List Byte) : Prop where
  allData : AllData data
  whole : files k.req.pathname = some (bodies data ++ unsent)

def Progress (files : List Byte → Option (List Byte)) (k : Child) (msgs : List ResponseMsg) : Prop :=
  match k.pc with
  | .opening => msgs = [] ∧ k.lost = []
  | .failing => msgs = [] ∧ k.lost = [] ∧ k.resp.mtype = RESP_MT_FAILURE
  | .reading => k.Sent files msgs k.rest ∧ k.resp.mtype = RESP_MT_DATA ∧ k.lost = []
  | .sending n => k.Sent files msgs (k.resp.data.take n ++ k.rest) ∧
      k.resp.mtype = RESP_MT_DATA ∧ k.resp.data.take n ≠ [] ∧ k.lost = []
  | .closing => k.Sent files msgs k.lost
  | .exited .success => (∃ data, msgs = data ++ [k.image.message] ∧ k.Sent files data k.lost) ∨
      (k.lost = [] ∧ k.resp.mtype = RESP_MT_FAILURE ∧ ∃ m, msgs = [m] ∧ m.mtype = RESP_MT_FAILURE)
  | .exited .failure => k.Sent files msgs k.lost ∨ (msgs = [] ∧ k.lost = [])

def Loses (k : Child) (outcome : Outcome) : Prop :=
  outcome.isError = true ∧
    match k.pc with
    | .reading => k.rest ≠ []
    | .sending _ => True
    | _ => False

instance (k : Child) (outcome : Outcome) : Decidable (k.Loses outcome) := by
  unfold Loses
  cases k.pc <;> infer_instance

end Child

theorem Child.Sent.finish {k : Child} {msgs : List ResponseMsg} {lost : List Byte}
    (sent : k.Sent files msgs lost) : (k.finish lost).Progress files (msgs ++ []) := by
  rw [List.append_nil]
  exact ⟨sent.allData, sent.whole⟩

theorem ChildMove.progress {k k' : Child} {outcome : Outcome} {sent : Option ResponseMsg}
    {msgs : List ResponseMsg} (move : ChildMove files k outcome k' sent)
    (before : k.Progress files msgs) : k'.Progress files (msgs ++ sent.toList) := by
  cases move with
  | opened content at_ present =>
    simp only [Child.Progress, at_] at before
    obtain ⟨rfl, lost⟩ := before
    exact ⟨⟨nofun, present⟩, rfl, lost⟩
  | refused errno data at_ =>
    simp only [Child.Progress, at_] at before
    obtain ⟨rfl, lost⟩ := before
    exact ⟨rfl, lost, rfl⟩
  | reported at_ =>
    simp only [Child.Progress, at_] at before
    obtain ⟨rfl, lost, type⟩ := before
    exact .inr ⟨lost, type, _, rfl, type⟩
  | aborted errno at_ =>
    rcases at_ with at_ | at_
    · simp only [Child.Progress, at_] at before
      obtain ⟨rfl, lost, -⟩ := before
      exact .inr ⟨rfl, lost⟩
    · simp only [Child.Progress, at_] at before
      simpa [Child.Progress] using Or.inl ⟨before.allData, before.whole⟩
  | filled n at_ positive bound available =>
    simp only [Child.Progress, at_] at before
    obtain ⟨⟨allData, whole⟩, type, lost⟩ := before
    have chunk := Buffer.take_overwrite_take k.rest k.resp.data available
    have nonempty : k.rest.take n ≠ [] := by
      rw [← List.length_pos_iff, List.length_take_of_le available]
      exact positive
    simp only [Child.Progress, chunk, Option.toList_none, List.append_nil]
    refine ⟨⟨allData, ?_⟩, type, nonempty, lost⟩
    rw [List.take_append_drop]
    exact whole
  | endOfFile at_ empty =>
    simp only [Child.Progress, at_] at before
    obtain ⟨⟨allData, whole⟩, -, -⟩ := before
    rw [empty] at whole
    exact Child.Sent.finish ⟨allData, whole⟩
  | readFailed errno at_ =>
    simp only [Child.Progress, at_] at before
    obtain ⟨⟨allData, whole⟩, -, -⟩ := before
    exact Child.Sent.finish ⟨allData, whole⟩
  | sent n at_ =>
    simp only [Child.Progress, at_] at before
    obtain ⟨⟨allData, whole⟩, type, -, lost⟩ := before
    refine ⟨⟨allData.append_single type, ?_⟩, type, lost⟩
    simpa [bodies, List.append_assoc] using whole
  | sendFailed n errno at_ =>
    simp only [Child.Progress, at_] at before
    obtain ⟨⟨allData, whole⟩, -, -, -⟩ := before
    exact Child.Sent.finish ⟨allData, whole⟩
  | closed at_ =>
    simp only [Child.Progress, at_] at before
    exact .inl ⟨msgs, rfl, before.allData, before.whole⟩

/-- Only an early end of the loop loses bytes, and it always does. -/
theorem ChildMove.lost_iff {k k' : Child} {outcome : Outcome} {sent : Option ResponseMsg}
    {msgs : List ResponseMsg} (move : ChildMove files k outcome k' sent)
    (before : k.Progress files msgs) : k'.lost = [] ↔ k.lost = [] ∧ ¬ k.Loses outcome := by
  cases move with
  | readFailed errno at_ =>
    simp only [Child.Progress, at_] at before
    simp [Child.finish, Child.Loses, at_, before.2.2, Outcome.isError]
  | sendFailed n errno at_ =>
    simp only [Child.Progress, at_] at before
    simp [Child.finish, Child.Loses, at_, before.2.2.1, Outcome.isError]
  | endOfFile at_ empty =>
    simp only [Child.Progress, at_] at before
    simp [Child.finish, Child.Loses, before.2.2, Outcome.isError]
  | aborted errno at_ =>
    rcases at_ with at_ | at_ <;> simp [Child.Loses, at_]
  | refused errno data at_ => simp [Child.Loses, at_]
  | _ => simp [Child.Loses, Outcome.isError]

end SystemProgramming.FileServer
