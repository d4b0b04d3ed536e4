import SystemProgramming.FileServer.Payload

namespace SystemProgramming.FileServer

open Transition

variable {files : List Byte → Option (List Byte)} {argv : Nat → List Byte} {qbytes : Nat}

def ClientPc.Reported (pc : ClientPc) : Prop := pc = .exiting .success ∨ pc = .exited .success

theorem Client.View.reported {c : Client} (view : c.View) (at_ : c.pc.Reported) :
    (∃ last, EndsWith c.messages last ∧ last.mtype ≠ RESP_MT_DATA) ∧ c.Counted := by
  rcases at_ with at_ | at_ <;> simpa only [Client.View, at_] using view

theorem Child.Progress.closed {k : Child} {msgs seen : List ResponseMsg} {last : ResponseMsg}
    (progress : k.Progress files msgs) (isPrefix : seen <+: msgs) (ends : EndsWith seen last)
    (type : last.mtype ≠ RESP_MT_DATA) :
    ∃ data, seen = data ++ [k.image.message] ∧ k.Sent files data k.lost ∧
      k.image.message.mtype ≠ RESP_MT_DATA ∧ k.pc = .exited .success := by
  rcases ends with ⟨before, rfl, allBefore, notFailure⟩
  have member : last ∈ msgs := isPrefix.subset (by simp)
  have running : ¬ AllData msgs := fun data => type (data last member)
  have silent : msgs ≠ [] := List.ne_nil_of_mem member
  unfold Child.Progress at progress
  split at progress
  · exact absurd progress.1 silent
  · exact absurd progress.1 silent
  · exact absurd progress.1.allData running
  · exact absurd progress.1.allData running
  · exact absurd progress.allData running
  · rename_i at_
    rcases progress with ⟨data, rfl, sent⟩ | ⟨-, -, m, rfl, failed⟩
    · rcases List.prefix_concat_iff.mp isPrefix with same | shorter
      · refine ⟨data, same, sent, ?_, at_⟩
        have equal := (List.append_inj' same rfl).2
        rw [List.cons.injEq] at equal
        rw [← equal.1]
        exact type
      · exact absurd (sent.allData last (shorter.subset (by simp))) type
    · have short := isPrefix.length_le
      rw [List.length_append, List.length_singleton, List.length_singleton] at short
      have none : before = [] := List.eq_nil_of_length_eq_zero (by omega)
      subst none
      rw [List.nil_append, List.mem_singleton] at *
      subst member
      exact absurd failed (notFailure rfl)
  · rcases progress with sent | ⟨none, -⟩
    · exact absurd sent.allData running
    · exact absurd none silent

theorem Streams.reported {s : State} {ch : Channels} (streams : Streams files argv qbytes s ch)
    {id : Nat} (at_ : (s.clients id).pc.Reported) :
    (s.clients id).Counted ∧ ∃ pid k data, s.children pid = some k ∧ k.req = request argv id ∧
      (s.clients id).messages = data ++ [k.image.message] ∧ k.Sent files data k.lost ∧
      k.image.message.mtype ≠ RESP_MT_DATA := by
  rcases (streams.view id).reported at_ with ⟨⟨last, ends, type⟩, counted⟩
  refine ⟨counted, ?_⟩
  have received : (s.clients id).received ≠ [] := by
    intro none
    rcases ends with ⟨before, same, -⟩
    rw [Client.messages, none, List.map_nil] at same
    exact absurd same.symm (by simp)
  rcases List.exists_mem_of_ne_nil _ received with ⟨e, member⟩
  rcases streams.child_of_received member with ⟨k, present, req⟩
  have progress := streams.progress _ k present
  have same : k.req.clientId = id := by rw [req]; rfl
  rw [same] at progress
  rcases progress.closed (streams.messages_isPrefix id) ends type with ⟨data, whole, sent, other, -⟩
  exact ⟨_, k, data, present, req, whole, sent, other⟩

structure Client.TransferRight (c : Client) (content : List Byte) : Prop where
  stream : ∃ data last, c.messages = data ++ [last] ∧ AllData data ∧ last.mtype = RESP_MT_END
  total : c.numTotal = content.length

/-- No transfer is right: the closing message is what lies at `&req`, and its `REQ_MSG_SIZE`
    bytes are counted. -/
theorem end_of_transfer {s : State} (run : Reaches (step files argv qbytes) NoFailure initial s)
    (id : Nat) (content : List Byte) (asked : files (argv id) = some content)
    (reported : (s.clients id).pc.Reported) :
    (∃ pid k data, s.children pid = some k ∧ k.req = request argv id ∧
      (s.clients id).messages = data ++ [k.image.message] ∧ AllData data ∧ bodies data = content) ∧
    (s.clients id).numTotal = content.length + REQ_MSG_SIZE ∧
    ¬ (s.clients id).TransferRight content := by
  rcases queues_refine_channels run with ⟨ch, streams⟩
  rcases streams.reported reported with ⟨counted, pid, k, data, present, req, whole, sent, -⟩
  have content_eq : bodies data = content := by
    have file := sent.whole
    rw [(noFailure_clean run pid k present).nothingLost, List.append_nil, req] at file
    exact (Option.some.inj (asked.symm.trans file)).symm
  have total : (s.clients id).numTotal = content.length + REQ_MSG_SIZE := by
    rw [counted.numTotal, whole, bodies_append, List.length_append, content_eq]
    have size := k.image.size
    simp [bodies, StackImage.message, size]
  refine ⟨⟨pid, k, data, present, req, whole, sent.allData, content_eq⟩, total, ?_⟩
  intro right
  have wrong := right.total
  rw [total] at wrong
  have size : REQ_MSG_SIZE = 4100 := rfl
  omega

def wholeTransfer : List Action :=
  [.client 7 .done, .client 7 .done, .client 7 .done, .server .done, .fork 1 [] (stackImage 4096),
    .child 1 .done, .child 1 (.count 3), .child 1 .done, .child 1 (.count 0), .child 1 .done,
    .client 7 .done, .client 7 .done, .client 7 .done, .client 7 .done, .client 7 .done]

theorem end_of_transfer_wholeTransfer :
    ∃ s, exec (step twoFiles twoArgs 16384) wholeTransfer initial = some s ∧
      (s.clients 7).numTotal = 4103 := by
  have ends : (exec (step twoFiles twoArgs 16384) wholeTransfer initial).any
      (fun s => (s.clients 7).pc = .exiting .success) = true := by decide +kernel
  rcases (Option.any_eq_true _ _).mp ends with ⟨s, run, at_⟩
  rw [decide_eq_true_eq] at at_
  refine ⟨s, run, ?_⟩
  exact (end_of_transfer ⟨wholeTransfer, by decide +kernel, run⟩ 7 [1, 2, 3] rfl (.inl at_)).2.1

theorem wholeTransfer_not_right :
    ¬ ∀ s id content, Reaches (step twoFiles twoArgs 16384) NoFailure initial s →
      twoFiles (twoArgs id) = some content → (s.clients id).pc.Reported →
      (s.clients id).TransferRight content := by
  intro always
  have ends : (exec (step twoFiles twoArgs 16384) wholeTransfer initial).any
      (fun s => (s.clients 7).pc = .exiting .success ∧ (s.clients 7).numTotal = 4103) = true := by
    decide +kernel
  rcases (Option.any_eq_true _ _).mp ends with ⟨s, run, both⟩
  rw [decide_eq_true_eq] at both
  have right := always s 7 [1, 2, 3] ⟨wholeTransfer, by decide +kernel, run⟩ rfl (.inl both.1)
  have total := both.2.symm.trans right.total
  exact absurd total (by decide)

def Keeps (id : Nat) (s : State) : Action → Prop
  | .child pid outcome => ∀ k ∈ s.children pid, k.req.clientId = id → ¬ k.Loses outcome
  | _ => True

instance (id : Nat) (s : State) : (action : Action) → Decidable (Keeps id s action)
  | .child pid outcome =>
    inferInstanceAs (Decidable (∀ k ∈ s.children pid, k.req.clientId = id → ¬ k.Loses outcome))
  | .server _ | .fork _ _ _ | .client _ _ => isTrue trivial

def Intact (id : Nat) (s : State) : Prop := s.AllChildren fun k => k.req.clientId = id → k.lost = []

theorem step_intact {s t : State} {ch : Channels} {id : Nat} {action : Action}
    (streams : Streams files argv qbytes s ch) (taken : step files argv qbytes s action = some t) :
    Intact id t ↔ Intact id s ∧ Keeps id s action := by
  cases action with
  | server outcome =>
    simp only [Intact, State.AllChildren, Keeps, (serverStep_frame taken).1, and_true]
  | client other outcome =>
    simp only [Intact, State.AllChildren, Keeps, clientStep_children taken, and_true]
  | fork pid data image =>
    rcases forkStep_some taken with ⟨req, at_, free, rfl⟩
    simp only [Keeps, and_true]
    constructor
    · intro intact other k present
      have ne : other ≠ pid := by
        rintro rfl
        rw [free] at present
        cases present
      exact intact other k (by simpa [State.setChild, Function.update_of_ne ne] using present)
    · intro intact other k present
      rcases setChild_some present with ⟨-, rfl⟩ | ⟨-, before⟩
      · exact fun _ => rfl
      · exact intact other k before
  | child pid outcome =>
    rcases childStep_some taken with ⟨k, k', sent, there, move, children, -⟩
    have lost := move.lost_iff (streams.progress pid k there)
    have here : (s.setChild pid k').children pid = some k' := by simp [State.setChild]
    simp only [Intact, State.AllChildren, Keeps, children, there, Option.mem_some_iff, forall_eq']
    constructor
    · intro intact
      refine ⟨?_, fun same => (lost.mp (intact pid k' here (move.req ▸ same))).2⟩
      intro other l present same
      by_cases moved : other = pid
      · subst moved
        rw [there, Option.some.injEq] at present
        subst present
        exact (lost.mp (intact other k' here (move.req ▸ same))).1
      · exact intact other l (by simpa [State.setChild, Function.update_of_ne moved] using present) same
    · rintro ⟨intact, keeps⟩ other l present same
      rcases setChild_some present with ⟨-, rfl⟩ | ⟨-, before⟩
      · rw [move.req] at same
        exact lost.mpr ⟨intact pid k there same, keeps same⟩
      · exact intact other l before same

/-- A client that reports success holds its whole file if and only if no `read` of its child failed
    before the end of the file and no `msgsnd` of data failed. -/
theorem completeness (actions : List Action) (s : State)
    (run : exec (step files argv qbytes) actions initial = some s) (id : Nat)
    (reported : (s.clients id).pc.Reported) :
    ∃ content, files (argv id) = some content ∧
      (dataBodies (s.clients id).messages = content ↔
        Along (step files argv qbytes) (Keeps id) actions initial) := by
  have along : Intact id s ↔ Intact id initial ∧ Along (step files argv qbytes) (Keeps id) actions initial :=
    along_iff (I := fun s => ∃ ch, Streams files argv qbytes s ch)
      (fun _ _ _ ⟨_, streams⟩ taken => step_streams streams taken)
      (fun _ _ _ ⟨_, streams⟩ taken => step_intact streams taken) ⟨_, streams_initial⟩ run
  have start : Intact id initial := allChildren_initial _
  rw [and_iff_right start] at along
  have anyway : Reaches (step files argv qbytes) (fun _ _ => True) initial s :=
    ⟨actions, along_true _ _, run⟩
  rcases queues_refine_channels anyway with ⟨ch, streams⟩
  rcases streams.reported reported with ⟨-, pid, k, data, present, req, whole, sent, other⟩
  have file := sent.whole
  rw [req] at file
  have same : k.req.clientId = id := by rw [req]; rfl
  refine ⟨_, file, ?_⟩
  rw [← along, whole, dataBodies_closed sent.allData other, List.self_eq_append_right]
  constructor
  · intro nothing other l there equal
    have only := streams.dispatch.unique other pid l k there present (equal.trans same.symm)
    rw [only, present, Option.some.injEq] at there
    rw [← there]
    exact nothing
  · intro intact
    exact intact pid k present same

theorem completeness_wholeTransfer :
    ∃ s, exec (step twoFiles twoArgs 16384) wholeTransfer initial = some s ∧
      dataBodies (s.clients 7).messages = [1, 2, 3] := by
  have ends : (exec (step twoFiles twoArgs 16384) wholeTransfer initial).any
      (fun s => (s.clients 7).pc = .exiting .success) = true := by decide +kernel
  rcases (Option.any_eq_true _ _).mp ends with ⟨s, run, at_⟩
  rw [decide_eq_true_eq] at at_
  rcases completeness wholeTransfer s run 7 (.inl at_) with ⟨content, file, whole⟩
  cases file
  exact ⟨s, run, whole.mpr (by decide +kernel)⟩

def cutShort : List Action :=
  [.client 7 .done, .client 7 .done, .client 7 .done, .server .done, .fork 1 [] (stackImage 4096),
    .child 1 .done, .child 1 (.count 2), .child 1 .done, .child 1 (.error (.other 5)), .child 1 .done,
    .client 7 .done, .client 7 .done, .client 7 .done, .client 7 .done, .client 7 .done,
    .client 7 .done]

theorem cutShort_reported :
    ¬ ∀ s id content, Reaches (step twoFiles twoArgs 16384) (fun _ _ => True) initial s →
      twoFiles (twoArgs id) = some content → (s.clients id).pc = .exited .success →
      dataBodies (s.clients id).messages = content := by
  intro always
  have ends : (exec (step twoFiles twoArgs 16384) cutShort initial).any
      (fun s => (s.clients 7).pc = .exited .success ∧
        dataBodies (s.clients 7).messages = [1, 2]) = true := by decide +kernel
  rcases (Option.any_eq_true _ _).mp ends with ⟨s, run, both⟩
  rw [decide_eq_true_eq] at both
  have whole := always s 7 [1, 2, 3] ⟨cutShort, along_true _ _, run⟩ rfl both.1
  rw [both.2] at whole
  exact absurd whole (by decide)

end SystemProgramming.FileServer
