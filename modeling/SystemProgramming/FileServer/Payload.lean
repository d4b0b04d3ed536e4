import SystemProgramming.FileServer.Streams

namespace SystemProgramming.FileServer

open Transition

variable {files : List Byte → Option (List Byte)} {argv : Nat → List Byte} {qbytes : Nat}

def NoFailure (_ : State) : Action → Prop
  | .child _ outcome => outcome.isError = false
  | _ => True

instance (s : State) (action : Action) : Decidable (NoFailure s action) := by
  cases action <;> unfold NoFailure <;> infer_instance

def Faultless (s : State) : Action → Prop
  | .fork _ _ image => image.message.mtype ≠ RESP_MT_DATA
  | action => NoFailure s action

instance (s : State) (action : Action) : Decidable (Faultless s action) := by
  cases action <;> unfold Faultless <;> infer_instance

theorem Faultless.noFailure {s : State} {action : Action} (fine : Faultless s action) :
    NoFailure s action := by
  cases action with
  | fork pid data image => trivial
  | _ => exact fine

structure Child.Clean (k : Child) : Prop where
  nothingLost : k.lost = []
  opened : k.resp.mtype ≠ RESP_MT_FAILURE

theorem DATA_ne_FAILURE : RESP_MT_DATA ≠ RESP_MT_FAILURE := by decide

theorem END_ne_FAILURE : RESP_MT_END ≠ RESP_MT_FAILURE := by decide

theorem ChildMove.clean {k k' : Child} {outcome : Outcome} {sent : Option ResponseMsg}
    (move : ChildMove files k outcome k' sent) (fine : outcome.isError = false) (clean : k.Clean) :
    k'.Clean := by
  have opened := clean.opened
  cases move with
  | opened content at_ present => exact ⟨clean.nothingLost, DATA_ne_FAILURE⟩
  | filled n at_ positive bound available => exact ⟨clean.nothingLost, opened⟩
  | endOfFile at_ empty => exact ⟨rfl, END_ne_FAILURE⟩
  | sent n at_ => exact ⟨clean.nothingLost, opened⟩
  | reported at_ => exact ⟨clean.nothingLost, opened⟩
  | closed at_ => exact ⟨clean.nothingLost, opened⟩
  | _ => cases fine

def State.AllChildren (s : State) (P : Child → Prop) : Prop := ∀ pid k, s.children pid = some k → P k

theorem State.AllChildren.step {P : Child → Prop} {s t : State} {action : Action} (all : s.AllChildren P)
    (born : ∀ pid req data image, action = .fork pid data image →
      P ⟨.opening, req, ⟨0, data⟩, [], image, []⟩)
    (kept : ∀ pid outcome k k' sent, action = .child pid outcome →
      ChildMove files k outcome k' sent → P k → P k')
    (taken : step files argv qbytes s action = some t) : t.AllChildren P := by
  cases action with
  | server outcome =>
    intro pid k present
    rw [(serverStep_frame taken).1] at present
    exact all pid k present
  | fork pid data image =>
    obtain ⟨req, at_, free, rfl⟩ := forkStep_some taken
    intro other k present
    rcases setChild_some present with ⟨-, rfl⟩ | ⟨-, before⟩
    · exact born pid req data image rfl
    · exact all other k before
  | child pid outcome =>
    obtain ⟨k, k', sent, there, move, children, -⟩ := childStep_some taken
    intro other l present
    rw [children] at present
    rcases setChild_some present with ⟨-, rfl⟩ | ⟨-, before⟩
    · exact kept pid outcome k _ sent rfl move (all pid k there)
    · exact all other l before
  | client id outcome =>
    intro pid k present
    rw [clientStep_children taken] at present
    exact all pid k present

theorem allChildren_initial (P : Child → Prop) : initial.AllChildren P :=
  fun pid k present => absurd present (initial_children pid k)

theorem noFailure_clean {s : State} (run : Reaches (step files argv qbytes) NoFailure initial s) :
    s.AllChildren Child.Clean := by
  apply run.invariant (I := fun s => s.AllChildren Child.Clean) (allChildren_initial _)
  intro s action t all fine taken
  apply all.step _ _ taken
  · intro pid req data image _
    exact ⟨rfl, Int.zero_ne_one⟩
  · rintro pid outcome k k' sent rfl move clean
    exact move.clean fine clean

theorem faultless_image {s : State} (run : Reaches (step files argv qbytes) Faultless initial s) :
    s.AllChildren (fun k => k.image.message.mtype ≠ RESP_MT_DATA) := by
  apply run.invariant (I := fun s => s.AllChildren fun k => k.image.message.mtype ≠ RESP_MT_DATA)
    (allChildren_initial _)
  intro s action t all fine taken
  apply all.step _ _ taken
  · rintro pid req data image rfl
    exact fine
  · rintro pid outcome k k' sent rfl move other
    rw [move.image]
    exact other

theorem AllData.of_isPrefix {first second : List ResponseMsg} (data : AllData second)
    (isPrefix : first <+: second) : AllData first :=
  fun m member => data m (isPrefix.subset member)

theorem bodies_isPrefix {first second : List ResponseMsg} (isPrefix : first <+: second) :
    bodies first <+: bodies second := by
  rcases isPrefix with ⟨rest, rfl⟩
  rw [bodies_append]
  exact List.prefix_append _ _

theorem AllData.not_other {msgs : List ResponseMsg} (data : AllData msgs)
    (other : ∃ m ∈ msgs, m.mtype ≠ RESP_MT_DATA) : False := by
  rcases other with ⟨m, member, type⟩
  exact type (data m member)

theorem dataBodies_closed {data : List ResponseMsg} {last : ResponseMsg} (allData : AllData data)
    (type : last.mtype ≠ RESP_MT_DATA) : dataBodies (data ++ [last]) = bodies data := by
  have nothing : dataBodies [last] = [] := by simp [dataBodies, bodies, type]
  rw [dataBodies_append, nothing, List.append_nil, allData.dataBodies]

/-- The stream of a clean child: data, and at most one other message, which follows the whole file. -/
theorem Child.Progress.stream {k : Child} {msgs : List ResponseMsg} {content : List Byte}
    (progress : k.Progress files msgs) (clean : k.Clean)
    (asked : files k.req.pathname = some content) :
    (AllData msgs ∧ bodies msgs <+: content) ∨
      ∃ data, msgs = data ++ [k.image.message] ∧ AllData data ∧ bodies data = content := by
  have shorter : ∀ {unsent}, k.Sent files msgs unsent → AllData msgs ∧ bodies msgs <+: content := by
    intro unsent sent
    have whole := sent.whole
    rw [asked, Option.some.injEq] at whole
    exact ⟨sent.allData, whole ▸ List.prefix_append _ _⟩
  have silent : msgs = [] → AllData msgs ∧ bodies msgs <+: content := by
    rintro rfl
    exact ⟨nofun, List.nil_prefix⟩
  unfold Child.Progress at progress
  split at progress
  · exact .inl (silent progress.1)
  · exact .inl (silent progress.1)
  · exact .inl (shorter progress.1)
  · exact .inl (shorter progress.1)
  · exact .inl (shorter progress)
  · rcases progress with ⟨data, same, sent⟩ | ⟨-, failed, -⟩
    · have whole := sent.whole
      rw [asked, clean.nothingLost, List.append_nil, Option.some.injEq] at whole
      exact .inr ⟨data, same, sent.allData, whole.symm⟩
    · exact absurd failed clean.opened
  · rcases progress with sent | ⟨none, -⟩
    · exact .inl (shorter sent)
    · exact .inl (silent none)

theorem Child.Progress.seen {k : Child} {msgs seen : List ResponseMsg} {content : List Byte}
    (progress : k.Progress files msgs) (clean : k.Clean)
    (image : k.image.message.mtype ≠ RESP_MT_DATA)
    (asked : files k.req.pathname = some content) (isPrefix : seen <+: msgs) :
    dataBodies seen <+: content ∧ ((∃ m ∈ seen, m.mtype ≠ RESP_MT_DATA) → dataBodies seen = content) := by
  rcases progress.stream clean asked with ⟨allData, short⟩ | ⟨data, rfl, allData, whole⟩
  · have data := allData.of_isPrefix isPrefix
    rw [data.dataBodies]
    exact ⟨(bodies_isPrefix isPrefix).trans short, fun other => (data.not_other other).elim⟩
  · rcases List.prefix_concat_iff.mp isPrefix with rfl | before
    · rw [dataBodies_closed allData image, whole]
      exact ⟨List.prefix_rfl, fun _ => rfl⟩
    · have data := allData.of_isPrefix before
      rw [data.dataBodies, ← whole]
      exact ⟨bodies_isPrefix before, fun other => (data.not_other other).elim⟩

theorem Streams.messages_isPrefix {s : State} {ch : Channels} (streams : Streams files argv qbytes s ch)
    (id : Nat) : (s.clients id).messages <+: sentOn (ch id) := by
  have order := (ch id).received_isPrefix
  rw [streams.received id] at order
  exact order.map _

theorem Streams.child_of_received {s : State} {ch : Channels}
    (streams : Streams files argv qbytes s ch) {id : Nat} {e : Envelope}
    (member : e ∈ (s.clients id).received) :
    ∃ k, s.children e.sender = some k ∧ k.req = request argv id := by
  rw [← streams.received id] at member
  have sent := (ch id).received_isPrefix.subset member
  by_contra none
  have silent : (ch id).sent = [] := by
    apply streams.silent
    intro pid k present same
    have sender := streams.sender pid k present e (by rwa [same])
    have written := (streams.dispatch.served pid k present).1
    rw [same] at written
    exact none ⟨k, by rw [sender]; exact present, written⟩
  rw [silent] at sent
  cases sent

/-- In every reachable state each client holds a prefix of its own file, the whole of it once a
    message other than data has come, and nothing from a child of another client. -/
theorem payload_delivered {s : State} (run : Reaches (step files argv qbytes) Faultless initial s)
    (id : Nat) (content : List Byte) (asked : files (argv id) = some content) :
    dataBodies (s.clients id).messages <+: content ∧
    ((∃ m ∈ (s.clients id).messages, m.mtype ≠ RESP_MT_DATA) →
      dataBodies (s.clients id).messages = content) ∧
    ∀ e ∈ (s.clients id).received, ∃ k, s.children e.sender = some k ∧ k.req = request argv id := by
  rcases queues_refine_channels run with ⟨ch, streams⟩
  rw [← and_assoc]
  refine ⟨?_, fun e member => streams.child_of_received member⟩
  by_cases served : (s.clients id).received = []
  · have none : (s.clients id).messages = [] := by rw [Client.messages, served, List.map_nil]
    rw [none]
    exact ⟨List.nil_prefix, by simp⟩
  · rcases List.exists_mem_of_ne_nil _ served with ⟨e, member⟩
    rcases streams.child_of_received member with ⟨k, present, req⟩
    have same : k.req.clientId = id := by rw [req]; rfl
    have progress := streams.progress _ k present
    rw [same] at progress
    have clean := noFailure_clean (run.weaken fun _ _ fine => fine.noFailure) _ k present
    apply progress.seen clean (faultless_image run _ k present) _ (streams.messages_isPrefix id)
    rw [req]
    exact asked

def twoFiles : List Byte → Option (List Byte)
  | [97] => some [1, 2, 3]
  | [98] => some []
  | _ => none

def twoArgs : Nat → List Byte
  | 7 => [97]
  | _ => [98]

def interleaved : List Action :=
  [.client 7 .done, .client 9 .done, .client 7 .done, .client 9 .done, .client 9 .done, .client 7 .done,
    .server .done, .fork 1 [] (stackImage 4096), .child 1 .done, .server .done,
    .fork 2 [] (stackImage 4096), .child 2 .done, .child 2 (.count 2), .child 1 (.count 0), .child 2 .done,
    .child 1 .done, .client 7 .done, .client 7 .done, .client 9 .done, .child 2 (.count 1), .child 2 .done,
    .client 7 .done, .child 2 (.count 0), .child 2 .done, .client 7 .done, .client 7 .done]

theorem payload_interleaved :
    ∃ s, exec (step twoFiles twoArgs 16384) interleaved initial = some s ∧
      (s.clients 7).messages.map (·.mtype) = [2, 2, 4096] ∧
      dataBodies (s.clients 7).messages = [1, 2, 3] := by
  have ends : (exec (step twoFiles twoArgs 16384) interleaved initial).any
      (fun s => (s.clients 7).messages.map (·.mtype) = [2, 2, 4096]) = true := by decide +kernel
  rcases (Option.any_eq_true _ _).mp ends with ⟨s, run, types⟩
  rw [decide_eq_true_eq] at types
  refine ⟨s, run, types, ?_⟩
  apply (payload_delivered ⟨interleaved, by decide +kernel, run⟩ 7 [1, 2, 3] rfl).2.1
  have other : (4096 : Int) ∈ (s.clients 7).messages.map (·.mtype) := by simp [types]
  rcases List.mem_map.mp other with ⟨m, member, type⟩
  exact ⟨m, member, by rw [type]; decide⟩

end SystemProgramming.FileServer
