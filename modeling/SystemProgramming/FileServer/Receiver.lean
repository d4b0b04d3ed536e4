import SystemProgramming.FileServer.ServeRequest

namespace SystemProgramming.FileServer

def Client.messages (c : Client) : List ResponseMsg := c.received.map (·.msg)

structure Client.Counted (c : Client) : Prop where
  numTotal : c.numTotal = (bodies c.messages).length
  numMsgs : c.numMsgs = c.messages.length

def EndsWith (msgs : List ResponseMsg) (last : ResponseMsg) : Prop :=
  ∃ data, msgs = data ++ [last] ∧ AllData data ∧ (data = [] → last.mtype ≠ RESP_MT_FAILURE)

def Client.View (c : Client) : Prop :=
  match c.pc with
  | .msgget | .atexit | .request | .receiveFirst => c.messages = []
  | .test => EndsWith c.messages c.resp ∧ c.Counted
  | .receive => AllData c.messages ∧ c.messages ≠ [] ∧ c.Counted
  | .report | .exiting .success | .exited .success =>
    (∃ last, EndsWith c.messages last ∧ last.mtype ≠ RESP_MT_DATA) ∧ c.Counted
  | .removing | .exiting .failure | .exited .failure => True

theorem AllData.of_endsWith {msgs : List ResponseMsg} {last : ResponseMsg}
    (ends : EndsWith msgs last) (data : last.mtype = RESP_MT_DATA) : AllData msgs ∧ msgs ≠ [] := by
  obtain ⟨before, rfl, allData, -⟩ := ends
  exact ⟨allData.append_single data, by simp⟩

theorem ClientGoto.view {c : Client} {pc : ClientPc} (next : ClientGoto c pc) (view : c.View) :
    Client.View { c with pc } := by
  cases next with
  | abandoned => trivial
  | failed => trivial
  | registered at_ => simpa [Client.View, Client.messages, at_] using view
  | again at_ more =>
    simp only [Client.View, at_] at view
    obtain ⟨allData, nonempty⟩ := AllData.of_endsWith view.1 more
    exact ⟨allData, nonempty, view.2.1, view.2.2⟩
  | ended at_ last =>
    simp only [Client.View, at_] at view
    exact ⟨⟨c.resp, view.1, last⟩, view.2.1, view.2.2⟩
  | reported at_ =>
    simp only [Client.View, at_] at view
    exact ⟨view.1, view.2.1, view.2.2⟩
  | exited status at_ =>
    cases status with
    | failure => trivial
    | success =>
      simp only [Client.View, at_] at view
      exact ⟨view.1, view.2.1, view.2.2⟩

theorem Client.first_view {c : Client} (e : Envelope) (at_ : c.pc = .receiveFirst) (view : c.View) :
    (c.first e).View := by
  have fresh : c.received = [] := by
    simp only [View, at_, messages, List.map_eq_nil_iff] at view
    exact view
  unfold first
  split
  · trivial
  · rename_i other
    refine ⟨⟨[], by simp [messages, fresh], nofun, fun _ => other⟩, ?_, ?_⟩ <;>
      simp [messages, fresh, bodies]

theorem Client.next_view {c : Client} (e : Envelope) (at_ : c.pc = .receive) (view : c.View) :
    (c.next e).View := by
  simp only [View, at_] at view
  obtain ⟨allData, nonempty, numTotal, numMsgs⟩ := view
  refine ⟨⟨c.messages, by simp [next, messages], allData, fun empty => absurd empty nonempty⟩, ?_, ?_⟩
  · simp only [next, messages, List.map_append, bodies_append, List.length_append] at numTotal ⊢
    rw [numTotal]
    simp [bodies]
  · simp only [next, messages, List.map_append, List.length_append] at numMsgs ⊢
    rw [numMsgs]
    rfl

@[simp] theorem Client.first_received (c : Client) (e : Envelope) :
    (c.first e).received = c.received ++ [e] := by
  unfold first
  split <;> rfl

@[simp] theorem Client.next_received (c : Client) (e : Envelope) :
    (c.next e).received = c.received ++ [e] := rfl

end SystemProgramming.FileServer
