import SystemProgramming.SvmsgTools.Printing

namespace SystemProgramming.SvmsgTools

open Transition

variable {s t : State} {action : Action} {msqid : BitVec 32}

def sends (msqid : BitVec 32) (_ : State) : Action → List Message
  | .send line .done =>
    match svmsg_send line with
    | some sending => if sending.msqid = msqid then [sending.msg] else []
    | none => []
  | _ => []

def receipts (msqid : BitVec 32) (s : State) : Action → List Message
  | .receive line .done =>
    match receive s line with
    | some (r, got) => if r.msqid = msqid then [got.msg] else []
    | none => []
  | _ => []

def sentTo (msqid : BitVec 32) (actions : List Action) : List Message := trace step (sends msqid) actions empty

def receivedFrom (msqid : BitVec 32) (actions : List Action) : List Message :=
  trace step (receipts msqid) actions empty

def Untyped (msqid : BitVec 32) (_ : State) : Action → Prop
  | .receive line .done => ∀ r ∈ svmsg_receive line, r.msqid = msqid → r.type = 0
  | _ => True

instance (msqid : BitVec 32) (s : State) : (action : Action) → Decidable (Untyped msqid s action)
  | .receive line .done => inferInstanceAs (Decidable (∀ r ∈ svmsg_receive line, r.msqid = msqid → r.type = 0))
  | .receive _ (.count _) | .receive _ (.error _) | .send _ _ => isTrue trivial

inductive QueueMove (msqid : BitVec 32) (s t : State) (action : Action) : Prop where
  | left (same : t msqid = s msqid) (noSend : sends msqid s action = [])
      (noReceipt : receipts msqid s action = [])
  | put (m : Message) (same : t msqid = s msqid ++ [m]) (sent : sends msqid s action = [m])
      (noReceipt : receipts msqid s action = [])
  | took (m : Message) (type : Int) (taken : MessageQueue.take (·.mtype) (s msqid) type = some (m, t msqid))
      (untyped : Untyped msqid s action → type = 0) (noSend : sends msqid s action = [])
      (received : receipts msqid s action = [m])

theorem step_moves (msqid : BitVec 32) (taken : step s action = some t) : QueueMove msqid s t action := by
  cases action with
  | send line outcome =>
    cases outcome with
    | count n => cases taken
    | error errno =>
      cases taken
      exact .left rfl rfl rfl
    | done =>
      obtain ⟨sending, asked, queued⟩ := Option.bind_eq_some_iff.mp taken
      split at queued
      · cases queued
        by_cases here : sending.msqid = msqid
        · refine .put sending.msg ?_ ?_ rfl
          · rw [← here, Function.update_self]
          · simp only [sends, asked, here, if_true]
        · refine .left ?_ ?_ rfl
          · rw [Function.update_of_ne (Ne.symm here)]
          · simp only [sends, asked, here, if_false]
      · cases queued
  | receive line outcome =>
    cases outcome with
    | count n => cases taken
    | error errno =>
      cases taken
      exact .left rfl rfl rfl
    | done =>
      obtain ⟨⟨r, got⟩, received, same⟩ := Option.map_eq_some_iff.mp taken
      cases same
      obtain ⟨r', asked, moved⟩ := Option.bind_eq_some_iff.mp received
      obtain ⟨got', copied, same⟩ := Option.map_eq_some_iff.mp moved
      cases same
      by_cases here : r.msqid = msqid
      · refine .took got.msg r.type.toInt ?_ ?_ rfl ?_
        · dsimp only
          rw [← here, Function.update_self]
          exact (msgrcv_some copied).1
        · intro untyped
          rw [untyped r asked here]
          rfl
        · simp only [receipts, received, here, if_true]
      · refine .left ?_ rfl ?_
        · dsimp only
          rw [Function.update_of_ne (Ne.symm here)]
        · simp only [receipts, received, here, if_false]

/-- Over any run of the two tools, the messages of one type leave a queue in the order in which they
    were put on it, none lost and none twice; the whole queue does so while nobody asks for a type. -/
theorem delivery {actions : List Action} (run : exec step actions empty = some s) (msqid : BitVec 32) :
    (∀ type : Int, (sentTo msqid actions).filter (fun m => m.mtype = type) =
      (receivedFrom msqid actions).filter (fun m => m.mtype = type) ++
        (s msqid).filter (fun m => m.mtype = type)) ∧
    (Along step (Untyped msqid) actions empty →
      sentTo msqid actions = receivedFrom msqid actions ++ s msqid) := by
  constructor
  · intro type
    apply exec_history_always (I := fun before s =>
      (sentTo msqid before).filter (fun m => m.mtype = type) =
        (receivedFrom msqid before).filter (fun m => m.mtype = type) ++
          (s msqid).filter (fun m => m.mtype = type)) ?_ rfl run
    intro before r action t here holds taken
    simp only [sentTo, receivedFrom] at holds ⊢
    rw [trace_concat action here, trace_concat action here]
    cases step_moves msqid taken with
    | left same noSend noReceipt => simp only [noSend, noReceipt, List.append_nil, same, holds]
    | put m same sent noReceipt =>
      simp only [sent, noReceipt, List.append_nil, same, List.filter_append, holds, List.append_assoc]
    | took m wanted split untyped noSend received =>
      simp only [noSend, received, List.append_nil, holds, List.filter_append, List.append_assoc,
        MessageQueue.filter_of_take split type]
  · intro untyped
    apply exec_history (I := fun before s => sentTo msqid before = receivedFrom msqid before ++ s msqid)
      ?_ rfl untyped run
    intro before r action t here holds quiet taken
    simp only [sentTo, receivedFrom] at holds ⊢
    rw [trace_concat action here, trace_concat action here]
    cases step_moves msqid taken with
    | left same noSend noReceipt => simp only [noSend, noReceipt, List.append_nil, same, holds]
    | put m same sent noReceipt => simp only [sent, noReceipt, List.append_nil, same, holds, List.append_assoc]
    | took m wanted split untyped noSend received =>
      have zero := untyped quiet
      subst zero
      have head := MessageQueue.eq_cons_of_take split
      simp only [noSend, received, List.append_nil, holds, head, List.append_assoc, List.cons_append,
        List.nil_append]

def two : CString := ⟨[50], by decide⟩

def byType : CString := ⟨[45, 116], by decide⟩

def outOfOrder : List Action :=
  [.send ⟨.permute, [one, one, hi]⟩ .done, .send ⟨.permute, [one, two, hi]⟩ .done,
    .send ⟨.requireOrder, [two, one]⟩ .done, .receive ⟨.permute, [one, byType, two]⟩ .done]

theorem delivery_outOfOrder :
    ∃ s, exec step outOfOrder empty = some s ∧ (receivedFrom 1 outOfOrder).map (·.mtype) = [2] ∧
      (sentTo 1 outOfOrder).filter (fun m => m.mtype = 1) = (s 1).filter (fun m => m.mtype = 1) ∧
      sentTo 2 outOfOrder = s 2 := by
  obtain ⟨s, run⟩ : ∃ s, exec step outOfOrder empty = some s := ⟨_, rfl⟩
  have first := (delivery run 1).1 1
  have second := (delivery run 2).2 (by decide)
  have took : receivedFrom 1 outOfOrder = [⟨2, [104, 105, 0], hi⟩] := rfl
  have none : receivedFrom 2 outOfOrder = [] := rfl
  rw [took] at first
  rw [none, List.nil_append] at second
  exact ⟨s, run, by rw [took]; rfl, first, second⟩

end SystemProgramming.SvmsgTools
