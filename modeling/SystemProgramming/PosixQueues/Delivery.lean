import SystemProgramming.Library.CFormat
import SystemProgramming.PosixQueues.Model

namespace SystemProgramming.PosixQueues

open Getopt PosixQueueTools Transition

variable {limits : Limits} {s t : State} {action : Action} {name : Text} {q r : Queue} {m : Message}

/-- The loop ends within as many calls of `getopt` as there are arguments, and one more, or not at all. -/
theorem optionLoop_enough {mode : Mode} {switch : Option Event → BitVec 32 → Option (BitVec 32)}
    (keeps : ∀ flags, ∀ left ∈ switch none flags, left = flags) {flags : BitVec 32} {scan : Scan}
    (fresh : scan.bundle = []) {fuel bound : Nat} {result : LoopResult Reading}
    (run : optionLoop (mode.next optstring) switch fuel flags ⟨[], [], scan⟩ = some result)
    (enough : scan.rest.length < bound) :
    optionLoop (mode.next optstring) switch bound flags ⟨[], [], scan⟩ = some result := by
  induction fuel generalizing scan bound with
  | zero => cases run
  | succ fuel ih =>
    obtain ⟨bound, rfl⟩ := Nat.exists_eq_succ_of_ne_zero (Nat.ne_of_gt (Nat.zero_lt_of_lt enough))
    rw [optionLoop] at run ⊢
    cases read : mode.next optstring ⟨[], [], scan⟩ with
    | mk event u =>
      rw [read] at run
      cases event with
      | some e => exact run
      | none =>
        dsimp only at run ⊢
        cases left : switch none flags with
        | none =>
          rw [left] at run
          exact run
        | some kept =>
          rw [left] at run
          have same := keeps flags kept left
          subst same
          have again := ended_again ⟨rfl, fresh⟩ read
          obtain ⟨t, ended, rfl⟩ := mode_next_ended read
          have bundle : t.bundle = [] := ended_bundle ended
          dsimp only at run again ⊢
          rcases again with same | fewer
          · -- `getopt` finds nothing new, and the calls that follow make up the same loop
            rw [same] at run ⊢
            have whole := ih fresh run enough
            rw [optionLoop, read] at whole
            dsimp only at whole
            rw [left, same] at whole
            exact whole
          · refine ih ?_ run ?_
            · exact bundle
            · dsimp only
              omega

theorem switch_keeps {tool : Tool}
    (known : tool = PosixQueueTools.pmsg_send ∨ tool = PosixQueueTools.pmsg_receive) (flags : BitVec 32) :
    ∀ left ∈ tool.switch none flags, left = flags := by
  rcases known with rfl | rfl
  · intro left kept
    cases kept
    rfl
  · exact nofun

/-- The bound on the calls of `getopt` hides no run of the loop. -/
theorem operands_eq_some_iff {tool : Tool}
    (known : tool = PosixQueueTools.pmsg_send ∨ tool = PosixQueueTools.pmsg_receive) {line : CommandLine}
    {texts : List Text} :
    operands tool line = some texts ↔
      ∃ fuel parsed, toolLoop tool line fuel = some (.left parsed) ∧ readOperands tool line parsed = some texts := by
  unfold operands
  constructor
  · intro read
    split at read
    · rename_i parsed run
      exact ⟨_, parsed, run, read⟩
    · cases read
  · rintro ⟨fuel, parsed, run, read⟩
    have length : (Getopt.start line.texts).rest.length = line.args.length := List.length_map _
    have enough : toolLoop tool line (line.args.length + 1) = some (.left parsed) :=
      optionLoop_enough (switch_keeps known) rfl run (by omega)
    rw [enough]
    exact read

def sends (name : Text) (_ : State) : Action → List Message
  | .send line .done =>
    match pmsg_send line with
    | some sending => if sending.name = name then [sending.msg] else []
    | none => []
  | _ => []

def receipts (name : Text) (s : State) : Action → List Message
  | .receive line .done =>
    match receive s line with
    | some (from_, m, _) => if from_ = name then [m] else []
    | none => []
  | _ => []

def sentTo (limits : Limits) (name : Text) (actions : List Action) : List Message :=
  trace (step limits) (sends name) actions empty

def receivedFrom (limits : Limits) (name : Text) (actions : List Action) : List Message :=
  trace (step limits) (receipts name) actions empty

def contents (s : State) (name : Text) : List Message := (s name).elim [] (·.messages.items)

def TakesFirst (name : Text) (s : State) (action : Action) : Prop :=
  ∀ m ∈ receipts name s action, ∀ x ∈ contents s name, urgency x ≤ urgency m

theorem send_messages (sent : q.send m = some r) : r.messages = q.messages.insert m := by
  unfold Queue.send at sent
  split at sent
  · cases sent
    rfl
  · cases sent

theorem receive_messages {len : Nat} (received : q.receive len = some (m, r)) :
    q.messages.pop = some (m, r.messages) := by
  unfold Queue.receive at received
  split at received
  · cases received
  · split at received
    · cases received
    · rename_i popped
      cases received
      exact popped

/-- The buffer of `pmsg_receive` has room for every message. -/
theorem receive_isSome_iff : (q.receive q.msgsize).isSome ↔ q.messages.items ≠ [] := by
  rw [← PriorityQueue.pop_isSome_iff]
  unfold Queue.receive
  rw [if_neg (Nat.lt_irrefl _)]
  split
  · rename_i none
    simp [none]
  · rename_i popped
    simp [popped]

inductive QueueMove (name : Text) (s t : State) (action : Action) : Prop where
  | left (same : contents t name = contents s name) (noSend : sends name s action = [])
      (noReceipt : receipts name s action = [])
  | put (q r : Queue) (m : Message) (before : s name = some q) (sent : q.send m = some r)
      (after : t name = some r) (sends_ : sends name s action = [m]) (noReceipt : receipts name s action = [])
  | took (q r : Queue) (m : Message) (before : s name = some q) (received : q.receive q.msgsize = some (m, r))
      (after : t name = some r) (noSend : sends name s action = []) (receipt : receipts name s action = [m])

theorem mq_open_contents {c : Creating} (opened : mq_open limits s c = some t) (name : Text) :
    contents t name = contents s name := by
  unfold mq_open at opened
  split at opened
  · split at opened
    · cases opened
    · cases opened
      rfl
  · rename_i absent_
    split at opened
    · cases opened
      by_cases same : name = c.name
      · subst same
        rw [contents, contents, Function.update_self, absent_]
        rfl
      · rw [contents, contents, Function.update_of_ne same]
    · cases opened

theorem contents_update_of_ne {other : Text} (apart : name ≠ other) (q : Option Queue) :
    contents (Function.update s other q) name = contents s name := by
  rw [contents, contents, Function.update_of_ne apart]

theorem receive_eq_some {line : CommandLine} (received : receive s line = some (name, m, r)) :
    ∃ q, s name = some q ∧ q.receive q.msgsize = some (m, r) := by
  obtain ⟨asked, parsed, opened⟩ := Option.bind_eq_some_iff.mp received
  obtain ⟨q, before, got⟩ := Option.bind_eq_some_iff.mp opened
  obtain ⟨⟨m', r'⟩, popped, same⟩ := Option.map_eq_some_iff.mp got
  cases same
  exact ⟨q, before, popped⟩

theorem step_moves (name : Text) (taken : step limits s action = some t) : QueueMove name s t action := by
  unfold step at taken
  split at taken
  · obtain ⟨c, asked, opened⟩ := Option.bind_eq_some_iff.mp taken
    exact .left (mq_open_contents opened name) rfl rfl
  · rename_i line
    obtain ⟨sending, asked, opened⟩ := Option.bind_eq_some_iff.mp taken
    obtain ⟨q, before, queued⟩ := Option.bind_eq_some_iff.mp opened
    obtain ⟨r, sent, same⟩ := Option.map_eq_some_iff.mp queued
    cases same
    by_cases here : sending.name = name
    · subst here
      refine .put q r sending.msg before sent (Function.update_self _ _ _) ?_ rfl
      simp only [sends, asked, if_true]
    · refine .left (contents_update_of_ne (Ne.symm here) _) ?_ rfl
      simp only [sends, asked, if_neg here]
  · rename_i line
    obtain ⟨⟨from_, m, r⟩, received, same⟩ := Option.map_eq_some_iff.mp taken
    cases same
    obtain ⟨q, before, popped⟩ := receive_eq_some received
    by_cases here : from_ = name
    · subst here
      refine .took q r m before popped (Function.update_self _ _ _) rfl ?_
      simp only [receipts, received, if_true]
    · refine .left (contents_update_of_ne (Ne.symm here) _) rfl ?_
      simp only [receipts, received, if_neg here]
  · cases taken
    exact .left rfl rfl rfl
  · cases taken
    exact .left rfl rfl rfl
  · cases taken
    exact .left rfl rfl rfl
  · cases taken
  · cases taken
  · cases taken

theorem takesFirst (name : Text) (s : State) (action : Action) : TakesFirst name s action := by
  intro m receipt x waiting
  unfold receipts at receipt
  split at receipt
  · split at receipt
    · rename_i from_ first r received
      split at receipt
      · rename_i here
        subst here
        rw [List.mem_singleton] at receipt
        subst receipt
        obtain ⟨q, before, popped⟩ := receive_eq_some received
        rw [contents, before] at waiting
        exact PriorityQueue.pop_urgent (receive_messages popped) x waiting
      · cases receipt
    · cases receipt
  · cases receipt

/-- A `pmsg_receive` waits only for a message. -/
theorem receive_enabled_iff {line : CommandLine} (parsed : pmsg_receive line = some name) :
    (step limits s (.receive line .done)).isSome ↔ contents s name ≠ [] := by
  simp only [step, receive, parsed, Option.bind_some, Option.isSome_map]
  cases present : s name with
  | none => simp [contents, present]
  | some q =>
    rw [Option.bind_some, Option.isSome_map, receive_isSome_iff, contents, present]
    rfl

/-- Over any run of the three tools, the messages of one priority leave a queue in the order in which they
    were put on it, none lost and none twice, and never while there is a more urgent one; and as long as
    there is any, `pmsg_receive` gets one. -/
theorem delivery_by_priority {actions : List Action} (run : exec (step limits) actions empty = some s)
    (name : Text) :
    (∀ p : Nat, (sentTo limits name actions).filter (fun m => urgency m = p) =
      (receivedFrom limits name actions).filter (fun m => urgency m = p) ++
        (contents s name).filter (fun m => urgency m = p)) ∧
    Along (step limits) (TakesFirst name) actions empty ∧
    ∀ line, pmsg_receive line = some name →
      ((step limits s (.receive line .done)).isSome ↔ contents s name ≠ []) := by
  refine ⟨?_, ?_, ?_⟩
  · intro p
    apply exec_history_always (I := fun before s =>
      (sentTo limits name before).filter (fun m => urgency m = p) =
        (receivedFrom limits name before).filter (fun m => urgency m = p) ++
          (contents s name).filter (fun m => urgency m = p)) ?_ rfl run
    intro before r action t here holds taken
    simp only [sentTo, receivedFrom] at holds ⊢
    rw [trace_concat action here, trace_concat action here]
    cases step_moves name taken with
    | left same noSend noReceipt => simp only [noSend, noReceipt, List.append_nil, same, holds]
    | put q r m present sent after sends_ noReceipt =>
      have grown := PriorityQueue.filter_insert (q := q.messages) (a := m) p
      rw [contents, present] at holds
      rw [sends_, noReceipt, List.append_nil, List.filter_append, holds, contents, after, List.append_assoc]
      simp only [Option.elim_some, send_messages sent, grown]
    | took q r m present received after noSend receipt =>
      have popped := PriorityQueue.pop_items (receive_messages received)
      rw [contents, present] at holds
      rw [noSend, receipt, List.append_nil, List.filter_append, holds, contents, after, List.append_assoc]
      simp only [Option.elim_some, popped, ← List.filter_append, List.singleton_append]
  · exact along_of_splits fun before action after t whole here => takesFirst name t action
  · intro line parsed
    exact receive_enabled_iff parsed

def word (text : String) (plain : 0 ∉ CFormat.ascii text) : CString := ⟨CFormat.ascii text, plain⟩

def system : Limits := ⟨fun name => name.head? = some 47, 100, 4096⟩

def urgentFirst : List Action :=
  let n := word "-n" (by decide)
  let q := word "/q" (by decide)
  [.create ⟨.permute, [q, word "-c" (by decide)]⟩ .done, .send ⟨.permute, [n, q, word "a" (by decide)]⟩ .done,
    .send ⟨.permute, [word "--" (by decide), n, q, word "b" (by decide), word "3" (by decide)]⟩ .done,
    .receive ⟨.requireOrder, [n, q]⟩ .done]

theorem delivery_by_priority_urgentFirst :
    ∃ s, exec (step system) urgentFirst empty = some s ∧
      receivedFrom system (CFormat.ascii "/q") urgentFirst = [⟨CFormat.ascii "b", 3⟩] ∧
      (contents s (CFormat.ascii "/q")).filter (fun m => urgency m = 0) = [⟨CFormat.ascii "a", 0⟩] := by
  obtain ⟨s, run⟩ : ∃ s, exec (step system) urgentFirst empty = some s :=
    Option.isSome_iff_exists.mp (by decide +kernel)
  have got : receivedFrom system (CFormat.ascii "/q") urgentFirst = [⟨CFormat.ascii "b", 3⟩] := by
    decide +kernel
  have put : sentTo system (CFormat.ascii "/q") urgentFirst =
      [⟨CFormat.ascii "a", 0⟩, ⟨CFormat.ascii "b", 3⟩] := by
    decide +kernel
  have inOrder := (delivery_by_priority run (CFormat.ascii "/q")).1 0
  rw [got, put] at inOrder
  exact ⟨s, run, got, inOrder.symm⟩

end SystemProgramming.PosixQueues
