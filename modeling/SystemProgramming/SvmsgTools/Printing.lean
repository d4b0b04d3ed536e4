import SystemProgramming.SvmsgTools.Model

namespace SystemProgramming.SvmsgTools

open Transition Getopt

variable {s t : State} {r : Receiving} {got : Received} {m : Message} {line : CommandLine}

def Message.Built (m : Message) : Prop :=
  (m.mtext = [] ∧ m.text = noText) ∨ (m.mtext = m.text.1 ++ [0] ∧ m.mtext.length ≤ MAX_MTEXT)

def State.Built (s : State) : Prop := ∀ msqid, ∀ m ∈ s msqid, m.Built

theorem svmsg_send_built {sending : Sending} (sends : svmsg_send line = some sending) : sending.msg.Built := by
  unfold svmsg_send at sends
  obtain ⟨flags, -, operands⟩ := Option.bind_eq_some_iff.mp sends
  dsimp only at operands
  split at operands
  · cases operands
    exact .inl ⟨rfl, rfl⟩
  · rename_i msqid mtype text given
    split at operands
    · cases operands
    · rename_i short
      cases operands
      refine .inr ⟨rfl, ?_⟩
      rw [List.length_append, List.length_singleton]
      omega
  · cases operands

theorem msgrcv_some {queue : List Message} (received : msgrcv queue r = some got) :
    MessageQueue.take (·.mtype) queue r.type.toInt = some (got.msg, got.rest) ∧
      got.stored = got.msg.mtext.take r.maxBytes.toNat := by
  unfold msgrcv at received
  split at received
  · cases received
  · obtain ⟨⟨msg, rest⟩, taken, stored⟩ := Option.bind_eq_some_iff.mp received
    dsimp only at stored
    split at stored
    · split at stored
      · cases stored
        exact ⟨taken, rfl⟩
      · cases stored
    · rename_i whole
      cases stored
      exact ⟨taken, (List.take_of_length_le (Nat.le_of_not_lt whole)).symm⟩

theorem receive_some (received : receive s line = some (r, got)) :
    got.msg ∈ s r.msqid ∧ got.rest ⊆ s r.msqid ∧ got.stored = got.msg.mtext.take r.maxBytes.toNat := by
  obtain ⟨r', -, taken⟩ := Option.bind_eq_some_iff.mp received
  obtain ⟨got', copied, same⟩ := Option.map_eq_some_iff.mp taken
  cases same
  have result := msgrcv_some copied
  exact ⟨MessageQueue.mem_of_take result.1, MessageQueue.subset_of_take result.1, result.2⟩

theorem step_built {action : Action} (built : s.Built) (taken : step s action = some t) : t.Built := by
  cases action with
  | send line outcome =>
    cases outcome with
    | count n => cases taken
    | error errno =>
      cases taken
      exact built
    | done =>
      obtain ⟨sending, sends, queued⟩ := Option.bind_eq_some_iff.mp taken
      split at queued
      · cases queued
        intro msqid m member
        by_cases same : msqid = sending.msqid
        · subst same
          rw [Function.update_self] at member
          rcases List.mem_append.mp member with old | new
          · exact built _ m old
          · rw [List.mem_singleton.mp new]
            exact svmsg_send_built sends
        · rw [Function.update_of_ne same] at member
          exact built msqid m member
      · cases queued
  | receive line outcome =>
    cases outcome with
    | count n => cases taken
    | error errno =>
      cases taken
      exact built
    | done =>
      obtain ⟨⟨r, got⟩, received, same⟩ := Option.map_eq_some_iff.mp taken
      cases same
      intro msqid m member
      dsimp only at member
      by_cases same : msqid = r.msqid
      · subst same
        rw [Function.update_self] at member
        exact built _ m ((receive_some received).2.1 member)
      · rw [Function.update_of_ne same] at member
        exact built msqid m member

theorem built_of_run {actions : List Action} (run : exec step actions empty = some s) : s.Built := by
  apply exec_invariant (I := State.Built) ?_ ?_ (along_true actions empty) run
  · intro s action t built _ taken
    exact step_built built taken
  · intro msqid m member
    cases member

def PrintsText (got : Received) : Prop :=
  ∀ memory : List Byte, MAX_MTEXT ≤ memory.length →
    body memory got.stored = some (got.msg.text.1.take got.stored.length)

theorem body_terminated (text : CString) (memory : List Byte) : body memory (text.1 ++ [0]) = some text.1 := by
  have whole : Buffer.overwrite (text.1 ++ [0]) memory = text.1 ++ 0 :: memory.drop (text.1.length + 1) := by
    simp [Buffer.overwrite]
  unfold body
  rw [if_pos (by simp), whole, printString, if_pos (by simp), CMemory.text_append text.2]

/-- Behind the bytes of a cut message `%s` goes on to what the memory held. -/
theorem body_cut {stored : List Byte} (plain : 0 ∉ stored) (some_ : 0 < stored.length)
    (room : stored.length < MAX_MTEXT) :
    body (List.replicate MAX_MTEXT 1 ++ [0]) stored ≠ some stored := by
  have whole : Buffer.overwrite stored (List.replicate MAX_MTEXT 1 ++ [0]) =
      (stored ++ List.replicate (MAX_MTEXT - stored.length) 1) ++ 0 :: [] := by
    rw [Buffer.overwrite, List.drop_append_of_le_length (by simp; omega), List.drop_replicate, List.append_assoc]
  have free : 0 ∉ stored ++ List.replicate (MAX_MTEXT - stored.length) (1 : Byte) := by
    intro member
    rcases List.mem_append.mp member with inside | behind
    · exact plain inside
    · exact absurd (List.eq_of_mem_replicate behind) (by decide)
  unfold body
  rw [if_pos some_, whole, printString, if_pos (by simp), CMemory.text_append free]
  intro same
  have sizes := congrArg List.length (Option.some.inj same)
  rw [List.length_append, List.length_replicate] at sizes
  omega

/-- The received bytes always fit, and the sent text is printed as far as it was received, if and only
    if the message was not cut to a length other than 0. -/
theorem received_prints_iff {actions : List Action} (run : exec step actions empty = some s)
    (received : receive s line = some (r, got)) :
    (got.stored.length ≤ MAX_MTEXT ∧ PrintsText got) ↔
      r.maxBytes = 0 ∨ got.msg.mtext.length ≤ r.maxBytes.toNat := by
  obtain ⟨member, -, stored⟩ := receive_some received
  have built := built_of_run run r.msqid got.msg member
  rcases built with ⟨empty_, noText_⟩ | ⟨terminated, short⟩
  · rw [empty_, List.take_nil] at stored
    rw [PrintsText, stored, empty_, noText_]
    apply iff_of_true
    · exact ⟨Nat.zero_le _, fun memory _ => rfl⟩
    · exact .inr (Nat.zero_le _)
  · have size : got.msg.mtext.length = got.msg.text.1.length + 1 := by
      rw [terminated, List.length_append, List.length_singleton]
    have fits : got.stored.length ≤ MAX_MTEXT := by
      rw [stored, List.length_take]
      omega
    rw [and_iff_right fits]
    by_cases whole : got.msg.mtext.length ≤ r.maxBytes.toNat
    · rw [List.take_of_length_le whole, terminated] at stored
      apply iff_of_true ?_ (.inr whole)
      intro memory _
      rw [stored, body_terminated, List.take_of_length_le (by rw [List.length_append, List.length_singleton]; omega)]
    · have cut : got.stored = got.msg.text.1.take r.maxBytes.toNat := by
        rw [stored, terminated, List.take_append_of_le_length (by omega)]
      have length : got.stored.length = r.maxBytes.toNat := by
        rw [cut, List.length_take]
        omega
      have prefix_ : got.msg.text.1.take got.stored.length = got.stored := by
        rw [length, cut]
      rw [or_iff_left whole, PrintsText, prefix_]
      by_cases zero : r.maxBytes = 0
      · have none : got.stored = [] := by
          rw [cut, zero]
          rfl
        rw [none]
        exact iff_of_true (fun memory _ => rfl) zero
      · apply iff_of_false ?_ zero
        intro prints
        have plain : 0 ∉ got.stored := by
          intro member
          rw [cut] at member
          exact got.msg.text.2 (List.mem_of_mem_take member)
        have positive : r.maxBytes.toNat ≠ 0 := fun same => zero (BitVec.eq_of_toNat_eq same)
        exact body_cut plain (by omega) (by omega) (prints _ (by simp))

def one : CString := ⟨[49], by decide⟩
def hi : CString := ⟨[104, 105], by decide⟩

def mayCut : CString := ⟨[45, 101], by decide⟩

def sendHi : List Action := [.send ⟨.permute, [one, one, hi]⟩ .done]

theorem received_prints_hi :
    ∃ s r got, exec step sendHi empty = some s ∧ receive s ⟨.permute, [one]⟩ = some (r, got) ∧ PrintsText got := by
  obtain ⟨s, r, got, run, received, size, whole⟩ :
      ∃ s r got, exec step sendHi empty = some s ∧ receive s ⟨.permute, [one]⟩ = some (r, got) ∧
        r.maxBytes.toNat = 1024 ∧ got.msg.mtext.length = 3 := ⟨_, _, _, rfl, rfl, rfl, rfl⟩
  have prints := (received_prints_iff run received).mpr (.inr (by omega))
  exact ⟨s, r, got, run, received, prints.2⟩

/-- `svmsg_receive -e 1 1` stores the one byte `h`. -/
theorem cut_message_not_printed :
    ¬ ∀ actions s line r got, exec step actions empty = some s → receive s line = some (r, got) →
      PrintsText got := by
  intro always
  obtain ⟨s, r, got, run, received, text, stored⟩ :
      ∃ s r got, exec step sendHi empty = some s ∧ receive s ⟨.permute, [mayCut, one, one]⟩ = some (r, got) ∧
        got.msg.text = hi ∧ got.stored = [104] := ⟨_, _, _, rfl, rfl, rfl, rfl⟩
  have prints := always sendHi s _ r got run received (List.replicate MAX_MTEXT 1 ++ [0]) (by simp)
  rw [text, stored] at prints
  exact body_cut (by decide) (by decide) (by decide) prints

end SystemProgramming.SvmsgTools
