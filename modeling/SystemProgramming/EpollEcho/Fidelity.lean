import Mathlib.Data.List.Forall2
import SystemProgramming.EpollEcho.Idle
import SystemProgramming.Library.Parties

namespace SystemProgramming.EpollEcho

open Transition

variable (sockets : Sockets)

structure Traffic where
  received : List Byte
  sent : List Byte
  deriving DecidableEq

/-- The server together with what it has taken from its sockets: the bytes of each open connection,
    the traffic of the closed ones, and the datagrams. -/
structure Observed where
  state : State
  received : Fd → List Byte
  past : List Traffic
  asked : List Datagram

namespace Observed

def start (connections : Nat) (datagrams : List Datagram) : Observed where
  state := initial sockets connections datagrams
  received := fun _ => []
  past := []
  asked := []

def observe (o : Observed) (outcome : Outcome) (t : State) : Observed :=
  match o.state.pc, outcome with
  | .dispatching (e :: _), .count n =>
    if e.fd = sockets.lfd then { o with state := t, received := Function.update o.received n [] }
    else { o with state := t, asked := o.asked ++ (o.state.datagrams.take 1).filter (·.payload ≠ []) }
  | .receiving fd _, .count n =>
    let chunk := (o.state.conns fd).elim [] (·.data.take n)
    { o with state := t, received := Function.update o.received fd (o.received fd ++ chunk) }
  | .closing fd _ _, .done =>
    { o with
      state := t
      past := o.past ++ (o.state.conns fd).toList.map fun c => ⟨o.received fd, c.echoed⟩ }
  | _, _ => { o with state := t }

def step (o : Observed) (action : Action) : Option Observed :=
  (EpollEcho.step sockets o.state action).map fun t =>
    match action with
    | .server outcome => observe sockets o outcome t
    | _ => { o with state := t }

end Observed

def Pc.sendsTo : Pc → Option Fd
  | .sending fd _ => some fd
  | _ => none

def Pc.repliesTo : Pc → Option Nat
  | .replying sender _ => some sender
  | _ => none

def State.sending (s : State) (fd : Fd) : List Byte :=
  if s.pc.sendsTo = some fd then s.tcpbuf.take TCP_BUFFER_SIZE else []

def State.replying (s : State) : List Datagram :=
  s.pc.repliesTo.toList.map fun sender => ⟨sender, s.udpbuf.take UDP_BUFFER_SIZE⟩

namespace Observed

variable {sockets}

def traffic (o : Observed) (fd : Fd) : Option Traffic :=
  (o.state.conns fd).map fun c => ⟨o.received fd, c.echoed ++ o.state.sending fd⟩

def answers (o : Observed) : List Datagram := o.state.replies ++ o.state.replying

end Observed

def SendsComplete (o : Observed) : Action → Prop
  | .server outcome =>
    (o.state.pc.sendsTo ≠ none → outcome = .count TCP_BUFFER_SIZE) ∧
      (o.state.pc.repliesTo ≠ none → outcome = .done)
  | _ => True

instance (o : Observed) : (action : Action) → Decidable (SendsComplete o action)
  | .server _ => inferInstanceAs (Decidable ((_ → _) ∧ (_ → _)))
  | .connect | .datagram _ | .data _ _ | .hangup _ | .report _ => isTrue trivial

def FillsBuffer (o : Observed) : Action → Prop
  | .server (.count n) =>
    match o.state.pc with
    | .receiving _ _ => n = 0 ∨ n = TCP_BUFFER_SIZE
    | .dispatching (e :: _) => e.fd = sockets.lfd ∨
        ∀ d ∈ o.state.datagrams.take 1, d.payload ≠ [] → UDP_BUFFER_SIZE ≤ d.payload.length
    | _ => True
  | _ => True

def FillsBuffer.decide (o : Observed) (n : Nat) : (pc : Pc) → o.state.pc = pc →
    Decidable (FillsBuffer sockets o (.server (.count n)))
  | .receiving _ _, at_ => decidable_of_iff (n = 0 ∨ n = TCP_BUFFER_SIZE) (by simp only [FillsBuffer, at_])
  | .dispatching (e :: _), at_ => decidable_of_iff (e.fd = sockets.lfd ∨
      ∀ d ∈ o.state.datagrams.take 1, d.payload ≠ [] → UDP_BUFFER_SIZE ≤ d.payload.length)
      (by simp only [FillsBuffer, at_])
  | .waiting, at_ | .dispatching [], at_ | .adding _ _, at_ | .replying _ _, at_ | .sending _ _, at_
  | .closing _ _ _, at_ | .aborted _, at_ | .exited, at_ => isTrue (by simp only [FillsBuffer, at_])

instance (o : Observed) : (action : Action) → Decidable (FillsBuffer sockets o action)
  | .server (.count n) => FillsBuffer.decide sockets o n o.state.pc rfl
  | .server .done | .server (.error _) => isTrue trivial
  | .connect | .datagram _ | .data _ _ | .hangup _ | .report _ => isTrue trivial

/-- A datagram that is not empty and fits into `udpbuf` goes back to its sender as it came. -/
def Echoes (asked reply : Datagram) : Prop := asked.payload.length ≤ UDP_BUFFER_SIZE → reply = asked

inductive Observed.Move (o p : Observed) (fills : Prop) : Prop where
  | quiet (traffic : p.traffic = o.traffic) (past : p.past = o.past) (asked : p.asked = o.asked)
      (answers : p.answers = o.answers) (holds : fills)
  | accept (cfd : Fd) (absent : o.traffic cfd = none)
      (traffic : p.traffic = Function.update o.traffic cfd (some ⟨[], []⟩)) (past : p.past = o.past)
      (asked : p.asked = o.asked) (answers : p.answers = o.answers) (holds : fills)
  | echo (fd : Fd) (before : Traffic) (chunk : List Byte) (present : o.traffic fd = some before)
      (fits : chunk.length ≤ TCP_BUFFER_SIZE)
      (traffic : p.traffic = Function.update o.traffic fd (some ⟨before.received ++ chunk,
        before.sent ++ Buffer.overwrite chunk (zeros TCP_BUFFER_SIZE)⟩))
      (past : p.past = o.past) (asked : p.asked = o.asked) (answers : p.answers = o.answers)
      (same : fills ↔ chunk.length = TCP_BUFFER_SIZE)
  | close (fd : Fd) (before : Traffic) (present : o.traffic fd = some before)
      (traffic : p.traffic = Function.update o.traffic fd none) (past : p.past = o.past ++ [before])
      (asked : p.asked = o.asked) (answers : p.answers = o.answers) (holds : fills)
  | answer (d : Datagram) (traffic : p.traffic = o.traffic) (past : p.past = o.past)
      (asked : p.asked = o.asked ++ [d])
      (answers : p.answers = o.answers ++ [⟨d.sender,
        Buffer.overwrite (d.payload.take UDP_BUFFER_SIZE) (zeros UDP_BUFFER_SIZE)⟩])
      (same : fills ↔ UDP_BUFFER_SIZE ≤ d.payload.length)

@[simp] theorem length_zeros (n : Nat) : (zeros n).length = n := List.length_replicate

theorem length_overwrite_zeros {chunk : List Byte} {n : Nat} (fits : chunk.length ≤ n) :
    (Buffer.overwrite chunk (zeros n)).length = n := by
  simp only [Buffer.overwrite, List.length_append, List.length_drop, length_zeros]
  omega

/-- The whole buffer goes out, whatever part of it was filled. -/
theorem take_overwrite_zeros {chunk : List Byte} {n : Nat} (fits : chunk.length ≤ n) :
    (Buffer.overwrite chunk (zeros n)).take n = Buffer.overwrite chunk (zeros n) :=
  List.take_of_length_le (length_overwrite_zeros fits).le

variable {sockets}

theorem Observed.Move.unchanged {o : Observed} {t : State} {fills : Prop}
    (echoed : ∀ fd, (t.conns fd).map (·.echoed) = (o.state.conns fd).map (·.echoed))
    (sending : t.sending = o.state.sending) (answers : t.replies ++ t.replying = o.answers)
    (holds : fills) : Observed.Move o { o with state := t } fills := by
  refine .quiet ?_ rfl rfl answers holds
  funext fd
  have here := echoed fd
  simp only [Observed.traffic, sending]
  cases before : o.state.conns fd with
  | none =>
    rw [before, Option.map_none, Option.map_eq_none_iff] at here
    rw [here]
  | some c =>
    rw [before, Option.map_some, Option.map_eq_some_iff] at here
    rcases here with ⟨d, after, equal⟩
    rw [after, Option.map_some, Option.map_some, equal]

theorem traffic_update {o : Observed} {t : State} {received : Fd → List Byte} {past : List Traffic}
    {asked : List Datagram} (fd : Fd) (c : Option Conn)
    (conns : t.conns = Function.update o.state.conns fd c)
    (others : ∀ other, other ≠ fd → received other = o.received other ∧
      t.sending other = o.state.sending other) :
    Observed.traffic ⟨t, received, past, asked⟩ = Function.update o.traffic fd
      (c.map fun c => ⟨received fd, c.echoed ++ t.sending fd⟩) := by
  funext other
  by_cases same : other = fd
  · subst same
    simp [Observed.traffic, conns]
  · rcases others other same with ⟨received, sending⟩
    simp [Observed.traffic, conns, same, received, sending]

theorem sending_of_quiet {s : State} (quiet : s.pc.sendsTo = none) : s.sending = fun _ => [] := by
  funext fd
  simp [State.sending, quiet]

theorem replying_of_quiet {s : State} (quiet : s.pc.repliesTo = none) : s.replying = [] := by
  simp [State.replying, quiet]

theorem answers_of_quiet {o : Observed} (quiet : o.state.pc.repliesTo = none) :
    o.answers = o.state.replies := by
  rw [Observed.answers, replying_of_quiet quiet, List.append_nil]

theorem Observed.Move.between {o : Observed} {t : State} {fills : Prop}
    (echoed : ∀ fd, (t.conns fd).map (·.echoed) = (o.state.conns fd).map (·.echoed))
    (replies : t.replies = o.state.replies) (sends : o.state.pc.sendsTo = none)
    (answers : o.state.pc.repliesTo = none) (sendsNot : t.pc.sendsTo = none)
    (answersNot : t.pc.repliesTo = none) (holds : fills) :
    Observed.Move o { o with state := t } fills := by
  refine .unchanged echoed ?_ ?_ holds
  · rw [sending_of_quiet sends, sending_of_quiet sendsNot]
  · rw [answers_of_quiet answers, replying_of_quiet answersNot, replies, List.append_nil]

/-- A datagram is answered unless it is empty. -/
theorem observed_datagram {o : Observed} {e : Event} {events : List Event} {d : Datagram}
    {datagrams : List Datagram} {n : Nat} (at_ : o.state.pc = .dispatching (e :: events))
    (notListening : e.fd ≠ sockets.lfd) (arrived : o.state.datagrams = d :: datagrams)
    (length : n = min d.payload.length UDP_BUFFER_SIZE) :
    o.Move (o.observe sockets (.count n) { o.state with
        pc := if 0 < n then .replying d.sender events else .aborted events
        datagrams := datagrams
        udpbuf := Buffer.overwrite (d.payload.take n) (zeros UDP_BUFFER_SIZE) })
      (FillsBuffer sockets o (.server (.count n))) := by
  have sends : o.state.pc.sendsTo = none := by rw [at_]; rfl
  have replies : o.state.pc.repliesTo = none := by rw [at_]; rfl
  simp only [Observed.observe, at_, if_neg notListening, arrived]
  by_cases empty : d.payload = []
  · have none : n = 0 := by simp [length, empty]
    subst none
    simp only [List.take_succ_cons, List.take_zero, empty, List.filter_cons, List.filter_nil,
      ne_eq, not_true_eq_false, decide_false, Bool.false_eq_true, if_false, List.append_nil]
    exact .between (fun _ => rfl) rfl sends replies rfl rfl
      (by simp [FillsBuffer, at_, notListening, arrived, empty])
  · have some : 0 < n := by
      have : 0 < d.payload.length := List.length_pos_iff.mpr empty
      simp only [length, UDP_BUFFER_SIZE]
      omega
    refine .answer d ?_ rfl ?_ ?_ ?_
    · funext fd
      simp only [Observed.traffic, sending_of_quiet sends, if_pos some]
      rw [sending_of_quiet rfl]
    · simp [empty]
    · have whole : d.payload.take n = d.payload.take UDP_BUFFER_SIZE := by
        rw [length, List.take_eq_take_iff]
        omega
      rw [answers_of_quiet replies, whole]
      simp only [Observed.answers, State.replying, if_pos some, Pc.repliesTo]
      rw [take_overwrite_zeros (List.length_take_le _ _)]
      rfl
    · simp [FillsBuffer, at_, notListening, arrived, empty]

theorem observed_received {o : Observed} {fd : Fd} {events : List Event} {n : Nat} {c : Conn}
    (at_ : o.state.pc = .receiving fd events) (present : o.state.conns fd = some c) (some_bytes : 0 < n)
    (fits : n ≤ TCP_BUFFER_SIZE) (available : n ≤ c.data.length) :
    o.Move (o.observe sockets (.count n)
        { (o.state.goto (.sending fd events)).setConn fd (some { c with data := c.data.drop n }) with
          tcpbuf := Buffer.overwrite (c.data.take n) (zeros TCP_BUFFER_SIZE) })
      (FillsBuffer sockets o (.server (.count n))) := by
  have sending := sending_of_quiet (s := o.state) (by rw [at_]; rfl)
  have answers := answers_of_quiet (o := o) (by rw [at_]; rfl)
  have length : (c.data.take n).length = n := List.length_take_of_le available
  simp only [Observed.observe, at_, present, Option.elim_some]
  refine .echo fd ⟨o.received fd, c.echoed⟩ (c.data.take n) ?_ (by omega) ?_ rfl rfl ?_ ?_
  · simp [Observed.traffic, present, sending]
  · refine (traffic_update fd (some { c with data := c.data.drop n }) rfl ?_).trans ?_
    · intro other different
      rw [sending, Function.update_of_ne different]
      simp [State.sending, State.setConn, State.goto, Pc.sendsTo, different.symm]
    · simp only [State.sending, State.setConn, State.goto, Pc.sendsTo, Function.update_self, if_true]
      rw [take_overwrite_zeros (by omega)]
      rfl
  · rw [answers]
    exact List.append_nil _
  · simp only [FillsBuffer, at_, length]
    omega

theorem ServerMove.observed {o : Observed} {t : State} {outcome : Outcome}
    (complete : SendsComplete o (.server outcome)) (move : ServerMove sockets o.state outcome t) :
    o.Move (o.observe sockets outcome t) (FillsBuffer sockets o (.server outcome)) := by
  cases move with
  | stopped errno at_ | looped at_ | notAdded errno cfd events at_ | notAccepted errno e events at_ _
  | noDatagram errno e events at_ _ | again errno fd events at_ | failed errno fd events at_ =>
    simp only [Observed.observe, at_]
    exact .between (fun _ => rfl) rfl (by rw [at_]; rfl) (by rw [at_]; rfl) rfl rfl trivial
  | accepted e events cfd at_ listening absent notListening notUdp =>
    have sending := sending_of_quiet (s := o.state) (by rw [at_]; rfl)
    have answers := answers_of_quiet (o := o) (by rw [at_]; rfl)
    simp only [Observed.observe, at_, if_pos listening]
    refine .accept cfd (by rw [Observed.traffic, absent]; rfl) ?_ rfl rfl ?_ ?_
    · refine (traffic_update cfd (some ⟨false, [], false, []⟩) rfl ?_).trans ?_
      · intro other different
        rw [sending, sending_of_quiet rfl, Function.update_of_ne different]
        exact ⟨rfl, rfl⟩
      · rw [sending_of_quiet rfl, Function.update_self]
        rfl
    · rw [answers]
      exact List.append_nil _
    · simp [FillsBuffer, at_, listening]
  | datagram e events d datagrams n at_ notListening udp arrived length =>
    exact observed_datagram at_ notListening arrived length
  | passed e events at_ notListening notUdp =>
    simp only [Observed.observe, at_]
    refine .between (fun _ => rfl) rfl (by rw [at_]; rfl) (by rw [at_]; rfl) ?_ ?_ trivial
    · by_cases readable : e.epollin <;> simp [readable, State.goto, Pc.sendsTo]
    · by_cases readable : e.epollin <;> simp [readable, State.goto, Pc.repliesTo]
  | added cfd events c at_ present =>
    simp only [Observed.observe, at_]
    refine .between ?_ rfl (by rw [at_]; rfl) (by rw [at_]; rfl) rfl rfl trivial
    intro fd
    by_cases same : fd = cfd
    · subst same
      simp [State.setReady, State.setConn, present]
    · simp [State.setReady, State.setConn, State.goto, same]
  | replied sender events at_ =>
    simp only [Observed.observe, at_]
    refine .unchanged (fun _ => rfl) ?_ ?_ trivial
    · rw [sending_of_quiet rfl, sending_of_quiet (by rw [at_]; rfl)]
    · simp [Observed.answers, State.replying, State.goto, at_, Pc.repliesTo]
  | notReplied errno sender events at_ =>
    cases complete.2 (by rw [at_]; exact Option.some_ne_none sender)
  | received fd events n c at_ present some_bytes fits available =>
    exact observed_received at_ present some_bytes fits available
  | ended fd events c at_ present =>
    simp only [Observed.observe, at_, present, Option.elim_some]
    rw [List.take_zero, List.append_nil, Function.update_eq_self]
    exact .between (fun _ => rfl) rfl (by rw [at_]; rfl) (by rw [at_]; rfl) rfl rfl
      (by simp [FillsBuffer, at_])
  | sent fd events n c at_ present =>
    cases complete.1 (by rw [at_]; exact Option.some_ne_none fd)
    simp only [Observed.observe, at_]
    refine .quiet ?_ rfl rfl ?_ (by simp [FillsBuffer, at_])
    · refine (traffic_update fd (some { c with
        echoed := c.echoed ++ o.state.tcpbuf.take TCP_BUFFER_SIZE }) rfl ?_).trans ?_
      · intro other different
        rw [sending_of_quiet rfl]
        simp [State.sending, at_, Pc.sendsTo, different.symm]
      · rw [sending_of_quiet rfl]
        apply Function.update_eq_self_iff.mpr
        simp [Observed.traffic, present, State.sending, at_, Pc.sendsTo]
    · rw [answers_of_quiet rfl, answers_of_quiet (by rw [at_]; rfl)]
      rfl
  | notSent errno fd events at_ => cases complete.1 (by rw [at_]; exact Option.some_ne_none fd)
  | closed fd again events c at_ present =>
    have sending := sending_of_quiet (s := o.state) (by rw [at_]; rfl)
    have answers := answers_of_quiet (o := o) (by rw [at_]; rfl)
    simp only [Observed.observe, at_]
    refine .close fd ⟨o.received fd, c.echoed⟩ ?_ ?_ ?_ rfl ?_ trivial
    · simp [Observed.traffic, present, sending]
    · refine (traffic_update fd none rfl ?_).trans rfl
      intro other different
      rw [sending, sending_of_quiet]
      · exact ⟨rfl, rfl⟩
      · cases again <;> rfl
    · simp [present]
    · rw [answers, answers_of_quiet]
      · rfl
      · cases again <;> rfl
  | notClosed errno fd again events at_ =>
    simp only [Observed.observe, at_]
    refine .between (fun _ => rfl) rfl (by rw [at_]; rfl) (by rw [at_]; rfl) ?_ ?_ trivial
    · cases again <;> rfl
    · cases again <;> rfl

theorem arriveAt_moves {o : Observed} {t : State} {fd : Fd} {f : Conn → Conn} {fills : Prop}
    (same : ∀ c, (f c).echoed = c.echoed) (taken : arriveAt o.state fd f = some t) (holds : fills) :
    o.Move { o with state := t } fills := by
  rcases Option.map_eq_some_iff.mp taken with ⟨c, present, rfl⟩
  refine .unchanged ?_ rfl rfl holds
  intro other
  by_cases here : other = fd
  · subst here
    simp [State.setReady, State.setConn, present, same]
  · simp [State.setReady, State.setConn, here]

theorem observed_moves {o p : Observed} {action : Action} (complete : SendsComplete o action)
    (taken : o.step sockets action = some p) : o.Move p (FillsBuffer sockets o action) := by
  rcases Option.map_eq_some_iff.mp taken with ⟨t, stepped, rfl⟩
  cases action with
  | connect =>
    cases stepped
    exact .unchanged (fun _ => rfl) rfl rfl trivial
  | datagram d =>
    cases stepped
    exact .unchanged (fun _ => rfl) rfl rfl trivial
  | data fd bytes =>
    exact arriveAt_moves (f := fun c => { c with data := c.data ++ bytes }) (fun _ => rfl) stepped trivial
  | hangup fd => exact arriveAt_moves (f := fun c => { c with peerClosed := true }) (fun _ => rfl) stepped trivial
  | report batch =>
    simp only [step, reportStep] at stepped
    split at stepped
    · rename_i at_
      split at stepped
      · cases stepped
        exact .between (fun _ => rfl) rfl (by rw [at_]; rfl) (by rw [at_]; rfl) rfl rfl trivial
      · cases stepped
    · cases stepped
  | server outcome => exact (serverStep_moves stepped).observed complete

def Traffic.Faithful (traffic : Traffic) : Prop := traffic.sent = traffic.received

def Traffic.Padded (traffic : Traffic) : Prop := traffic.received.length ≤ traffic.sent.length

def AllFaithful (traffic : Fd → Option Traffic) : Prop :=
  ∀ fd, ∀ here ∈ traffic fd, here.Faithful

theorem allFaithful_update {traffic : Fd → Option Traffic} {fd : Fd} {now : Option Traffic} :
    AllFaithful (Function.update traffic fd now) ↔ (∀ here ∈ now, here.Faithful) ∧
      ∀ other, other ≠ fd → ∀ here ∈ traffic other, here.Faithful :=
  Function.forall_update_iff traffic fun _ now => ∀ here ∈ now, here.Faithful

theorem allFaithful_split (traffic : Fd → Option Traffic) (fd : Fd) :
    AllFaithful traffic ↔ (∀ here ∈ traffic fd, here.Faithful) ∧
      ∀ other, other ≠ fd → ∀ here ∈ traffic other, here.Faithful :=
  (and_forall_ne fd).symm

namespace Observed

def Padded (o : Observed) : Prop := ∀ fd, ∀ traffic ∈ o.traffic fd, traffic.Padded

structure Balanced (o : Observed) : Prop where
  connections : AllFaithful o.traffic
  past : ∀ traffic ∈ o.past, traffic.Faithful
  datagrams : List.Forall₂ Echoes o.asked o.answers

structure Faithful (o : Observed) : Prop where
  connections : ∀ fd, ∀ c ∈ o.state.conns fd, c.echoed = o.received fd
  past : ∀ traffic ∈ o.past, traffic.Faithful
  datagrams : List.Forall₂ Echoes o.asked o.state.replies

theorem balanced_iff {o : Observed} : o.Balanced ↔
    AllFaithful o.traffic ∧ (∀ traffic ∈ o.past, traffic.Faithful) ∧
      List.Forall₂ Echoes o.asked o.answers :=
  ⟨fun h => ⟨h.connections, h.past, h.datagrams⟩, fun ⟨connections, past, datagrams⟩ =>
    ⟨connections, past, datagrams⟩⟩

end Observed

theorem overwrite_zeros_eq {chunk : List Byte} {n : Nat} (fits : chunk.length ≤ n) :
    Buffer.overwrite chunk (zeros n) = chunk ↔ chunk.length = n := by
  constructor
  · intro same
    have length := length_overwrite_zeros fits
    rwa [same] at length
  · intro full
    rw [Buffer.overwrite, List.drop_of_length_le (by rw [length_zeros, full]), List.append_nil]

theorem Traffic.faithful_append {before : Traffic} {chunk : List Byte} {n : Nat}
    (padded : before.Padded) (fits : chunk.length ≤ n) :
    Traffic.Faithful ⟨before.received ++ chunk, before.sent ++ Buffer.overwrite chunk (zeros n)⟩ ↔
      before.Faithful ∧ chunk.length = n := by
  unfold Traffic.Faithful
  unfold Traffic.Padded at padded
  have length := length_overwrite_zeros fits
  constructor
  · intro same
    have total := congrArg List.length same
    simp only [List.length_append, length] at total
    rcases List.append_inj same (by omega) with ⟨first, second⟩
    exact ⟨first, (overwrite_zeros_eq fits).mp second⟩
  · rintro ⟨first, full⟩
    rw [first, (overwrite_zeros_eq fits).mpr full]

theorem echoes_overwrite (d : Datagram) :
    Echoes d ⟨d.sender, Buffer.overwrite (d.payload.take UDP_BUFFER_SIZE) (zeros UDP_BUFFER_SIZE)⟩ ↔
      UDP_BUFFER_SIZE ≤ d.payload.length := by
  unfold Echoes
  by_cases fits : d.payload.length ≤ UDP_BUFFER_SIZE
  · have same := overwrite_zeros_eq fits
    rw [List.take_of_length_le fits]
    constructor
    · intro echoed
      exact (same.mp (congrArg Datagram.payload (echoed fits))).ge
    · intro full _
      rw [same.mpr (by omega)]
  · exact iff_of_true (fun small => absurd small fits) (by omega)

theorem forall₂_concat {R : Datagram → Datagram → Prop} {l m : List Datagram} {a b : Datagram} :
    List.Forall₂ R (l ++ [a]) (m ++ [b]) ↔ List.Forall₂ R l m ∧ R a b := by
  rw [← List.forall₂_reverse_iff, List.reverse_concat, List.reverse_concat, List.forall₂_cons,
    List.forall₂_reverse_iff, and_comm]

theorem Observed.Move.padded {o p : Observed} {fills : Prop} (move : o.Move p fills)
    (padded : o.Padded) : p.Padded := by
  unfold Observed.Padded at *
  cases move with
  | quiet traffic past asked answers holds =>
    rw [traffic]
    exact padded
  | accept cfd absent traffic past asked answers holds =>
    rw [traffic]
    refine Parties.forall_update (P := fun _ (now : Option Traffic) => ∀ traffic ∈ now, traffic.Padded) padded ?_
    simp [Traffic.Padded]
  | echo fd before chunk present fits traffic past asked answers same =>
    rw [traffic]
    refine Parties.forall_update (P := fun _ (now : Option Traffic) => ∀ traffic ∈ now, traffic.Padded) padded ?_
    have held := padded fd before present
    have length := length_overwrite_zeros fits
    simp only [Option.mem_def, Option.some.injEq, forall_eq', Traffic.Padded, List.length_append,
      length] at held ⊢
    omega
  | close fd before present traffic past asked answers holds =>
    rw [traffic]
    refine Parties.forall_update (P := fun _ (now : Option Traffic) => ∀ traffic ∈ now, traffic.Padded) padded ?_
    simp [Traffic.Padded]
  | answer d traffic past asked answers same =>
    rw [traffic]
    exact padded

/-- Once a connection got more back than it sent, nothing makes up for it. -/
theorem Observed.Move.balanced {o p : Observed} {fills : Prop} (move : o.Move p fills)
    (padded : o.Padded) : p.Balanced ↔ o.Balanced ∧ fills := by
  rw [Observed.balanced_iff, Observed.balanced_iff]
  cases move with
  | quiet traffic past asked answers holds =>
    rw [traffic, past, asked, answers, and_iff_left holds]
  | accept cfd absent traffic past asked answers holds =>
    rw [traffic, past, asked, answers, and_iff_left holds, allFaithful_update,
      allFaithful_split o.traffic cfd, absent]
    simp [Traffic.Faithful]
  | echo fd before chunk present fits traffic past asked answers same =>
    rw [traffic, past, asked, answers, same, allFaithful_update, allFaithful_split o.traffic fd, present]
    simp only [Option.mem_def, Option.some.injEq, forall_eq']
    rw [Traffic.faithful_append (padded fd before present) fits]
    tauto
  | close fd before present traffic past asked answers holds =>
    rw [traffic, past, asked, answers, and_iff_left holds, allFaithful_update,
      allFaithful_split o.traffic fd, present]
    simp only [Option.mem_def, Option.some.injEq, forall_eq', List.forall_mem_append,
      List.forall_mem_singleton, reduceCtorEq, false_implies, implies_true]
    tauto
  | answer d traffic past asked answers same =>
    rw [traffic, past, asked, answers, same, forall₂_concat, echoes_overwrite, and_assoc, and_assoc]

theorem padded_start (connections : Nat) (datagrams : List Datagram) :
    (Observed.start sockets connections datagrams).Padded := by
  intro fd traffic present
  cases present

theorem balanced_start (connections : Nat) (datagrams : List Datagram) :
    (Observed.start sockets connections datagrams).Balanced := by
  refine ⟨?_, ?_, .nil⟩
  · intro fd traffic present
    cases present
  · intro traffic member
    cases member

theorem Observed.faithful_iff {o : Observed} (sends : o.state.pc.sendsTo = none)
    (answers : o.state.pc.repliesTo = none) : o.Faithful ↔ o.Balanced := by
  have connections : (∀ fd, ∀ c ∈ o.state.conns fd, c.echoed = o.received fd) ↔
      AllFaithful o.traffic := by
    simp [AllFaithful, Observed.traffic, sending_of_quiet sends, Traffic.Faithful]
  constructor
  · intro faithful
    refine ⟨connections.mp faithful.connections, faithful.past, ?_⟩
    rw [answers_of_quiet answers]
    exact faithful.datagrams
  · intro balanced
    refine ⟨connections.mpr balanced.connections, balanced.past, ?_⟩
    rw [← answers_of_quiet answers]
    exact balanced.datagrams

/-- With sends that complete, the server is an echo server exactly as long as every `recv` and every
    datagram fills its buffer. -/
theorem echo_faithful (sockets : Sockets) {connections : Nat} {datagrams : List Datagram}
    (actions : List Action) {o : Observed}
    (complete : Along (Observed.step sockets) SendsComplete actions
      (Observed.start sockets connections datagrams))
    (run : exec (Observed.step sockets) actions (Observed.start sockets connections datagrams) = some o)
    (sends : o.state.pc.sendsTo = none) (answers : o.state.pc.repliesTo = none) :
    o.Faithful ↔ Along (Observed.step sockets) (FillsBuffer sockets) actions
      (Observed.start sockets connections datagrams) := by
  have tracked := along_iff_of_along (P := Observed.Balanced)
    (fun _ _ _ padded complete taken => (observed_moves complete taken).padded padded)
    (fun _ _ _ padded complete taken => (observed_moves complete taken).balanced padded)
    (padded_start connections datagrams) complete run
  rw [Observed.faithful_iff sends answers, tracked]
  exact and_iff_right (balanced_start connections datagrams)

def fullBuffers : List Action :=
  [.connect, .report [⟨3, true⟩], .server (.count 5), .server .done, .server .done,
    .data 5 (List.replicate 512 7), .report [⟨5, true⟩], .server .done, .server (.count 512),
    .server (.count 512), .server (.error .EAGAIN), .server .done,
    .datagram ⟨80, List.replicate 1024 9⟩, .report [⟨4, true⟩], .server (.count 1024), .server .done]

theorem echo_faithful_fullBuffers :
    ∃ o, exec (Observed.step threeFour) fullBuffers (Observed.start threeFour 0 []) = some o ∧
      o.Faithful := by
  have ends : (exec (Observed.step threeFour) fullBuffers (Observed.start threeFour 0 [])).any
      (fun o => o.state.pc.sendsTo = none ∧ o.state.pc.repliesTo = none) = true := by decide +kernel
  rcases (Option.any_eq_true _ _).mp ends with ⟨o, run, settled⟩
  rw [decide_eq_true_eq] at settled
  have faithful := echo_faithful threeFour fullBuffers (by decide +kernel) run settled.1 settled.2
  exact ⟨o, run, faithful.mpr (by decide +kernel)⟩

def oneByte : List Action :=
  [.connect, .report [⟨3, true⟩], .server (.count 5), .server .done, .server .done, .data 5 [7],
    .report [⟨5, true⟩], .server .done, .server (.count 1), .server (.count 512)]

theorem oneByte_padded :
    ¬ ∀ o, Reaches (Observed.step threeFour) SendsComplete (Observed.start threeFour 0 []) o →
      o.state.pc.sendsTo = none → o.state.pc.repliesTo = none → o.Faithful := by
  intro always
  have ends : (exec (Observed.step threeFour) oneByte (Observed.start threeFour 0 [])).any
      (fun o => o.state.pc.sendsTo = none ∧ o.state.pc.repliesTo = none ∧
        (o.state.conns 5).any (fun c => c.echoed ≠ o.received 5)) = true := by decide +kernel
  rcases (Option.any_eq_true _ _).mp ends with ⟨o, run, settled⟩
  rw [decide_eq_true_eq] at settled
  rcases settled with ⟨sends, answers, padded⟩
  rcases (Option.any_eq_true _ _).mp padded with ⟨c, present, different⟩
  rw [decide_eq_true_eq] at different
  have faithful := always o ⟨oneByte, by decide +kernel, run⟩ sends answers
  exact different (faithful.connections 5 c present)

end SystemProgramming.EpollEcho
