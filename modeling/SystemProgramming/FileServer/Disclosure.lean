import SystemProgramming.FileServer.Model
import SystemProgramming.Library.SelfComposition

namespace SystemProgramming.FileServer

open Transition

variable {files : List Byte → Option (List Byte)}

/-- What a child finds in `resp`, which nothing initialises, and at `&req`. -/
structure Memory where
  mtype : Int
  data : List Byte
  image : StackImage
  size : data.length = RESP_MSG_SIZE
  address : 0 < image.pointer

structure Service where
  child : Child
  sent : List ResponseMsg

def Service.start (req : RequestMsg) (m : Memory) : Service where
  child := ⟨.opening, req, ⟨m.mtype, m.data⟩, [], m.image, []⟩
  sent := []

def Service.step (files : List Byte → Option (List Byte)) (s : Service) (outcome : Outcome) :
    Option Service :=
  (s.child.step files outcome).map fun (k, msg) => ⟨k, s.sent ++ msg.toList⟩

def couldntOpen (pathname : List Byte) : List Byte :=
  text "file " ++ pathname ++ text " couldn't open\n"

/-- A message goes out with bytes that the program has not put there: the closing one always, and
    one about a failed `open` unless its text and the final 0 fill `REQ_MSG_SIZE` bytes. -/
def Child.Discloses (k : Child) (outcome : Outcome) : Prop :=
  outcome = .done ∧ (k.pc = .closing ∨
    (k.pc = .failing ∧ (couldntOpen k.req.pathname).length + 1 < REQ_MSG_SIZE))

instance (k : Child) (outcome : Outcome) : Decidable (k.Discloses outcome) :=
  inferInstanceAs (Decidable (_ ∧ _))

def Discreet (s : Service) (outcome : Outcome) : Prop := ¬ s.child.Discloses outcome

instance (s : Service) (outcome : Outcome) : Decidable (Discreet s outcome) :=
  inferInstanceAs (Decidable (¬ _))

def failureText (m : Memory) (req : RequestMsg) : List Byte :=
  snprintf m.data RESP_MSG_SIZE (couldntOpen req.pathname)

theorem failureText_filled (m m' : Memory) (req : RequestMsg)
    (filled : REQ_MSG_SIZE ≤ (couldntOpen req.pathname).length + 1) :
    (failureText m' req).take REQ_MSG_SIZE = (failureText m req).take REQ_MSG_SIZE := by
  have whole : REQ_MSG_SIZE ≤ ((couldntOpen req.pathname).take (RESP_MSG_SIZE - 1) ++ [0]).length := by
    simp only [List.length_append, List.length_take, List.length_singleton]
    unfold REQ_MSG_SIZE PATH_MAX RESP_MSG_SIZE at *
    omega
  unfold failureText snprintf
  rw [Buffer.take_overwrite_of_le _ _ whole, Buffer.take_overwrite_of_le _ _ whole]

theorem failureText_short (m : Memory) (req : RequestMsg)
    (short : (couldntOpen req.pathname).length + 1 < REQ_MSG_SIZE) :
    ((failureText m req).take REQ_MSG_SIZE)[(couldntOpen req.pathname).length + 1]? =
      m.data[(couldntOpen req.pathname).length + 1]? := by
  rw [List.getElem?_take_of_lt short]
  apply Buffer.getElem?_overwrite_of_ge
  simp only [List.length_append, List.length_take, List.length_singleton]
  omega

def Memory.other (m : Memory) : Memory where
  mtype := m.mtype
  data := m.data.map (· + 1)
  image := ⟨m.image.pointer + 1, m.image.above, m.image.size⟩
  size := by rw [List.length_map, m.size]
  address := Int.add_pos m.address Int.one_pos

theorem byte_succ_ne (b : Byte) : b + 1 ≠ b := by bv_omega

theorem failureText_other (m : Memory) (req : RequestMsg)
    (short : (couldntOpen req.pathname).length + 1 < REQ_MSG_SIZE) :
    (failureText m.other req).take REQ_MSG_SIZE ≠ (failureText m req).take REQ_MSG_SIZE := by
  intro same
  have byte := congrArg (·[(couldntOpen req.pathname).length + 1]?) same
  simp only [failureText_short _ req short, Memory.other, List.getElem?_map] at byte
  have inside : (couldntOpen req.pathname).length + 1 < m.data.length := by
    rw [m.size]
    unfold REQ_MSG_SIZE PATH_MAX at short
    unfold RESP_MSG_SIZE
    omega
  rw [List.getElem?_eq_getElem inside, Option.map_some, Option.some.injEq] at byte
  exact byte_succ_ne _ byte

structure Twins (m m' : Memory) (k k' : Child) : Prop where
  pc : k'.pc = k.pc
  req : k'.req = k.req
  rest : k'.rest = k.rest
  own : k.image = m.image ∧ k'.image = m'.image
  opening : k.pc = .opening → k.resp.data = m.data ∧ k'.resp.data = m'.data
  failing : k.pc = .failing →
    k.resp = ⟨RESP_MT_FAILURE, failureText m k.req⟩ ∧ k'.resp = ⟨RESP_MT_FAILURE, failureText m' k.req⟩
  mtype : (k.pc = .reading ∨ ∃ n, k.pc = .sending n) → k'.resp.mtype = k.resp.mtype
  chunk : ∀ n, k.pc = .sending n → k'.resp.data.take n = k.resp.data.take n

theorem twins_start (req : RequestMsg) (m m' : Memory) :
    Twins m m' (Service.start req m).child (Service.start req m').child := by
  constructor
  case own => exact ⟨rfl, rfl⟩
  case opening => exact fun _ => ⟨rfl, rfl⟩
  case mtype =>
    intro loop
    rcases loop with impossible | ⟨n, impossible⟩
    · cases impossible
    · cases impossible
  all_goals first | rfl | nofun

def Child.disclosed (k : Child) (m : Memory) : ResponseMsg :=
  if k.pc = .closing then m.image.message
  else ⟨RESP_MT_FAILURE, (failureText m k.req).take REQ_MSG_SIZE⟩

theorem Child.Discloses.disclosed_ne {k : Child} {outcome : Outcome} (discloses : k.Discloses outcome)
    (m : Memory) : k.disclosed m.other ≠ k.disclosed m := by
  unfold Child.disclosed
  rcases discloses.2 with at_ | ⟨at_, short⟩
  · rw [if_pos at_, if_pos at_]
    intro same
    have pointer : m.image.pointer + 1 = m.image.pointer := congrArg ResponseMsg.mtype same
    omega
  · have open_ : k.pc ≠ .closing := by simp [at_]
    rw [if_neg open_, if_neg open_]
    intro same
    exact failureText_other m k.req short (congrArg ResponseMsg.data same)

structure Sends (m m' : Memory) (k : Child) (outcome : Outcome) (msg msg' : Option ResponseMsg) : Prop where
  same : ¬ k.Discloses outcome → msg' = msg
  own : k.Discloses outcome → msg = some (k.disclosed m) ∧ msg' = some (k.disclosed m')

theorem Sends.silent {m m' : Memory} {k : Child} {outcome : Outcome} {msg : Option ResponseMsg}
    (discreet : ¬ k.Discloses outcome) : Sends m m' k outcome msg msg :=
  ⟨fun _ => rfl, fun discloses => absurd discloses discreet⟩

theorem not_discloses {k : Child} {outcome : Outcome} (closing : k.pc ≠ .closing)
    (failing : k.pc ≠ .failing) : ¬ k.Discloses outcome := by
  intro discloses
  rcases discloses.2 with here | ⟨here, -⟩
  · exact closing here
  · exact failing here

theorem Twins.past {m m' : Memory} {k k' : Child} (pc : k'.pc = k.pc) (req : k'.req = k.req)
    (rest : k'.rest = k.rest) (own : k.image = m.image ∧ k'.image = m'.image)
    (past : k.pc = .closing ∨ ∃ status, k.pc = .exited status) : Twins m m' k k' := by
  refine ⟨pc, req, rest, own, ?_, ?_, ?_, ?_⟩
  all_goals rcases past with past | ⟨status, past⟩
  all_goals simp [past]

def Follows (files : List Byte → Option (List Byte)) (m m' : Memory) (k k' : Child) (outcome : Outcome)
    (t : Child) (msg : Option ResponseMsg) : Prop :=
  ∃ t' msg', k'.step files outcome = some (t', msg') ∧ Twins m m' t t' ∧ Sends m m' k outcome msg msg'

section Statements

variable {m m' : Memory} {req : RequestMsg} {resp resp' : ResponseMsg} {rest lost lost' : List Byte}
  {image image' : StackImage} {outcome : Outcome} {t : Child} {msg : Option ResponseMsg}

theorem twins_opening (own : image = m.image ∧ image' = m'.image)
    (data : resp.data = m.data ∧ resp'.data = m'.data)
    (taken : Child.step files ⟨.opening, req, resp, rest, image, lost⟩ outcome = some (t, msg)) :
    Follows files m m' ⟨.opening, req, resp, rest, image, lost⟩
      ⟨.opening, req, resp', rest, image', lost'⟩ outcome t msg := by
  unfold Follows Child.step at *
  have discreet : ¬ Child.Discloses ⟨.opening, req, resp, rest, image, lost⟩ outcome :=
    not_discloses nofun nofun
  cases outcome with
  | done =>
    simp only [Option.map_eq_some_iff] at taken
    rcases taken with ⟨content, present, same⟩
    cases same
    refine ⟨_, _, by simp only [present]; rfl, ?_, .silent discreet⟩
    exact ⟨rfl, rfl, rfl, own, nofun, nofun, fun _ => rfl, nofun⟩
  | count n => cases taken
  | error errno =>
    cases taken
    refine ⟨_, _, rfl, ?_, .silent discreet⟩
    refine ⟨rfl, rfl, rfl, own, nofun, ?_, by simp, nofun⟩
    intro _
    simp only [data.1, data.2]
    exact ⟨rfl, rfl⟩

theorem twins_failing (own : image = m.image ∧ image' = m'.image)
    (taken : Child.step files ⟨.failing, req, ⟨RESP_MT_FAILURE, failureText m req⟩, rest, image, lost⟩
      outcome = some (t, msg)) :
    Follows files m m' ⟨.failing, req, ⟨RESP_MT_FAILURE, failureText m req⟩, rest, image, lost⟩
      ⟨.failing, req, ⟨RESP_MT_FAILURE, failureText m' req⟩, rest, image', lost'⟩ outcome t msg := by
  unfold Follows Child.step at *
  cases outcome with
  | done =>
    cases taken
    refine ⟨_, _, rfl, .past rfl rfl rfl own (.inr ⟨_, rfl⟩), ?_⟩
    constructor
    case own => exact fun _ => ⟨rfl, rfl⟩
    case same =>
      intro discreet
      have filled : REQ_MSG_SIZE ≤ (couldntOpen req.pathname).length + 1 := by
        by_contra short
        exact discreet ⟨rfl, .inr ⟨rfl, Nat.lt_of_not_le short⟩⟩
      rw [failureText_filled m m' req filled]
  | count n => cases taken
  | error errno =>
    cases taken
    refine ⟨_, _, rfl, .past rfl rfl rfl own (.inr ⟨_, rfl⟩), .silent ?_⟩
    intro discloses
    cases discloses.1

theorem twins_reading (own : image = m.image ∧ image' = m'.image) (type : resp'.mtype = resp.mtype)
    (taken : Child.step files ⟨.reading, req, resp, rest, image, lost⟩ outcome = some (t, msg)) :
    Follows files m m' ⟨.reading, req, resp, rest, image, lost⟩
      ⟨.reading, req, resp', rest, image', lost'⟩ outcome t msg := by
  unfold Follows Child.step at *
  have discreet : ¬ Child.Discloses ⟨.reading, req, resp, rest, image, lost⟩ outcome :=
    not_discloses nofun nofun
  cases outcome with
  | done => cases taken
  | count n =>
    dsimp only at taken ⊢
    split at taken
    · rename_i valid
      rw [if_pos valid]
      split at taken
      · rename_i positive
        cases taken
        rw [if_pos positive]
        refine ⟨_, _, rfl, ?_, .silent discreet⟩
        refine ⟨rfl, rfl, rfl, own, nofun, nofun, fun _ => type, ?_⟩
        intro count same
        cases same
        -- The bytes that were read now cover what the two buffers held.
        show (Buffer.overwrite _ _).take n = (Buffer.overwrite _ _).take n
        rw [Buffer.take_overwrite_take _ _ valid.2.1, Buffer.take_overwrite_take _ _ valid.2.1]
      · rename_i zero
        cases taken
        rw [if_neg zero]
        exact ⟨_, _, rfl, .past rfl rfl rfl own (.inl rfl), .silent discreet⟩
    · cases taken
  | error errno =>
    cases taken
    exact ⟨_, _, rfl, .past rfl rfl rfl own (.inl rfl), .silent discreet⟩

theorem twins_sending {n : Nat} (own : image = m.image ∧ image' = m'.image)
    (type : resp'.mtype = resp.mtype) (body : resp'.data.take n = resp.data.take n)
    (taken : Child.step files ⟨.sending n, req, resp, rest, image, lost⟩ outcome = some (t, msg)) :
    Follows files m m' ⟨.sending n, req, resp, rest, image, lost⟩
      ⟨.sending n, req, resp', rest, image', lost'⟩ outcome t msg := by
  unfold Follows Child.step at *
  have discreet : ¬ Child.Discloses ⟨.sending n, req, resp, rest, image, lost⟩ outcome :=
    not_discloses nofun nofun
  cases outcome with
  | done =>
    cases taken
    refine ⟨_, _, rfl, ⟨rfl, rfl, rfl, own, nofun, nofun, fun _ => type, nofun⟩, ?_⟩
    rw [type, body]
    exact .silent discreet
  | count n => cases taken
  | error errno =>
    cases taken
    exact ⟨_, _, rfl, .past rfl rfl rfl own (.inl rfl), .silent discreet⟩

theorem twins_closing (own : image = m.image ∧ image' = m'.image)
    (taken : Child.step files ⟨.closing, req, resp, rest, image, lost⟩ outcome = some (t, msg)) :
    Follows files m m' ⟨.closing, req, resp, rest, image, lost⟩
      ⟨.closing, req, resp', rest, image', lost'⟩ outcome t msg := by
  unfold Follows Child.step at *
  cases outcome with
  | done =>
    cases taken
    refine ⟨_, _, rfl, .past rfl rfl rfl own (.inr ⟨_, rfl⟩), ?_⟩
    rw [own.1, own.2]
    exact ⟨fun discreet => absurd ⟨rfl, .inl rfl⟩ discreet, fun _ => ⟨rfl, rfl⟩⟩
  | count n => cases taken
  | error errno =>
    cases taken
    refine ⟨_, _, rfl, .past rfl rfl rfl own (.inr ⟨_, rfl⟩), .silent ?_⟩
    intro discloses
    cases discloses.1

end Statements

theorem twins_step {m m' : Memory} {k k' t : Child} {outcome : Outcome} {msg : Option ResponseMsg}
    (twins : Twins m m' k k') (taken : k.step files outcome = some (t, msg)) :
    Follows files m m' k k' outcome t msg := by
  rcases k with ⟨pc, req, resp, rest, image, lost⟩
  rcases k' with ⟨pc', req', resp', rest', image', lost'⟩
  rcases twins with ⟨rfl, rfl, rfl, own, opening, failing, mtype, chunk⟩
  cases pc' with
  | opening => exact twins_opening own (opening rfl) taken
  | failing =>
    rcases failing rfl with ⟨first, second⟩
    dsimp only at first second
    subst first second
    exact twins_failing own taken
  | reading => exact twins_reading own (mtype (.inl rfl)) taken
  | sending n => exact twins_sending own (mtype (.inr ⟨n, rfl⟩)) (chunk n rfl) taken
  | closing => exact twins_closing own taken
  | exited status => cases taken

structure Related (m m' : Memory) (s s' : Service) : Prop where
  twins : Twins m m' s.child s'.child
  count : s'.sent.length = s.sent.length

theorem related_step {m m' : Memory} {s s' t : Service} {outcome : Outcome}
    (related : Related m m' s s') (taken : s.step files outcome = some t) :
    ∃ t' msg msg', s'.step files outcome = some t' ∧ Related m m' t t' ∧
      t.sent = s.sent ++ msg ∧ t'.sent = s'.sent ++ msg' ∧
      (¬ s.child.Discloses outcome → msg' = msg) ∧
      (s.child.Discloses outcome → msg = [s.child.disclosed m] ∧ msg' = [s.child.disclosed m']) := by
  simp only [Service.step, Option.map_eq_some_iff] at taken ⊢
  rcases taken with ⟨⟨k, msg⟩, moved, rfl⟩
  rcases twins_step related.twins moved with ⟨k', msg', moved', twins, sends⟩
  have same : ¬ s.child.Discloses outcome → msg'.toList = msg.toList := by
    intro discreet
    rw [sends.same discreet]
  have own : s.child.Discloses outcome →
      msg.toList = [s.child.disclosed m] ∧ msg'.toList = [s.child.disclosed m'] := by
    intro discloses
    rw [(sends.own discloses).1, (sends.own discloses).2]
    exact ⟨rfl, rfl⟩
  refine ⟨_, msg.toList, msg'.toList, ⟨(k', msg'), moved', rfl⟩, ⟨twins, ?_⟩, rfl, rfl, same, own⟩
  have added : msg'.toList.length = msg.toList.length := by
    by_cases discloses : s.child.Discloses outcome
    · rw [(own discloses).1, (own discloses).2]
      rfl
    · rw [same discloses]
  simp only [List.length_append, related.count, added]

theorem related_start (req : RequestMsg) (m m' : Memory) :
    Related m m' (Service.start req m) (Service.start req m') := ⟨twins_start req m m', rfl⟩

theorem related_lockstep {m m' : Memory} {p q : Service × Service} {outcome : Outcome}
    (related : Related m m' p.1 p.2) (taken : lockstep (Service.step files) p outcome = some q) :
    Related m m' q.1 q.2 := by
  rcases lockstep_eq_some.mp taken with ⟨first, second⟩
  rcases related_step related first with ⟨t, _, _, moved, next, -⟩
  cases second.symm.trans moved
  exact next

theorem discreet_lockstep {m m' : Memory} {p q : Service × Service} {outcome : Outcome}
    (related : Related m m' p.1 p.2) (discreet : Discreet p.1 outcome)
    (taken : lockstep (Service.step files) p outcome = some q) (same : p.2.sent = p.1.sent) :
    q.2.sent = q.1.sent := by
  rcases lockstep_eq_some.mp taken with ⟨first, second⟩
  rcases related_step related first with ⟨t, msg, msg', moved, -, sent, sent', equal, -⟩
  cases second.symm.trans moved
  rw [sent, sent', same, equal discreet]

/-- With memory that differs everywhere, a step that discloses makes a difference for good. -/
theorem other_lockstep {m : Memory} {p q : Service × Service} {outcome : Outcome}
    (related : Related m m.other p.1 p.2)
    (taken : lockstep (Service.step files) p outcome = some q) :
    q.2.sent = q.1.sent ↔ p.2.sent = p.1.sent ∧ Discreet p.1 outcome := by
  rcases lockstep_eq_some.mp taken with ⟨first, second⟩
  rcases related_step related first with ⟨t, msg, msg', moved, -, sent, sent', equal, own⟩
  cases second.symm.trans moved
  rw [sent, sent']
  by_cases discloses : p.1.child.Discloses outcome
  · refine iff_of_false ?_ (fun both => both.2 discloses)
    intro same
    have last : msg' = msg := (List.append_inj same related.count).2
    rw [(own discloses).1, (own discloses).2] at last
    exact discloses.disclosed_ne m (List.head_eq_of_cons_eq last)
  · rw [equal discloses, List.append_left_inj]
    exact (and_iff_left discloses).symm

/-- Two runs that agree on the request, the file and all outcomes put the same messages on the
    client's queue, whatever is in memory, if and only if no step of theirs discloses any. -/
theorem same_messages_iff (files : List Byte → Option (List Byte)) (req : RequestMsg) (m : Memory)
    {outcomes : List Outcome} {s : Service}
    (run : exec (Service.step files) outcomes (Service.start req m) = some s) :
    (∀ m' s', exec (Service.step files) outcomes (Service.start req m') = some s' →
      s'.sent = s.sent) ↔
    Along (Service.step files) Discreet outcomes (Service.start req m) := by
  constructor
  · intro always
    have steps : ∀ s outcome t u, Related m m.other s u → s.step files outcome = some t →
        ∃ v, u.step files outcome = some v ∧ Related m m.other t v := by
      intro s outcome t u related taken
      rcases related_step related taken with ⟨v, _, _, moved, next, -⟩
      exact ⟨v, moved, next⟩
    rcases exec_matched steps (related_start req m m.other) run with ⟨s', run', -⟩
    have both : exec (lockstep (Service.step files)) outcomes
        (Service.start req m, Service.start req m.other) = some (s, s') :=
      exec_lockstep.mpr ⟨run, run'⟩
    have tracked := along_iff (I := fun p => Related m m.other p.1 p.2) (P := fun p => p.2.sent = p.1.sent)
      (fun _ _ _ related taken => related_lockstep related taken)
      (fun _ _ _ related taken => other_lockstep related taken) (related_start req m m.other) both
    exact (along_lockstep run').mp (tracked.mp (always m.other s' run')).2
  · intro discreet m' s' run'
    have both : exec (lockstep (Service.step files)) outcomes
        (Service.start req m, Service.start req m') = some (s, s') :=
      exec_lockstep.mpr ⟨run, run'⟩
    have kept := exec_invariant (I := fun p => Related m m' p.1 p.2 ∧ p.2.sent = p.1.sent)
      (fun _ _ _ held meets taken => ⟨related_lockstep held.1 taken,
        discreet_lockstep held.1 meets taken held.2⟩)
      ⟨related_start req m m', rfl⟩ ((along_lockstep run').mpr discreet) both
    exact kept.2

def Memory.filled (b : Byte) : Memory where
  mtype := 0
  data := List.replicate RESP_MSG_SIZE b
  image := ⟨1, List.replicate REQ_MSG_SIZE b, List.length_replicate⟩
  size := List.length_replicate
  address := Int.one_pos

/-- The closing `msgsnd` fails, so that only the two bytes of the file are sent. -/
theorem same_messages_unclosed :
    ∃ s, exec (Service.step fun _ => some [1, 2]) [.done, .count 2, .done, .count 0, .error .EINTR]
        (Service.start ⟨1, 5, [97]⟩ (.filled 0)) = some s ∧ s.sent.length = 1 ∧
      ∀ m' s', exec (Service.step fun _ => some [1, 2])
        [.done, .count 2, .done, .count 0, .error .EINTR] (Service.start ⟨1, 5, [97]⟩ m') = some s' →
          s'.sent = s.sent := by
  have run : exec (Service.step fun _ => some [1, 2])
      [.done, .count 2, .done, .count 0, .error .EINTR] (Service.start ⟨1, 5, [97]⟩ (.filled 0)) =
        some _ := rfl
  exact ⟨_, run, rfl, (same_messages_iff _ _ (.filled 0) run).mpr (by decide)⟩

/-- The file cannot be opened, or it is transferred. -/
theorem memory_disclosed :
    (¬ ∀ m m' s s',
      exec (Service.step fun _ => none) [.error (.other 2), .done] (Service.start ⟨1, 5, [97]⟩ m) = some s →
      exec (Service.step fun _ => none) [.error (.other 2), .done] (Service.start ⟨1, 5, [97]⟩ m') = some s' →
        s'.sent = s.sent) ∧
    ¬ ∀ m m' s s',
      exec (Service.step fun _ => some [1]) [.done, .count 1, .done, .count 0, .done]
        (Service.start ⟨1, 5, [97]⟩ m) = some s →
      exec (Service.step fun _ => some [1]) [.done, .count 1, .done, .count 0, .done]
        (Service.start ⟨1, 5, [97]⟩ m') = some s' →
        s'.sent = s.sent := by
  constructor
  · intro always
    have same := always (.filled 0) (Memory.filled 0).other _ _ rfl rfl
    have body := congrArg ResponseMsg.data (List.head_eq_of_cons_eq same)
    exact failureText_other (.filled 0) ⟨1, 5, [97]⟩ (by decide) body
  · intro always
    have same := always (.filled 0) (Memory.filled 0).other _ _ rfl rfl
    have type := congrArg ResponseMsg.mtype (List.head_eq_of_cons_eq (List.tail_eq_of_cons_eq same))
    exact absurd type (by decide)

end SystemProgramming.FileServer
