import SystemProgramming.FileServer.Requests
import SystemProgramming.Library.CArray
import SystemProgramming.Library.Records

namespace SystemProgramming.FileServer

open Transition Records

def offsetofClientId : Nat := 8

def offsetofPathname : Nat := 12

def sizeofRequestMsg : Nat := 4112

abbrev RequestBytes := CArray sizeofRequestMsg

namespace RequestBytes

def mtype (req : RequestBytes) : BitVec 64 := word64.decode req.1
def clientId (req : RequestBytes) : BitVec 32 := word32.decode (req.1.drop offsetofClientId)

def pathname (req : RequestBytes) : List Byte := req.string offsetofPathname

def setMtype (req : RequestBytes) (mtype : BitVec 64) : RequestBytes :=
  req.write 0 (word64.encode mtype) (by rw [word64.length_encode]; decide)

def setClientId (req : RequestBytes) (clientId : BitVec 32) : RequestBytes :=
  req.write offsetofClientId (word32.encode clientId) (by rw [word32.length_encode]; decide)

/-- `strncpy(req.pathname, argv[1], sizeof(req.pathname) - 1); req.pathname[sizeof(req.pathname) - 1] = 0;` -/
def setPathname (req : RequestBytes) (argument : List Byte) : RequestBytes :=
  (req.strncpy offsetofPathname argument (PATH_MAX - 1) (by decide)).write (offsetofPathname + (PATH_MAX - 1)) [0]
    (by decide)

def request (req : RequestBytes) : RequestMsg := ⟨req.mtype.toInt, req.clientId.toNat, req.pathname⟩

end RequestBytes

structure RawMessage where
  mtype : BitVec 64
  mtext : List Byte

def sendBytes (req : RequestBytes) : RawMessage := ⟨req.mtype, (req.1.drop word64.width).take REQ_MSG_SIZE⟩

def receiveBytes (req : RequestBytes) (m : RawMessage) : RequestBytes :=
  if fits : m.mtext.length ≤ REQ_MSG_SIZE then
    (req.setMtype m.mtype).write word64.width m.mtext (by
      have room : word64.width + REQ_MSG_SIZE ≤ sizeofRequestMsg := by decide
      omega)
  else req

def help : List Byte := [45, 45, 104, 101, 108, 112]

inductive Start where
  | usage
  | tooLong
  | ready (req : RequestBytes)

def startClient (arguments : List CString) (req : RequestBytes) : Start :=
  match arguments with
  | [argument] =>
    if argument.1 = help then .usage
    else if argument.1.length > PATH_MAX - 1 then .tooLong
    else .ready (req.setPathname argument.1)
  | _ => .usage

/-- The service with the bytes of its requests: how each client has begun, the messages on the queue of
    the server, and `req` of its `main`. -/
structure Wire where
  state : State
  starts : Nat → Option Start
  messages : List RawMessage
  req : RequestBytes

inductive WireAction where
  | start (id : Nat) (req : RequestBytes)
  | service (action : Action)

namespace Wire

variable (files : List Byte → Option (List Byte)) (argv : Nat → CString) (qbytes : Nat)

def texts (id : Nat) : List Byte := (argv id).1

def serverBytes (w : Wire) (outcome : Outcome) : List RawMessage × RequestBytes :=
  match w.state.server, outcome, w.messages with
  | .receive, .done, m :: messages => (messages, receiveBytes w.req m)
  | _, _, messages => (messages, w.req)

def clientBytes (w : Wire) (id : Nat) (outcome : Outcome) (req : RequestBytes) : List RawMessage :=
  if (w.state.clients id).pc = .request ∧ outcome = .done then
    [sendBytes ((req.setMtype 1).setClientId (BitVec.ofNat 32 id))]
  else []

def step (w : Wire) : WireAction → Option Wire
  | .start id req =>
    if id < 2 ^ 31 ∧ (w.starts id).isNone then
      some { w with starts := Function.update w.starts id (some (startClient [argv id] req)) }
    else none
  | .service (.client id outcome) =>
    match w.starts id with
    | some (.ready req) =>
      (FileServer.step files (texts argv) qbytes w.state (.client id outcome)).map fun t =>
        { w with state := t, messages := w.messages ++ clientBytes w id outcome req }
    | _ => none
  | .service (.server outcome) =>
    (FileServer.step files (texts argv) qbytes w.state (.server outcome)).map fun t =>
      { w with state := t, messages := (serverBytes w outcome).1, req := (serverBytes w outcome).2 }
  | .service action =>
    (FileServer.step files (texts argv) qbytes w.state action).map fun t => { w with state := t }

def initial (req : RequestBytes) : Wire := ⟨FileServer.initial, fun _ => none, [], req⟩

end Wire

section Bytes

variable {argument : List Byte}

def pathnameBytes (argument : List Byte) : List Byte := CArray.padded argument (PATH_MAX - 1) ++ [0]

theorem length_pathnameBytes (argument : List Byte) : (pathnameBytes argument).length = PATH_MAX := by
  rw [pathnameBytes, List.length_append, CArray.length_padded]
  rfl

/-- A short argument is followed by at least one zero byte. -/
theorem pathnameBytes_eq (short : argument.length ≤ PATH_MAX - 1) :
    pathnameBytes argument = argument ++ 0 :: List.replicate (PATH_MAX - 1 - argument.length) 0 := by
  rw [pathnameBytes, CArray.padded, List.take_of_length_le short, List.append_assoc, ← List.replicate_succ',
    List.replicate_succ]

theorem drop_setPathname (req : RequestBytes) (argument : List Byte) :
    ∃ rest, (req.setPathname argument).1.drop offsetofPathname = pathnameBytes argument ++ rest := by
  have padded : (req.strncpy offsetofPathname argument (PATH_MAX - 1) (by decide)).1.drop offsetofPathname =
      CArray.padded argument (PATH_MAX - 1) ++
        req.1.drop (offsetofPathname + (CArray.padded argument (PATH_MAX - 1)).length) := CArray.drop_write _ _
  rw [RequestBytes.setPathname, CArray.drop_write_of_ge _ _ (Nat.le_add_right _ _), Nat.add_sub_cancel_left,
    padded, List.take_left' (CArray.length_padded _ _), ← List.append_assoc]
  exact ⟨_, rfl⟩

theorem mtype_write (req : RequestBytes) (mtype : BitVec 64) {offset : Nat} {chunk : List Byte}
    (fits : offset + chunk.length ≤ sizeofRequestMsg) (behind : word64.width ≤ offset) :
    RequestBytes.mtype ((req.setMtype mtype).write offset chunk fits) = mtype := by
  have whole := CArray.drop_write_of_ge (req.setMtype mtype) fits (Nat.zero_le offset)
  rw [List.drop_zero, List.drop_zero, Nat.sub_zero, RequestBytes.setMtype, CArray.write_zero, List.take_append,
    List.take_of_length_le (by rwa [word64.length_encode]), List.append_assoc] at whole
  rw [RequestBytes.mtype, RequestBytes.setMtype, whole, word64.decode_encode]

def rawRequest (id : Nat) (argument : List Byte) : RawMessage :=
  ⟨1, word32.encode (BitVec.ofNat 32 id) ++ pathnameBytes argument⟩

theorem length_rawRequest (id : Nat) (argument : List Byte) :
    (rawRequest id argument).mtext.length = REQ_MSG_SIZE := by
  rw [rawRequest, List.length_append, word32.length_encode, length_pathnameBytes]
  rfl

theorem sendBytes_request (req : RequestBytes) (argument : List Byte) (id : Nat) :
    sendBytes (((req.setPathname argument).setMtype 1).setClientId (BitVec.ofNat 32 id)) = rawRequest id argument := by
  obtain ⟨rest, path⟩ := drop_setPathname req argument
  have behind : ((req.setPathname argument).setMtype 1).1.drop offsetofPathname = pathnameBytes argument ++ rest := by
    rw [← path]
    exact CArray.drop_write_of_le _ _ (by rw [word64.length_encode]; decide)
  have text : (((req.setPathname argument).setMtype 1).setClientId (BitVec.ofNat 32 id)).1.drop word64.width =
      (rawRequest id argument).mtext ++ rest := by
    rw [rawRequest, List.append_assoc, ← behind]
    exact CArray.drop_write _ _
  rw [sendBytes, text, List.take_left' (length_rawRequest id argument)]
  congr 1
  exact mtype_write _ _ _ (Nat.le_refl _)

/-- The server reads the request that the client has sent, whatever its variable held before. -/
theorem receiveBytes_request (req : RequestBytes) {argument : List Byte} {id : Nat} (free : 0 ∉ argument)
    (short : argument.length ≤ PATH_MAX - 1) (int : id < 2 ^ 31) :
    (receiveBytes req (rawRequest id argument)).request = ⟨1, id, argument⟩ := by
  have fits := Nat.le_of_eq (length_rawRequest id argument)
  have whole : ∃ rest, (receiveBytes req (rawRequest id argument)).1.drop offsetofClientId =
      word32.encode (BitVec.ofNat 32 id) ++ (pathnameBytes argument ++ rest) := by
    rw [receiveBytes, dif_pos fits]
    exact ⟨_, (CArray.drop_write _ _).trans (List.append_assoc (word32.encode _) (pathnameBytes _) _)⟩
  obtain ⟨rest, text⟩ := whole
  have mtype : (receiveBytes req (rawRequest id argument)).mtype = 1 := by
    rw [receiveBytes, dif_pos fits]
    exact mtype_write _ _ _ (Nat.le_refl _)
  have clientId : (receiveBytes req (rawRequest id argument)).clientId = BitVec.ofNat 32 id := by
    rw [RequestBytes.clientId, text, word32.decode_encode]
  have pathname : (receiveBytes req (rawRequest id argument)).pathname = argument := by
    have path := congrArg (List.drop word32.width) text
    rw [List.drop_drop, List.drop_left' (word32.length_encode _), pathnameBytes_eq short, List.append_assoc,
      List.cons_append] at path
    have place : offsetofPathname = offsetofClientId + word32.width := rfl
    rw [RequestBytes.pathname, CArray.string, place, path, CMemory.text_append free]
  rw [RequestBytes.request, mtype, clientId, pathname, BitVec.toNat_ofNat, Nat.mod_eq_of_lt (by omega)]
  rfl

end Bytes

section Runs

variable {files : List Byte → Option (List Byte)} {argv : Nat → CString} {qbytes : Nat} {w v : Wire}

def Accepted (argv : Nat → CString) (id : Nat) : Prop := id < 2 ^ 31 ∧ (argv id).1.length ≤ PATH_MAX - 1

theorem startClient_ready {argument : CString} {req built : RequestBytes}
    (ready : startClient [argument] req = .ready built) :
    argument.1.length ≤ PATH_MAX - 1 ∧ built = req.setPathname argument.1 := by
  unfold startClient at ready
  dsimp only at ready
  split at ready
  · cases ready
  · split at ready
    · cases ready
    · rename_i short
      cases ready
      exact ⟨Nat.le_of_not_lt short, rfl⟩

theorem startClient_tooLong {argument : CString} (long : argument.1.length > PATH_MAX - 1) (req : RequestBytes) :
    startClient [argument] req = .tooLong := by
  have other : argument.1 ≠ help := by
    intro same
    rw [same] at long
    exact absurd long (by decide)
  unfold startClient
  dsimp only
  rw [if_neg other, if_pos long]

/-- The only call of a client that changes the queue of the server. -/
theorem clientStep_request {s t : State} {texts : Nat → List Byte} {id : Nat} {outcome : Outcome}
    (taken : clientStep texts qbytes s id outcome = some t) :
    t.server = s.server ∧
      if (s.clients id).pc = .request ∧ outcome = .done then
        ∃ queue, s.serverQueue = some queue ∧ t.serverQueue = some (queue ++ [request texts id])
      else t.serverQueue = s.serverQueue := by
  refine ⟨clientStep_server taken, ?_⟩
  by_cases at_ : (s.clients id).pc = .request
  · unfold clientStep at taken
    dsimp only at taken
    rw [at_] at taken ⊢
    cases outcome with
    | done =>
      obtain ⟨queue, present, sent⟩ := Option.bind_eq_some_iff.mp taken
      split at sent
      · cases sent
        rw [if_pos ⟨rfl, rfl⟩]
        exact ⟨queue, present, rfl⟩
      · cases sent
    | count n => cases taken
    | error errno =>
      cases taken
      rw [if_neg (by simp)]
      rfl
  · rw [if_neg (fun both => at_ both.1)]
    cases clientStep_moves taken with
    | requested queue here present => exact absurd here at_
    | _ => rfl

structure Carried (argv : Nat → CString) (w : Wire) : Prop where
  started : ∀ id start, w.starts id = some start → id < 2 ^ 31 ∧ ∃ req, start = startClient [argv id] req
  queued : ∃ ids : List Nat, w.messages = ids.map (fun id => rawRequest id (argv id).1) ∧
    (∀ id ∈ ids, Accepted argv id) ∧
    ∀ queue, w.state.serverQueue = some queue → queue = ids.map (request (Wire.texts argv))
  held : ∀ req, w.state.server = .fork req →
    ∃ id, Accepted argv id ∧ req = request (Wire.texts argv) id ∧ w.req.request = req

theorem Carried.ready (carried : Carried argv w) {id : Nat} {built : RequestBytes}
    (ready : w.starts id = some (.ready built)) :
    Accepted argv id ∧ ∃ req : RequestBytes, built = req.setPathname (argv id).1 := by
  obtain ⟨int, req, same⟩ := carried.started id _ ready
  obtain ⟨short, rfl⟩ := startClient_ready same.symm
  exact ⟨⟨int, short⟩, req, rfl⟩

theorem carried_initial (argv : Nat → CString) (req : RequestBytes) : Carried argv (Wire.initial req) where
  started := nofun
  queued := ⟨[], rfl, nofun, fun _ same => (Option.some.inj same).symm⟩
  held := nofun

theorem Carried.start (carried : Carried argv w) {id : Nat} (int : id < 2 ^ 31) (req : RequestBytes) :
    Carried argv { w with starts := Function.update w.starts id (some (startClient [argv id] req)) } where
  started := by
    intro other start begun
    by_cases here : other = id
    · subst here
      dsimp only at begun
      rw [Function.update_self] at begun
      exact ⟨int, req, (Option.some.inj begun).symm⟩
    · dsimp only at begun
      rw [Function.update_of_ne here] at begun
      exact carried.started other start begun
  queued := carried.queued
  held := carried.held

theorem Carried.client (carried : Carried argv w) {id : Nat} {outcome : Outcome} {built : RequestBytes} {t : State}
    (ready : w.starts id = some (.ready built))
    (taken : clientStep (Wire.texts argv) qbytes w.state id outcome = some t) :
    Carried argv { w with state := t, messages := w.messages ++ w.clientBytes id outcome built } := by
  obtain ⟨accepted, req, rfl⟩ := carried.ready ready
  obtain ⟨server, queue⟩ := clientStep_request taken
  obtain ⟨ids, messages, allAccepted, served⟩ := carried.queued
  refine ⟨carried.started, ?_, ?_⟩
  · unfold Wire.clientBytes
    split at queue
    · rename_i sends
      obtain ⟨old, before, after⟩ := queue
      refine ⟨ids ++ [id], ?_, ?_, ?_⟩
      · rw [if_pos sends, sendBytes_request, messages, List.map_append, List.map_singleton]
      · intro other member
        rcases List.mem_append.mp member with old | new
        · exact allAccepted other old
        · rw [List.mem_singleton.mp new]
          exact accepted
      · intro now same
        rw [after] at same
        rw [← Option.some.inj same, served old before, List.map_append, List.map_singleton]
    · rename_i other
      refine ⟨ids, ?_, allAccepted, ?_⟩
      · rw [if_neg other, List.append_nil]
        exact messages
      · intro now same
        exact served now (queue.symm.trans same)
  · intro req holds
    exact carried.held req (server.symm.trans holds)

theorem Carried.frame (carried : Carried argv w) (starts : v.starts = w.starts) (messages : v.messages = w.messages)
    (req : v.req = w.req)
    (queue : ∀ requests, v.state.serverQueue = some requests → w.state.serverQueue = some requests)
    (held : ∀ req, v.state.server = .fork req → w.state.server = .fork req) : Carried argv v where
  started := by
    rw [starts]
    exact carried.started
  queued := by
    obtain ⟨ids, carries, accepted, served⟩ := carried.queued
    exact ⟨ids, messages.trans carries, accepted, fun requests same => served requests (queue requests same)⟩
  held := by
    rw [req]
    exact fun req holds => carried.held req (held req holds)

theorem serverBytes_error (w : Wire) (errno : Errno) : w.serverBytes (.error errno) = (w.messages, w.req) := by
  unfold Wire.serverBytes
  split
  · rename_i failed taken
    cases failed
  · rfl

theorem Carried.server (carried : Carried argv w) {outcome : Outcome} {t : State}
    (taken : serverStep w.state outcome = some t) :
    Carried argv { w with
      state := t, messages := (w.serverBytes outcome).1, req := (w.serverBytes outcome).2 } := by
  obtain ⟨ids, messages, allAccepted, served⟩ := carried.queued
  cases serverStep_moves taken with
  | took head queue at_ waiting =>
    cases ids with
    | nil => cases served _ waiting
    | cons id ids =>
      obtain ⟨rfl, rfl⟩ := List.cons.inj (served _ waiting)
      have accepted := allAccepted id List.mem_cons_self
      have moved : w.serverBytes .done = (ids.map (fun id => rawRequest id (argv id).1),
          receiveBytes w.req (rawRequest id (argv id).1)) := by
        unfold Wire.serverBytes
        rw [at_, messages]
        rfl
      rw [moved]
      refine ⟨carried.started, ⟨ids, rfl, ?_, ?_⟩, ?_⟩
      · exact fun other member => allAccepted other (List.mem_cons_of_mem _ member)
      · intro now same
        exact (Option.some.inj same).symm
      · rintro req ⟨⟩
        exact ⟨id, accepted, rfl, receiveBytes_request w.req (argv id).2 accepted.2 accepted.1⟩
  | interrupted errno at_ =>
    rw [serverBytes_error]
    refine carried.frame rfl rfl rfl (fun _ same => same) ?_
    intro req holds
    dsimp only at holds
    split at holds <;> cases holds
  | refused req errno at_ =>
    rw [serverBytes_error]
    exact carried.frame rfl rfl rfl (fun _ same => same) (fun _ holds => by cases holds)
  | removed at_ =>
    have same : w.serverBytes .done = (w.messages, w.req) := by
      unfold Wire.serverBytes
      rw [at_]
    rw [same]
    exact carried.frame rfl rfl rfl (fun _ gone => by cases gone) (fun _ holds => by cases holds)
  | left errno at_ =>
    rw [serverBytes_error]
    exact carried.frame rfl rfl rfl (fun _ same => same) (fun _ holds => by cases holds)

theorem Carried.step {action : WireAction} (carried : Carried argv w)
    (taken : w.step files argv qbytes action = some v) : Carried argv v := by
  cases action with
  | start id req =>
    unfold Wire.step at taken
    dsimp only at taken
    split at taken
    · rename_i may
      cases taken
      exact carried.start may.1 req
    · cases taken
  | service action =>
    cases action with
    | client id outcome =>
      unfold Wire.step at taken
      dsimp only at taken
      split at taken
      · rename_i built ready
        obtain ⟨t, moved, rfl⟩ := Option.map_eq_some_iff.mp taken
        exact carried.client ready moved
      · cases taken
    | server outcome =>
      obtain ⟨t, moved, rfl⟩ := Option.map_eq_some_iff.mp taken
      exact carried.server moved
    | fork pid data image =>
      obtain ⟨t, moved, rfl⟩ := Option.map_eq_some_iff.mp taken
      obtain ⟨req, at_, free, rfl⟩ := forkStep_some moved
      exact carried.frame rfl rfl rfl (fun _ same => same) (fun _ holds => by cases holds)
    | child pid outcome =>
      obtain ⟨t, moved, rfl⟩ := Option.map_eq_some_iff.mp taken
      obtain ⟨k, k', sent, present, move, children, effect⟩ := childStep_some moved
      rcases effect with ⟨-, rfl⟩ | ⟨msg, queue, -, -, -, rfl⟩
      · exact carried.frame rfl rfl rfl (fun _ same => same) (fun _ holds => holds)
      · exact carried.frame rfl rfl rfl (fun _ same => same) (fun _ holds => holds)

theorem carried_of_run {req : RequestBytes} {actions : List WireAction}
    (run : exec (Wire.step files argv qbytes) actions (.initial req) = some w) : Carried argv w := by
  apply exec_invariant (I := Carried argv) ?_ (carried_initial argv req) (along_true actions _) run
  intro w action v carried _ taken
  exact carried.step taken

/-- A client whose argument is too long makes no call at all. -/
theorem rejected_of_run {req : RequestBytes} {actions : List WireAction}
    (run : exec (Wire.step files argv qbytes) actions (.initial req) = some w) {id : Nat}
    (long : (argv id).1.length > PATH_MAX - 1) (outcome : Outcome) :
    .service (.client id outcome) ∉ actions := by
  have both : Carried argv w ∧ ∀ outcome, .service (.client id outcome) ∉ actions := by
    apply exec_history_always
      (I := fun before w => Carried argv w ∧ ∀ outcome, .service (.client id outcome) ∉ before)
      ?_ ⟨carried_initial argv req, fun _ => List.not_mem_nil⟩ run
    rintro before w action v - ⟨carried, none⟩ taken
    refine ⟨carried.step taken, ?_⟩
    intro outcome member
    rcases List.mem_append.mp member with old | new
    · exact none outcome old
    · cases List.mem_singleton.mp new
      unfold Wire.step at taken
      dsimp only at taken
      split at taken
      · rename_i built ready
        have short := (carried.ready ready).1.2
        omega
      · cases taken
  exact both.2 outcome

/-- What the server reads at `pathname` is the argument of the client that has sent the request, whole and
    with its zero byte; an argument that is too long is rejected before the first call. -/
theorem request_delivered {req : RequestBytes} {actions : List WireAction}
    (run : exec (Wire.step files argv qbytes) actions (.initial req) = some w) :
    (∀ id, (argv id).1.length > PATH_MAX - 1 →
      (w.starts id = none ∨ w.starts id = some .tooLong) ∧ ∀ outcome, .service (.client id outcome) ∉ actions) ∧
    (∀ m ∈ w.messages, m.mtext.length = REQ_MSG_SIZE ∧
      ∃ id rest, m.mtext = word32.encode (BitVec.ofNat 32 id) ++ ((argv id).1 ++ 0 :: rest)) ∧
    ∀ held, w.state.server = .fork held →
      w.req.clientId.toNat = held.clientId ∧ w.req.pathname = (argv held.clientId).1 := by
  have carried := carried_of_run run
  refine ⟨?_, ?_, ?_⟩
  · intro id long
    refine ⟨?_, rejected_of_run run long⟩
    cases begun : w.starts id with
    | none => exact .inl rfl
    | some start =>
      obtain ⟨-, req, rfl⟩ := carried.started id start begun
      right
      rw [startClient_tooLong long]
  · obtain ⟨ids, messages, accepted, -⟩ := carried.queued
    intro m member
    rw [messages] at member
    obtain ⟨id, inside, rfl⟩ := List.mem_map.mp member
    refine ⟨length_rawRequest _ _, id, List.replicate (PATH_MAX - 1 - (argv id).1.length) 0, ?_⟩
    rw [rawRequest, pathnameBytes_eq (accepted id inside).2]
  · intro held holds
    obtain ⟨id, -, rfl, same⟩ := carried.held held holds
    exact ⟨congrArg RequestMsg.clientId same, congrArg RequestMsg.pathname same⟩

def oneRequest : List WireAction :=
  [.start 5 CArray.zeros, .service (.client 5 .done), .service (.client 5 .done), .service (.client 5 .done),
    .service (.server .done)]

theorem request_delivered_oneRequest :
    ∃ w, exec (Wire.step (fun _ => none) (fun _ => ⟨[97], by decide⟩) 16384) oneRequest (.initial CArray.zeros) =
        some w ∧ w.req.pathname = [97] := by
  obtain ⟨w, run, holds⟩ :
      ∃ w, exec (Wire.step (fun _ => none) (fun _ => ⟨[97], by decide⟩) 16384) oneRequest (.initial CArray.zeros) =
        some w ∧ w.state.server = .fork ⟨1, 5, [97]⟩ := ⟨_, rfl, rfl⟩
  exact ⟨w, run, ((request_delivered run).2.2 _ holds).2⟩

end Runs

end SystemProgramming.FileServer
