import SystemProgramming.FifoSeqnum.Moves
import SystemProgramming.Library.Channel

namespace SystemProgramming.FifoSeqnum

open Records Transition

variable {argv : Pid → BitVec 32} {capacity : Nat}

structure Framed (capacity : Nat) (s : State) (ch : Channel Request) : Prop where
  bounded : Channel.Reachable (capacity / sizeofRequest) ch
  sent : ch.sent = s.requested
  received : ch.received = s.taken
  bytes : s.pipe = requestCodec.frames ch.inFlight

theorem framed_initial (serverFifo : Bool) (left : Pid → Bool) (req : List Byte) (rsp : BitVec 32) :
    Framed capacity (initial serverFifo left req rsp) Channel.empty :=
  ⟨.refl _, rfl, rfl, rfl⟩

theorem Framed.readRequest {s : State} {ch : Channel Request} {n : Nat} (framed : Framed capacity s ch)
    (available : n = min sizeofRequest s.pipe.length) (positive : 0 < n) :
    ∃ r rest req, ch.inFlight = r :: rest ∧ requestCodec.decode req = r ∧
      readRequest s n = { s with
        server := { s.server with pc := .openClient, req }
        pipe := requestCodec.frames rest
        taken := s.taken ++ [r] } := by
  rw [framed.bytes] at available
  rcases requestCodec.read_whole available positive with ⟨whole, r, rest, waiting⟩
  change n = sizeofRequest at whole
  have bytes := framed.bytes
  rw [waiting] at bytes
  have chunk : s.pipe.take n = requestCodec.encode r := by
    rw [bytes, whole]
    exact requestCodec.take_frames r rest
  have behind : s.pipe.drop n = requestCodec.frames rest := by
    rw [bytes, whole]
    exact requestCodec.drop_frames r rest
  have memory : requestCodec.decode (Buffer.overwrite (s.pipe.take n) s.server.req) = r := by
    rw [Buffer.overwrite, chunk, requestCodec.decode_encode]
  refine ⟨r, rest, _, waiting, memory, ?_⟩
  rw [FifoSeqnum.readRequest, if_pos whole, behind, memory]

theorem Framed.frame {s t : State} {ch : Channel Request} (framed : Framed capacity s ch)
    (requested : t.requested = s.requested) (taken : t.taken = s.taken) (pipe : t.pipe = s.pipe) :
    Framed capacity t ch := by
  rcases framed with ⟨bounded, sent, received, bytes⟩
  exact ⟨bounded, sent.trans requested.symm, received.trans taken.symm, pipe.trans bytes⟩

theorem ServerMove.framed {s t : State} {ch : Channel Request} (framed : Framed capacity s ch)
    (move : ServerMove s t) : ∃ ch', Framed capacity t ch' := by
  cases move with
  | taken n at_ available positive =>
    rcases framed.readRequest available positive with ⟨r, rest, req, waiting, -, whole⟩
    rw [whole]
    refine ⟨ch.take 1, framed.bounded.tail trivial (Channel.take_step (by simp [waiting])),
      framed.sent, ?_, ?_⟩
    · simp [framed.received, waiting]
    · simp [waiting]
  | _ => exact ⟨ch, framed.frame rfl rfl rfl⟩

theorem ClientMove.framed {s t : State} {ch : Channel Request} {pid : Pid} {outcome : Outcome}
    (framed : Framed capacity s ch) (move : ClientMove argv capacity s pid outcome t) :
    ∃ ch', Framed capacity t ch' := by
  cases move with
  | requested at_ room =>
    have size : s.pipe.length = ch.inFlight.length * sizeofRequest := by
      rw [framed.bytes, requestCodec.length_frames]
      rfl
    have fits : ch.inFlight.length + 1 ≤ capacity / sizeofRequest := by
      have positive : 0 < sizeofRequest := requestCodec.width_pos
      rw [Nat.le_div_iff_mul_le positive, Nat.succ_mul, ← size]
      exact room
    refine ⟨ch.put [request argv pid], framed.bounded.tail trivial (Channel.put_step fits), ?_,
      framed.received, ?_⟩
    · simp [framed.sent]
    · simp [framed.bytes, requestCodec.frames_concat]
  | _ => exact ⟨ch, framed.frame rfl rfl rfl⟩

theorem step_framed {s t : State} {ch : Channel Request} {action : Action}
    (framed : Framed capacity s ch) (stepped : step argv capacity s action = some t) :
    ∃ ch', Framed capacity t ch' := by
  cases action with
  | server outcome => exact (serverStep_moves stepped).framed framed
  | client pid outcome => exact (clientStep_moves stepped).framed framed

/-- In every run, whatever fails, the server FIFO refines a bounded channel of requests. -/
theorem pipe_refines_channel {cond : State → Action → Prop} {serverFifo : Bool} {left : Pid → Bool}
    {req : List Byte} {rsp : BitVec 32} {s : State}
    (run : Reaches (step argv capacity) cond (initial serverFifo left req rsp) s) :
    ∃ ch, Framed capacity s ch :=
  run.invariant (I := fun s => ∃ ch, Framed capacity s ch) ⟨_, framed_initial serverFifo left req rsp⟩
    (fun _ _ _ ⟨_, framed⟩ _ stepped => step_framed framed stepped)

end SystemProgramming.FifoSeqnum
