import SystemProgramming.EpollLtEt.Moves
import SystemProgramming.Library.Termination

namespace SystemProgramming.EpollLtEt

open Transition

def Line.text : Line → List Byte
  | .content _ text => text
  | .triggered | .allRead | .wrong => []

def State.content (s : State) : List Byte := s.stdout.flatMap Line.text

theorem content_concat (s : State) (line : Line) :
    { s with stdout := s.stdout ++ [line] }.content = s.content ++ line.text := by
  rw [State.content, List.flatMap_append, List.flatMap_singleton, State.content]

theorem content_printContent (s : State) (ret : Int) :
    (printContent s ret).content = s.content ++ formatString (-1) s.buf := content_concat s _

def arrivals (_ : State) (action : Action) : List Byte :=
  match action with
  | .data bytes => bytes
  | .hangup | .report _ | .handler _ => []

def Plain (_ : State) (action : Action) : Prop := ∀ bytes, action = .data bytes → 0 ∉ bytes

section Buf

theorem formatString_zeros : formatString (-1) zeros = [] := by decide

theorem formatString_chunk {chunk : List Byte} (plain : 0 ∉ chunk) (short : chunk.length < BUF_SIZE) :
    formatString (-1) (Buffer.overwrite chunk zeros) = chunk := by
  have behind : zeros.drop chunk.length = 0 :: List.replicate (BUF_SIZE - chunk.length - 1) 0 := by
    rw [zeros, List.drop_replicate, ← List.replicate_succ]
    congr 1
    omega
  rw [Buffer.overwrite, behind]
  exact formatString_terminated plain _

end Buf

structure Serving (arrived : List Byte) (s : State) : Prop where
  content : s.content ++ s.pending = arrived
  plain : 0 ∉ s.pending
  cleared : ∀ events, s.pc = .receiving events → s.buf = zeros
  closing : ∀ events, s.pc = .closing events → s.isOpen = true ∧ s.pending = [] ∧ s.peerClosed = true
  closes : s.closes = if s.isOpen then 0 else 1
  ended : s.isOpen = false → s.pending = [] ∧ s.peerClosed = true

theorem serving_initial (errno : Errno) : Serving [] (initial errno) where
  content := rfl
  plain := List.not_mem_nil
  cleared := nofun
  closing := nofun
  closes := rfl
  ended := nofun

theorem LtRead.serving {arrived : List Byte} {s t : State} {events : List Event} {outcome : Outcome}
    (serving : Serving arrived s) (at_ : s.pc = .receiving events) (chunk : LtRead s events outcome t) :
    Serving arrived t := by
  have cleared := serving.cleared events at_
  cases chunk with
  | failed errno =>
    refine ⟨?_, serving.plain, nofun, nofun, serving.closes, serving.ended⟩
    show (printContent s (-1)).content ++ s.pending = arrived
    rw [content_printContent, cleared, formatString_zeros, List.append_nil]
    exact serving.content
  | ended counted =>
    rcases counted with ⟨isOpen, -, -, atEnd⟩
    rcases atEnd rfl with ⟨nothing, hungUp⟩
    exact ⟨serving.content, serving.plain, nofun, fun _ _ => ⟨isOpen, nothing, hungUp⟩, serving.closes,
      fun _ => ⟨nothing, hungUp⟩⟩
  | content n counted some_bytes =>
    rcases counted with ⟨isOpen, bound, inside, -⟩
    have plain : 0 ∉ s.pending.take n := fun member => serving.plain (List.mem_of_mem_take member)
    have rest : 0 ∉ s.pending.drop n := fun member => serving.plain (List.mem_of_mem_drop member)
    have size : (s.pending.take n).length < BUF_SIZE := by
      rw [List.length_take_of_le inside]
      unfold BUF_SIZE at bound ⊢
      omega
    have text : formatString (-1) (received s n).buf = s.pending.take n := by
      show formatString (-1) (Buffer.overwrite (s.pending.take n) s.buf) = s.pending.take n
      rw [cleared, formatString_chunk plain size]
    refine ⟨?_, rest, nofun, nofun, serving.closes, ?_⟩
    · show (printContent (received s n) n).content ++ s.pending.drop n = arrived
      rw [content_printContent, text, List.append_assoc]
      show s.content ++ (s.pending.take n ++ s.pending.drop n) = arrived
      rw [List.take_append_drop]
      exact serving.content
    · intro closed
      rw [show (printContent (received s n) n).isOpen = s.isOpen from rfl, isOpen] at closed
      cases closed

theorem Move.serving {arrived : List Byte} {s t : State} {outcome : Outcome}
    (serving : Serving arrived s) (move : Move .lt s outcome t) : Serving arrived t := by
  cases move with
  | returned at_ | accepted n epollin events at_ | notAccepted errno epollin events at_
  | notClosed errno events at_ =>
    exact ⟨serving.content, serving.plain, nofun, nofun, serving.closes, serving.ended⟩
  | triggered events at_ =>
    refine ⟨?_, serving.plain, fun _ _ => rfl, nofun, serving.closes, serving.ended⟩
    show { s with stdout := s.stdout ++ [Line.triggered] }.content ++ s.pending = arrived
    rw [content_concat, Line.text, List.append_nil]
    exact serving.content
  | wrong events at_ =>
    refine ⟨?_, serving.plain, nofun, nofun, serving.closes, serving.ended⟩
    show { s with stdout := s.stdout ++ [Line.wrong] }.content ++ s.pending = arrived
    rw [content_concat, Line.text, List.append_nil]
    exact serving.content
  | receive outcome events t at_ chunk => exact LtRead.serving serving at_ chunk
  | closed events at_ =>
    rcases serving.closing events at_ with ⟨isOpen, nothing, hungUp⟩
    have before := serving.closes
    rw [isOpen] at before
    refine ⟨serving.content, serving.plain, nofun, nofun, ?_, fun _ => ⟨nothing, hungUp⟩⟩
    show s.closes + 1 = 1
    rw [before]
    rfl

theorem step_serving {arrived : List Byte} {s t : State} {action : Action} (serving : Serving arrived s)
    (plain : Plain s action) (taken : step .lt s action = some t) :
    Serving (arrived ++ arrivals s action) t := by
  cases action with
  | data bytes =>
    rcases step_data taken with ⟨isOpen, running, rfl⟩
    refine ⟨?_, ?_, serving.cleared, ?_, serving.closes, ?_⟩
    · show s.content ++ (s.pending ++ bytes) = arrived ++ bytes
      rw [← List.append_assoc, serving.content]
    · intro member
      rcases List.mem_append.mp member with old | new
      · exact serving.plain old
      · exact plain bytes rfl new
    · intro events at_
      have hungUp := (serving.closing events at_).2.2
      rw [running] at hungUp
      cases hungUp
    · intro closed
      rw [show _ = s.isOpen from rfl, isOpen] at closed
      cases closed
  | hangup =>
    have next := step_hangup taken
    subst next
    rw [arrivals, List.append_nil]
    refine ⟨serving.content, serving.plain, serving.cleared, ?_, serving.closes, ?_⟩
    · intro events at_
      rcases serving.closing events at_ with ⟨isOpen, nothing, -⟩
      exact ⟨isOpen, nothing, rfl⟩
    · intro closed
      exact ⟨(serving.ended closed).1, rfl⟩
  | report batch =>
    rcases reportStep_some taken with ⟨edge, at_, rfl⟩
    rw [arrivals, List.append_nil]
    exact ⟨serving.content, serving.plain, nofun, nofun, serving.closes, serving.ended⟩
  | handler outcome =>
    rw [arrivals, List.append_nil]
    exact (step_handler taken).serving serving

/-- Level-triggered, a stream without zeros is printed as it arrives, and a connection is closed once it
    has been read to its end, and once only. -/
theorem lt_serves {errno : Errno} {actions : List Action} {l : State}
    (plain : Along (step .lt) Plain actions (initial errno))
    (run : exec (step .lt) actions (initial errno) = some l) :
    Serving (trace (step .lt) arrivals actions (initial errno)) l := by
  apply exec_trace (I := Serving) ?_ (serving_initial errno) plain run
  intro seen s action t serving ok taken
  exact step_serving serving ok taken

def Pc.remaining : Pc → Nat
  | .waiting => 0
  | .handling events => 3 * events.length + 1
  | .closing events => 3 * events.length + 2
  | .receiving events => 3 * events.length + 3

theorem LtRead.remaining {s t : State} {events : List Event} {outcome : Outcome}
    (chunk : LtRead s events outcome t) : t.pc.remaining < 3 * events.length + 3 := by
  cases chunk with
  | content n counted some_bytes =>
    show 3 * events.length + 1 < _
    omega
  | ended counted => exact Nat.lt_succ_self _
  | failed errno =>
    show 3 * events.length + 1 < _
    omega

theorem Move.remaining {s t : State} {outcome : Outcome} (move : Move .lt s outcome t) :
    t.pc.remaining < s.pc.remaining := by
  cases move with
  | returned at_ =>
    rw [at_]
    exact Nat.zero_lt_succ _
  | accepted n epollin events at_ | notAccepted errno epollin events at_ | wrong events at_ =>
    rw [at_]
    show 3 * events.length + 1 < 3 * (events.length + 1) + 1
    omega
  | triggered events at_ =>
    rw [at_]
    show 3 * events.length + 3 < 3 * (events.length + 1) + 1
    omega
  | receive outcome events t at_ chunk =>
    rw [at_]
    exact LtRead.remaining chunk
  | closed events at_ | notClosed errno events at_ =>
    rw [at_]
    exact Nat.lt_succ_self _

theorem lt_returns (s : State) : Ends (handlerStep .lt) s :=
  ends_of_measure (fun s => s.pc.remaining) (fun _ _ _ taken => (handlerStep_moves taken).remaining) s

end SystemProgramming.EpollLtEt
