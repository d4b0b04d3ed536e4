import SystemProgramming.Inotify.Model

namespace SystemProgramming.Inotify

open Records

@[ext] structure Event where
  wd : BitVec 32
  mask : BitVec 32
  cookie : BitVec 32
  name : List Byte
  small : name.length < 4294967296

def Event.encode (e : Event) : List Byte :=
  word32.encode e.wd ++ (word32.encode e.mask ++ (word32.encode e.cookie ++
    (word32.encode (BitVec.ofNat 32 e.name.length) ++ e.name)))

def eventAt (event : List Byte) : Event where
  wd := wd event
  mask := mask event
  cookie := cookie event
  name := (name event).take (len event).toNat
  small := by
    have bound := (len event).isLt
    rw [List.length_take]
    omega

section Fields

variable (e : Event) (rest : List Byte)

theorem word_encode (x : BitVec 32) : word 0 (word32.encode x ++ rest) = x := word32.decode_encode x rest

theorem wd_encode : wd (e.encode ++ rest) = e.wd := word_encode _ _

theorem mask_encode : mask (e.encode ++ rest) = e.mask := word_encode _ _

theorem cookie_encode : cookie (e.encode ++ rest) = e.cookie := word_encode _ _

theorem len_encode : (len (e.encode ++ rest)).toNat = e.name.length := by
  have field : len (e.encode ++ rest) = BitVec.ofNat 32 e.name.length := word_encode _ _
  rw [field, BitVec.toNat_ofNat]
  exact Nat.mod_eq_of_lt e.small

theorem name_encode : name (e.encode ++ rest) = e.name ++ rest := rfl

theorem length_encode : e.encode.length = sizeofEvent + e.name.length := by
  simp only [Event.encode, List.length_append, word32.length_encode]
  show 4 + (4 + (4 + (4 + e.name.length))) = 16 + e.name.length
  omega

theorem eventAt_encode : eventAt (e.encode ++ rest) = e := by
  ext1
  · exact wd_encode e rest
  · exact mask_encode e rest
  · exact cookie_encode e rest
  · show (name (e.encode ++ rest)).take (len (e.encode ++ rest)).toNat = e.name
    rw [len_encode, name_encode, List.take_left]

end Fields

def frames (events : List Event) : List Byte := (events.map Event.encode).flatten

def starts (offset : Nat) (events : List Event) : List Nat :=
  (Buffer.placed offset (events.map Event.encode)).map Prod.fst

/-- The loop from an event on that lies at `p`. -/
theorem handleEvents_frames {buf stale : List Byte} {events : List Event} {p numRead : Nat}
    (here : buf.drop p = frames events ++ stale) (size : numRead = p + (frames events).length) :
    handleEvents buf numRead p = (starts p events, numRead) := by
  induction events generalizing p with
  | nil =>
    rw [handleEvents, if_neg]
    · rw [size]
      rfl
    · rw [size]
      exact Nat.lt_irrefl p
  | cons e events ih =>
    have split : frames (e :: events) = e.encode ++ frames events := rfl
    rw [split, List.append_assoc] at here
    rw [split, List.length_append] at size
    have long := length_encode e
    have inside : p < numRead := by
      unfold sizeofEvent at long
      omega
    have advance : sizeofEvent + (len (buf.drop p)).toNat = e.encode.length := by
      rw [here, len_encode, long]
    have next : buf.drop (p + e.encode.length) = frames events ++ stale := by
      rw [← List.drop_drop, here, List.drop_left]
    rw [handleEvents, if_pos inside, advance, ih next (by omega)]
    rfl

theorem eventAt_starts {buf stale : List Byte} {events : List Event} {p : Nat}
    (here : buf.drop p = frames events ++ stale) :
    (starts p events).map (fun q => eventAt (buf.drop q)) = events := by
  induction events generalizing p with
  | nil => rfl
  | cons e events ih =>
    have split : frames (e :: events) = e.encode ++ frames events := rfl
    rw [split, List.append_assoc] at here
    have next : buf.drop (p + e.encode.length) = frames events ++ stale := by
      rw [← List.drop_drop, here, List.drop_left]
    have rest := ih next
    show eventAt (buf.drop p) :: (starts (p + e.encode.length) events).map _ = e :: events
    rw [rest, here, eventAt_encode]

theorem starts_lt {events : List Event} {p : Nat} :
    ∀ q ∈ starts p events, q < p + (frames events).length := by
  induction events generalizing p with
  | nil => exact nofun
  | cons e events ih =>
    intro q member
    have split : frames (e :: events) = e.encode ++ frames events := rfl
    rw [split, List.length_append, length_encode]
    rcases List.mem_cons.mp member with first | later
    · rw [first]
      unfold sizeofEvent
      show p < p + _
      omega
    · have bound := ih q later
      rw [length_encode] at bound
      omega

/-- The loop calls `displayInotifyEvent` once for each event of a batch, where the event begins, and
    ends with `p` at the end of the batch, whatever the buffer holds behind it. -/
theorem handleEvents_batch (events : List Event) (old : List Byte) :
    let buf := Buffer.overwrite (frames events) old
    let numRead := (frames events).length
    handleEvents buf numRead 0 = (starts 0 events, numRead) ∧
      (∀ q ∈ (handleEvents buf numRead 0).1, q < numRead) ∧
      (handleEvents buf numRead 0).1.map (fun q => eventAt (buf.drop q)) = events := by
  intro buf numRead
  have here : buf.drop 0 = frames events ++ old.drop (frames events).length := rfl
  have whole : handleEvents buf numRead 0 = (starts 0 events, numRead) :=
    handleEvents_frames here (Nat.zero_add _).symm
  refine ⟨whole, ?_, ?_⟩
  · rw [whole]
    intro q member
    have bound := starts_lt q member
    rwa [Nat.zero_add] at bound
  · rw [whole]
    exact eventAt_starts here

end SystemProgramming.Inotify
