import SystemProgramming.Kernel
import SystemProgramming.Library.Buffer
import SystemProgramming.Library.Records
import SystemProgramming.Library.Transition

namespace SystemProgramming.Inotify

def sizeofEvent : Nat := 16

def NAME_MAX : Nat := 255

def BUF_LEN : Nat := 10 * (sizeofEvent + NAME_MAX + 1)

section InotifyEvent

def word (i : Nat) (event : List Byte) : BitVec 32 := Records.word32.decode (event.drop (4 * i))

def wd (event : List Byte) : BitVec 32 := word 0 event
def mask (event : List Byte) : BitVec 32 := word 1 event
def cookie (event : List Byte) : BitVec 32 := word 2 event
def len (event : List Byte) : BitVec 32 := word 3 event
def name (event : List Byte) : List Byte := event.drop sizeofEvent

end InotifyEvent

def ascii (text : String) : List Byte := text.toList.map fun c => BitVec.ofNat 8 c.toNat

def formatInt (width : Nat) (n : Int) : List Byte :=
  let digits := ascii (toString n)
  List.replicate (width - digits.length) 32 ++ digits

def maskNames : List (BitVec 32 × String) :=
  [(0x1, "IN_ACCESS "),
    (0x4, "IN_ATTRIB "),
    (0x10, "IN_CLOSE_NOWRITE "),
    (0x8, "IN_CLOSE_WRITE "),
    (0x100, "IN_CREATE "),
    (0x200, "IN_DELETE "),
    (0x400, "IN_DELETE_SELF "),
    (0x8000, "IN_IGNORED "),
    (0x40000000, "IN_ISDIR "),
    (0x2, "IN_MODIFY "),
    (0x800, "IN_MOVE_SELF "),
    (0x40, "IN_MOVED_FROM "),
    (0x80, "IN_MOVED_TO "),
    (0x20, "IN_OPEN "),
    (0x4000, "IN_Q_OVERFLOW "),
    (0x2000, "IN_UNMOUNT ")]

def displayInotifyEvent (i : List Byte) : List Byte :=
  ascii " wd =" ++ formatInt 2 (wd i).toInt ++ ascii "; " ++
    (if 0 < (cookie i).toNat then ascii "cookie =" ++ formatInt 4 (cookie i).toInt ++ ascii "; " else []) ++
    ascii "mask = " ++
    maskNames.flatMap (fun flag => if mask i &&& flag.1 ≠ 0 then ascii flag.2 else []) ++
    ascii "\n" ++
    if 0 < (len i).toNat then ascii " name = " ++ formatString (-1) (name i) ++ ascii "\n" else []

/-- The offsets in `buf` at which `displayInotifyEvent` is called, and where `p` is in the end. -/
def handleEvents (buf : List Byte) (numRead p : Nat) : List Nat × Nat :=
  if p < numRead then
    let rest := handleEvents buf numRead (p + (sizeofEvent + (len (buf.drop p)).toNat))
    (p :: rest.1, rest.2)
  else ([], p)
termination_by numRead - p
decreasing_by
  unfold sizeofEvent
  omega

inductive Read where
  | bytes (chunk : List Byte)
  | failed

structure State where
  exited : Option ExitStatus
  buf : List Byte
  stdout : List Byte

/-- Once around the outer loop, whose body ends with an `exit`. -/
def step (s : State) (result : Read) : Option State :=
  match s.exited with
  | some _ => none
  | none =>
    match result with
    | .failed => some { s with exited := some .failure, stdout := s.stdout ++ ascii "read\n" }
    | .bytes chunk =>
      if BUF_LEN < chunk.length then none
      else if chunk.isEmpty then
        some { s with
          exited := some .failure
          stdout := s.stdout ++ ascii "read() from inotify fd returned 0!\n" }
      else
        let buf := Buffer.overwrite chunk s.buf
        let calls := (handleEvents buf chunk.length 0).1
        some {
          exited := some .success
          buf
          stdout := s.stdout ++ ascii "Read " ++ formatInt 0 chunk.length ++
            ascii " bytes from inotify fd\n" ++ calls.flatMap fun p => displayInotifyEvent (buf.drop p) }

def initial (buf stdout : List Byte) : State := ⟨none, buf, stdout⟩

end SystemProgramming.Inotify
