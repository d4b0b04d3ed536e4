import Mathlib.Data.List.TakeWhile
import Mathlib.Data.Nat.Notation

namespace SystemProgramming

abbrev Byte := BitVec 8

inductive Errno where
  | EINTR
  | EAGAIN
  | EEXIST
  | other (code : Nat)
  deriving DecidableEq, Repr

def EBADF : Errno := .other 9

inductive ExitStatus where
  | success
  | failure
  deriving DecidableEq, Repr

/-- How the statement a process is at completes: without a count, with the count that `read`
    or `write` returned, or with -1 and an errno. -/
inductive Outcome where
  | done
  | count (n : Nat)
  | error (errno : Errno)
  deriving DecidableEq, Repr

def Outcome.isError : Outcome → Bool
  | .error _ => true
  | _ => false

abbrev CString := { bytes : List Byte // 0 ∉ bytes }

/-- What `%.*s` prints; a negative precision counts as none. -/
def formatString (precision : Int) (buf : List Byte) : List Byte :=
  (if 0 ≤ precision then buf.take precision.toNat else buf).takeWhile (· ≠ 0)

theorem formatString_of_plain {precision : Nat} {buf : List Byte}
    (plain : 0 ∉ buf.take precision) : formatString precision buf = buf.take precision := by
  unfold formatString
  rw [if_pos (Int.natCast_nonneg precision), Int.toNat_natCast, List.takeWhile_eq_self_iff]
  intro byte member
  rw [decide_eq_true_eq]
  intro zero
  rw [zero] at member
  exact plain member

theorem formatString_terminated {text : List Byte} (plain : 0 ∉ text) (rest : List Byte) :
    formatString (-1) (text ++ 0 :: rest) = text := by
  have chars : ∀ byte ∈ text, decide (byte ≠ 0) = true := by
    intro byte member
    rw [decide_eq_true_eq]
    intro zero
    exact plain (zero ▸ member)
  unfold formatString
  rw [if_neg (by decide), List.takeWhile_append_of_pos chars, List.takeWhile_cons]
  simp

end SystemProgramming
