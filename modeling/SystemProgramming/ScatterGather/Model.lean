import SystemProgramming.Kernel
import SystemProgramming.Library.CMemory

namespace SystemProgramming.ScatterGather

open CMemory

/-- `base` is what is at `iov_base`, up to the end of its mapping. -/
structure Iovec where
  base : List Byte
  len : Nat
  inside : len ≤ base.length

/-- The outcomes of the calls; `write` fails or takes all that it is given, up to a number of bytes. -/
structure Calls where
  getfl : Outcome
  write : Option Nat
  close : Outcome

structure Result where
  returned : Option Int
  written : List Byte

def sumLength (iov : List Iovec) : Int :=
  iov.foldl (fun length v => Int.bmod (length + v.len) 4294967296) 0

def gather (m : CMemory Byte) (v : Iovec) : CMemory Byte := strcat 0 (readString 0 m v.base) v.base

def gathering (iov : List Iovec) (stack : List Byte) : CMemory Byte :=
  iov.foldl gather ⟨stack, [], false⟩

end SystemProgramming.ScatterGather
