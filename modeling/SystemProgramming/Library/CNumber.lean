import Mathlib.Data.Nat.Digits.Defs

namespace CNumber

def isSpace (b : BitVec 8) : Bool := b = 32 || (9 ≤ b && b ≤ 13)

def digit (b : BitVec 8) : Nat :=
  if 48 ≤ b ∧ b ≤ 57 then b.toNat - 48
  else if 97 ≤ b ∧ b ≤ 122 then b.toNat - 87
  else if 65 ≤ b ∧ b ≤ 90 then b.toNat - 55
  else 36

def digits (base : Nat) : List (BitVec 8) → List Nat
  | [] => []
  | b :: text => if digit b < base then digit b :: digits base text else []

def sign : List (BitVec 8) → Bool × List (BitVec 8)
  | 45 :: text => (true, text)
  | 43 :: text => (false, text)
  | text => (false, text)

/-- Base 0: hexadecimal behind `0x`, octal behind `0`, decimal otherwise. -/
def radix : List (BitVec 8) → Nat × List (BitVec 8)
  | 48 :: x :: d :: text =>
    if (x = 120 ∨ x = 88) ∧ digit d < 16 then (16, d :: text) else (8, 48 :: x :: d :: text)
  | 48 :: text => (8, 48 :: text)
  | text => (10, text)

def saturate (negative : Bool) (n : Nat) : Int :=
  if negative then max (-2 ^ 63) (-n) else min (2 ^ 63 - 1) n

def scan (base : Nat) (text : List (BitVec 8)) : Option Int :=
  let (negative, body) := sign (text.dropWhile isSpace)
  let (base, body) := if base = 0 then radix body else (base, body)
  match digits base body with
  | [] => none
  | ds => some (saturate negative (Nat.ofDigits base ds.reverse))

def behind (text : List (BitVec 8)) : List (BitVec 8) :=
  (sign (text.dropWhile isSpace)).2.dropWhile fun b => digit b < 10

def atol (text : List (BitVec 8)) : Int := (scan 10 text).getD 0

def atoi (text : List (BitVec 8)) : BitVec 32 := BitVec.ofInt 32 (atol text)

example : scan 0 [45, 48, 120, 49, 70] = some (-31) := by decide

end CNumber
