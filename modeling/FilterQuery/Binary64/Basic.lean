/-!
# Double precision numbers

A number in double precision is kept as its 64 bits: a sign, an exponent field of 11 bits and a
fraction of 52. A finite number is `± significand * 2 ^ scale / 2 ^ 1074`, so that `2 ^ 1074` times
its magnitude is always a natural number.
-/

namespace FilterQuery

structure Binary64 where
  bits : UInt64
deriving DecidableEq, Repr

namespace Binary64

/-- A power of two. -/
def twoPow (n : Nat) : Nat := Nat.pow 2 n

variable (x : Binary64)

def isNegative : Bool := twoPow 63 ≤ x.bits.toNat

def exponentField : Nat := x.bits.toNat / twoPow 52 % twoPow 11

def fraction : Nat := x.bits.toNat % twoPow 52

def isFinite : Bool := x.exponentField != 2047

/-- Neither finite nor infinite. -/
def isNaN : Bool := x.exponentField == 2047 && x.fraction != 0

/-- The fraction with its leading bit, which only the least exponent leaves out. -/
def significand : Nat :=
  if x.exponentField = 0 then x.fraction else twoPow 52 + x.fraction

def scale : Nat := x.exponentField - 1

/-- The magnitude of an infinite number. -/
def infinity : Nat := 2047 * twoPow 52

/-- The number with a given sign and the given bits below it. -/
def ofMagnitude (negative : Bool) (magnitude : Nat) : Binary64 :=
  ⟨.ofNat (magnitude + if negative then twoPow 63 else 0)⟩

end Binary64

end FilterQuery
