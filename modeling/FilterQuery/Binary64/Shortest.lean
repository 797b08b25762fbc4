import FilterQuery.Binary64.Basic
import FilterQuery.Numeral

/-!
# The shortest decimal of a double

The decimals that round to a given double form an interval around it, whose ends belong to it when
the significand is even. Among them the one with the fewest digits is written, of several the
nearest one, and of two equally near ones the larger.
-/

namespace FilterQuery.Binary64

/-- The interval of decimals that round to a positive double, as fractions over `2 ^ 1076`: the
double itself, the distances to both ends, and whether the ends belong to it. -/
structure Interval where
  center : Nat
  below : Nat
  above : Nat
  closed : Bool

def unit : Nat := twoPow 1076

/-- The interval ends halfway to the neighbours; below a power of two the neighbour is half a step
away. -/
def interval (x : Binary64) : Interval :=
  let half := 2 * twoPow x.scale
  { center := 4 * x.significand * twoPow x.scale
    below := if x.significand = twoPow 52 then twoPow x.scale else half
    above := half
    closed := x.significand % 2 == 0 }

/-- The exponent of the first decimal digit: `center / unit` is below `10 ^ e` and not below
`10 ^ (e - 1)`. No double is so small that shifting it by 330 places leaves no digit. -/
def Interval.magnitude (i : Interval) : Int :=
  ((Numeral.ofNat (i.center * Numeral.tenPow 330 / unit)).length : Int) - 330

/-- The decimal with `places` digits after the point, or none before the place `-places`, that lies
in the interval: of the two next to its center the nearer one. -/
def Interval.atPlaces? (i : Interval) (places : Int) : Option Nat :=
  let up := Numeral.tenPow places.toNat
  let den := unit * Numeral.tenPow (-places).toNat
  let low := i.center * up / den
  let rest := i.center * up % den
  let within (distance reach : Nat) := distance < reach || (i.closed && distance == reach)
  let lowFits := within rest (i.below * up)
  let highFits := within (den - rest) (i.above * up)
  if lowFits && (!highFits || 2 * rest < den) then some low
  else if highFits then some (low + 1)
  else none

/-- The shortest decimal of a positive finite double, as `digits * 10 ^ exponent`. Seventeen digits
are always enough. -/
def shortest (x : Binary64) : Nat × Int :=
  let i := x.interval
  let e := i.magnitude
  let found := (List.range' 1 17).findSome? fun (k : Nat) =>
    (i.atPlaces? (k - e)).map fun digits =>
      if digits = Numeral.tenPow k then (1, e) else (digits, e - k)
  found.getD (0, 0)

/-- A decimal written without an exponent, always with a point and a digit on both sides. -/
def positional (digits : Text) (exponent : Int) : Text :=
  if 0 ≤ exponent then digits ++ List.replicate exponent.toNat '0' ++ ['.', '0']
  else
    let places := (-exponent).toNat
    let padded := List.replicate (places + 1 - digits.length) '0' ++ digits
    let whole := padded.length - places
    padded.take whole ++ '.' :: padded.drop whole

/-- The text of a finite double: sign, digits, point, digits. -/
def text (x : Binary64) : Text :=
  let body :=
    if x.significand = 0 then positional ['0'] 0
    else
      let (digits, exponent) := x.shortest
      positional (Numeral.ofNat digits) exponent
  if x.isNegative then '-' :: body else body

end FilterQuery.Binary64
