import FilterQuery.Binary64.Basic

/-!
# The nearest double

Every nonnegative fraction has a nearest number in double precision. The magnitudes of two
neighbours differ by one step of `2 ^ scale / 2 ^ 1074`, and both fields together count the steps
from zero, so rounding up past a power of two moves to the next exponent by itself.
-/

namespace FilterQuery.Binary64

/-- The quotient rounded to the nearest natural number; a half goes to the even neighbour. -/
def roundHalfEven (num den : Nat) : Nat :=
  let low := num / den
  let rest := 2 * (num % den)
  if rest < den || (rest == den && low % 2 == 0) then low else low + 1

/-- The number nearest to `num / den` with the given sign; too large a fraction is infinite. -/
def nearest (negative : Bool) (num den : Nat) : Binary64 :=
  let steps := num * twoPow 1074
  let scale := (steps / den).log2 - 52
  let magnitude := scale * twoPow 52 + roundHalfEven steps (den * twoPow scale)
  ofMagnitude negative (min magnitude infinity)

end FilterQuery.Binary64
