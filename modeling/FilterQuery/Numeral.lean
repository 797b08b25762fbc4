import FilterQuery.Text.Basic

/-!
# Decimal numerals

Writing natural numbers and integers in decimal, reading digit runs back, and the shape of plain
decimal numbers: an optional sign, then digits with at most one point among them. A double may also
be given with an exponent, or by name.
-/

namespace FilterQuery.Numeral

/-- A power of ten. -/
def tenPow (n : Nat) : Nat := Nat.pow 10 n

def digit (d : Nat) : Char := Char.ofNat (48 + d)

/-- The decimal digits of a number, without leading zeros. -/
def ofNat (n : Nat) : Text :=
  if n < 10 then [digit n] else ofNat (n / 10) ++ [digit (n % 10)]

def ofInt : Int → Text
  | .ofNat n => ofNat n
  | .negSucc n => '-' :: ofNat (n + 1)

/-- The value of a run of digits. -/
def value (digits : Text) : Nat :=
  digits.foldl (fun v c => 10 * v + (c.toNat - 48)) 0

/-- A nonempty run of digits. -/
def isDigits (t : Text) : Bool := !t.isEmpty && t.all Char.isDigit

/-- Digits, signs and the decimal point. -/
def isFigure (c : Char) : Bool := c.isDigit || c == '-' || c == '+' || c == '.'

/-- Digits with at most one point among them, and at least one digit. -/
def isUnsigned (t : Text) : Bool :=
  t.all (fun c => c.isDigit || c == '.') && t.any Char.isDigit && t.count '.' ≤ 1

/-- The sign of a numeral, negative or not, and what follows it. -/
def splitSign : Text → Bool × Text
  | '-' :: rest => (true, rest)
  | '+' :: rest => (false, rest)
  | t => (false, t)

/-- An optional sign, then digits with at most one point among them and at least one digit. -/
def isNumber (t : Text) : Bool := isUnsigned (splitSign t).2

/-- Nothing, or the letter that marks an exponent and then digits with an optional sign. -/
def isExponent : Text → Bool
  | [] => true
  | _ :: t => isDigits (splitSign t).2

/-- The texts that a double can be read from. -/
def isFloat (t : Text) : Bool :=
  let body := (splitSign t).2
  let isMantissa := fun c : Char => c != 'e' && c != 'E'
  isUnsigned (body.takeWhile isMantissa) && isExponent (body.dropWhile isMantissa) ||
    ["inf", "infinity", "nan"].any fun name => Text.equalIgnoringCase body name.toList

/-- An optional sign and a nonempty run of digits. -/
def readInt? (t : Text) : Option Int :=
  match splitSign t with
  | (negative, digits) =>
    if isDigits digits then some (if negative then -(value digits : Int) else value digits)
    else none

/-- The digits of an unsigned number read as one integer, and how many of them follow the point. -/
def readUnsigned (t : Text) : Nat × Nat :=
  (value (t.filter Char.isDigit), (t.dropWhile (· != '.')).length - 1)

theorem value_append_digit (digits : Text) (c : Char) :
    value (digits ++ [c]) = 10 * value digits + (c.toNat - 48) := by
  simp [value, List.foldl_append]

theorem toNat_digit {d : Nat} (h : d < 10) : (digit d).toNat = 48 + d := by
  have : d = 0 ∨ d = 1 ∨ d = 2 ∨ d = 3 ∨ d = 4 ∨ d = 5 ∨ d = 6 ∨ d = 7 ∨ d = 8 ∨ d = 9 := by omega
  rcases this with rfl | rfl | rfl | rfl | rfl | rfl | rfl | rfl | rfl | rfl <;> rfl

theorem value_ofNat (n : Nat) : value (ofNat n) = n := by
  induction n using Nat.strongRecOn with
  | _ n ih =>
    rw [ofNat]
    split
    · rename_i h
      simp [value, toNat_digit h]
    · rename_i h
      rw [value_append_digit, ih _ (by omega), toNat_digit (by omega)]
      omega

end FilterQuery.Numeral
