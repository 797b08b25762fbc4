import FilterQuery.Binary64.Shortest
import FilterQuery.CompileError
import FilterQuery.Condition.Basic

/-!
# Literals as text

Strings are kept as they are, numbers are written without an exponent, and decimals always have a
point. Where a number is needed, a string that spells one will do.
-/

namespace FilterQuery.Literal

/-- The name of a double that has no decimal text. -/
def nonFiniteName (x : Binary64) : Text :=
  if x.isNaN then "NaN".toList
  else if x.isNegative then "-inf".toList
  else "inf".toList

def decimalText (x : Binary64) : Except CompileError Text :=
  if x.isFinite then .ok x.text else .error (.notNumber (nonFiniteName x))

/-- The text of a literal, not yet escaped. -/
def text : Literal → Except CompileError Text
  | string t => .ok t
  | integer n => .ok (Numeral.ofInt n)
  | decimal x => decimalText x
  | null => .error .nullValue

/-- A double without an exponent or a name, but for white space around it. -/
def isNumeric (t : Text) : Bool :=
  let t := Text.trim t
  t.all Numeral.isFigure && t.any Char.isDigit && Numeral.isFloat t

/-- The text of a literal that has to be a number. -/
def numericText : Literal → Except CompileError Text
  | string t => if isNumeric t then .ok (Text.trim t) else .error (.notNumber t)
  | integer n => .ok (Numeral.ofInt n)
  | decimal x => decimalText x
  | null => .error (.notNumber "NULL".toList)

end FilterQuery.Literal
