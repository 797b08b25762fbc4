import FilterQuery.Binary64.Nearest
import FilterQuery.Condition.Basic
import FilterQuery.ParseError

/-!
# Tokens

The words of a written condition. Numbers keep their spelling, because an integer that does not fit
is reported by it.
-/

namespace FilterQuery

inductive Keyword
  | and
  | or
  | not
  | between
  | inList
  | like
  | is
  | null
deriving DecidableEq, Repr

namespace Keyword

def spelling : Keyword → Text
  | and => "AND".toList
  | or => "OR".toList
  | not => "NOT".toList
  | between => "BETWEEN".toList
  | inList => "IN".toList
  | like => "LIKE".toList
  | is => "IS".toList
  | null => "NULL".toList

def all : List Keyword := [and, or, not, between, inList, like, is, null]

/-- Keywords are read in any case. -/
def ofWord? (word : Text) : Option Keyword :=
  all.find? fun keyword => keyword.spelling == Text.inCapitals word

end Keyword

inductive Token
  | field (name : Text)
  | string (content : Text)
  | number (numeral : Text)
  | comparator (op : Comparator)
  | opening
  | closing
  | comma
  | keyword (word : Keyword)
deriving DecidableEq, Repr

/-- A token with the position of its first character. -/
structure Placed where
  token : Token
  position : Nat
deriving DecidableEq, Repr

namespace Token

/-- An integer of 64 bits with its sign. -/
def isInt64 (n : Int) : Bool := -9223372036854775808 ≤ n && n ≤ 9223372036854775807

/-- The number that a numeral spells: an integer of 64 bits without a point, the nearest double
with one. -/
def readNumber (numeral : Text) : Except ParseFault Literal :=
  if numeral.contains '.' then
    if Numeral.isNumber numeral then
      let (negative, digits) := Numeral.splitSign numeral
      let (num, places) := Numeral.readUnsigned digits
      .ok (.decimal (.nearest negative num (Numeral.tenPow places)))
    else .error (.invalidNumber numeral)
  else
    match Numeral.readInt? numeral with
    | some n => if isInt64 n then .ok (.integer n) else .error (.integerOutOfRange numeral)
    | none => .error (.integerOutOfRange numeral)

/-- The literal that a token stands for. -/
def readLiteral : Token → Except ParseFault Literal
  | string content => .ok (.string content)
  | number numeral => readNumber numeral
  | keyword .null => .ok .null
  | _ => .error (.expected .value)

end Token

end FilterQuery
