import FilterQuery.Text.Basic

/-!
# Comparators

The six comparisons of a field with a value. Equality and difference have two spellings each.
-/

namespace FilterQuery

inductive Comparator
  | eq
  | ne
  | gt
  | ge
  | lt
  | le
deriving DecidableEq, Repr

namespace Comparator

def symbol : Comparator → Text
  | eq => "=".toList
  | ne => "!=".toList
  | gt => ">".toList
  | ge => ">=".toList
  | lt => "<".toList
  | le => "<=".toList

def ofSymbol? : Text → Option Comparator
  | ['='] | ['=', '='] => some eq
  | ['!', '='] | ['<', '>'] => some ne
  | ['>'] => some gt
  | ['>', '='] => some ge
  | ['<'] => some lt
  | ['<', '='] => some le
  | _ => none

/-- The comparisons that ask for an order. -/
def isRange : Comparator → Bool
  | gt | ge | lt | le => true
  | eq | ne => false

/-- What is said about a text that is no comparator. -/
def invalidSymbol (t : Text) : Text := "Invalid comparison operator: ".toList ++ t

theorem ofSymbol?_symbol (c : Comparator) : ofSymbol? c.symbol = some c := by
  cases c <;> rfl

end Comparator

end FilterQuery
