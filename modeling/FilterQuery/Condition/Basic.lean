import FilterQuery.Binary64.Basic
import FilterQuery.Comparator

/-!
# Conditions

A condition is a Boolean combination of predicates on single fields. Parentheses of the written
condition are kept as groups, because the compiled query keeps them.
-/

namespace FilterQuery

inductive Literal
  | string (text : Text)
  | integer (value : Int)
  | decimal (value : Binary64)
  | null
deriving DecidableEq, Repr

/-- Null by keyword, or a string that spells it. -/
def Literal.isNull : Literal → Bool
  | string t => Text.equalIgnoringCase t "null".toList
  | null => true
  | _ => false

inductive Condition
  | and (left right : Condition)
  | or (left right : Condition)
  | not (inner : Condition)
  | group (inner : Condition)
  | compare (field : Text) (op : Comparator) (value : Literal)
  | between (field : Text) (low high : Literal)
  | isIn (field : Text) (values : List Literal) (negated : Bool)
  | like (field : Text) (pattern : Literal)
  | isNull (field : Text) (negated : Bool)
deriving DecidableEq, Repr

end FilterQuery
