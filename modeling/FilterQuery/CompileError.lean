import FilterQuery.Comparator
import FilterQuery.FieldType
import FilterQuery.Numeral

/-!
# Compile errors

Why a condition has no query.
-/

namespace FilterQuery

inductive CompileError
  /-- The schema does not know the field. -/
  | unknownField (field : Text)
  /-- An order is asked of a field that is not numeric. -/
  | rangeUnsupported (op : Comparator) (type : FieldType) (field : Text)
  /-- A pattern is asked of a numeric field. -/
  | patternUnsupported (field : Text)
  /-- The null keyword stands where a value is needed. -/
  | nullValue
  /-- The text stands where a finite number is needed. -/
  | notNumber (text : Text)
  | emptyList (field : Text)
  /-- The condition is nested deeper than the limit. -/
  | tooDeep (limit : Nat)
deriving DecidableEq, Repr

namespace CompileError

def message : CompileError → Text
  | unknownField field =>
    "Unknown field: ".toList ++ field ++ " is not in the field type registry".toList
  | rangeUnsupported op type field =>
    "Unsupported construct: ".toList ++ op.symbol ++ " on ".toList ++ type.name ++
      " field ".toList ++ field
  | patternUnsupported field =>
    "Unsupported construct: LIKE on NUMERIC field ".toList ++ field
  | nullValue => "Unsupported construct: NULL literal outside an IN list".toList
  | notNumber text => "Range argument must be a number, yet it is: ".toList ++ text
  | emptyList field =>
    "Empty value list: IN () on field ".toList ++ field ++ " has no values".toList
  | tooDeep limit =>
    "Expression too deep: nesting exceeds ".toList ++ Numeral.ofNat limit ++ " levels".toList

end CompileError

end FilterQuery
