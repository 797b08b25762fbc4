import FilterQuery.Text.Basic

/-!
# Field types

How a field is indexed decides which conditions apply to it and how its values are written.
-/

namespace FilterQuery

inductive FieldType
  | text
  | tag
  | numeric
deriving DecidableEq, Repr

namespace FieldType

def name : FieldType → Text
  | text => "TEXT".toList
  | tag => "TAG".toList
  | numeric => "NUMERIC".toList

/-- Names are read in any case and with white space around them. -/
def ofName? (t : Text) : Option FieldType :=
  [text, tag, numeric].find? fun type => type.name == Text.inCapitals (Text.trim t)

/-- What is said about a text that names no type. -/
def invalidName (t : Text) : Text :=
  "Invalid field type: ".toList ++ t ++ " (expected TEXT, TAG or NUMERIC)".toList

end FieldType

end FilterQuery
