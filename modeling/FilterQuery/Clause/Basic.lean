import FilterQuery.Text.Basic

/-!
# Clauses

A clause is a query before it is written out. Positive tag matches stay structured, so that
alternatives on one field can be merged; every other leaf is finished text.
-/

namespace FilterQuery

inductive Clause
  | atom (text : Text)
  /-- A match with any of the tags, which are escaped already. -/
  | tag (field : Text) (values : List Text)
  | and (left right : Clause)
  | or (operands : List Clause)
  | group (inner : Clause)
  | not (inner : Clause)
deriving Repr

namespace Clause

def isGroup : Clause → Bool
  | group _ => true
  | _ => false

def parenthesize (text : Text) : Text := '(' :: text ++ [')']

/-- A match of a field with a set of tags, written out. -/
def tagText (field : Text) (values : List Text) : Text :=
  '@' :: field ++ [':', '{'] ++ [','].intercalate values ++ ['}']

/-- An alternative gets parentheses, unless it is a group and brings its own. -/
def alternative (clause : Clause) (text : Text) : Text :=
  if clause.isGroup then text else parenthesize text

/-- What is negated gets parentheses if a space or a bar would let the negation end early; a group
brings its own. -/
def negation (clause : Clause) (text : Text) : Text :=
  if clause.isGroup then '-' :: text
  else if text.contains ' ' || text.contains '|' then '-' :: parenthesize text
  else '-' :: text

mutual

/-- The query text of a clause. -/
def render : Clause → Text
  | atom text => text
  | tag field values => tagText field values
  | and left right => render left ++ ' ' :: render right
  | or operands => " | ".toList.intercalate (renderAlternatives operands)
  | group inner => parenthesize (render inner)
  | not inner => negation inner (render inner)

def renderAlternatives : List Clause → List Text
  | [] => []
  | operand :: rest => alternative operand (render operand) :: renderAlternatives rest

end

end Clause

end FilterQuery
