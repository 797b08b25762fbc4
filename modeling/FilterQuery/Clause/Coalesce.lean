import FilterQuery.Clause.Basic

/-!
# Merging tag alternatives

Neighbouring alternatives that amount to tag matches on one field become one match with all their
tags. A union left with nothing but that match gives way to it.
-/

namespace FilterQuery.Clause

/-- The tag match that a clause amounts to, looking through groups and unions of one. -/
def asTag? : Clause → Option (Text × List Text)
  | tag field values => some (field, values)
  | group inner => asTag? inner
  | or [operand] => asTag? operand
  | _ => none

/-- One more alternative before others that are merged already: it joins the first of them if both
amount to tag matches on one field. -/
def prependMerged (clause : Clause) : List Clause → List Clause
  | [] => [clause]
  | next :: rest =>
    match clause.asTag?, next.asTag? with
    | some (field, values), some (field', values') =>
      if field = field' then tag field (values ++ values') :: rest else clause :: next :: rest
    | _, _ => clause :: next :: rest

/-- The alternatives with every run of tag matches on one field merged. -/
def mergeRuns (operands : List Clause) : List Clause := operands.foldr prependMerged []

/-- The union of merged alternatives, or the bare tag match if that is all there is. -/
def union : List Clause → Clause
  | [tag field values] => tag field values
  | operands => or operands

mutual

/-- Merges tag alternatives at every depth, inner unions first. -/
def coalesce : Clause → Clause
  | atom text => atom text
  | tag field values => tag field values
  | and left right => and (coalesce left) (coalesce right)
  | or operands => union (mergeRuns (coalesceAll operands))
  | group inner => group (coalesce inner)
  | not inner => not (coalesce inner)

def coalesceAll : List Clause → List Clause
  | [] => []
  | operand :: rest => coalesce operand :: coalesceAll rest

end

end FilterQuery.Clause
