import FilterQuery.Text.Basic

/-!
# Parentheses of a query

Grouping parentheses are counted over the whole query text, those inside values included. Only the
body of a range, from `:[` to `]`, is skipped, because an open bound is written with a parenthesis
of its own.
-/

namespace FilterQuery.Parentheses

/-- Balance of the rest of a query, given how many parentheses are open, whether a range is open,
and whether the last character was a colon. -/
def balancedFrom (depth : Nat) (inRange afterColon : Bool) : Text → Bool
  | [] => depth == 0
  | c :: rest =>
    let next := c == ':'
    if inRange then balancedFrom depth (c != ']') next rest
    else if c == '[' && afterColon then balancedFrom depth true next rest
    else if c == '(' then balancedFrom (depth + 1) false next rest
    else if c == ')' then
      match depth with
      | 0 => false
      | depth + 1 => balancedFrom depth false next rest
    else balancedFrom depth false next rest

/-- Every grouping parenthesis has its partner. -/
def isBalanced (query : Text) : Bool := balancedFrom 0 false false query

/-- The inside of a query that begins and ends with a parenthesis. -/
def inside? : Text → Option Text
  | '(' :: rest => if rest.getLast? = some ')' then some rest.dropLast else none
  | _ => none

theorem length_inside? {query inner : Text} (h : inside? query = some inner) :
    inner.length + 2 = query.length := by
  unfold inside? at h
  split at h
  · rename_i rest
    split at h
    · rename_i hlast
      cases h
      cases rest with
      | nil => simp at hlast
      | cons c rest => simp
    · simp at h
  · simp at h

/-- Removes the pairs of parentheses around the whole query, as long as what they enclose is
balanced by itself. -/
def strip (query : Text) : Text :=
  match h : inside? query with
  | some inner =>
    have := length_inside? h
    if isBalanced inner then strip inner else query
  | none => query
termination_by query.length

end FilterQuery.Parentheses
