import FilterQuery.Condition.Parse

/-!
# Select statements

A condition may be given inside a select statement. Of that only what follows the first `WHERE`
counts, provided that something stands between it and `SELECT`. Errors are still reported at
positions of the whole statement.
-/

namespace FilterQuery

namespace Statement

/-- A letter in either case; the long s is a small s. -/
def isLetterOf (letter c : Char) : Bool := c.toLower == letter || (letter == 's' && c == 'ſ')

/-- What follows a word at the beginning of a text. The word is given in small letters. -/
def dropWord : Text → Text → Option Text
  | [], text => some text
  | letter :: word, c :: text => if isLetterOf letter c then dropWord word text else none
  | _ :: _, [] => none

def dropBlank : Text → Option Text
  | c :: text => if Text.isBlank c then some text else none
  | [] => none

/-- What follows a word between two white space characters at the beginning of a text. -/
def dropSpaced (word text : Text) : Option Text := do
  let text ← dropBlank text
  let text ← dropWord word text
  dropBlank text

/-- What follows the first `WHERE` that stands between white space. -/
def afterWhere? : Text → Option Text
  | [] => none
  | c :: text =>
    match dropSpaced "where".toList (c :: text) with
    | some condition => some condition
    | none => afterWhere? text

theorem afterWhere?_cons (c : Char) (text : Text) :
    afterWhere? (c :: text) =
      (dropSpaced "where".toList (c :: text)).or (afterWhere? text) := by
  change (match dropSpaced "where".toList (c :: text) with
    | some condition => some condition
    | none => afterWhere? text) = _
  cases dropSpaced "where".toList (c :: text) <;> rfl

/-- The condition of a select statement. -/
def condition? (query : Text) : Option Text := do
  let text ← dropWord "select".toList (Text.trimStart query)
  let text ← dropBlank text
  match text with
  | [] => none
  | _ :: text => afterWhere? text

end Statement

/-- The condition of a query text, given by itself or inside a select statement. -/
def Condition.parse (limit : Nat) (query : Text) : Except ParseError Condition :=
  match Statement.condition? query with
  | none => ofText limit query
  | some text => (ofText limit text).mapError (.shift (query.length - text.length))

end FilterQuery
