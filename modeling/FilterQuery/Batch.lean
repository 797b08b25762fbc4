import FilterQuery.Query

/-!
# Batches of queries

Queries are compiled one after the other. White space around a query does not count, and a query of
nothing else is skipped.
-/

namespace FilterQuery.Batch

/-- A query and what became of it. -/
structure Outcome where
  query : Text
  result : Except QueryError Text

def line (text : Text) : Text := text ++ ['\n']

namespace Outcome

def isFailure (outcome : Outcome) : Bool :=
  match outcome.result with
  | .ok _ => false
  | .error _ => true

/-- What is said about a query that failed. -/
def failureText (query : Text) (error : QueryError) : Text :=
  "Error: ".toList ++ query ++ ": ".toList ++ error.message

/-- The line that a compiled query adds to the output. -/
def output (outcome : Outcome) : Text :=
  match outcome.result with
  | .ok query => line query
  | .error _ => []

/-- The line that a failed query adds to the errors. -/
def errors (outcome : Outcome) : Text :=
  match outcome.result with
  | .ok _ => []
  | .error error => line (failureText outcome.query error)

end Outcome

/-- The outcomes of the queries that are not blank, in order. -/
def run (compiler : Compiler) (queries : List Text) : List Outcome :=
  ((queries.map Text.trim).filter fun query => !query.isEmpty).map fun query =>
    ⟨query, compiler.compileText query⟩

def output (outcomes : List Outcome) : Text := outcomes.flatMap Outcome.output

def errors (outcomes : List Outcome) : Text := outcomes.flatMap Outcome.errors

def failures (outcomes : List Outcome) : Nat := outcomes.countP Outcome.isFailure

/-- One query on every line. -/
def runLines (compiler : Compiler) (text : Text) : List Outcome := run compiler (Text.lines text)

/-- The text of an input, if its bytes are text. -/
def decode? (input : ByteArray) : Option Text := (String.fromUTF8? input).map String.toList

end FilterQuery.Batch
