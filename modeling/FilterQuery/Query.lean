import FilterQuery.Compiler
import FilterQuery.Statement

/-!
# Queries from text

Condition text is parsed and compiled under one limit on nesting, and either step may refuse it.
-/

namespace FilterQuery

inductive QueryError
  | parse (error : ParseError)
  | compile (error : CompileError)
deriving DecidableEq, Repr

def QueryError.message : QueryError → Text
  | parse error => error.message
  | compile error => error.message

/-- The query of a condition text. -/
def Compiler.compileText (compiler : Compiler) (query : Text) : Except QueryError Text :=
  match Condition.parse compiler.options.maxDepth query with
  | .error error => .error (.parse error)
  | .ok condition => (compiler.compile condition).mapError .compile

/-- Parsing and compiling as two steps, each with its own kind of error. -/
theorem Compiler.compileText_eq (compiler : Compiler) (query : Text) :
    compiler.compileText query =
      (Condition.parse compiler.options.maxDepth query).mapError .parse >>=
        fun condition => (compiler.compile condition).mapError .compile := by
  unfold compileText
  cases Condition.parse compiler.options.maxDepth query <;> rfl

end FilterQuery
