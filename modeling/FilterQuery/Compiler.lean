import FilterQuery.Clause.Coalesce
import FilterQuery.Escape
import FilterQuery.Literal.Written
import FilterQuery.Parentheses
import FilterQuery.Schema

/-!
# Compiling conditions

A compiler is a schema with options. It turns a condition into a clause, leaf by leaf from left to
right, and writes the clause out as query text.
-/

namespace FilterQuery

/-- What an `IN` list without any element means. -/
inductive EmptyListPolicy
  | reject
  | neverMatch
deriving DecidableEq, Repr

structure Options where
  /-- Remove parentheses around the whole query. -/
  stripParens : Bool := true
  /-- Merge tag alternatives on one field. -/
  coalesceTags : Bool := false
  emptyList : EmptyListPolicy := .reject
  /-- How deep conditions may nest. -/
  maxDepth : Nat := 256
deriving DecidableEq, Repr

structure Compiler where
  schema : Schema
  options : Options

namespace Compiler

/-- The beginning of every leaf on a field. -/
def fieldHead (field : Text) : Text := '@' :: field ++ [':']

def quoted (field value : Text) : Clause := .atom (fieldHead field ++ '"' :: value ++ ['"'])

def braced (field value : Text) : Clause := .atom (Clause.tagText field [value])

def range (field low high : Text) : Clause :=
  .atom (fieldHead field ++ '[' :: low ++ ' ' :: high ++ [']'])

/-- An open bound of a range. -/
def exclusive (bound : Text) : Text := '(' :: bound

/-- Matches nothing: no document carries the tag. -/
def neverMatch (field : Text) : Clause := .atom (fieldHead field ++ "__NEVER_MATCH__".toList)

/-- Matches nothing: the index holds no nulls. -/
def neverMatchNull (field : Text) : Clause :=
  .atom (fieldHead field ++ "__NEVER_MATCH_NULL__".toList)

/-- Matches every document. -/
def matchAll : Clause := .atom ['*']

/-- The value of a literal as it stands inside a query. -/
def escaped (value : Literal) : Except CompileError Text := value.text.map Escape.escape

def equals (type : FieldType) (field : Text) (value : Literal) : Except CompileError Clause :=
  match type with
  | .text => (escaped value).map (quoted field)
  | .tag => (escaped value).map fun v => .tag field [v]
  | .numeric => value.numericText.map fun v => range field v v

def differs (type : FieldType) (field : Text) (value : Literal) : Except CompileError Clause :=
  match type with
  | .text => (escaped value).map fun v => .atom ('-' :: fieldHead field ++ v)
  | .tag => (escaped value).map fun v => .atom ('-' :: Clause.tagText field [v])
  | .numeric => value.numericText.map fun v => .atom ('-' :: fieldHead field ++ v)

/-- Only numeric fields are ordered. -/
def ordered (type : FieldType) (field : Text) (op : Comparator) (value : Literal)
    (write : Text → Clause) : Except CompileError Clause :=
  match type with
  | .numeric => value.numericText.map write
  | _ => .error (.rangeUnsupported op type field)

def infinite : Text := "+inf".toList

def negativeInfinite : Text := "-inf".toList

def compare (type : FieldType) (field : Text) (op : Comparator) (value : Literal) :
    Except CompileError Clause :=
  match op with
  | .eq => equals type field value
  | .ne => differs type field value
  | .gt => ordered type field op value fun v => range field (exclusive v) infinite
  | .ge => ordered type field op value fun v => range field v infinite
  | .lt => ordered type field op value fun v => range field negativeInfinite (exclusive v)
  | .le => ordered type field op value fun v => range field negativeInfinite v

/-- Bounds are taken as they are, whatever the type of the field. -/
def between (field : Text) (low high : Literal) : Except CompileError Clause := do
  let low ← low.text
  let high ← high.text
  return range field low high

/-- The clause of one value in a list. -/
def member (type : FieldType) (field : Text) (value : Literal) : Except CompileError Clause :=
  match type with
  | .text => do
    let text ← value.text
    return .atom ('@' :: field ++ ":\"".toList ++ Escape.escape text ++ "\"".toList)
  | .tag => do
    let text ← value.text
    return .tag field [Escape.escape text]
  | .numeric => do
    let number ← value.numericText
    return .atom ('@' :: field ++ ":[".toList ++ number ++ " ".toList ++ number ++ "]".toList)

/-- A value in a list asks for what an equation with it asks for. -/
theorem member_eq_equals (type : FieldType) (field : Text) (value : Literal) :
    member type field value = equals type field value := by
  cases type with
  | text =>
    have hquoted : ∀ v : Text,
        .atom ('@' :: field ++ ":\"".toList ++ v ++ "\"".toList) = quoted field v := by
      simp [quoted, fieldHead]
    rw [member, equals, escaped]
    cases value.text with
    | error _ => rfl
    | ok text => exact congrArg Except.ok (hquoted (Escape.escape text))
  | tag =>
    rw [member, equals, escaped]
    cases value.text with
    | error _ => rfl
    | ok text => rfl
  | numeric =>
    have hrange : ∀ v : Text,
        .atom ('@' :: field ++ ":[".toList ++ v ++ " ".toList ++ v ++ "]".toList) =
          range field v v := by
      simp [range, fieldHead]
    rw [member, equals]
    cases value.numericText with
    | error _ => rfl
    | ok number => exact congrArg Except.ok (hrange number)

/-- The clauses of a list of values, up to the first value that has none. -/
def members (type : FieldType) (field : Text) : List Literal → Except CompileError (List Clause)
  | [] => .ok []
  | value :: rest => do
    let clause ← member type field value
    let clauses ← members type field rest
    return clause :: clauses

/-- Nulls in the list match nothing and are left out. -/
def isIn (policy : EmptyListPolicy) (type : FieldType) (field : Text) (values : List Literal)
    (negated : Bool) : Except CompileError Clause :=
  if values.isEmpty then
    match policy with
    | .reject => .error (.emptyList field)
    | .neverMatch => .ok (neverMatch field)
  else
    let usable := values.filter fun value => !value.isNull
    if usable.isEmpty then .ok (neverMatch field)
    else (members type field usable).map fun clauses =>
      if negated then .not (.or clauses) else .or clauses

def like (type : FieldType) (field : Text) (pattern : Literal) : Except CompileError Clause := do
  let pattern := Escape.pattern (← pattern.text)
  match type with
  | .text => return quoted field pattern
  | .tag => return braced field pattern
  | .numeric => throw (.patternUnsupported field)

def isNull (field : Text) (negated : Bool) : Clause :=
  if negated then matchAll else neverMatchNull field

variable (compiler : Compiler)

/-- The clause of a condition at a given depth. The depth is checked before anything else. -/
def clauseAt (depth : Nat) (condition : Condition) : Except CompileError Clause :=
  if compiler.options.maxDepth < depth then .error (.tooDeep compiler.options.maxDepth)
  else
    match condition with
    | .and left right => do
      let left ← clauseAt (depth + 1) left
      let right ← clauseAt (depth + 1) right
      return .and left right
    | .or left right => do
      let left ← clauseAt (depth + 1) left
      let right ← clauseAt (depth + 1) right
      return .or [left, right]
    | .not inner => (clauseAt (depth + 1) inner).map .not
    | .group inner => (clauseAt (depth + 1) inner).map .group
    | .compare field op value => do
      let type ← compiler.schema.resolve field
      compare type field op value
    | .between field low high => between field low high
    | .isIn field values negated => do
      let type ← compiler.schema.resolve field
      isIn compiler.options.emptyList type field values negated
    | .like field pattern => do
      let type ← compiler.schema.resolve field
      like type field pattern
    | .isNull field negated => .ok (isNull field negated)

/-- The clause of a condition, before anything is merged or stripped. -/
def clause (condition : Condition) : Except CompileError Clause := compiler.clauseAt 1 condition

/-- The query text of a clause as the options want it. -/
def finish (clause : Clause) : Text :=
  let clause := if compiler.options.coalesceTags then clause.coalesce else clause
  let query := clause.render
  if compiler.options.stripParens then Parentheses.strip query else query

/-- The query of a condition. -/
def compile (condition : Condition) : Except CompileError Text :=
  (compiler.clause condition).map compiler.finish

end Compiler

end FilterQuery
