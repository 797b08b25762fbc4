import FilterQuery.Token.Scan

/-!
# From tokens to conditions

A condition is read in one pass over its tokens. In order of binding, `NOT`, `AND` and `OR` combine
predicates and parenthesised conditions, and both connectives group to the left. The state of the
reader says what may come next and holds one level for every open parenthesis. A token that cannot
come next is where the error is reported, so nothing before it needs to be looked at again.
-/

namespace FilterQuery.Condition

/-- What was read since a parenthesis was opened: the alternatives and the conjuncts before the
present operand, and the negations right before it. -/
structure Level where
  /-- Negations and parentheses that were open when this level was opened. -/
  outside : Nat
  alternatives : Option Condition
  conjuncts : Option Condition
  negations : Nat

namespace Level

/-- A level of which nothing was read. -/
def fresh (outside : Nat) : Level := ⟨outside, none, none, 0⟩

/-- Negations and parentheses that are open. -/
def depth (level : Level) : Nat := level.outside + level.negations

def negate : Nat → Condition → Condition
  | 0, condition => condition
  | n + 1, condition => .not (negate n condition)

/-- The conjunction that ends with the given operand. -/
def conjunction (level : Level) (operand : Condition) : Condition :=
  let operand := negate level.negations operand
  match level.conjuncts with
  | none => operand
  | some left => .and left operand

/-- The alternatives that end with the given conjunction. -/
def disjunction (level : Level) (conjunction : Condition) : Condition :=
  match level.alternatives with
  | none => conjunction
  | some left => .or left conjunction

end Level

/-- What may come next. -/
inductive Awaiting
  /-- A negation, a parenthesis or a field name. -/
  | operand
  /-- The rest of a predicate after its field name. -/
  | predicate (field : Text)
  /-- The same after the field name and `NOT`. -/
  | negatedPredicate (field : Text)
  | comparedValue (field : Text) (op : Comparator)
  | pattern (field : Text) (negated : Bool)
  | lowBound (field : Text) (negated : Bool)
  | betweenAnd (field : Text) (negated : Bool) (low : Literal)
  | highBound (field : Text) (negated : Bool) (low : Literal)
  | listOpening (field : Text) (negated : Bool)
  /-- The first value of a list, or its end. -/
  | firstMember (field : Text) (negated : Bool)
  | nextMember (field : Text) (negated : Bool) (values : List Literal)
  /-- A comma, or the end of the list. -/
  | afterMember (field : Text) (negated : Bool) (values : List Literal)
  /-- `NULL`, or `NOT NULL`. -/
  | nullOrNot (field : Text)
  | null (field : Text)
  /-- A connective or the end, after the given conjunction. -/
  | connective (conjunction : Condition)

structure Reader where
  level : Level
  /-- The levels around the present one, innermost first. -/
  enclosing : List Level
  awaiting : Awaiting

namespace Reader

def start : Reader := ⟨.fresh 0, [], .operand⟩

variable (reader : Reader)

def await (awaiting : Awaiting) : Reader := { reader with awaiting := awaiting }

/-- An operand was read to its end. -/
def complete (operand : Condition) : Reader :=
  { reader with
    level := { reader.level with conjuncts := none, negations := 0 }
    awaiting := .connective (reader.level.conjunction operand) }

/-- A predicate that the word `NOT` in its middle may negate. -/
def completeNegatable (negated : Bool) (predicate : Condition) : Reader :=
  reader.complete (if negated then .not predicate else predicate)

/-- One more negation or parenthesis, if the limit allows. -/
def descend (limit : Nat) (next : Reader) : Except ParseFault Reader :=
  if limit < reader.level.depth + 1 then .error (.tooDeep limit) else .ok next

def stepOperand (limit : Nat) : Token → Except ParseFault Reader
  | .keyword .not =>
    reader.descend limit
      { reader with level := { reader.level with negations := reader.level.negations + 1 } }
  | .opening =>
    reader.descend limit
      ⟨.fresh (reader.level.depth + 1), reader.level :: reader.enclosing, .operand⟩
  | .field name => .ok (reader.await (.predicate name))
  | _ => .error (.expected .operand)

def stepPredicate (field : Text) : Token → Except ParseFault Reader
  | .comparator op => .ok (reader.await (.comparedValue field op))
  | .keyword .between => .ok (reader.await (.lowBound field false))
  | .keyword .inList => .ok (reader.await (.listOpening field false))
  | .keyword .like => .ok (reader.await (.pattern field false))
  | .keyword .is => .ok (reader.await (.nullOrNot field))
  | .keyword .not => .ok (reader.await (.negatedPredicate field))
  | _ => .error (.expected (.operator field))

def stepNegatedPredicate (field : Text) : Token → Except ParseFault Reader
  | .keyword .between => .ok (reader.await (.lowBound field true))
  | .keyword .inList => .ok (reader.await (.listOpening field true))
  | .keyword .like => .ok (reader.await (.pattern field true))
  | _ => .error (.expected .negatable)

def stepConnective (conjunction : Condition) : Token → Except ParseFault Reader
  | .keyword .and =>
    .ok { reader with
      level := { reader.level with conjuncts := some conjunction }
      awaiting := .operand }
  | .keyword .or =>
    .ok { reader with
      level := { reader.level with alternatives := some (reader.level.disjunction conjunction) }
      awaiting := .operand }
  | token =>
    match reader.enclosing with
    | [] => .error .trailingInput
    | outer :: enclosing =>
      if token = .closing then
        .ok (complete ⟨outer, enclosing, .operand⟩ (.group (reader.level.disjunction conjunction)))
      else .error (.expected .closing)

/-- The reader after one more token. -/
def step (limit : Nat) (token : Token) : Except ParseFault Reader :=
  match reader.awaiting with
  | .operand => reader.stepOperand limit token
  | .predicate field => reader.stepPredicate field token
  | .negatedPredicate field => reader.stepNegatedPredicate field token
  | .comparedValue field op =>
    token.readLiteral.map fun value => reader.complete (.compare field op value)
  | .pattern field negated =>
    token.readLiteral.map fun value => reader.completeNegatable negated (.like field value)
  | .lowBound field negated =>
    token.readLiteral.map fun low => reader.await (.betweenAnd field negated low)
  | .betweenAnd field negated low =>
    if token = .keyword .and then .ok (reader.await (.highBound field negated low))
    else .error (.expected .betweenAnd)
  | .highBound field negated low =>
    token.readLiteral.map fun high => reader.completeNegatable negated (.between field low high)
  | .listOpening field negated =>
    if token = .opening then .ok (reader.await (.firstMember field negated))
    else .error (.expected .listOpening)
  | .firstMember field negated =>
    if token = .closing then .ok (reader.complete (.isIn field [] negated))
    else token.readLiteral.map fun value => reader.await (.afterMember field negated [value])
  | .nextMember field negated values =>
    token.readLiteral.map fun value =>
      reader.await (.afterMember field negated (values ++ [value]))
  | .afterMember field negated values =>
    if token = .comma then .ok (reader.await (.nextMember field negated values))
    else if token = .closing then .ok (reader.complete (.isIn field values negated))
    else .error (.expected .closing)
  | .nullOrNot field =>
    if token = .keyword .not then .ok (reader.await (.null field))
    else if token = .keyword .null then .ok (reader.complete (.isNull field false))
    else .error (.expected .null)
  | .null field =>
    if token = .keyword .null then .ok (reader.complete (.isNull field true))
    else .error (.expected .null)
  | .connective conjunction => reader.stepConnective conjunction token

/-- The condition that was read, if it may end here. -/
def finish : Except ParseFault Condition :=
  match reader.awaiting with
  | .operand => .error (.expected .operand)
  | .predicate field => .error (.expected (.operator field))
  | .negatedPredicate _ => .error (.expected .negatable)
  | .comparedValue .. | .pattern .. | .lowBound .. | .highBound .. | .firstMember ..
  | .nextMember .. => .error (.expected .value)
  | .betweenAnd .. => .error (.expected .betweenAnd)
  | .listOpening .. => .error (.expected .listOpening)
  | .afterMember .. => .error (.expected .closing)
  | .nullOrNot _ | .null _ => .error (.expected .null)
  | .connective conjunction =>
    match reader.enclosing with
    | [] => .ok (reader.level.disjunction conjunction)
    | _ :: _ => .error (.expected .closing)

/-- Reads the remaining tokens of a text that ends at `endPosition`. -/
def run (limit endPosition : Nat) (reader : Reader) : List Placed → Except ParseError Condition
  | [] => reader.finish.mapError (⟨·, endPosition⟩)
  | placed :: rest =>
    match reader.step limit placed.token with
    | .ok reader => run limit endPosition reader rest
    | .error fault => .error ⟨fault, placed.position⟩

end Reader

/-- The condition that a token list spells, with at most `limit` negations and parentheses inside
each other. -/
def ofTokens (limit endPosition : Nat) (tokens : List Placed) : Except ParseError Condition :=
  if tokens.isEmpty then .error ⟨.emptyCondition, endPosition⟩
  else Reader.start.run limit endPosition tokens

/-- The condition that a text spells. -/
def ofText (limit : Nat) (text : Text) : Except ParseError Condition := do
  let tokens ← Token.scan text
  ofTokens limit text.length tokens

end FilterQuery.Condition
