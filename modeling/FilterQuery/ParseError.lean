import FilterQuery.Numeral

/-!
# Parse errors

Why a text is no condition, and at which character this shows.
-/

namespace FilterQuery

/-- What would have had to come next. -/
inductive Expected
  | operand
  | operator (field : Text)
  | negatable
  | betweenAnd
  | listOpening
  | closing
  | null
  | value
deriving DecidableEq, Repr

def Expected.text : Expected → Text
  | operand => "field name or parenthesis".toList
  | operator field => "operator after field ".toList ++ field
  | negatable => "BETWEEN, IN or LIKE after NOT".toList
  | betweenAnd => "AND in BETWEEN".toList
  | listOpening => "opening parenthesis after IN".toList
  | closing => "closing parenthesis".toList
  | null => "NULL".toList
  | value => "value".toList

inductive ParseFault
  | unterminatedString
  | unsupportedOperator (symbol : Text)
  | unexpectedCharacter (c : Char)
  | emptyCondition
  /-- Negations and parentheses are nested deeper than the limit. -/
  | tooDeep (limit : Nat)
  | expected (what : Expected)
  | integerOutOfRange (numeral : Text)
  | invalidNumber (numeral : Text)
  | trailingInput
deriving DecidableEq, Repr

def ParseFault.message : ParseFault → Text
  | unterminatedString => "Unterminated string literal".toList
  | unsupportedOperator symbol => "Unsupported operator: ".toList ++ symbol
  | unexpectedCharacter c => "Unexpected character: ".toList ++ [c]
  | emptyCondition => "Empty condition".toList
  | tooDeep limit =>
    "Expression nests deeper than ".toList ++ Numeral.ofNat limit ++ " levels".toList
  | expected what => "Expected ".toList ++ what.text
  | integerOutOfRange numeral => "Integer out of range: ".toList ++ numeral
  | invalidNumber numeral => "Invalid number: ".toList ++ numeral
  | trailingInput => "Unexpected trailing input".toList

/-- Positions count characters from the beginning of the text. -/
structure ParseError where
  fault : ParseFault
  position : Nat
deriving DecidableEq, Repr

namespace ParseError

def message (e : ParseError) : Text :=
  "Parse error at position ".toList ++ Numeral.ofNat e.position ++ ": ".toList ++ e.fault.message

/-- The same error in a text with `offset` more characters in front. -/
def shift (offset : Nat) (e : ParseError) : ParseError := { e with position := e.position + offset }

end ParseError

end FilterQuery
