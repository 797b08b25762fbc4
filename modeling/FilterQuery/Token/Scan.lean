import FilterQuery.Text.Letter
import FilterQuery.Token.Basic

/-!
# From text to tokens

Text is cut into lexemes with white space between them. Each lexeme is as long as its form allows,
and its first character decides the form.
-/

namespace FilterQuery.Token

def isComparatorChar (c : Char) : Bool := c == '=' || c == '!' || c == '<' || c == '>'

def isNumberChar (c : Char) : Bool := c.isDigit || c == '.'

def isWordStart (c : Char) : Bool := Text.isLetter c || c == '_' || c == '@'

def isWordChar (c : Char) : Bool :=
  Text.isLetter c || Text.isNumeral c || c == '_' || c == '.' || c == '@'

/-- The content of a string up to its closing quote, and the number of characters read. A doubled
quote stands for one quote. -/
def readString : Text → Option (Text × Nat)
  | [] => none
  | '\'' :: '\'' :: rest => (readString rest).map fun (content, n) => ('\'' :: content, n + 2)
  | '\'' :: _ => some ([], 1)
  | c :: rest => (readString rest).map fun (content, n) => (c :: content, n + 1)

/-- A word is a keyword, or else a field name, which may be marked by `@` in front. -/
def ofWord (word : Text) : Token :=
  match Keyword.ofWord? word with
  | some known => .keyword known
  | none => .field (word.dropWhile (· == '@'))

/-- The token that begins with `c`, and how many of the characters after `c` belong to it. -/
def lexeme (c : Char) (rest : Text) : Except ParseFault (Token × Nat) :=
  if c == '(' then .ok (opening, 0)
  else if c == ')' then .ok (closing, 0)
  else if c == ',' then .ok (comma, 0)
  else if c == '\'' then
    match readString rest with
    | some (content, n) => .ok (string content, n)
    | none => .error .unterminatedString
  else if isComparatorChar c then
    let more := rest.takeWhile isComparatorChar
    match Comparator.ofSymbol? (c :: more) with
    | some op => .ok (comparator op, more.length)
    | none => .error (.unsupportedOperator (c :: more))
  else if (c == '-' || c == '+') && rest.head?.any isNumberChar then
    let more := rest.takeWhile isNumberChar
    .ok (number (if c == '-' then c :: more else more), more.length)
  else if isNumberChar c then
    let more := rest.takeWhile isNumberChar
    .ok (number (c :: more), more.length)
  else if isWordStart c then
    let more := rest.takeWhile isWordChar
    .ok (ofWord (c :: more), more.length)
  else .error (.unexpectedCharacter c)

/-- The tokens of a text whose first character stands at `position`. -/
def scanFrom (position : Nat) : Text → Except ParseError (List Placed)
  | [] => .ok []
  | c :: rest =>
    if Text.isBlank c then scanFrom (position + 1) rest
    else
      match lexeme c rest with
      | .error fault => .error ⟨fault, position⟩
      | .ok (token, more) =>
        (scanFrom (position + 1 + more) (rest.drop more)).map (⟨token, position⟩ :: ·)
termination_by text => text.length
decreasing_by
  all_goals simp only [List.length_cons, List.length_drop]; omega

/-- The tokens of a text with their positions. -/
def scan (text : Text) : Except ParseError (List Placed) := scanFrom 0 text

end FilterQuery.Token
