import FilterQuery.Document.Basic
import FilterQuery.Numeral

/-!
# JSON text

JSON text as events. The reader holds the brackets that are open and what may come next.
-/

namespace FilterQuery.Document.Json

def isSpace (c : Char) : Bool := c == ' ' || c == '\t' || c == '\n' || c == '\r'

def hexDigit? (c : Char) : Option Nat :=
  if c.isDigit then some (c.toNat - 48)
  else if 'a' ≤ c && c ≤ 'f' then some (c.toNat - 87)
  else if 'A' ≤ c && c ≤ 'F' then some (c.toNat - 55)
  else none

/-- The value of hexadecimal digits. -/
def hexValue? (digits : Text) : Option Nat :=
  digits.foldlM (fun n c => (hexDigit? c).map (16 * n + ·)) 0

/-- The characters that stand for others after a backslash. -/
def escapeFor? (c : Char) : Option Nat :=
  match c with
  | '"' => some 34
  | '\\' => some 92
  | '/' => some 47
  | 'b' => some 8
  | 'f' => some 12
  | 'n' => some 10
  | 'r' => some 13
  | 't' => some 9
  | _ => none

/-- The content of a string up to its closing quote, and the number of characters read. Content is
a list of code points, where an escape by number may give half of a surrogate pair. -/
def readUnits : Text → Option (List Nat × Nat)
  | [] => none
  | '"' :: _ => some ([], 1)
  | '\\' :: 'u' :: a :: b :: c :: d :: rest => do
    let unit ← hexValue? [a, b, c, d]
    let (units, n) ← readUnits rest
    return (unit :: units, n + 6)
  | '\\' :: c :: rest => do
    let unit ← escapeFor? c
    let (units, n) ← readUnits rest
    return (unit :: units, n + 2)
  | c :: rest => do
    if c.toNat < 32 then none
    let (units, n) ← readUnits rest
    return (c.toNat :: units, n + 1)

def isHigh (unit : Nat) : Bool := 0xd800 ≤ unit && unit ≤ 0xdbff

def isLow (unit : Nat) : Bool := 0xdc00 ≤ unit && unit ≤ 0xdfff

/-- The characters of a content, if every half of a surrogate pair has its other half. -/
def joinUnits : List Nat → Option Text
  | [] => some []
  | unit :: low :: rest =>
    if isHigh unit then
      if isLow low then
        let c := Char.ofNat (0x10000 + (unit - 0xd800) * 0x400 + (low - 0xdc00))
        (joinUnits rest).map (c :: ·)
      else none
    else if isLow unit then none
    else (joinUnits (low :: rest)).map (Char.ofNat unit :: ·)
  | [unit] => if isHigh unit || isLow unit then none else some [Char.ofNat unit]

/-- A string after its opening quote, and the number of characters read. -/
def readString (text : Text) : Option (Scalar × Nat) :=
  (readUnits text).map fun (units, n) =>
    match joinUnits units with
    | some t => (.text t, n)
    | none => (.garbled, n)

/-- What may follow the integer part of a number: digits after a point, then an exponent. -/
def isExponent : Text → Bool
  | [] => true
  | e :: rest => (e == 'e' || e == 'E') && Numeral.isDigits (Numeral.splitSign rest).2

def isFractionAndExponent : Text → Bool
  | '.' :: rest =>
    let digits := rest.takeWhile Char.isDigit
    !digits.isEmpty && isExponent (rest.drop digits.length)
  | rest => isExponent rest

def isUnsignedNumber : Text → Bool
  | '0' :: rest => isFractionAndExponent rest
  | text =>
    let digits := text.takeWhile Char.isDigit
    !digits.isEmpty && isFractionAndExponent (text.drop digits.length)

/-- A number, a truth value or null. -/
def isWord : Text → Bool
  | '-' :: rest => isUnsignedNumber rest
  | text =>
    isUnsignedNumber text || text == "true".toList || text == "false".toList ||
      text == "null".toList

def isWordChar (c : Char) : Bool := c.isAlphanum || c == '+' || c == '-' || c == '.'

inductive Awaiting
  | value
  /-- A value, or the end of a sequence just opened. -/
  | firstItem
  | key
  /-- A key, or the end of a mapping just opened. -/
  | firstKey
  | colon
  /-- A comma or a closing bracket, or the end of the text. -/
  | separator
deriving DecidableEq

/-- The state of the reader; an open bracket is `true` for a mapping. -/
structure State where
  brackets : List Bool
  awaiting : Awaiting

/-- One step: the events it gives, the state after it, and how many more characters than the first
it took. -/
structure Step where
  events : List Event
  state : State
  more : Nat

def readValue (brackets : List Bool) (c : Char) (rest : Text) : Option Step :=
  if c == '{' then some ⟨[.openMapping], ⟨true :: brackets, .firstKey⟩, 0⟩
  else if c == '[' then some ⟨[.openSequence], ⟨false :: brackets, .firstItem⟩, 0⟩
  else if c == '"' then
    (readString rest).map fun (s, n) => ⟨[.scalar s], ⟨brackets, .separator⟩, n⟩
  else
    let more := rest.takeWhile isWordChar
    if isWord (c :: more) then
      some ⟨[.scalar (.word (c :: more))], ⟨brackets, .separator⟩, more.length⟩
    else none

def readKey (brackets : List Bool) (c : Char) (rest : Text) : Option Step :=
  if c == '"' then (readString rest).map fun (s, n) => ⟨[.scalar s], ⟨brackets, .colon⟩, n⟩
  else none

def step (state : State) (c : Char) (rest : Text) : Option Step :=
  match state.awaiting, state.brackets with
  | .value, brackets => readValue brackets c rest
  | .firstItem, brackets =>
    if c == ']' then some ⟨[.close], ⟨brackets.tail, .separator⟩, 0⟩
    else readValue brackets c rest
  | .key, brackets => readKey brackets c rest
  | .firstKey, brackets =>
    if c == '}' then some ⟨[.close], ⟨brackets.tail, .separator⟩, 0⟩
    else readKey brackets c rest
  | .colon, brackets => if c == ':' then some ⟨[], ⟨brackets, .value⟩, 0⟩ else none
  | .separator, [] => none
  | .separator, mapping :: outer =>
    if c == ',' then some ⟨[], ⟨mapping :: outer, if mapping then .key else .value⟩, 0⟩
    else if c == (if mapping then '}' else ']') then some ⟨[.close], ⟨outer, .separator⟩, 0⟩
    else none

def readFrom (state : State) : Text → Reading
  | [] => ⟨[], state.awaiting == .separator && state.brackets.isEmpty⟩
  | c :: rest =>
    if isSpace c then readFrom state rest
    else
      match step state c rest with
      | none => .fault
      | some next => (readFrom next.state (rest.drop next.more)).append next.events
termination_by text => text.length
decreasing_by
  all_goals simp only [List.length_cons, List.length_drop]; omega

def read (text : Text) : Reading := readFrom ⟨[], .value⟩ text

end FilterQuery.Document.Json
