import FilterQuery.Document.Json
import FilterQuery.Document.Yaml.Mark

/-!
# Names, tags and directives of YAML text

A node may be given a name and a tag. A tag is a handle and a suffix; what a handle stands for is
set by a directive.
-/

namespace FilterQuery.Document.Yaml

def isWordChar (c : Char) : Bool := c.isAlphanum || c == '_' || c == '-'

/-- The name of a node, after its indicator. -/
def anchorName? (text : Text) : Option Text :=
  let name := text.takeWhile isWordChar
  let rest := text.drop name.length
  let ends := atGap rest || rest.head?.any "?:,]\x7d%@`".toList.contains
  if name.isEmpty || !ends then none else some name

/-- Text and the number of characters it was read from. -/
abbrev Taken := Text × Nat

def isUriChar (inBrackets : Bool) (c : Char) : Bool :=
  isWordChar c || ";/?:@&=+$.!~*'()".toList.contains c || (inBrackets && ",[]".toList.contains c)

/-- The octet of an escape. -/
def octet? : Text → Option Nat
  | '%' :: a :: b :: _ => Json.hexValue? [a, b]
  | _ => none

/-- The number of octets of a character, by the first of them. -/
def octetCount? (first : Nat) : Option Nat :=
  if first < 0x80 then some 1
  else if first < 0xc0 then none
  else if first < 0xe0 then some 2
  else if first < 0xf0 then some 3
  else if first < 0xf8 then some 4
  else none

/-- The value of the octets after the first, each of them escaped. -/
def octetsValue? (value : Nat) : Nat → Text → Option Nat
  | 0, _ => some value
  | count + 1, text => do
    let octet ← octet? text
    if octet / 64 = 2 then octetsValue? (64 * value + octet % 64) count (text.drop 3) else none

/-- The character of some escaped octets, and how many they are. -/
def escapedOctets? (text : Text) : Option (Char × Nat) := do
  let first ← octet? text
  let count ← octetCount? first
  let lead := match count with
    | 1 => first
    | 2 => first - 0xc0
    | 3 => first - 0xe0
    | _ => first - 0xf0
  let value ← octetsValue? lead (count - 1) (text.drop 3)
  return (Char.ofNat value, count)

/-- As much of a text as may stand in a tag. -/
def uri? (inBrackets : Bool) : Text → Option Taken
  | [] => some ([], 0)
  | c :: rest =>
    if c == '%' then do
      let (escaped, count) ← escapedOctets? (c :: rest)
      let (more, taken) ← uri? inBrackets (rest.drop (3 * count - 1))
      return (escaped :: more, taken + 3 * count)
    else if isUriChar inBrackets c then
      (uri? inBrackets rest).map fun (more, taken) => (c :: more, taken + 1)
    else some ([], 0)
termination_by text => text.length
decreasing_by
  all_goals simp only [List.length_cons, List.length_drop]; omega

structure TagName where
  handle : Text
  suffix : Text
deriving DecidableEq

/-- A tag, after its exclamation mark. A tag of nothing else has no handle. -/
def tagName? (text : Text) : Option (TagName × Nat) := do
  match text with
  | '<' :: rest =>
    let (suffix, taken) ← uri? true rest
    if suffix.isEmpty || (rest.drop taken).head? ≠ some '>' then none
    return (⟨[], suffix⟩, taken + 2)
  | _ =>
    let word := text.takeWhile isWordChar
    match text.drop word.length with
    | '!' :: rest =>
      let (suffix, taken) ← uri? false rest
      if suffix.isEmpty then none
      return (⟨'!' :: word ++ ['!'], suffix⟩, word.length + 1 + taken)
    | rest =>
      let (more, taken) ← uri? false rest
      let suffix := word ++ more
      let name := if suffix.isEmpty then ⟨[], ['!']⟩ else ⟨['!'], suffix⟩
      return (name, word.length + taken)

/-- A tag that is followed by white space or, in brackets, by a comma. -/
def tag? (inFlow : Bool) (text : Text) : Option (TagName × Nat) := do
  let (name, taken) ← tagName? text
  let rest := text.drop taken
  if atGap rest || (inFlow && rest.head? = some ',') then return (name, taken) else none

inductive Directive
  | version (major minor : Nat)
  /-- What a handle stands for. -/
  | handle (name uri : Text)
deriving DecidableEq

/-- The digits of a version number. -/
def versionDigits? (text : Text) : Option Text :=
  let digits := text.takeWhile Char.isDigit
  if digits.isEmpty || 9 < digits.length then none else some digits

def digitsValue (digits : Text) : Nat :=
  digits.foldl (fun n c => 10 * n + (c.toNat - '0'.toNat)) 0

def versionDirective? (text : Text) : Option (Directive × Nat) := do
  let spaces := (text.takeWhile isSpace).length
  let major ← versionDigits? (text.drop spaces)
  match text.drop (spaces + major.length) with
  | '.' :: rest =>
    let minor ← versionDigits? rest
    let taken := spaces + major.length + 1 + minor.length
    return (.version (digitsValue major) (digitsValue minor), taken)
  | _ => none

/-- The handle that a directive sets. -/
def directiveHandle? : Text → Option Text
  | '!' :: rest =>
    let word := rest.takeWhile isWordChar
    if (rest.drop word.length).head? = some '!' then some ('!' :: word ++ ['!'])
    else if word.isEmpty then some ['!']
    else none
  | _ => none

def handleDirective? (text : Text) : Option (Directive × Nat) := do
  let spaces := (text.takeWhile isSpace).length
  let handle ← directiveHandle? (text.drop spaces)
  let rest := text.drop (spaces + handle.length)
  let gap := (rest.takeWhile isSpace).length
  let (uri, taken) ← uri? true (rest.drop gap)
  if gap = 0 || uri.isEmpty || !atGap (rest.drop (gap + taken)) then none
  return (.handle handle uri, spaces + handle.length + gap + taken)

/-- A directive, after its percent sign, with the rest of its line. -/
def directive? (text : Text) : Option (Directive × Nat) := do
  let name := text.takeWhile isWordChar
  let rest := text.drop name.length
  if !atGap rest then none
  let (directive, taken) ←
    if name = "YAML".toList then versionDirective? rest
    else if name = "TAG".toList then handleDirective? rest
    else none
  let line ← emptyLine? (rest.drop taken)
  return (directive, name.length + taken + line)

end FilterQuery.Document.Yaml
