import FilterQuery.Text.Basic

/-!
# Places in YAML text

White space, line breaks and document markers, and where in a text something stands.
-/

namespace FilterQuery.Document.Yaml

def isBreak (c : Char) : Bool :=
  c == '\n' || c == '\r' || c == '\u0085' || c == '\u2028' || c == '\u2029'

def isSpace (c : Char) : Bool := c == ' ' || c == '\t'

def isGap (c : Char) : Bool := isSpace c || isBreak c

/-- All line breaks are one character, and only two of them are told apart from a line feed. -/
def breakChar (c : Char) : Char := if c == '\u2028' || c == '\u2029' then c else '\n'

/-- White space or the end comes next. -/
def atGap : Text → Bool
  | [] => true
  | c :: _ => isGap c

/-- Three dashes or dots by themselves. -/
def isMarker (mark : Char) : Text → Bool
  | a :: b :: c :: rest => a == mark && b == mark && c == mark && atGap rest
  | _ => false

def isDocumentMarker (text : Text) : Bool := isMarker '-' text || isMarker '.' text

/-- The line break that comes next, if one does, and the number of its characters. -/
def breakAhead : Text → Text × Nat
  | '\r' :: '\n' :: _ => (['\n'], 2)
  | c :: _ => if isBreak c then ([breakChar c], 1) else ([], 0)
  | [] => ([], 0)

/-- The number of characters that are left on a line with nothing but a comment on it, the line
break included. -/
def emptyLine? (text : Text) : Option Nat :=
  let spaces := text.takeWhile isSpace
  let rest := text.drop spaces.length
  let comment := if rest.head? = some '#' then rest.takeWhile (fun c => !isBreak c) else []
  let rest := rest.drop comment.length
  if rest.isEmpty || rest.head?.any isBreak then
    some (spaces.length + comment.length + (breakAhead rest).2)
  else none

structure Mark where
  /-- The bytes before this place. -/
  index : Nat
  line : Nat
  column : Nat

namespace Mark

def start : Mark := ⟨0, 0, 0⟩

def past (mark : Mark) (c : Char) : Mark :=
  if isBreak c then ⟨mark.index + c.utf8Size, mark.line + 1, 0⟩
  else ⟨mark.index + c.utf8Size, mark.line, mark.column + 1⟩

def advance (mark : Mark) (text : Text) : Mark := text.foldl past mark

end Mark

end FilterQuery.Document.Yaml
