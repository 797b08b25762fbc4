import FilterQuery.Document.Yaml.Mark

/-!
# Block scalars of YAML text

A scalar that is written on the lines after its indicator, all of them indented alike. A literal
one keeps its line breaks; a folded one joins lines that begin with a character.
-/

namespace FilterQuery.Document.Yaml

/-- What becomes of the line breaks at the end. -/
inductive Chomping
  | strip
  /-- The first is kept. -/
  | clip
  | keep
deriving DecidableEq

namespace BlockScalar

def chompingAhead? : Text → Option Chomping
  | '+' :: _ => some .keep
  | '-' :: _ => some .strip
  | _ => none

/-- A digit that gives the indentation, or zero where there is none. -/
def incrementAhead? : Text → Option Nat
  | '0' :: _ => none
  | c :: _ => some (if c.isDigit then c.toNat - '0'.toNat else 0)
  | [] => some 0

structure Header where
  chomping : Chomping
  /-- The indentation as the header gives it, or zero. -/
  increment : Nat
  taken : Nat

/-- The indicators of a header, in any order. -/
def indicators? (text : Text) : Option Header := do
  match chompingAhead? text with
  | some chomping =>
    let increment ← incrementAhead? (text.drop 1)
    return ⟨chomping, increment, if increment = 0 then 1 else 2⟩
  | none =>
    let increment ← incrementAhead? text
    if increment = 0 then return ⟨.clip, 0, 0⟩
    match chompingAhead? (text.drop 1) with
    | some chomping => return ⟨chomping, increment, 2⟩
    | none => return ⟨.clip, increment, 1⟩

def header? (text : Text) : Option Header := do
  let header ← indicators? text
  let line ← emptyLine? (text.drop header.taken)
  return { header with taken := header.taken + line }

/-- The line breaks and the indentation between two lines of a scalar. -/
structure Gap where
  breaks : Text
  column : Nat
  /-- The largest column that was reached. -/
  widest : Nat
  taken : Nat

def Gap.cons (breaks : Text) (taken : Nat) (gap : Gap) : Gap :=
  { gap with breaks := breaks ++ gap.breaks, taken := gap.taken + taken }

def wider (a b : Nat) : Nat := if a < b then b else a

/-- Skips lines that are empty and then the indentation. An indentation of zero is not known yet.
No tab may stand in it. -/
def gap? (indent column widest : Nat) : Text → Option Gap
  | [] => some ⟨[], column, wider widest column, 0⟩
  | '\r' :: '\n' :: rest =>
    (gap? indent 0 (wider widest column) rest).map (Gap.cons ['\n'] 2)
  | c :: rest =>
    let inside := indent == 0 || column < indent
    if c == ' ' && inside then (gap? indent (column + 1) widest rest).map (Gap.cons [] 1)
    else if c == '\t' && inside then none
    else if isBreak c then
      (gap? indent 0 (wider widest column) rest).map (Gap.cons [breakChar c] 1)
    else some ⟨[], column, wider widest column, 0⟩

/-- The lines of a scalar so far. -/
structure Lines where
  text : Text
  /-- The end of the last line. -/
  lineBreak : Text
  /-- The empty lines after it. -/
  breaks : Text
  /-- The last line begins with white space. -/
  indented : Bool

/-- How the last line is joined with one that begins with `c`. -/
def Lines.joint (lines : Lines) (folded : Bool) (c : Char) : Text :=
  if folded && lines.lineBreak == ['\n'] && !lines.indented && !isSpace c then
    if lines.breaks.isEmpty then [' '] else []
  else lines.lineBreak

/-- The lines that stand in column `indent`, and the number of characters taken. -/
def lines? (folded : Bool) (indent column : Nat) (before : Lines) : Text → Option (Lines × Nat)
  | [] => some (before, 0)
  | c :: rest =>
    if column == indent then do
      let line := rest.takeWhile fun d => !isBreak d
      let (lineBreak, width) := breakAhead (rest.drop line.length)
      let column := if width == 0 then column + 1 + line.length else 0
      let gap ← gap? indent column 0 (rest.drop (line.length + width))
      let text := before.text ++ before.joint folded c ++ before.breaks ++ c :: line
      let taken := line.length + width + gap.taken
      let (lines, more) ← lines? folded indent gap.column
        ⟨text, lineBreak, gap.breaks, isSpace c⟩ (rest.drop taken)
      return (lines, taken + 1 + more)
    else some (before, 0)
termination_by text => text.length
decreasing_by
  all_goals simp only [List.length_cons, List.length_drop]; omega

def Lines.chomp (lines : Lines) : Chomping → Text
  | .strip => lines.text
  | .clip => lines.text ++ lines.lineBreak
  | .keep => lines.text ++ lines.lineBreak ++ lines.breaks

/-- A scalar and the number of characters after its indicator. Its indentation is given in the
header or is that of its first line, and it is at least `margin`. -/
def read? (folded : Bool) (margin : Nat) (text : Text) : Option (Text × Nat) := do
  let header ← header? text
  let given := if header.increment = 0 then 0 else margin - 1 + header.increment
  let gap ← gap? given 0 0 (text.drop header.taken)
  let indent := if given = 0 then wider (wider gap.widest margin) 1 else given
  let taken := header.taken + gap.taken
  let (lines, more) ← lines? folded indent gap.column ⟨[], [], gap.breaks, false⟩ (text.drop taken)
  return (lines.chomp header.chomping, taken + more)

end BlockScalar

end FilterQuery.Document.Yaml
