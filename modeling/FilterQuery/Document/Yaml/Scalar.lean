import FilterQuery.Document.Json
import FilterQuery.Document.Yaml.Mark

/-!
# Scalars of YAML text

Unquoted, single quoted and double quoted scalars. Each is read as pieces, and then the line breaks
among the pieces are folded: a single one is a space, of several the first is dropped.
-/

namespace FilterQuery.Document.Yaml

inductive Piece
  | char (c : Char)
  | space (c : Char)
  | lineBreak (c : Char)
  /-- A line break that joins two lines without a trace. -/
  | joint

def Piece.ofBreak (c : Char) : Piece := .lineBreak (breakChar c)

/-- White space between two characters of a scalar: on one line, with line breaks, or with line
breaks after a joint. -/
inductive Gap
  | spaces (t : Text)
  | breaks (t : Text)
  | joined (t : Text)

def Gap.text : Gap → Text
  | spaces t => t
  | breaks ['\n'] => [' ']
  | breaks ('\n' :: more) => more
  | breaks t => t
  | joined t => t

def fold (gap : Gap) : List Piece → Text
  | [] => gap.text
  | .char c :: rest => gap.text ++ c :: fold (.spaces []) rest
  | .joint :: rest => gap.text ++ fold (.joined []) rest
  | .space c :: rest =>
    match gap with
    | .spaces t => fold (.spaces (t ++ [c])) rest
    | gap => fold gap rest
  | .lineBreak c :: rest =>
    match gap with
    | .spaces _ => fold (.breaks [c]) rest
    | .breaks t => fold (.breaks (t ++ [c])) rest
    | .joined t => fold (.joined (t ++ [c])) rest

def Piece.isGap : Piece → Bool
  | space _ | lineBreak _ => true
  | char _ | joint => false

def Piece.isBreak : Piece → Bool
  | lineBreak _ => true
  | _ => false

def foldQuoted (pieces : List Piece) : Text := fold (.spaces []) pieces

/-- White space after an unquoted scalar is not part of it. -/
def foldPlain (pieces : List Piece) : Text :=
  fold (.spaces []) (pieces.reverse.dropWhile Piece.isGap).reverse

/-- Pieces, and the number of characters they were read from. -/
abbrev Pieces := List Piece × Nat

def Pieces.cons (piece : Piece) (taken : Nat) (rest : Pieces) : Pieces :=
  (piece :: rest.1, rest.2 + taken)

/-- Where in a line the reader of an unquoted scalar is. -/
inductive LinePart
  /-- Before the first character of a line after the first. -/
  | indentation
  | characters
  | spaces
deriving DecidableEq

def isFlowIndicator (c : Char) : Bool :=
  c == ',' || c == '[' || c == ']' || c == '{' || c == '}'

/-- An unquoted scalar ends before `c`. -/
def endsPlain (inFlow : Bool) (indent column : Nat) (part : LinePart) (c : Char) (rest : Text) :
    Bool :=
  (part == .indentation && !inFlow && column < indent) ||
    (part != .characters && c == '#') ||
    (column == 0 && isDocumentMarker (c :: rest)) ||
    (c == ':' && atGap rest) ||
    (inFlow && isFlowIndicator c)

/-- The rest of an unquoted scalar, with the white space after it. Lines after the first are
indented by at least `indent` columns. -/
def plainPieces (inFlow : Bool) (indent column : Nat) (part : LinePart) : Text → Option Pieces
  | [] => some ([], 0)
  | '\r' :: '\n' :: rest =>
    (plainPieces inFlow indent 0 .indentation rest).map (Pieces.cons (.lineBreak '\n') 2)
  | c :: rest =>
    if isBreak c then
      (plainPieces inFlow indent 0 .indentation rest).map (Pieces.cons (.ofBreak c) 1)
    else if isSpace c then
      if part == .indentation && c == '\t' && column < indent then none
      else
        let part := if part == .indentation then part else .spaces
        (plainPieces inFlow indent (column + 1) part rest).map (Pieces.cons (.space c) 1)
    else if endsPlain inFlow indent column part c rest then some ([], 0)
    else if inFlow && c == ':' && rest.head?.any (fun d => isFlowIndicator d || d == '?') then none
    else (plainPieces inFlow indent (column + 1) .characters rest).map (Pieces.cons (.char c) 1)

/-- The scalar read from some pieces ends with a line. -/
def endsLine (pieces : List Piece) : Bool :=
  (pieces.reverse.takeWhile Piece.isGap).any Piece.isBreak

/-- The rest of a single quoted scalar. A doubled quote stands for one. -/
def singlePieces (column : Nat) : Text → Option Pieces
  | [] => none
  | '\'' :: '\'' :: rest =>
    (singlePieces (column + 2) rest).map (Pieces.cons (.char '\'') 2)
  | '\'' :: _ => some ([], 1)
  | '\r' :: '\n' :: rest => (singlePieces 0 rest).map (Pieces.cons (.lineBreak '\n') 2)
  | c :: rest =>
    if isBreak c then (singlePieces 0 rest).map (Pieces.cons (.ofBreak c) 1)
    else if isSpace c then (singlePieces (column + 1) rest).map (Pieces.cons (.space c) 1)
    else if column == 0 && isDocumentMarker (c :: rest) then none
    else (singlePieces (column + 1) rest).map (Pieces.cons (.char c) 1)

/-- The characters that stand for others after a backslash. -/
def escapeFor? (c : Char) : Option Nat :=
  match c with
  | '0' => some 0
  | 'a' => some 7
  | 'b' => some 8
  | 't' => some 9
  | '\t' => some 9
  | 'n' => some 10
  | 'v' => some 11
  | 'f' => some 12
  | 'r' => some 13
  | 'e' => some 27
  | ' ' => some 32
  | '"' => some 34
  | '/' => some 47
  | '\\' => some 92
  | 'N' => some 0x85
  | '_' => some 0xa0
  | 'L' => some 0x2028
  | 'P' => some 0x2029
  | _ => none

/-- How many hexadecimal digits follow an escape by number. -/
def escapeDigits? (c : Char) : Option Nat :=
  match c with
  | 'x' => some 2
  | 'u' => some 4
  | 'U' => some 8
  | _ => none

/-- The character of an escape by number. -/
def escapedChar? (digits : Nat) (text : Text) : Option Char := do
  if text.length < digits then none
  let n ← Json.hexValue? (text.take digits)
  if n.isValidChar then some (Char.ofNat n) else none

/-- The rest of a double quoted scalar. -/
def doublePieces (column : Nat) : Text → Option Pieces
  | [] => none
  | '"' :: _ => some ([], 1)
  | '\\' :: '\r' :: '\n' :: rest => (doublePieces 0 rest).map (Pieces.cons .joint 3)
  | '\\' :: c :: rest =>
    if isBreak c then (doublePieces 0 rest).map (Pieces.cons .joint 2)
    else
      match escapeDigits? c with
      | some digits => do
        let escaped ← escapedChar? digits rest
        let pieces ← doublePieces (column + 2 + digits) (rest.drop digits)
        return pieces.cons (.char escaped) (2 + digits)
      | none => do
        let escaped ← escapeFor? c
        let pieces ← doublePieces (column + 2) rest
        return pieces.cons (.char (Char.ofNat escaped)) 2
  | '\r' :: '\n' :: rest => (doublePieces 0 rest).map (Pieces.cons (.lineBreak '\n') 2)
  | c :: rest =>
    if isBreak c then (doublePieces 0 rest).map (Pieces.cons (.ofBreak c) 1)
    else if isSpace c then (doublePieces (column + 1) rest).map (Pieces.cons (.space c) 1)
    else if column == 0 && isDocumentMarker (c :: rest) then none
    else (doublePieces (column + 1) rest).map (Pieces.cons (.char c) 1)
termination_by text => text.length
decreasing_by
  all_goals simp only [List.length_cons, List.length_drop]; omega

end FilterQuery.Document.Yaml
