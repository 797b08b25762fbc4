import FilterQuery.Document.Yaml.BlockScalar
import FilterQuery.Document.Yaml.Scalar
import FilterQuery.Document.Yaml.Token.Basic

/-!
# Reading the tokens of YAML text

That something was a key is known only when its colon is reached, and then the token `key` belongs
before it. So tokens wait as long as what they begin with may still be a key: on the same line, and
at most 1024 bytes back. A fault loses the tokens that are waiting.
-/

namespace FilterQuery.Document.Yaml

/-- What may turn out to be a key. -/
structure KeyCandidate where
  mark : Mark
  /-- Nothing but a key can stand here. -/
  required : Bool
  /-- The number of its first token. -/
  token : Nat

/-- How far back a key may begin. -/
def keyReach : Nat := 1024

def KeyCandidate.isStale (key : KeyCandidate) (mark : Mark) : Bool :=
  key.mark.line < mark.line || key.mark.index + keyReach < mark.index

structure Scanner where
  mark : Mark
  /-- The least column inside the innermost collection by indentation. -/
  margin : Nat
  /-- The margins of the collections around it, innermost first. -/
  outerMargins : List Nat
  /-- A key may begin here. -/
  keyAllowed : Bool
  /-- What may turn out to be a key inside the innermost brackets. -/
  key : Option KeyCandidate
  /-- The same for the brackets and the text around them, innermost first. -/
  outerKeys : List (Option KeyCandidate)
  waiting : List Token
  /-- The number of tokens that wait no more. -/
  passed : Nat

namespace Scanner

def start : Scanner := ⟨.start, 0, [], true, none, [], [], 0⟩

variable (scanner : Scanner)

def inFlow : Bool := !scanner.outerKeys.isEmpty

def column : Nat := scanner.mark.column

def add (token : Token) : Scanner := { scanner with waiting := scanner.waiting ++ [token] }

/-- Puts tokens before the one with a given number. -/
def insert (number : Nat) (tokens : List Token) : Scanner :=
  let (before, after) := scanner.waiting.splitAt (number - scanner.passed)
  { scanner with waiting := before ++ tokens ++ after }

/-- What may turn out to be a key does not. That is a fault where only a key can stand. -/
def refuseKey : Option Scanner :=
  if scanner.key.any KeyCandidate.required then none else some { scanner with key := none }

/-- The next token may begin a key. -/
def offerKey : Option Scanner := do
  if scanner.keyAllowed then
    let next ← scanner.refuseKey
    let required := !scanner.inFlow && scanner.margin == scanner.column + 1
    let number := scanner.passed + scanner.waiting.length
    return { next with key := some ⟨scanner.mark, required, number⟩ }
  else return scanner

def allowKey (allowed : Bool) : Scanner := { scanner with keyAllowed := allowed }

def fresh (key : Option KeyCandidate) : Option KeyCandidate :=
  key.filter fun key => !key.isStale scanner.mark

/-- Gives up on keys that began on another line or too far back. -/
def refuseStaleKeys : Option Scanner :=
  let isFault (key : Option KeyCandidate) : Bool :=
    key.any fun key => key.required && key.isStale scanner.mark
  if isFault scanner.key || scanner.outerKeys.any isFault then none
  else some { scanner with
    key := scanner.fresh scanner.key
    outerKeys := scanner.outerKeys.map scanner.fresh }

/-- The number of the first token that may begin a key. -/
def firstKey? : Option Nat :=
  ((scanner.outerKeys.reverse ++ [scanner.key]).filterMap id).head?.map KeyCandidate.token

/-- The tokens that need not wait any more. -/
def release : List Token × Scanner :=
  match scanner.firstKey? with
  | some number =>
    let (ready, waiting) := scanner.waiting.splitAt (number - scanner.passed)
    (ready, { scanner with waiting := waiting, passed := scanner.passed + ready.length })
  | none =>
    (scanner.waiting,
      { scanner with waiting := [], passed := scanner.passed + scanner.waiting.length })

/-- Opens a collection by indentation in a column, unless one is open there. -/
def indent (column : Nat) : Scanner :=
  if scanner.margin ≤ column then
    { scanner with margin := column + 1, outerMargins := scanner.margin :: scanner.outerMargins }
  else scanner

/-- The collections by indentation that are left when no margin may exceed a limit. -/
def unwindFrom (limit margin : Nat) : List Nat → List Token × Nat × List Nat
  | [] => ([], margin, [])
  | outer :: rest =>
    if limit < margin then
      let (ends, margin, margins) := unwindFrom limit outer rest
      (.blockEnd :: ends, margin, margins)
    else ([], margin, outer :: rest)

/-- Closes collections by indentation until no margin exceeds a limit. Brackets keep them open. -/
def unwind (limit : Nat) : Scanner :=
  if scanner.inFlow then scanner
  else
    let (ends, margin, margins) := unwindFrom limit scanner.margin scanner.outerMargins
    { scanner with
      margin := margin
      outerMargins := margins
      waiting := scanner.waiting ++ ends }

/-- A collection by indentation begins here, unless one did before. -/
def beginBlock (token : Token) : Scanner :=
  if scanner.margin ≤ scanner.column then (scanner.indent scanner.column).add token else scanner

end Scanner

/-- The scanner after a token, and how many more characters than the first it took. -/
abbrev Scanned := Option (Scanner × Nat)

namespace Scanner

variable (scanner : Scanner)

def one (token : Token) : Scanner × Nat := (scanner.add token, 0)

/-- What stands at the beginning of a line and ends all collections. -/
def endBlocks : Option Scanner := do
  let next ← (scanner.unwind 0).refuseKey
  return next.allowKey false

def readDirective (rest : Text) : Scanned := do
  let next ← scanner.endBlocks
  let (directive, taken) ← directive? rest
  return (next.add (.directive directive), taken)

def readMarker (token : Token) : Scanned := do
  let next ← scanner.endBlocks
  return (next.add token, 2)

def openFlow (token : Token) : Scanned := do
  let next ← scanner.offerKey
  let inner := { next with key := none, outerKeys := next.key :: next.outerKeys }
  return (inner.allowKey true).one token

def closeFlow (token : Token) : Scanned := do
  let next ← scanner.refuseKey
  let outer := match next.outerKeys with
    | key :: keys => { next with key := key, outerKeys := keys }
    | [] => next
  return (outer.allowKey false).one token

def readComma : Scanned := do
  let next ← scanner.refuseKey
  return (next.allowKey true).one .comma

def readDash : Scanned := do
  if scanner.inFlow then
    let next ← scanner.refuseKey
    return (next.allowKey true).one .dash
  else if scanner.keyAllowed then
    let next ← (scanner.beginBlock .blockSequence).refuseKey
    return (next.allowKey true).one .dash
  else none

/-- A question mark, which says that a key comes next. -/
def readKey : Scanned := do
  if scanner.inFlow then
    let next ← scanner.refuseKey
    return (next.allowKey false).one .key
  else if scanner.keyAllowed then
    let next ← (scanner.beginBlock .blockMapping).refuseKey
    return (next.allowKey true).one .key
  else none

/-- A colon. What may be a key before it is one. -/
def readColon : Scanned :=
  match scanner.key with
  | some key =>
    let begins := !scanner.inFlow && scanner.margin ≤ key.mark.column
    let next := scanner.insert key.token (if begins then [.blockMapping, .key] else [.key])
    let next := if begins then next.indent key.mark.column else next
    some (({ next with key := none }.allowKey false).one .value)
  | none =>
    if scanner.inFlow then some ((scanner.allowKey false).one .value)
    else if scanner.keyAllowed then
      some (((scanner.beginBlock .blockMapping).allowKey true).one .value)
    else none

def readAnchor (rest : Text) (token : Text → Token) : Scanned := do
  let next ← scanner.offerKey
  let name ← anchorName? rest
  return ((next.allowKey false).add (token name), name.length)

def readTag (rest : Text) : Scanned := do
  let next ← scanner.offerKey
  let (name, taken) ← tag? scanner.inFlow rest
  return ((next.allowKey false).add (.tag name), taken)

def readBlockScalar (folded : Bool) (rest : Text) : Scanned := do
  let next ← scanner.refuseKey
  let (text, taken) ← BlockScalar.read? folded scanner.margin rest
  let scalar := if folded then .text text else .literal text
  return ((next.allowKey true).add (.scalar scalar), taken)

def readQuoted (pieces : Option Pieces) : Scanned := do
  let next ← scanner.offerKey
  let (pieces, taken) ← pieces
  return ((next.allowKey false).add (.scalar (.text (foldQuoted pieces))), taken)

/-- An unquoted scalar. A key may follow if it ends with a line. -/
def readPlain (c : Char) (rest : Text) : Scanned := do
  let next ← scanner.offerKey
  let (pieces, taken) ←
    plainPieces scanner.inFlow scanner.margin (scanner.column + 1) .characters rest
  let scalar := .scalar (.plain (foldPlain (.char c :: pieces)))
  return ((next.allowKey (endsLine pieces)).add scalar, taken)

end Scanner

/-- The characters that begin no unquoted scalar. -/
def isIndicator (c : Char) : Bool := "-?:,[]{}#&*!|>'\"%@`".toList.contains c

/-- An unquoted scalar may begin with `c`. -/
def beginsPlain (inFlow : Bool) (c : Char) (rest : Text) : Bool :=
  !(isIndicator c || isGap c) || (c == '-' && !atGap rest) ||
    (!inFlow && (c == '?' || c == ':') && !atGap rest)

/-- The token that begins with `c`. -/
def Scanner.readIndicator (scanner : Scanner) (c : Char) (rest : Text) : Scanned :=
  let text := c :: rest
  let flowOrGap := scanner.inFlow || atGap rest
  if scanner.column == 0 && c == '%' then scanner.readDirective rest
  else if scanner.column == 0 && isMarker '-' text then scanner.readMarker .documentStart
  else if scanner.column == 0 && isMarker '.' text then scanner.readMarker .documentEnd
  else if c == '[' then scanner.openFlow .flowSequence
  else if c == '{' then scanner.openFlow .flowMapping
  else if c == ']' then scanner.closeFlow .flowSequenceEnd
  else if c == '}' then scanner.closeFlow .flowMappingEnd
  else if c == ',' then scanner.readComma
  else if c == '-' && atGap rest then scanner.readDash
  else if c == '?' && flowOrGap then scanner.readKey
  else if c == ':' && flowOrGap then scanner.readColon
  else if c == '*' then scanner.readAnchor rest .reference
  else if c == '&' then scanner.readAnchor rest .anchor
  else if c == '!' then scanner.readTag rest
  else if c == '|' && !scanner.inFlow then scanner.readBlockScalar false rest
  else if c == '>' && !scanner.inFlow then scanner.readBlockScalar true rest
  else if c == '\'' then scanner.readQuoted (singlePieces (scanner.column + 1) rest)
  else if c == '"' then scanner.readQuoted (doublePieces (scanner.column + 1) rest)
  else if beginsPlain scanner.inFlow c rest then scanner.readPlain c rest
  else none

/-- One more token: the tokens that need not wait any more, the scanner after it, and how many more
characters than the first it took. -/
def Scanner.readToken (scanner : Scanner) (c : Char) (rest : Text) :
    Option (List Token × Scanner × Nat) := do
  let scanner ← scanner.refuseStaleKeys
  let (scanner, more) ← (scanner.unwind (scanner.column + 1)).readIndicator c rest
  let mark := scanner.mark.advance (c :: rest.take more)
  let scanner ← { scanner with mark := mark }.refuseStaleKeys
  let (ready, scanner) := scanner.release
  return (ready, scanner, more)

/-- The tokens at the end of a text. -/
def Scanner.finish (scanner : Scanner) : List Token :=
  if (scanner.key :: scanner.outerKeys).any (·.any KeyCandidate.required) then []
  else ((scanner.unwind 0).add .textEnd).waiting

def Scanner.skip (scanner : Scanner) (text : Text) : Scanner :=
  { scanner with mark := scanner.mark.advance text }

/-- The characters from its first on that have to be there before a token is read. -/
def tokenReach : Nat := 4

/-- The tokens of the rest of a text up to its end or its first fault. A byte order mark may begin a
line. If the text is cut short, nothing can be said of a token that no character follows. -/
def scanFrom (cut : Bool) (scanner : Scanner) : Text → List Token
  | [] => if cut then [] else scanner.finish
  | c :: rest =>
    if c == '\ufeff' && scanner.column == 0 then scanFrom cut (scanner.skip [c]) rest
    else if c == ' ' || (c == '\t' && (scanner.inFlow || !scanner.keyAllowed)) then
      scanFrom cut (scanner.skip [c]) rest
    else if c == '#' then
      let comment := rest.takeWhile fun d => !isBreak d
      scanFrom cut (scanner.skip (c :: comment)) (rest.drop comment.length)
    else if isBreak c then
      scanFrom cut ((scanner.skip [c]).allowKey (scanner.keyAllowed || !scanner.inFlow)) rest
    else
      match scanner.readToken c rest with
      | none => []
      | some (ready, scanner, more) =>
        if cut && (rest.length < tokenReach - 1 || rest.length ≤ more) then []
        else ready ++ scanFrom cut scanner (rest.drop more)
termination_by text => text.length
decreasing_by
  all_goals simp only [List.length_cons, List.length_drop]; omega

/-- A text may hold printable characters, tabs and line breaks. -/
def isPrintable (c : Char) : Bool :=
  let n := c.toNat
  n == 9 || n == 10 || n == 13 || (32 ≤ n && n ≤ 126) || n == 0x85 ||
    (0xa0 ≤ n && n ≤ 0xfffd) || 0x10000 ≤ n

/-- The bytes of a block of text. Blocks hold whole characters. -/
def blockSize : Nat := 16384

/-- The number of characters before the first block with one that is not allowed. There are `before`
of them before the current block, which holds `inside` so far and has `room` bytes left. -/
def readable? (before inside room : Nat) : Text → Option Nat
  | [] => none
  | c :: rest =>
    let (before, inside, room) :=
      if room < c.utf8Size then (before + inside, 0, blockSize) else (before, inside, room)
    if isPrintable c then readable? before (inside + 1) (room - c.utf8Size) rest else some before

/-- The tokens of a text up to its end, which is the last of them, or up to its first fault. A text
is read in blocks, and a character that is not allowed is a fault when its block is reached. -/
def Token.ofText (text : Text) : List Token :=
  match readable? 0 0 blockSize text with
  | none => scanFrom false .start text
  | some count => scanFrom true .start (text.take count)

end FilterQuery.Document.Yaml
