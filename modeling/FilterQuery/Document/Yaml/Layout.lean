import FilterQuery.Document.Yaml.Token.Scan

/-!
# YAML text

One YAML document as events. The reader holds the collections that are open and takes one token
after the other; a key or an item that is left out is an empty scalar. A text with a second document
is not read to its end.
-/

namespace FilterQuery.Document.Yaml

/-- Where the reader of a sequence by indentation is. -/
inductive SequencePart
  /-- Before a dash. -/
  | dash
  /-- After a dash. -/
  | item

/-- Where the reader of a mapping is. -/
inductive MappingPart
  /-- Before the token that announces a key. -/
  | entry
  | key
  /-- Before the token that announces a value. -/
  | colon
  | value

/-- Where the reader of a sequence in brackets is. -/
inductive FlowPart
  /-- Before an item or the closing bracket. -/
  | item
  /-- After an item. -/
  | separator

/-- Where the reader of a mapping in brackets is. -/
inductive FlowMappingPart
  /-- Before an entry or the closing bracket. -/
  | entry
  | key
  | colon
  | value
  /-- After a key that was not announced and has no value. -/
  | keyOnly
  /-- After an entry. -/
  | separator

/-- Where the reader of a mapping of one entry is, which stands in a sequence in brackets without
brackets of its own. -/
inductive PairPart
  | key
  | colon
  | value
  | done

/-- An open collection. -/
inductive Frame
  | blockSequence (part : SequencePart)
  /-- A sequence whose dashes stand in the column of the mapping around it. -/
  | bareSequence (part : SequencePart)
  | blockMapping (part : MappingPart)
  | flowSequence (part : FlowPart)
  | flowMapping (part : FlowMappingPart)
  | pair (part : PairPart)

/-- Which collections may begin where a node is due. -/
structure Place where
  /-- Collections by indentation. -/
  block : Bool
  /-- Sequences without an indentation of their own. -/
  bare : Bool

namespace Place

def item : Place := ⟨true, false⟩

def entry : Place := ⟨true, true⟩

def flow : Place := ⟨false, false⟩

end Place

/-- A node of which only properties were read. -/
structure Pending where
  place : Place
  anchored : Bool
  tagged : Bool

/-- The events of a token and the collections open after it. Without the latter the token is a
fault, but its events still count. -/
structure Step where
  events : List Event
  next : Option (List Frame × Option Pending)

namespace Step

def fault : Step := ⟨[], none⟩

def give (events : List Event) (frames : List Frame) : Step := ⟨events, some (frames, none)⟩

def after (events : List Event) (step : Step) : Step :=
  { step with events := events ++ step.events }

end Step

def emptyScalar : Event := .scalar (.plain [])

/-- What a handle stands for, by the directives of a document. -/
abbrev Handles := List (Text × Text)

def standardHandles : Handles :=
  [("!".toList, "!".toList), ("!!".toList, "tag:yaml.org,2002:".toList)]

/-- A tag in full, if its handle is known. -/
def Handles.resolve? (handles : Handles) (name : TagName) : Option Text :=
  if name.handle.isEmpty then some name.suffix
  else (handles.lookup name.handle).map (· ++ name.suffix)

/-- The content of a node. -/
def content (place : Place) (frames : List Frame) : Token → Option Step
  | .scalar s => some (.give [.scalar s] frames)
  | .flowSequence => some (.give [.openSequence] (.flowSequence .item :: frames))
  | .flowMapping => some (.give [.openMapping] (.flowMapping .entry :: frames))
  | .blockSequence =>
    if place.block then some (.give [.openSequence] (.blockSequence .dash :: frames)) else none
  | .blockMapping =>
    if place.block then some (.give [.openMapping] (.blockMapping .entry :: frames)) else none
  | .dash => if place.bare then some (.give [.openSequence] (.bareSequence .item :: frames)) else none
  | _ => none

/-- A name or a tag before the content of a node, at most one of each. -/
def property (handles : Handles) (pending : Pending) (frames : List Frame) : Token → Option Step
  | .anchor name =>
    if pending.anchored then none
    else some ⟨[.anchor name], some (frames, some { pending with anchored := true })⟩
  | .tag name =>
    if pending.tagged then none
    else match handles.resolve? name with
      | some tag => some ⟨[.tag tag], some (frames, some { pending with tagged := true })⟩
      | none => some .fault
  | _ => none

/-- A node, after which the open collections are `frames`. -/
def node (handles : Handles) (place : Place) (frames : List Frame) (token : Token) : Step :=
  match token with
  | .reference name => .give [.reference name] frames
  | token =>
    ((property handles ⟨place, false, false⟩ frames token).orElse
      fun _ => content place frames token).getD .fault

section

variable (handles : Handles) (outer : List Frame)

def blockEntry : Token → Step
  | .key => .give [] (.blockMapping .key :: outer)
  | .blockEnd => .give [.close] outer
  | _ => .fault

def blockColon : Token → Step
  | .value => .give [] (.blockMapping .value :: outer)
  | token => (blockEntry outer token).after [emptyScalar]

def blockMapping : MappingPart → Token → Step
  | .entry, token => blockEntry outer token
  | .key, token =>
    match token with
    | .key | .value | .blockEnd => (blockColon outer token).after [emptyScalar]
    | token => node handles .entry (.blockMapping .colon :: outer) token
  | .colon, token => blockColon outer token
  | .value, token =>
    match token with
    | .key | .value | .blockEnd => (blockEntry outer token).after [emptyScalar]
    | token => node handles .entry (.blockMapping .entry :: outer) token

def blockDash : Token → Step
  | .dash => .give [] (.blockSequence .item :: outer)
  | .blockEnd => .give [.close] outer
  | _ => .fault

def blockSequence : SequencePart → Token → Step
  | .dash, token => blockDash outer token
  | .item, token =>
    match token with
    | .dash | .blockEnd => (blockDash outer token).after [emptyScalar]
    | token => node handles .item (.blockSequence .dash :: outer) token

def flowSequence : FlowPart → Token → Step
  | .item, token =>
    match token with
    | .flowSequenceEnd => .give [.close] outer
    | .key => .give [.openMapping] (.pair .key :: .flowSequence .separator :: outer)
    | token => node handles .flow (.flowSequence .separator :: outer) token
  | .separator, token =>
    match token with
    | .flowSequenceEnd => .give [.close] outer
    | .comma => .give [] (.flowSequence .item :: outer)
    | _ => .fault

def flowSeparator : Token → Step
  | .flowMappingEnd => .give [.close] outer
  | .comma => .give [] (.flowMapping .entry :: outer)
  | _ => .fault

def flowColon : Token → Step
  | .value => .give [] (.flowMapping .value :: outer)
  | token => (flowSeparator outer token).after [emptyScalar]

def flowMapping : FlowMappingPart → Token → Step
  | .entry, token =>
    match token with
    | .flowMappingEnd => .give [.close] outer
    | .key => .give [] (.flowMapping .key :: outer)
    | token => node handles .flow (.flowMapping .keyOnly :: outer) token
  | .key, token =>
    match token with
    | .value | .comma | .flowMappingEnd => (flowColon outer token).after [emptyScalar]
    | token => node handles .flow (.flowMapping .colon :: outer) token
  | .colon, token => flowColon outer token
  | .value, token =>
    match token with
    | .comma | .flowMappingEnd => (flowSeparator outer token).after [emptyScalar]
    | token => node handles .flow (.flowMapping .separator :: outer) token
  | .keyOnly, token => (flowSeparator outer token).after [emptyScalar]
  | .separator, token => flowSeparator outer token

end

/-- One token in the innermost open collection. A collection without an end of its own ends before a
token that is not for it. -/
def receive (handles : Handles) : List Frame → Token → Step
  | [], _ => .fault
  | .blockMapping part :: outer, token => blockMapping handles outer part token
  | .blockSequence part :: outer, token => blockSequence handles outer part token
  | .flowSequence part :: outer, token => flowSequence handles outer part token
  | .flowMapping part :: outer, token => flowMapping handles outer part token
  | .bareSequence .dash :: outer, token =>
    match token with
    | .dash => .give [] (.bareSequence .item :: outer)
    | token => (receive handles outer token).after [.close]
  | .bareSequence .item :: outer, token =>
    match token with
    | .dash => .give [emptyScalar] (.bareSequence .item :: outer)
    | .key | .value | .blockEnd => (receive handles outer token).after [emptyScalar, .close]
    | token => node handles .item (.bareSequence .dash :: outer) token
  | .pair .key :: outer, token =>
    match token with
    | .value | .comma | .flowSequenceEnd => .give [emptyScalar] (.pair .colon :: outer)
    | token => node handles .flow (.pair .colon :: outer) token
  | .pair .colon :: outer, token =>
    match token with
    | .value => .give [] (.pair .value :: outer)
    | token => (receive handles outer token).after [emptyScalar, .close]
  | .pair .value :: outer, token =>
    match token with
    | .comma | .flowSequenceEnd => (receive handles outer token).after [emptyScalar, .close]
    | token => node handles .flow (.pair .done :: outer) token
  | .pair .done :: outer, token => (receive handles outer token).after [.close]

/-- Where in a document the reader is. -/
inductive DocumentPart
  /-- Before the document, after some directives. -/
  | start (version : Bool) (handles : Handles)
  /-- After the marker that begins a document. -/
  | content
  /-- In the document, or after it if no collection is open. -/
  | body
  /-- After the end of the text. -/
  | finished

structure Reader where
  part : DocumentPart
  handles : Handles
  frames : List Frame
  pending : Option Pending
  /-- The names that nodes were given so far. -/
  anchors : List Text

namespace Reader

def start : Reader := ⟨.start false [], standardHandles, [], none, []⟩

variable (reader : Reader)

/-- The only versions that are known are 1.1 and 1.2. -/
def isKnownVersion (major minor : Nat) : Bool := major == 1 && (minor == 1 || minor == 2)

/-- A token inside the document. -/
def inDocument (step : Step) : List Event × Option Reader :=
  (step.events, step.next.map fun (frames, pending) =>
    { reader with part := .body, frames := frames, pending := pending })

/-- A token after the document. -/
def afterDocument : Token → List Event × Option Reader
  | .documentEnd => ([], some { reader with part := .body })
  | .textEnd => ([], some { reader with part := .finished })
  | _ => ([], none)

/-- A token outside all collections. -/
def atTop (token : Token) : List Event × Option Reader :=
  match reader.part, token with
  | .start false handles, .directive (.version major minor) =>
    if isKnownVersion major minor then ([], some { reader with part := .start true handles })
    else ([], none)
  | .start version handles, .directive (.handle name uri) =>
    if (handles.lookup name).isSome then ([], none)
    else ([], some { reader with part := .start version (handles ++ [(name, uri)]) })
  | .start _ handles, .documentStart =>
    ([], some { reader with part := .content, handles := handles ++ standardHandles })
  | .start false [], .textEnd => ([], some { reader with part := .finished })
  | .start false [], token => reader.inDocument (node reader.handles .item [] token)
  | .start _ _, _ => ([], none)
  | .content, .directive _ | .content, .documentStart | .content, .documentEnd
  | .content, .textEnd =>
    let (events, next) := reader.afterDocument token
    (emptyScalar :: events, next)
  | .content, token => reader.inDocument (node reader.handles .item [] token)
  | .body, token => reader.afterDocument token
  | .finished, _ => ([], none)

def inside (token : Token) : List Event × Option Reader :=
  match reader.frames with
  | [] => reader.atTop token
  | frames => reader.inDocument (receive reader.handles frames token)

/-- One token. A node of which only properties were read is an empty scalar if the token is not for
it. -/
def step (token : Token) : List Event × Option Reader :=
  match reader.pending with
  | none => reader.inside token
  | some pending =>
    match (property reader.handles pending reader.frames token).orElse
        fun _ => content pending.place reader.frames token with
    | some step => reader.inDocument step
    | none =>
      let (events, next) := { reader with pending := none }.inside token
      (emptyScalar :: events, next)

/-- The names that nodes are given by some events. A reference to a name that was not given is a
fault. -/
def nameNodes (anchors : List Text) : List Event → Option (List Text)
  | [] => some anchors
  | .anchor name :: rest => nameNodes (name :: anchors) rest
  | .reference name :: rest => if anchors.contains name then nameNodes anchors rest else none
  | _ :: rest => nameNodes anchors rest

def isFinished : Bool :=
  match reader.part with
  | .finished => true
  | _ => false

end Reader

/-- The events of tokens up to their end or the first fault. -/
def readTokens (reader : Reader) : List Token → Reading
  | [] => ⟨[], reader.isFinished⟩
  | token :: rest =>
    let (events, next) := reader.step token
    match next with
    | none => ⟨events, false⟩
    | some next =>
      match Reader.nameNodes reader.anchors events with
      | none => .fault
      | some anchors => (readTokens { next with anchors := anchors } rest).append events

def read (text : Text) : Reading := readTokens .start (Token.ofText text)

end FilterQuery.Document.Yaml
