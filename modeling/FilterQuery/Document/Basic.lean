import FilterQuery.Text.Basic

/-!
# Documents

A document is a tree of scalars, sequences and mappings. A text that turns out malformed still has
a tree of what was read before, because a fault in its content comes before one in the text after
it. Readers of text formats produce the tree as a list of events.
-/

namespace FilterQuery.Document

inductive Scalar
  /-- Quoted text, which is text and nothing else. -/
  | text (t : Text)
  /-- Unquoted text, which may also be taken for a number or a truth value. -/
  | plain (t : Text)
  /-- Text on lines of its own, which is taken for a number or a truth value if its tag says so. -/
  | literal (t : Text)
  /-- A number, a truth value or null, which is no text. -/
  | word (t : Text)
  /-- Quoted text whose escapes spell no characters. -/
  | garbled
deriving DecidableEq, Repr

inductive Event
  | scalar (s : Scalar)
  | openSequence
  | openMapping
  /-- The end of the innermost open collection. -/
  | close
  /-- A name for the node that comes next. -/
  | anchor (name : Text)
  /-- A tag on the node that comes next. -/
  | tag (name : Text)
  /-- The node that was given a name. -/
  | reference (name : Text)
deriving DecidableEq, Repr

/-- The events of a text up to its end or its first fault. -/
structure Reading where
  events : List Event
  /-- The text was read to its end. -/
  complete : Bool
deriving DecidableEq, Repr

namespace Reading

/-- A fault, with nothing read before it. -/
def fault : Reading := ⟨[], false⟩

def finished : Reading := ⟨[], true⟩

def cons (event : Event) (reading : Reading) : Reading :=
  { reading with events := event :: reading.events }

def append (events : List Event) (reading : Reading) : Reading :=
  { reading with events := events ++ reading.events }

end Reading

inductive Node
  | scalar (s : Scalar)
  | sequence (items : List Node) (complete : Bool)
  /-- Keys and values in turn. -/
  | mapping (parts : List Node) (complete : Bool)
  | tagged (tag : Text) (node : Node)
  /-- A collection around this node, and how many others stand between the two. -/
  | enclosing (between : Nat)
deriving Repr

/-- The node without its tag. -/
def Node.untagged : Node → Node
  | .tagged _ node => node
  | node => node

/-- A part of a collection, which may be that collection again. -/
def Node.inside (collection : Node) : Node → Node
  | .enclosing 0 => collection
  | node => node

mutual

/-- Nothing in the tree was cut short. -/
def Node.isIntact : Node → Bool
  | .scalar _ => true
  | .sequence items complete => complete && Node.areIntact items
  | .mapping parts complete => complete && Node.areIntact parts
  | .tagged _ node => node.isIntact
  | .enclosing _ => true

def Node.areIntact : List Node → Bool
  | [] => true
  | node :: rest => node.isIntact && Node.areIntact rest

end

/-- What was said about a node before it. -/
structure Properties where
  anchor : Option Text := none
  tag : Option Text := none

def Properties.label (properties : Properties) (node : Node) : Node :=
  match properties.tag with
  | some tag => .tagged tag node
  | none => node

/-- The nodes that have a name, the latest first. A collection that is still open has a name but is
no node yet. -/
abbrev Anchors := List (Text × Option Node)

namespace Anchors

def add (anchors : Anchors) (properties : Properties) (node : Option Node) : Anchors :=
  match properties.anchor with
  | some name => (name, node) :: anchors
  | none => anchors

/-- The innermost open collection with a name becomes a node. -/
def complete (name : Text) (node : Node) : Anchors → Anchors
  | [] => []
  | (other, none) :: rest =>
    if other = name then (other, some node) :: rest else (other, none) :: complete name node rest
  | entry :: rest => entry :: complete name node rest

def close (anchors : Anchors) (properties : Properties) (node : Node) : Anchors :=
  match properties.anchor with
  | some name => anchors.complete name node
  | none => anchors

end Anchors

/-- A collection that is still open, with its parts in reverse order. -/
structure Partial where
  isMapping : Bool
  properties : Properties
  parts : List Node

namespace Partial

def add (collection : Partial) (node : Node) : Partial :=
  { collection with parts := node :: collection.parts }

def toNode (collection : Partial) (complete : Bool) : Node :=
  collection.properties.label <|
    if collection.isMapping then .mapping collection.parts.reverse complete
    else .sequence collection.parts.reverse complete

/-- The tree of collections that are never closed, innermost first. -/
def abandon (inner : Partial) (outer : List Partial) : Node :=
  outer.foldl (fun node collection => (collection.add node).toNode false) (inner.toNode false)

end Partial

/-- The node with a name, seen from inside some open collections. -/
def Anchors.node (anchors : Anchors) (stack : List Partial) (name : Text) : Node :=
  match anchors.lookup name with
  | some (some node) => node
  | _ => .enclosing (stack.findIdx fun collection => collection.properties.anchor == some name)

/-- The tree of the events that come after some collections were opened and some properties were
given. -/
def Node.build (anchors : Anchors) (given : Properties) : List Partial → List Event → Option Node
  | [], [] => none
  | inner :: outer, [] => some (inner.abandon outer)
  | stack, .anchor name :: rest => build anchors { given with anchor := some name } stack rest
  | stack, .tag name :: rest => build anchors { given with tag := some name } stack rest
  | stack, .openSequence :: rest =>
    build (anchors.add given none) {} (⟨false, given, []⟩ :: stack) rest
  | stack, .openMapping :: rest =>
    build (anchors.add given none) {} (⟨true, given, []⟩ :: stack) rest
  | [], .scalar s :: _ => some (given.label (.scalar s))
  | inner :: outer, .scalar s :: rest =>
    let node := given.label (.scalar s)
    build (anchors.add given (some node)) {} (inner.add node :: outer) rest
  | [], .reference name :: _ => some (anchors.node [] name)
  | inner :: outer, .reference name :: rest =>
    build anchors {} (inner.add (anchors.node (inner :: outer) name) :: outer) rest
  | [], .close :: _ => none
  | [inner], .close :: _ => some (inner.toNode true)
  | inner :: next :: outer, .close :: rest =>
    let node := inner.toNode true
    build (anchors.close inner.properties node) {} (next.add node :: outer) rest

/-- The tree of a whole text, if it has one. -/
def Reading.root? (reading : Reading) : Option Node := Node.build [] {} [] reading.events

end FilterQuery.Document
