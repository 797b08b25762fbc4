import FilterQuery.Schema

/-!
# Field specs

A field spec is a text `NAME=TYPE` that sets the type of one field.
-/

namespace FilterQuery.FieldSpec

inductive Fault
  /-- There is no equals sign, or no name before it. -/
  | malformed (spec : Text)
  | invalidType (error : Schema.InvalidType)
deriving DecidableEq, Repr

/-- The name without white space around it, and the text after the first equals sign. -/
def split? (spec : Text) : Option (Text × Text) :=
  match spec.dropWhile (· != '=') with
  | [] => none
  | _ :: typeName =>
    let name := Text.trim (spec.takeWhile (· != '='))
    if name.isEmpty then none else some (name, typeName)

/-- All specs split, up to the first malformed one. -/
def splitAll : List Text → Except Fault (List (Text × Text))
  | [] => .ok []
  | spec :: rest =>
    match split? spec with
    | none => .error (.malformed spec)
    | some entry => (splitAll rest).map (entry :: ·)

/-- The schema of all specs. A malformed spec is reported before any type that is not known. -/
def schema (specs : List Text) : Except Fault Schema := do
  let entries ← splitAll specs
  (Schema.ofTypeNames entries).mapError .invalidType

end FilterQuery.FieldSpec
