import FilterQuery.Compiler
import FilterQuery.Document.Yaml.Layout

/-!
# Settings

A schema and options as they are kept in a file. Documents are decoded part by part in the order in
which they are written, and the first part that cannot be decoded is the fault, also if the text
breaks off after it.
-/

namespace FilterQuery

structure Settings where
  schema : Schema
  options : Options

/-- Why a text holds no settings. -/
inductive SettingsFault
  /-- A field is given a type by a text that names none. -/
  | fieldType (typeName : Text)
  /-- Anything else. -/
  | malformed
deriving DecidableEq, Repr

namespace Settings

open Document

abbrev Decoded := Except SettingsFault

inductive Format
  | json
  | yaml
deriving DecidableEq, Repr

namespace Format

def read : Format → Text → Reading
  | json => Json.read
  | yaml => Yaml.read

/-- A record may be written as the sequence of its parts. -/
def listsRecords : Format → Bool
  | json => true
  | yaml => false

end Format

def empty : Settings := ⟨.empty, {}⟩

/-- The text of a scalar that may stand for text. -/
def textOf (node : Node) : Decoded Text :=
  match node.untagged with
  | .scalar (.text t) | .scalar (.plain t) | .scalar (.literal t) => .ok t
  | _ => .error .malformed

/-- The spelling of a scalar that may stand for a number or a truth value. Text on lines of its own
does if it is tagged as what is wanted. -/
def wordOf (wanted : Text) (node : Node) : Decoded Text :=
  match node with
  | .tagged tag (.scalar (.literal t)) => if tag = wanted then .ok t else .error .malformed
  | node =>
    match node.untagged with
    | .scalar (.word t) | .scalar (.plain t) => .ok t
    | _ => .error .malformed

def boolTag : Text := "tag:yaml.org,2002:bool".toList

def intTag : Text := "tag:yaml.org,2002:int".toList

def requireComplete (complete : Bool) : Decoded Unit :=
  if complete then .ok () else .error .malformed

def fieldTypeOf (node : Node) : Decoded FieldType := do
  let name ← textOf node
  match FieldType.ofName? name with
  | some type => return type
  | none => throw (.fieldType name)

/-- The fields of a mapping, each set in turn. -/
def fieldsOf (schema : Schema) : List Node → Decoded Schema
  | key :: value :: rest => do
    let name ← textOf key
    let type ← fieldTypeOf value
    fieldsOf (schema.insert name type) rest
  | [_] => throw .malformed
  | [] => return schema

/-- A schema is a mapping from names to types. An empty value is an empty mapping. -/
def schemaOf (node : Node) : Decoded Schema :=
  match node.untagged with
  | .mapping parts complete => do
    let schema ← fieldsOf .empty parts
    requireComplete complete
    return schema
  | .scalar (.plain []) => return .empty
  | _ => throw .malformed

def boolOf (node : Node) : Decoded Bool := do
  let word ← wordOf boolTag node
  if ["true".toList, "True".toList, "TRUE".toList].contains word then return true
  else if ["false".toList, "False".toList, "FALSE".toList].contains word then return false
  else throw .malformed

/-- The value of digits in a base of at most sixteen. -/
def inBase? (base : Nat) (digits : Text) : Option Nat :=
  if digits.isEmpty then none
  else digits.foldlM (fun n c => do
    let d ← Json.hexDigit? c
    if d < base then some (base * n + d) else none) 0

/-- A natural number, in decimal without leading zeros or in a base named in front, after an
optional plus sign. -/
def natural? (word : Text) : Option Nat :=
  let digits := match word with
    | '+' :: rest => rest
    | _ => word
  match digits with
  | '0' :: 'x' :: rest => inBase? 16 rest
  | '0' :: 'o' :: rest => inBase? 8 rest
  | '0' :: 'b' :: rest => inBase? 2 rest
  | '0' :: _ :: _ => none
  | _ => inBase? 10 digits

/-- A depth has at most 64 bits. -/
def depthOf (node : Node) : Decoded Nat := do
  let word ← wordOf intTag node
  match natural? word with
  | some n => if n < 18446744073709551616 then return n else throw .malformed
  | none => throw .malformed

def policyNamed (name : Text) : Decoded EmptyListPolicy :=
  if name = "reject".toList then .ok .reject
  else if name = "never_match".toList then .ok .neverMatch
  else .error .malformed

/-- An unquoted scalar that stands for nothing. -/
def isNothing : Node → Bool
  | .scalar (.plain t) =>
    t.isEmpty || ["~".toList, "null".toList, "Null".toList, "NULL".toList].contains t
  | _ => false

/-- A policy is given by its name, by a mapping of the name to null, or by nothing with the name as
its tag. -/
def policyOf : Node → Decoded EmptyListPolicy
  | .mapping [key, .scalar (.word word)] true => do
    let policy ← policyNamed (← textOf key)
    if word = "null".toList then return policy else throw .malformed
  | .tagged ('!' :: name) node => if isNothing node then policyNamed name else throw .malformed
  | node => do policyNamed (← textOf node)

/-- The parts of a record, in the order in which a sequence would list them. -/
structure RecordPart (ρ : Type) where
  name : Text
  decode : Node → ρ → Decoded ρ

/-- The entries of a mapping that stands for a record. No part is given twice, and an entry with
another name only has to be well formed. -/
def entriesOf {ρ : Type} (mapping : Node) (parts : List (RecordPart ρ)) (seen : List Text)
    (record : ρ) : List Node → Decoded ρ
  | key :: rest => do
    let name ← textOf key
    match parts.find? (fun part => part.name == name), rest with
    | some part, value :: rest =>
      if seen.contains name then throw .malformed
      let record ← part.decode (mapping.inside value) record
      entriesOf mapping parts (name :: seen) record rest
    | none, value :: rest =>
      requireComplete value.isIntact
      entriesOf mapping parts seen record rest
    | _, [] => throw .malformed
  | [] => return record

/-- The items of a sequence that stands for a record. Parts at the end may be missing. -/
def itemsOf {ρ : Type} (record : ρ) : List (RecordPart ρ) → List Node → Decoded ρ
  | part :: parts, item :: items => do
    let record ← part.decode item record
    itemsOf record parts items
  | [], _ :: _ => throw .malformed
  | _, [] => return record

/-- A record is a mapping or, if the format has it so, a sequence. What it leaves out keeps its
default. -/
def recordOf {ρ : Type} (format : Format) (parts : List (RecordPart ρ)) (default : ρ)
    (node : Node) : Decoded ρ :=
  match node.untagged with
  | .mapping entries complete => do
    let record ← entriesOf node parts [] default entries
    requireComplete complete
    return record
  | .sequence items complete => do
    if !format.listsRecords then throw .malformed
    let record ← itemsOf default parts items
    requireComplete complete
    return record
  | .scalar (.plain []) => return default
  | _ => throw .malformed

def optionParts : List (RecordPart Options) := [
  ⟨"strip_redundant_parens".toList,
    fun node options => do return { options with stripParens := ← boolOf node }⟩,
  ⟨"coalesce_tag_ors".toList,
    fun node options => do return { options with coalesceTags := ← boolOf node }⟩,
  ⟨"empty_in_list".toList,
    fun node options => do return { options with emptyList := ← policyOf node }⟩,
  ⟨"max_depth".toList,
    fun node options => do return { options with maxDepth := ← depthOf node }⟩]

def optionsOf (format : Format) (node : Node) : Decoded Options :=
  recordOf format optionParts {} node

def settingsParts (format : Format) : List (RecordPart Settings) := [
  ⟨"fields".toList,
    fun node settings => do return { settings with schema := ← schemaOf node }⟩,
  ⟨"options".toList,
    fun node settings => do return { settings with options := ← optionsOf format node }⟩]

def settingsOf (format : Format) (node : Node) : Decoded Settings :=
  recordOf format (settingsParts format) .empty node

/-- Decodes a whole text. A text without content has the default, and whatever was decoded, the
text has to be read to its end. -/
def decode {α : Type} (default : α) (of : Node → Decoded α) (reading : Reading) : Decoded α := do
  let value ← match reading.root? with
    | some node => of node
    | none => pure default
  requireComplete reading.complete
  return value

/-- The settings that a text holds. -/
def ofText (format : Format) (text : Text) : Decoded Settings :=
  decode .empty (settingsOf format) (format.read text)

/-- The schema that a text holds by itself. -/
def schemaOfText (format : Format) (text : Text) : Decoded Schema :=
  decode .empty schemaOf (format.read text)

def compiler (settings : Settings) : Compiler := ⟨settings.schema, settings.options⟩

end Settings

end FilterQuery
