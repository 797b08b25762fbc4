import FilterQuery.Document.Basic
import FilterQuery.Document.Yaml.Property

/-!
# Tokens of YAML text

Scalars, indicators, and the beginnings and ends that are read off the indentation.
-/

namespace FilterQuery.Document.Yaml

inductive Token
  | scalar (s : Scalar)
  | anchor (name : Text)
  | reference (name : Text)
  | tag (name : TagName)
  /-- A sequence or a mapping begins in a new column. -/
  | blockSequence
  | blockMapping
  | blockEnd
  | flowSequence
  | flowSequenceEnd
  | flowMapping
  | flowMappingEnd
  | dash
  | comma
  /-- A key comes next. -/
  | key
  /-- A value comes next. -/
  | value
  | directive (d : Directive)
  | documentStart
  | documentEnd
  | textEnd
deriving DecidableEq

end FilterQuery.Document.Yaml
