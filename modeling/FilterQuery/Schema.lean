import FilterQuery.CompileError

/-!
# Schemas

A schema gives each known field its type. It is kept as its entries in the order of their names, so
a name occurs once and the last type given to it counts.
-/

namespace FilterQuery

/-- Entries in strictly increasing order of names. -/
def Ordered (entries : List (Text × FieldType)) : Prop :=
  entries.Pairwise fun a b => Text.precedes a.1 b.1 = true

structure Schema where
  entries : List (Text × FieldType)
  ordered : Ordered entries

namespace Schema

def empty : Schema := ⟨[], List.Pairwise.nil⟩

/-- The entries with one more, in its place or instead of the one with its name. -/
def insertEntry (name : Text) (type : FieldType) :
    List (Text × FieldType) → List (Text × FieldType)
  | [] => [(name, type)]
  | entry :: rest =>
    if Text.precedes name entry.1 then (name, type) :: entry :: rest
    else if name = entry.1 then (name, type) :: rest
    else entry :: insertEntry name type rest

theorem mem_insertEntry {name : Text} {type : FieldType} {entry : Text × FieldType}
    {entries : List (Text × FieldType)} (h : entry ∈ insertEntry name type entries) :
    entry = (name, type) ∨ entry ∈ entries := by
  induction entries with
  | nil => simpa [insertEntry] using h
  | cons first rest ih =>
    rw [insertEntry] at h
    split at h
    · simpa using h
    · split at h
      · rcases List.mem_cons.1 h with h | h
        · exact .inl h
        · exact .inr (List.mem_cons_of_mem _ h)
      · rcases List.mem_cons.1 h with h | h
        · exact .inr (h ▸ List.mem_cons_self)
        · exact (ih h).imp_right (List.mem_cons_of_mem _)

theorem ordered_insertEntry (name : Text) (type : FieldType) {entries : List (Text × FieldType)}
    (h : Ordered entries) : Ordered (insertEntry name type entries) := by
  induction entries with
  | nil => exact List.pairwise_singleton _ _
  | cons first rest ih =>
    obtain ⟨hfirst, hrest⟩ := List.pairwise_cons.1 h
    rw [insertEntry]
    split
    · rename_i hlt
      refine List.pairwise_cons.2 ⟨fun entry hmem => ?_, h⟩
      rcases List.mem_cons.1 hmem with rfl | hmem
      · exact hlt
      · exact Text.precedes_trans hlt (hfirst _ hmem)
    · rename_i hlt
      split
      · rename_i heq
        exact List.pairwise_cons.2 ⟨fun entry hmem => heq ▸ hfirst _ hmem, hrest⟩
      · rename_i hne
        refine List.pairwise_cons.2 ⟨fun entry hmem => ?_, ih hrest⟩
        rcases mem_insertEntry hmem with rfl | hmem
        · cases hgt : Text.precedes first.1 name with
          | true => rfl
          | false => exact absurd (Text.eq_of_not_precedes (by simpa using hlt) hgt) hne
        · exact hfirst _ hmem

/-- The schema with the field's type set, whatever it was before. -/
def insert (schema : Schema) (name : Text) (type : FieldType) : Schema :=
  ⟨insertEntry name type schema.entries, ordered_insertEntry name type schema.ordered⟩

/-- All entries inserted one after the other. -/
def insertMany (schema : Schema) (entries : List (Text × FieldType)) : Schema :=
  entries.foldl (fun schema entry => schema.insert entry.1 entry.2) schema

def ofEntries (entries : List (Text × FieldType)) : Schema := empty.insertMany entries

/-- Both schemas together; the second one's types count where both know a field. -/
def merge (schema other : Schema) : Schema := schema.insertMany other.entries

def get? (schema : Schema) (field : Text) : Option FieldType :=
  (schema.entries.find? fun entry => entry.1 == field).map Prod.snd

def size (schema : Schema) : Nat := schema.entries.length

def isEmpty (schema : Schema) : Bool := schema.entries.isEmpty

/-- The type of a field that has to be known. -/
def resolve (schema : Schema) (field : Text) : Except CompileError FieldType :=
  match schema.get? field with
  | some type => .ok type
  | none => .error (.unknownField field)

theorem resolve_eq_ok_iff {schema : Schema} {field : Text} {type : FieldType} :
    schema.resolve field = .ok type ↔ schema.get? field = some type := by
  unfold resolve
  cases schema.get? field with
  | none => simp
  | some other => simp

theorem resolve_eq_error_iff {schema : Schema} {field : Text} {error : CompileError} :
    schema.resolve field = .error error ↔
      schema.get? field = none ∧ error = .unknownField field := by
  unfold resolve
  cases schema.get? field with
  | none => simp [eq_comm]
  | some type => simp

/-- A field whose type was given by a text that names no type. -/
structure InvalidType where
  field : Text
  typeName : Text
deriving DecidableEq, Repr

def InvalidType.message (e : InvalidType) : Text :=
  "Field ".toList ++ e.field ++ ": ".toList ++ FieldType.invalidName e.typeName

/-- The types of fields given by name, up to the first text that names no type. -/
def readTypes : List (Text × Text) → Except InvalidType (List (Text × FieldType))
  | [] => .ok []
  | (field, typeName) :: rest =>
    match FieldType.ofName? typeName with
    | none => .error ⟨field, typeName⟩
    | some type => (readTypes rest).map ((field, type) :: ·)

def ofTypeNames (entries : List (Text × Text)) : Except InvalidType Schema :=
  (readTypes entries).map ofEntries

end Schema

end FilterQuery
