import FilterQuery.Proofs.Outcome
import FilterQuery.Proofs.TrimmedText
import FilterQuery.Schema

/-!
# Histories of schemas

A schema may be made anew, from fields with their types or with the names of their types, and a
schema may be extended by a field or by another schema. After any number of such edits the type of
a field is the one that was written last since the schema was last made anew. The entries list the
fields that have a type, each once and in the order of their names.
-/

namespace FilterQuery

open Outcome

/-- The order of names is the lexicographic order by code points. -/
theorem Text.precedes_iff_lex {s t : Text} :
    precedes s t = true ↔ List.Lex (fun c d : Char => c.toNat < d.toNat) s t := by
  induction s generalizing t with
  | nil =>
    cases t with
    | nil => simp [precedes]
    | cons d t => simp [precedes]
  | cons c s ih =>
    cases t with
    | nil => simp [precedes]
    | cons d t =>
      simp only [precedes, Bool.or_eq_true, decide_eq_true_eq, Bool.and_eq_true, beq_iff_eq, ih]
      constructor
      · rintro (hlt | ⟨rfl, hrest⟩)
        · exact .rel hlt
        · exact .cons hrest
      · intro h
        cases h with
        | rel hlt => exact .inl hlt
        | cons hrest => exact .inr ⟨rfl, hrest⟩

namespace FieldType

/-- A name of the type in any case, with or without white space around it. -/
def Names (t : Text) (type : FieldType) : Prop :=
  ∃ word, Text.Trims t word ∧ Text.inCapitals word = type.name

theorem ofName?_eq_some_iff {t : Text} {type : FieldType} :
    ofName? t = some type ↔ Names t type := by
  have hname : Names t type ↔ Text.inCapitals (Text.trim t) = type.name := by
    simp only [Names, Text.trims_iff, exists_eq_left']
  rw [hname]
  constructor
  · intro h
    have hfound := List.find?_some h
    exact (beq_iff_eq.1 hfound).symm
  · intro h
    rw [ofName?, h]
    cases type <;> decide

theorem ofName?_eq_none_iff {t : Text} : ofName? t = none ↔ ∀ type, ¬ Names t type := by
  simp only [Option.eq_none_iff_forall_ne_some, ne_eq, ofName?_eq_some_iff]

theorem ofName?_ne_none_iff {t : Text} : ofName? t ≠ none ↔ ∃ type, Names t type := by
  simp only [Option.ne_none_iff_exists', ofName?_eq_some_iff]

example : ofName? "\tNumeric ".toList = some .numeric ∧ ofName? "TAGS".toList = none := by decide

end FieldType

namespace Schema

/-! ### Looking fields up -/

theorem lookup_cons_eq (entry : Text × FieldType) (rest : List (Text × FieldType))
    (field : Text) :
    (entry :: rest).lookup field = if field = entry.1 then some entry.2 else rest.lookup field := by
  rw [List.lookup_cons]
  by_cases hfield : field = entry.1
  · rw [beq_iff_eq.2 hfield, if_pos hfield]
  · rw [beq_eq_false_iff_ne.2 hfield, if_neg hfield]

theorem get?_eq_lookup (schema : Schema) (field : Text) :
    schema.get? field = schema.entries.lookup field := by
  unfold get?
  induction schema.entries with
  | nil => rfl
  | cons entry rest ih =>
    rw [lookup_cons_eq]
    split_ifs with hfield
    · simp [hfield]
    · rw [List.find?_cons_of_neg (by simpa using Ne.symm hfield)]
      exact ih

/-- In ordered entries a name stands once. -/
theorem lookup_of_mem {entries : List (Text × FieldType)} (hordered : Ordered entries)
    {name : Text} {type : FieldType} (h : (name, type) ∈ entries) :
    entries.lookup name = some type := by
  induction entries with
  | nil => cases h
  | cons entry rest ih =>
    obtain ⟨hfirst, hrest⟩ := List.pairwise_cons.1 hordered
    rw [lookup_cons_eq]
    rcases List.mem_cons.1 h with rfl | hmem
    · exact if_pos rfl
    · have hprecedes := hfirst _ hmem
      rw [if_neg]
      · exact ih hrest hmem
      · rintro rfl
        rw [Text.not_precedes_self] at hprecedes
        cases hprecedes

theorem mem_of_lookup {entries : List (Text × FieldType)} {name : Text} {type : FieldType}
    (h : entries.lookup name = some type) : (name, type) ∈ entries := by
  obtain ⟨before, after, rfl, -⟩ := List.lookup_eq_some_iff.1 h
  exact List.mem_append_right before List.mem_cons_self

theorem mem_entries_iff {schema : Schema} {name : Text} {type : FieldType} :
    (name, type) ∈ schema.entries ↔ schema.get? name = some type := by
  rw [get?_eq_lookup]
  exact ⟨lookup_of_mem schema.ordered, mem_of_lookup⟩

@[simp] theorem get?_empty (field : Text) : empty.get? field = none := rfl

theorem lookup_insertEntry (name : Text) (type : FieldType) (entries : List (Text × FieldType))
    (field : Text) :
    (insertEntry name type entries).lookup field =
      if field = name then some type else entries.lookup field := by
  induction entries with
  | nil => rw [insertEntry, lookup_cons_eq]
  | cons entry rest ih =>
    rw [insertEntry]
    split
    · exact lookup_cons_eq _ _ _
    · split
      · rename_i hsame
        rw [lookup_cons_eq, lookup_cons_eq, ← hsame]
        split_ifs with hfield
        · rfl
        · rfl
      · rename_i hother
        rw [lookup_cons_eq, lookup_cons_eq, ih]
        by_cases hfield : field = name
        · subst hfield
          rw [if_neg hother, if_pos rfl, if_pos rfl]
        · rw [if_neg hfield, if_neg hfield]

theorem get?_insert (schema : Schema) (name : Text) (type : FieldType) (field : Text) :
    (schema.insert name type).get? field =
      if field = name then some type else schema.get? field := by
  rw [get?_eq_lookup, get?_eq_lookup]
  exact lookup_insertEntry name type schema.entries field

/-! ### The last write -/

def lastType? (writes : List (Text × FieldType)) (field : Text) : Option FieldType :=
  writes.reverse.lookup field

theorem lastType?_append (writes later : List (Text × FieldType)) (field : Text) :
    lastType? (writes ++ later) field =
      (lastType? later field).or (lastType? writes field) := by
  rw [lastType?, List.reverse_append, List.lookup_append]
  rfl

theorem lastType?_eq_some_iff {writes : List (Text × FieldType)} {field : Text}
    {type : FieldType} :
    lastType? writes field = some type ↔
      ∃ before after, writes = before ++ (field, type) :: after ∧
        ∀ write ∈ after, write.1 ≠ field := by
  rw [lastType?, List.lookup_eq_some_iff]
  constructor
  · rintro ⟨after, before, hwrites, hafter⟩
    refine ⟨before.reverse, after.reverse, ?_, ?_⟩
    · rw [← List.reverse_reverse writes, hwrites]
      simp
    · intro write hwrite
      have hne := hafter write (List.mem_reverse.1 hwrite)
      exact (bne_iff_ne.1 hne).symm
  · rintro ⟨before, after, rfl, hafter⟩
    refine ⟨after.reverse, before.reverse, by simp, ?_⟩
    intro write hwrite
    exact bne_iff_ne.2 (hafter write (List.mem_reverse.1 hwrite)).symm

theorem lastType?_eq_none_iff {writes : List (Text × FieldType)} {field : Text} :
    lastType? writes field = none ↔ ∀ write ∈ writes, write.1 ≠ field := by
  rw [lastType?, List.lookup_eq_none_iff]
  simp only [List.mem_reverse, bne_iff_ne, ne_comm (a := field)]

/-- The entries of a schema hold one write for each field. -/
theorem lastType?_entries (schema : Schema) (field : Text) :
    lastType? schema.entries field = schema.get? field := by
  have hmem : ∀ type, lastType? schema.entries field = some type →
      schema.get? field = some type := by
    intro type h
    have hmem := mem_of_lookup h
    exact mem_entries_iff.1 (List.mem_reverse.1 hmem)
  cases hlast : lastType? schema.entries field with
  | some type => exact (hmem type hlast).symm
  | none =>
    cases hget : schema.get? field with
    | none => rfl
    | some type =>
      exact absurd rfl (lastType?_eq_none_iff.1 hlast _ (mem_entries_iff.2 hget))

theorem get?_insertMany (schema : Schema) (entries : List (Text × FieldType)) (field : Text) :
    (schema.insertMany entries).get? field =
      (lastType? entries field).or (schema.get? field) := by
  induction entries generalizing schema with
  | nil => rfl
  | cons entry entries ih =>
    have hlast : lastType? (entry :: entries) field =
        (lastType? entries field).or (if field = entry.1 then some entry.2 else none) := by
      rw [← List.singleton_append, lastType?_append, lastType?, lastType?, List.reverse_singleton,
        lookup_cons_eq]
      rfl
    have hrest : schema.insertMany (entry :: entries) =
        (schema.insert entry.1 entry.2).insertMany entries := rfl
    rw [hrest, ih, get?_insert, hlast, Option.or_assoc]
    split_ifs
    · rfl
    · rfl

theorem get?_ofEntries (entries : List (Text × FieldType)) (field : Text) :
    (ofEntries entries).get? field = lastType? entries field := by
  rw [ofEntries, get?_insertMany, get?_empty, Option.or_none]

theorem get?_merge (schema other : Schema) (field : Text) :
    (schema.merge other).get? field = (other.get? field).or (schema.get? field) := by
  rw [merge, get?_insertMany, lastType?_entries]

/-! ### Types given by name -/

def readType (entry : Text × Text) : Except InvalidType (Text × FieldType) :=
  match FieldType.ofName? entry.2 with
  | none => .error ⟨entry.1, entry.2⟩
  | some type => .ok (entry.1, type)

theorem readTypes_eq_mapM (entries : List (Text × Text)) :
    readTypes entries = entries.mapM readType := by
  induction entries with
  | nil => rfl
  | cons entry entries ih =>
    obtain ⟨field, typeName⟩ := entry
    rw [readTypes, List.mapM_cons, ih, readType]
    cases FieldType.ofName? typeName with
    | none => rfl
    | some type =>
      cases entries.mapM readType with
      | error _ => rfl
      | ok _ => rfl

theorem exists_readType_eq_ok {entry : Text × Text} :
    (∃ typed, readType entry = .ok typed) ↔ FieldType.ofName? entry.2 ≠ none := by
  unfold readType
  cases FieldType.ofName? entry.2 with
  | none => simp
  | some type => simp

theorem readType_eq_error_iff {entry : Text × Text} {error : InvalidType} :
    readType entry = .error error ↔
      entry = (error.field, error.typeName) ∧ FieldType.ofName? error.typeName = none := by
  constructor
  · intro h
    unfold readType at h
    split at h
    · rename_i hnone
      cases h
      exact ⟨rfl, hnone⟩
    · cases h
  · rintro ⟨rfl, hnone⟩
    simp [readType, hnone]

/-- The first text that names no type is reported, with the field that it was given for. -/
theorem ofTypeNames_eq_error_iff {entries : List (Text × Text)} {error : InvalidType} :
    ofTypeNames entries = .error error ↔
      ∃ before after, entries = before ++ (error.field, error.typeName) :: after ∧
        (∀ type, ¬ FieldType.Names error.typeName type) ∧
        ∀ entry ∈ before, ∃ type, FieldType.Names entry.2 type := by
  rw [ofTypeNames, map_eq_error, readTypes_eq_mapM, mapM_eq_error]
  simp only [readType_eq_error_iff, exists_readType_eq_ok, FieldType.ofName?_eq_none_iff,
    FieldType.ofName?_ne_none_iff]
  constructor
  · rintro ⟨before, entry, after, rfl, ⟨rfl, hnone⟩, hbefore⟩
    exact ⟨before, after, rfl, hnone, hbefore⟩
  · rintro ⟨before, after, rfl, hnone, hbefore⟩
    exact ⟨before, _, after, rfl, ⟨rfl, hnone⟩, hbefore⟩

def named (entries : List (Text × Text)) : List (Text × FieldType) :=
  entries.filterMap fun entry => (FieldType.ofName? entry.2).map (entry.1, ·)

theorem readTypes_eq_named {entries : List (Text × Text)}
    (h : ∀ entry ∈ entries, FieldType.ofName? entry.2 ≠ none) :
    readTypes entries = .ok (named entries) := by
  rw [readTypes_eq_mapM]
  apply mapM_eq_filterMap
  intro entry hentry
  obtain ⟨type, htype⟩ := Option.ne_none_iff_exists'.1 (h entry hentry)
  exact ⟨(entry.1, type), by simp [readType, htype], by simp [htype]⟩

theorem ofTypeNames_eq_named {entries : List (Text × Text)}
    (h : ∀ entry ∈ entries, FieldType.ofName? entry.2 ≠ none) :
    ofTypeNames entries = .ok (ofEntries (named entries)) := by
  rw [ofTypeNames, readTypes_eq_named h]
  rfl

theorem exists_ofTypeNames_eq_ok {entries : List (Text × Text)} :
    (∃ schema, ofTypeNames entries = .ok schema) ↔
      ∀ entry ∈ entries, FieldType.ofName? entry.2 ≠ none := by
  constructor
  · rintro ⟨schema, hschema⟩
    obtain ⟨typed, htyped, -⟩ := map_eq_ok.1 hschema
    rw [readTypes_eq_mapM] at htyped
    intro entry hentry
    exact exists_readType_eq_ok.1 (exists_mapM_eq_ok.1 ⟨typed, htyped⟩ entry hentry)
  · intro h
    exact ⟨_, ofTypeNames_eq_named h⟩

/-! ### Edits -/

inductive Edit
  | new
  | withField (name : Text) (type : FieldType)
  | ofTypeNames (entries : List (Text × Text))
  | ofEntries (entries : List (Text × FieldType))
  | merge (other : Schema)

namespace Edit

/-- The schema after an edit. Type names of which one is invalid leave it as it is. -/
def apply (schema : Schema) : Edit → Schema
  | new => .empty
  | withField name type => schema.insert name type
  | ofTypeNames entries =>
    match Schema.ofTypeNames entries with
    | .ok next => next
    | .error _ => schema
  | ofEntries entries => .ofEntries entries
  | merge other => schema.merge other

/-- The writes to the fields of a schema since it was last made anew, after an edit. -/
def record (writes : List (Text × FieldType)) : Edit → List (Text × FieldType)
  | new => []
  | withField name type => writes ++ [(name, type)]
  | ofTypeNames entries =>
    if ∀ entry ∈ entries, FieldType.ofName? entry.2 ≠ none then named entries else writes
  | ofEntries entries => entries
  | merge other => writes ++ other.entries

end Edit

def edited (edits : List Edit) : Schema := edits.foldl Edit.apply .empty

/-- The writes since the schema was last made anew, in their order. -/
def writes (edits : List Edit) : List (Text × FieldType) := edits.foldl Edit.record []

/-- What an edit does to the types of fields is what it records. -/
theorem get?_apply {schema : Schema} {writes : List (Text × FieldType)}
    (h : ∀ field, schema.get? field = lastType? writes field) (edit : Edit) (field : Text) :
    (edit.apply schema).get? field = lastType? (edit.record writes) field := by
  cases edit with
  | new => rfl
  | withField name type =>
    rw [Edit.apply, Edit.record, get?_insert, lastType?_append, h, lastType?, lastType?,
      List.reverse_singleton, lookup_cons_eq]
    split_ifs
    · rfl
    · rfl
  | ofTypeNames entries =>
    rw [Edit.record]
    split_ifs with hvalid
    · rw [Edit.apply, ofTypeNames_eq_named hvalid]
      exact get?_ofEntries (named entries) field
    · rw [Edit.apply]
      cases hschema : Schema.ofTypeNames entries with
      | ok next => exact absurd (exists_ofTypeNames_eq_ok.1 ⟨next, hschema⟩) hvalid
      | error error => exact h field
  | ofEntries entries => exact get?_ofEntries entries field
  | merge other =>
    rw [Edit.apply, Edit.record, get?_merge, lastType?_append, lastType?_entries, h]

theorem get?_edited (edits : List Edit) (field : Text) :
    (edited edits).get? field = lastType? (writes edits) field := by
  have hrun : ∀ (schema : Schema) (written : List (Text × FieldType)),
      (∀ field, schema.get? field = lastType? written field) → ∀ field,
        (edits.foldl Edit.apply schema).get? field =
          lastType? (edits.foldl Edit.record written) field := by
    induction edits with
    | nil => exact fun _ _ h => h
    | cons edit edits ih => exact fun _ _ h => ih _ _ (get?_apply h edit)
  exact hrun .empty [] get?_empty field

/-- Through any history the last write wins. -/
theorem edited_lastWrite (edits : List Edit) :
    (∀ field type, (edited edits).get? field = some type ↔
      ∃ before after, writes edits = before ++ (field, type) :: after ∧
        ∀ write ∈ after, write.1 ≠ field) ∧
    (∀ field type, (edited edits).resolve field = .ok type ↔
      (edited edits).get? field = some type) ∧
    (∀ field error, (edited edits).resolve field = .error error ↔
      (edited edits).get? field = none ∧ error = .unknownField field) ∧
    ((edited edits).entries.Pairwise fun entry later =>
      List.Lex (fun c d : Char => c.toNat < d.toNat) entry.1 later.1) ∧
    (∀ name type, (name, type) ∈ (edited edits).entries ↔
      (edited edits).get? name = some type) ∧
    (edited edits).size = (edited edits).entries.length ∧
    ((edited edits).isEmpty = true ↔ (edited edits).size = 0) ∧
    ∀ entries error, ofTypeNames entries = .error error ↔
      ∃ before after, entries = before ++ (error.field, error.typeName) :: after ∧
        (∀ type, ¬ FieldType.Names error.typeName type) ∧
        ∀ entry ∈ before, ∃ type, FieldType.Names entry.2 type := by
  refine ⟨fun field type => ?_, fun _ _ => resolve_eq_ok_iff, fun _ _ => resolve_eq_error_iff, ?_,
    fun _ _ => mem_entries_iff, rfl, ?_, fun _ _ => ofTypeNames_eq_error_iff⟩
  · rw [get?_edited, lastType?_eq_some_iff]
  · exact (edited edits).ordered.imp fun hprecedes => Text.precedes_iff_lex.1 hprecedes
  · rw [isEmpty, size, List.isEmpty_iff, List.length_eq_zero_iff]

end Schema

end FilterQuery
