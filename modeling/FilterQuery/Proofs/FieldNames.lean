import FilterQuery.Proofs.CompiledLeaves
import FilterQuery.Proofs.ConditionGrammar
import FilterQuery.Proofs.Lexemes
import FilterQuery.Proofs.StatementOpening

/-!
# Field names

The field names of a condition are those of its tokens, one by one, and each of them is a word of
the text without the marks in front of it. A word without marks is an identifier. What follows marks
need not be one: it may be empty, or begin with a numeral or a point. Every leaf that a condition
compiles to begins with one of its field names.
-/

namespace FilterQuery

open Outcome

namespace Token

def fieldName? : Token → Option Text
  | field name => some name
  | _ => none

@[simp] theorem fieldName?_field (name : Text) : (field name).fieldName? = some name := rfl

@[simp] theorem fieldName?_keyword (word : Keyword) : (keyword word).fieldName? = none := rfl

@[simp] theorem fieldName?_comparator (op : Comparator) : (comparator op).fieldName? = none := rfl

@[simp] theorem fieldName?_opening : opening.fieldName? = none := rfl

@[simp] theorem fieldName?_closing : closing.fieldName? = none := rfl

@[simp] theorem fieldName?_comma : comma.fieldName? = none := rfl

theorem fieldName?_eq_some_iff {token : Token} {name : Text} :
    token.fieldName? = some name ↔ token = .field name := by
  cases token <;> simp [fieldName?]

theorem fieldName?_of_isLiteral {token : Token} {value : Literal} (h : token.IsLiteral value) :
    token.fieldName? = none := by
  cases h <;> rfl

end Token

namespace Condition

open Token

/-! ### Names in order -/

theorem fields_negatedIf (negated : Bool) (predicate : Condition) :
    (negatedIf negated predicate).fields = predicate.fields := by
  cases negated <;> rfl

theorem fieldNames_negationMark (negated : Bool) :
    (negationMark negated).filterMap fieldName? = [] := by
  cases negated <;> rfl

theorem fieldNames_members {tokens : List Token} {values : List Literal}
    (h : Members tokens values) : tokens.filterMap fieldName? = [] := by
  induction h with
  | single hliteral => simp [fieldName?_of_isLiteral hliteral]
  | more _ hliteral ih => simp [List.filterMap_cons, ih, fieldName?_of_isLiteral hliteral]

theorem fields_of_predicate {tokens : List Token} {predicate : Condition}
    (h : Predicate tokens predicate) : predicate.fields = tokens.filterMap fieldName? := by
  cases h with
  | compare field op hliteral =>
    simp [fields, List.filterMap_cons, fieldName?_of_isLiteral hliteral]
  | between field negated hlow hhigh =>
    simp [fields_negatedIf, fields, List.filterMap_cons, fieldNames_negationMark,
      fieldName?_of_isLiteral hlow, fieldName?_of_isLiteral hhigh]
  | inNone field negated => simp [fields, List.filterMap_cons, fieldNames_negationMark]
  | inList field negated hmembers =>
    simp [fields, List.filterMap_cons, fieldNames_negationMark, fieldNames_members hmembers]
  | like field negated hliteral =>
    simp [fields_negatedIf, fields, List.filterMap_cons, fieldNames_negationMark,
      fieldName?_of_isLiteral hliteral]
  | isNull field negated => simp [fields, List.filterMap_cons, fieldNames_negationMark]

/-- The field names of a condition are those of its tokens, one by one. -/
theorem fields_of_derives {part : Part} {tokens : List Token} {condition : Condition}
    {nesting : Nat} (h : Derives part tokens condition nesting) :
    condition.fields = tokens.filterMap fieldName? := by
  induction h with
  | conjunction _ ih | negation _ ih | primary _ ih => exact ih
  | or _ _ ihl ihr => simp [fields, List.filterMap_cons, ihl, ihr]
  | and _ _ ihl ihr => simp [fields, List.filterMap_cons, ihl, ihr]
  | not _ ih => simp [fields, List.filterMap_cons, ih]
  | predicate hpredicate => exact fields_of_predicate hpredicate
  | group _ ih => simp [fields, List.filterMap_cons, ih]

end Condition

/-! ### Names and words -/

namespace Token

def ContinuesName (c : Char) : Prop :=
  Text.isLetter c = true ∨ Text.isNumeral c = true ∨ c = '_' ∨ c = '.' ∨ c = '@'

/-- A letter or an underscore, and what a name may go on with. -/
def IsIdentifier : Text → Prop
  | [] => False
  | first :: rest =>
    (Text.isLetter first = true ∨ first = '_') ∧ ∀ c ∈ rest, ContinuesName c

/-- What stands right behind a mark of the text where no identifier begins. -/
structure IsStray (text name : Text) : Prop where
  marked : '@' :: name <:+: text
  chars : ∀ c ∈ name, ContinuesName c
  first : ∀ c, name.head? = some c → Text.isLetter c = false ∧ c ≠ '_' ∧ c ≠ '@'

theorem IsStray.not_isIdentifier {text name : Text} (h : IsStray text name) :
    ¬ IsIdentifier name := by
  intro hidentifier
  cases name with
  | nil => exact hidentifier
  | cons c rest =>
    obtain ⟨hletter, hunderscore, -⟩ := h.first c rfl
    rcases hidentifier.1 with hc | hc
    · rw [hc] at hletter
      cases hletter
    · exact hunderscore hc

/-- What a text names: an identifier, or what follows a stray mark. -/
def IsName (text name : Text) : Prop := IsIdentifier name ∨ IsStray text name

theorem IsName.mono {text more name : Text} (h : IsName text name) (hpart : text <:+: more) :
    IsName more name := by
  rcases h with hidentifier | hstray
  · exact .inl hidentifier
  · exact .inr ⟨hstray.marked.trans hpart, hstray.chars, hstray.first⟩

/-- What is left without its marks still stands behind a mark. -/
theorem mark_suffix (rest : Text) : '@' :: rest.dropWhile (· == '@') <:+ '@' :: rest := by
  induction rest with
  | nil => exact List.suffix_refl _
  | cons next rest ih =>
    by_cases hnext : next = '@'
    · subst hnext
      exact ih.trans (List.suffix_cons '@' _)
    · rw [List.dropWhile_cons_of_neg (by simpa using hnext)]

theorem isName_of_mark {rest : Text} (h : ∀ c ∈ rest, ContinuesName c) :
    IsName ('@' :: rest) (rest.dropWhile (· == '@')) := by
  have hmarked := (mark_suffix rest).isInfix
  have hhead := List.head?_dropWhile_not (· == '@') rest
  have hchars := fun c hc => h c ((List.dropWhile_suffix (· == '@')).subset hc)
  cases hname : rest.dropWhile (· == '@') with
  | nil => exact .inr ⟨hname ▸ hmarked, by simp, by simp⟩
  | cons c tail =>
    rw [hname] at hhead hchars hmarked
    by_cases hfirst : Text.isLetter c = true ∨ c = '_'
    · exact .inl ⟨hfirst, fun d hd => hchars d (List.mem_cons_of_mem c hd)⟩
    · refine .inr ⟨hmarked, hchars, ?_⟩
      intro d hd
      obtain rfl : c = d := by simpa using hd
      simp only [not_or, Bool.not_eq_true] at hfirst
      exact ⟨hfirst.1, hfirst.2, by simpa using hhead⟩

theorem isName_of_isWord {word : Text} (h : IsWord word) :
    IsName word (word.dropWhile (· == '@')) := by
  cases word with
  | nil => exact h.elim
  | cons first rest =>
    obtain ⟨hfirst, hrest⟩ := h
    by_cases hmark : first = '@'
    · subst hmark
      exact isName_of_mark hrest
    · rw [List.dropWhile_cons_of_neg (by simpa using hmark)]
      exact .inl ⟨hfirst.imp_right fun h => h.resolve_right hmark, hrest⟩

theorem isName_of_lexeme {spelling name : Text} (h : Lexeme spelling (.field name)) :
    IsName spelling name := by
  cases h with
  | field hword _ => exact isName_of_isWord hword

end Token

namespace Condition

open Token

theorem ofText_fields {limit : Nat} {text : Text} {condition : Condition}
    (h : ofText limit text = .ok condition) : ∀ name ∈ condition.fields, IsName text name := by
  obtain ⟨tokens, hscan, hread⟩ := bind_eq_ok.1 h
  obtain ⟨nesting, -, hderives⟩ := derives_of_ofTokens hread
  obtain ⟨pieces, trailing, -, rfl, rfl⟩ := exists_pieces_of_scanFrom hscan
  intro name hname
  rw [fields_of_derives hderives, map_token_placed, List.mem_filterMap] at hname
  obtain ⟨token, htoken, hfield⟩ := hname
  obtain ⟨piece, hpiece, rfl⟩ := List.mem_map.1 htoken
  have hlexeme : Lexeme piece.lexeme (.field name) :=
    fieldName?_eq_some_iff.1 hfield ▸ piece.isLexeme
  have hpart : piece.lexeme <:+: pieces.flatMap Piece.text ++ trailing :=
    calc piece.lexeme <:+: piece.text := (List.suffix_append _ _).isInfix
      _ <:+: pieces.flatMap Piece.text := List.infix_of_mem_flatten (List.mem_map_of_mem hpiece)
      _ <:+: _ := (List.prefix_append _ _).isInfix
  exact (isName_of_lexeme hlexeme).mono hpart

theorem parse_fields {limit : Nat} {query : Text} {condition : Condition}
    (h : parse limit query = .ok condition) : ∀ name ∈ condition.fields, IsName query name := by
  unfold parse at h
  split at h
  · exact ofText_fields h
  · rename_i text htext
    intro name hname
    have hname := ofText_fields (mapError_eq_ok.1 h) name hname
    exact hname.mono (Statement.condition?_suffix htext).isInfix

end Condition

/-! ### Heads of leaves -/

namespace Compiler

/-- A leaf text that begins with the name of a field, negated or not, or that matches everything. -/
inductive Headed (nameOk : Text → Prop) : Text → Prop
  | matchAll : Headed nameOk ['*']
  | field {name : Text} (body : Text) : nameOk name → Headed nameOk ('@' :: name ++ ':' :: body)
  | negated {name : Text} (body : Text) : nameOk name →
    Headed nameOk ('-' :: '@' :: name ++ ':' :: body)

variable {nameOk : Text → Prop}

theorem LeafForm.headed {enclosedOk bareOk : Text → Prop} {boundsOk : Text → Text → Prop}
    {field : Text} {clause : Clause} (h : LeafForm enclosedOk bareOk boundsOk field clause)
    (hname : nameOk field) : clause.Each (Headed nameOk) fun field _ => nameOk field := by
  have hfield : ∀ body, Headed nameOk (fieldHead field ++ body) := by
    intro body
    simpa [fieldHead] using Headed.field body hname
  have hnegated : ∀ body, Headed nameOk ('-' :: fieldHead field ++ body) := by
    intro body
    simpa [fieldHead] using Headed.negated body hname
  have htag : ∀ values, Clause.tagText field values =
      fieldHead field ++ ('{' :: [','].intercalate values ++ ['}']) := by
    intro values
    simp [Clause.tagText, fieldHead]
  cases h with
  | tag _ => exact .tag hname
  | matchAll => exact .atom .matchAll
  | bare _ => exact .atom (hfield _)
  | notBare _ => exact .atom (hnegated _)
  | quoted _ =>
    apply Clause.Each.atom
    rw [List.append_assoc]
    exact hfield _
  | braced _ =>
    apply Clause.Each.atom
    rw [htag]
    exact hfield _
  | notBraced _ =>
    apply Clause.Each.atom
    rw [htag]
    exact hnegated _
  | range _ =>
    apply Clause.Each.atom
    rw [List.append_assoc, List.append_assoc]
    exact hfield _

theorem leafRules_of_any :
    LeafRules (fun _ _ => True) (fun _ => True) (fun _ => True) (fun _ _ => True) where
  figures _ _ _ := trivial
  enclosed _ _ := trivial
  pattern _ _ := trivial
  bare _ _ := ⟨trivial, trivial⟩
  own _ _ := trivial
  numbers _ _ _ := trivial
  bounds _ _ _ _ := trivial

theorem each_headed {compiler : Compiler} {condition : Condition} {clause : Clause}
    (h : compiler.clause condition = .ok clause) (hnames : ∀ name ∈ condition.fields, nameOk name) :
    clause.Each (Headed nameOk) fun field _ => nameOk field :=
  each_of_leafForms leafRules_of_any (compiles_of_clauseAt h)
    (fun field hfield _ hleaf => hleaf.headed (hnames field hfield)) fun _ _ _ => trivial

end Compiler

namespace Condition

open Token Compiler

/-- A field name of a condition that was read from text is an identifier exactly if it is not what
follows a stray mark of the text, and every leaf that the condition compiles to begins with one or
the other. -/
theorem parse_fieldNames {limit : Nat} {query : Text} {condition : Condition}
    (h : parse limit query = .ok condition) :
    (∀ name ∈ condition.fields, IsIdentifier name ↔ ¬ IsStray query name) ∧
      ∀ (compiler : Compiler) (clause : Clause), compiler.clause condition = .ok clause →
        clause.Each (Headed (IsName query)) fun field _ => IsName query field := by
  have hnames := parse_fields h
  constructor
  · intro name hname
    constructor
    · intro hidentifier hstray
      exact hstray.not_isIdentifier hidentifier
    · exact (hnames name hname).resolve_right
  · intro compiler clause hclause
    exact each_headed hclause hnames

/-- Marks before an identifier, and a mark before a numeral. -/
theorem parse_fieldNames_marks :
    let query := "@@age >= '5' AND @1 IS NULL".toList
    let condition : Condition :=
      .and (.compare "age".toList .ge (.string ['5'])) (.isNull ['1'] false)
    let clause : Clause :=
      .and (.atom "@age:[5 +inf]".toList) (.atom "@1:__NEVER_MATCH_NULL__".toList)
    parse 256 query = .ok condition ∧
      (∀ name ∈ condition.fields, IsIdentifier name ↔ ¬ IsStray query name) ∧
      clause.Each (Headed (IsName query)) fun field _ => IsName query field := by
  intro query condition clause
  have hparse : parse 256 query = .ok condition := by decide +kernel
  obtain ⟨hnames, hleaves⟩ := parse_fieldNames hparse
  exact ⟨hparse, hnames, hleaves ⟨.ofEntries [("age".toList, .numeric)], {}⟩ clause rfl⟩

/-- A mark by itself is read as a field without a name, and compiled to a leaf without one. -/
theorem parse_lone_mark :
    let condition : Condition := .between [] (.integer 1) (.integer 2)
    parse 256 "@ BETWEEN 1 AND 2".toList = .ok condition ∧ ¬ IsIdentifier [] ∧
      (⟨.empty, {}⟩ : Compiler).compile condition = .ok "@:[1 2]".toList := by
  refine ⟨by decide +kernel, id, ?_⟩
  decide +kernel

end Condition

end FilterQuery
