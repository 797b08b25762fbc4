import FilterQuery.Proofs.ClauseLeaves
import FilterQuery.Proofs.WrittenValues

/-!
# Leaves of compiled conditions

A condition compiles form by form, each at a depth within the limit. Every predicate compiles to
one of a few forms of leaf on its field, or to a union of such leaves. What is known of the
characters in a condition's strings is known of the values in those leaves, so a property of
compiled clauses needs to be checked form by form only.
-/

namespace FilterQuery

open Outcome

namespace Escape

/-- Text in which spaces, commas and backslashes stand behind a backslash, written in characters of
one kind otherwise. -/
inductive Escaped (ok : Char → Prop) : Text → Prop
  | nil : Escaped ok []
  | bare {c : Char} {rest : Text} : ok c → c ≠ '\\' → c ≠ ' ' → c ≠ ',' → Escaped ok rest →
    Escaped ok (c :: rest)
  | pair {c : Char} {rest : Text} : ok c → Escaped ok rest → Escaped ok ('\\' :: c :: rest)

namespace Escaped

variable {ok : Char → Prop}

theorem append {text more : Text} (h : Escaped ok text) (hmore : Escaped ok more) :
    Escaped ok (text ++ more) := by
  induction h with
  | nil => exact hmore
  | bare hok hbackslash hspace hcomma _ ih => exact .bare hok hbackslash hspace hcomma ih
  | pair hok _ ih => exact .pair hok ih

theorem ok_or_backslash {text : Text} (h : Escaped ok text) {c : Char} (hc : c ∈ text) :
    ok c ∨ c = '\\' := by
  induction h with
  | nil => simp at hc
  | bare hok _ _ _ _ ih =>
    rcases List.mem_cons.1 hc with rfl | hc
    · exact .inl hok
    · exact ih hc
  | pair hok _ ih =>
    rcases List.mem_cons.1 hc with rfl | hc
    · exact .inr rfl
    · rcases List.mem_cons.1 hc with rfl | hc
      · exact .inl hok
      · exact ih hc

theorem forall_mem {text : Text} (h : Escaped ok text) (hbackslash : ok '\\') :
    ∀ c ∈ text, ok c := by
  intro c hc
  rcases h.ok_or_backslash hc with hok | rfl
  · exact hok
  · exact hbackslash

theorem of_forall {text : Text}
    (h : ∀ c ∈ text, ok c ∧ c ≠ '\\' ∧ c ≠ ' ' ∧ c ≠ ',') : Escaped ok text := by
  induction text with
  | nil => exact .nil
  | cons c text ih =>
    obtain ⟨⟨hok, hbackslash, hspace, hcomma⟩, hrest⟩ := List.forall_mem_cons.1 h
    exact .bare hok hbackslash hspace hcomma (ih hrest)

theorem escapeChar {c : Char} (h : ok c) : Escaped ok (escapeChar c) := by
  unfold Escape.escapeChar
  split_ifs with hspecial
  · exact .pair h .nil
  · simp only [isSpecial, Bool.or_eq_true, beq_iff_eq, not_or] at hspecial
    exact .bare h (by tauto) (by tauto) (by tauto) .nil

theorem escape {raw : Text} (h : ∀ c ∈ raw, ok c) : Escaped ok (escape raw) := by
  induction raw with
  | nil => exact .nil
  | cons c raw ih =>
    obtain ⟨hc, hrest⟩ := List.forall_mem_cons.1 h
    exact (escapeChar hc).append (ih hrest)

theorem pattern {raw : Text} (hstar : ok '*') (hmark : ok '?') (h : ∀ c ∈ raw, ok c) :
    Escaped ok (pattern raw) := by
  induction raw with
  | nil => exact .nil
  | cons c raw ih =>
    obtain ⟨hc, hrest⟩ := List.forall_mem_cons.1 h
    rw [pattern_cons, patternChar]
    split_ifs
    · exact .bare hstar (by decide) (by decide) (by decide) (ih hrest)
    · exact .bare hmark (by decide) (by decide) (by decide) (ih hrest)
    · exact (escapeChar hc).append (ih hrest)

end Escaped

end Escape

namespace Condition

def fields : Condition → List Text
  | and left right | or left right => fields left ++ fields right
  | not inner | group inner => fields inner
  | compare field _ _ | between field _ _ | isIn field _ _ | like field _ | isNull field _ =>
    [field]

def strings : Condition → List Text
  | and left right | or left right => strings left ++ strings right
  | not inner | group inner => strings inner
  | compare _ _ value => value.strings
  | between _ low high => low.strings ++ high.strings
  | isIn _ values _ => values.flatMap Literal.strings
  | like _ pattern => pattern.strings
  | isNull _ _ => []

/-- Where a string may stand in the leaf that it is written into. -/
inductive Place
  /-- Between quotes or braces. -/
  | enclosed
  /-- Right behind the colon of the field, where nothing encloses it. -/
  | bare
  /-- As a bound of a range. -/
  | bound
deriving DecidableEq, Repr

/-- The strings of a condition with the places that they may be written in. -/
def places : Condition → List (Place × Text)
  | and left right | or left right => places left ++ places right
  | not inner | group inner => places inner
  | compare _ .ne value => value.strings.map (.bare, ·)
  | compare _ _ value => value.strings.map (.enclosed, ·)
  | between _ low high => (low.strings ++ high.strings).map (.bound, ·)
  | isIn _ values _ => (values.flatMap Literal.strings).map (.enclosed, ·)
  | like _ pattern => pattern.strings.map (.enclosed, ·)
  | isNull _ _ => []

theorem mem_strings_of_mem_places {condition : Condition} {place : Place} {s : Text}
    (h : (place, s) ∈ condition.places) : s ∈ condition.strings := by
  induction condition with
  | and left right ihl ihr | or left right ihl ihr =>
    rcases List.mem_append.1 h with h | h
    · exact List.mem_append_left _ (ihl h)
    · exact List.mem_append_right _ (ihr h)
  | not inner ih | group inner ih => exact ih h
  | compare field op value =>
    cases op <;>
    · obtain ⟨t, ht, heq⟩ := List.mem_map.1 h
      cases heq
      exact ht
  | between field low high | isIn field values negated | like field pattern =>
    obtain ⟨t, ht, heq⟩ := List.mem_map.1 h
    cases heq
    exact ht
  | isNull field negated => simp [places] at h

end Condition

namespace Compiler

open Escape

/-- Characters that come from the compiler and not from a string. -/
def isOwnChar (c : Char) : Bool :=
  c.isAlphanum || c == '_' || c == '*' || c == '?' || Numeral.isFigure c

/-- The forms of leaves on a field, by what is known of their values and of their bounds. -/
inductive LeafForm (enclosedOk bareOk : Text → Prop) (boundsOk : Text → Text → Prop)
    (field : Text) : Clause → Prop
  | quoted {value : Text} : enclosedOk value →
    LeafForm enclosedOk bareOk boundsOk field (quoted field value)
  | tag {value : Text} : enclosedOk value →
    LeafForm enclosedOk bareOk boundsOk field (.tag field [value])
  | braced {value : Text} : enclosedOk value →
    LeafForm enclosedOk bareOk boundsOk field (braced field value)
  | bare {value : Text} : bareOk value →
    LeafForm enclosedOk bareOk boundsOk field (.atom (fieldHead field ++ value))
  | notBare {value : Text} : bareOk value →
    LeafForm enclosedOk bareOk boundsOk field (.atom ('-' :: fieldHead field ++ value))
  | notBraced {value : Text} : enclosedOk value →
    LeafForm enclosedOk bareOk boundsOk field (.atom ('-' :: Clause.tagText field [value]))
  | range {low high : Text} : boundsOk low high →
    LeafForm enclosedOk bareOk boundsOk field (range field low high)
  | matchAll : LeafForm enclosedOk bareOk boundsOk field matchAll

/-- How what is known of strings at their places carries over to the leaves they are written into.
Numbers and the compiler's own words are known of as well as any string. -/
structure LeafRules (stringOk : Condition.Place → Text → Prop) (enclosedOk bareOk : Text → Prop)
    (boundsOk : Text → Text → Prop) : Prop where
  figures : ∀ place t, (∀ c ∈ t, Numeral.isFigure c = true) → stringOk place t
  enclosed : ∀ t, stringOk .enclosed t → enclosedOk (escape t)
  pattern : ∀ t, stringOk .enclosed t → enclosedOk (pattern t)
  bare : ∀ t, stringOk .bare t → enclosedOk (escape t) ∧ bareOk (escape t)
  own : ∀ t, (∀ c ∈ t, isOwnChar c = true) → bareOk t
  numbers : ∀ low high, (∀ c ∈ low ++ high, isOwnChar c = true ∨ c = '(') → boundsOk low high
  bounds : ∀ low high, stringOk .bound low → stringOk .bound high → boundsOk low high

/-- What each form of condition compiles to, at a depth within the limit. -/
inductive Compiles (compiler : Compiler) : Nat → Condition → Clause → Prop
  | and {depth : Nat} {left right : Condition} {l r : Clause} :
    depth ≤ compiler.options.maxDepth → Compiles compiler (depth + 1) left l →
    Compiles compiler (depth + 1) right r → Compiles compiler depth (.and left right) (.and l r)
  | or {depth : Nat} {left right : Condition} {l r : Clause} :
    depth ≤ compiler.options.maxDepth → Compiles compiler (depth + 1) left l →
    Compiles compiler (depth + 1) right r → Compiles compiler depth (.or left right) (.or [l, r])
  | not {depth : Nat} {inner : Condition} {clause : Clause} : depth ≤ compiler.options.maxDepth →
    Compiles compiler (depth + 1) inner clause → Compiles compiler depth (.not inner) (.not clause)
  | group {depth : Nat} {inner : Condition} {clause : Clause} : depth ≤ compiler.options.maxDepth →
    Compiles compiler (depth + 1) inner clause →
    Compiles compiler depth (.group inner) (.group clause)
  | compare {depth : Nat} {field : Text} {op : Comparator} {value : Literal} {type : FieldType}
    {clause : Clause} : depth ≤ compiler.options.maxDepth →
    compiler.schema.resolve field = .ok type → compare type field op value = .ok clause →
    Compiles compiler depth (.compare field op value) clause
  | between {depth : Nat} {field : Text} {low high : Literal} {clause : Clause} :
    depth ≤ compiler.options.maxDepth → between field low high = .ok clause →
    Compiles compiler depth (.between field low high) clause
  | isIn {depth : Nat} {field : Text} {values : List Literal} {negated : Bool} {type : FieldType}
    {clause : Clause} : depth ≤ compiler.options.maxDepth →
    compiler.schema.resolve field = .ok type →
    isIn compiler.options.emptyList type field values negated = .ok clause →
    Compiles compiler depth (.isIn field values negated) clause
  | like {depth : Nat} {field : Text} {pattern : Literal} {type : FieldType} {clause : Clause} :
    depth ≤ compiler.options.maxDepth → compiler.schema.resolve field = .ok type →
    like type field pattern = .ok clause → Compiles compiler depth (.like field pattern) clause
  | isNull {depth : Nat} {field : Text} {negated : Bool} : depth ≤ compiler.options.maxDepth →
    Compiles compiler depth (.isNull field negated) (isNull field negated)

theorem compiles_of_clauseAt {compiler : Compiler} {depth : Nat} {condition : Condition}
    {clause : Clause} (h : compiler.clauseAt depth condition = .ok clause) :
    compiler.Compiles depth condition clause := by
  induction condition generalizing depth clause with
  | and left right ihl ihr =>
    rw [clauseAt] at h
    split_ifs at h with hdepth
    obtain ⟨l, hl, h⟩ := bind_eq_ok.1 h
    obtain ⟨r, hr, h⟩ := bind_eq_ok.1 h
    obtain rfl := pure_eq_ok.1 h
    exact .and (Nat.not_lt.1 hdepth) (ihl hl) (ihr hr)
  | or left right ihl ihr =>
    rw [clauseAt] at h
    split_ifs at h with hdepth
    obtain ⟨l, hl, h⟩ := bind_eq_ok.1 h
    obtain ⟨r, hr, h⟩ := bind_eq_ok.1 h
    obtain rfl := pure_eq_ok.1 h
    exact .or (Nat.not_lt.1 hdepth) (ihl hl) (ihr hr)
  | not inner ih =>
    rw [clauseAt] at h
    split_ifs at h with hdepth
    obtain ⟨c, hc, rfl⟩ := map_eq_ok.1 h
    exact .not (Nat.not_lt.1 hdepth) (ih hc)
  | group inner ih =>
    rw [clauseAt] at h
    split_ifs at h with hdepth
    obtain ⟨c, hc, rfl⟩ := map_eq_ok.1 h
    exact .group (Nat.not_lt.1 hdepth) (ih hc)
  | compare field op value =>
    rw [clauseAt] at h
    split_ifs at h with hdepth
    obtain ⟨type, htype, hclause⟩ := bind_eq_ok.1 h
    exact .compare (Nat.not_lt.1 hdepth) htype hclause
  | between field low high =>
    rw [clauseAt] at h
    split_ifs at h with hdepth
    exact .between (Nat.not_lt.1 hdepth) h
  | isIn field values negated =>
    rw [clauseAt] at h
    split_ifs at h with hdepth
    obtain ⟨type, htype, hclause⟩ := bind_eq_ok.1 h
    exact .isIn (Nat.not_lt.1 hdepth) htype hclause
  | like field pattern =>
    rw [clauseAt] at h
    split_ifs at h with hdepth
    obtain ⟨type, htype, hclause⟩ := bind_eq_ok.1 h
    exact .like (Nat.not_lt.1 hdepth) htype hclause
  | isNull field negated =>
    rw [clauseAt] at h
    split_ifs at h with hdepth
    cases h
    exact .isNull (Nat.not_lt.1 hdepth)

theorem isOwnChar_of_isFigure {c : Char} (h : Numeral.isFigure c = true) : isOwnChar c = true := by
  simp [isOwnChar, h]

section Leaf

variable {stringOk : Condition.Place → Text → Prop} {enclosedOk bareOk : Text → Prop}
  {boundsOk : Text → Text → Prop} (rules : LeafRules stringOk enclosedOk bareOk boundsOk)
include rules

theorem stringOk_text {place : Condition.Place} {value : Literal}
    (hstring : ∀ s ∈ value.strings, stringOk place s) {t : Text} (h : value.text = .ok t) :
    stringOk place t := by
  rcases Literal.mem_strings_or_isFigure h with hmem | hfigures
  · exact hstring t hmem
  · exact rules.figures place t hfigures

theorem leaf_numbers {field low high : Text}
    (hlow : ∀ c ∈ low, isOwnChar c = true ∨ c = '(')
    (hhigh : ∀ c ∈ high, isOwnChar c = true ∨ c = '(') :
    LeafForm enclosedOk bareOk boundsOk field (Compiler.range field low high) :=
  .range (rules.numbers low high (List.forall_mem_append.2 ⟨hlow, hhigh⟩))

theorem leaf_equals {type : FieldType} {field : Text} {value : Literal} {clause : Clause}
    (hstring : ∀ s ∈ value.strings, stringOk .enclosed s)
    (h : equals type field value = .ok clause) :
    LeafForm enclosedOk bareOk boundsOk field clause := by
  cases type with
  | text =>
    obtain ⟨v, hv, rfl⟩ := map_eq_ok.1 h
    obtain ⟨raw, hraw, rfl⟩ := map_eq_ok.1 hv
    exact .quoted (rules.enclosed raw (stringOk_text rules hstring hraw))
  | tag =>
    obtain ⟨v, hv, rfl⟩ := map_eq_ok.1 h
    obtain ⟨raw, hraw, rfl⟩ := map_eq_ok.1 hv
    exact .tag (rules.enclosed raw (stringOk_text rules hstring hraw))
  | numeric =>
    obtain ⟨v, hv, rfl⟩ := map_eq_ok.1 h
    have hbound : ∀ c ∈ v, isOwnChar c = true ∨ c = '(' :=
      fun c hc => .inl (isOwnChar_of_isFigure (Literal.isFigure_of_mem_numericText hv hc))
    exact leaf_numbers rules hbound hbound

theorem leaf_differs {type : FieldType} {field : Text} {value : Literal} {clause : Clause}
    (hstring : ∀ s ∈ value.strings, stringOk .bare s) (h : differs type field value = .ok clause) :
    LeafForm enclosedOk bareOk boundsOk field clause := by
  cases type with
  | text =>
    obtain ⟨v, hv, rfl⟩ := map_eq_ok.1 h
    obtain ⟨raw, hraw, rfl⟩ := map_eq_ok.1 hv
    exact .notBare (rules.bare raw (stringOk_text rules hstring hraw)).2
  | tag =>
    obtain ⟨v, hv, rfl⟩ := map_eq_ok.1 h
    obtain ⟨raw, hraw, rfl⟩ := map_eq_ok.1 hv
    exact .notBraced (rules.bare raw (stringOk_text rules hstring hraw)).1
  | numeric =>
    obtain ⟨v, hv, rfl⟩ := map_eq_ok.1 h
    refine .notBare (rules.own v fun c hc => ?_)
    exact isOwnChar_of_isFigure (Literal.isFigure_of_mem_numericText hv hc)

omit rules in
theorem ordered_eq_ok {type : FieldType} {field : Text} {op : Comparator} {value : Literal}
    {write : Text → Clause} {clause : Clause} (h : ordered type field op value write = .ok clause) :
    type = .numeric ∧ ∃ v, value.numericText = .ok v ∧ clause = write v := by
  cases type with
  | text => cases h
  | tag => cases h
  | numeric =>
    obtain ⟨v, hv, rfl⟩ := map_eq_ok.1 h
    exact ⟨rfl, v, hv, rfl⟩

theorem leaf_compare {type : FieldType} {field : Text} {op : Comparator} {value : Literal}
    {clause : Clause}
    (hstring : ∀ place s, (place, s) ∈ (Condition.compare field op value).places →
      stringOk place s)
    (h : compare type field op value = .ok clause) :
    LeafForm enclosedOk bareOk boundsOk field clause := by
  have hbound : ∀ {v}, value.numericText = .ok v → ∀ c ∈ v, isOwnChar c = true ∨ c = '(' :=
    fun hv c hc => .inl (isOwnChar_of_isFigure (Literal.isFigure_of_mem_numericText hv hc))
  have hexclusive : ∀ {v}, value.numericText = .ok v →
      ∀ c ∈ exclusive v, isOwnChar c = true ∨ c = '(' :=
    fun hv => List.forall_mem_cons.2 ⟨.inr rfl, hbound hv⟩
  have hword : ∀ {word : Text}, word.all isOwnChar = true →
      ∀ c ∈ word, isOwnChar c = true ∨ c = '(' :=
    fun hall c hc => .inl (List.all_eq_true.1 hall c hc)
  have hinfinite := hword (by decide : infinite.all isOwnChar = true)
  have hnegative := hword (by decide : negativeInfinite.all isOwnChar = true)
  cases op with
  | eq => exact leaf_equals rules (fun s hs => hstring _ s (List.mem_map_of_mem hs)) h
  | ne => exact leaf_differs rules (fun s hs => hstring _ s (List.mem_map_of_mem hs)) h
  | gt =>
    obtain ⟨-, v, hv, rfl⟩ := ordered_eq_ok h
    exact leaf_numbers rules (hexclusive hv) hinfinite
  | ge =>
    obtain ⟨-, v, hv, rfl⟩ := ordered_eq_ok h
    exact leaf_numbers rules (hbound hv) hinfinite
  | lt =>
    obtain ⟨-, v, hv, rfl⟩ := ordered_eq_ok h
    exact leaf_numbers rules hnegative (hexclusive hv)
  | le =>
    obtain ⟨-, v, hv, rfl⟩ := ordered_eq_ok h
    exact leaf_numbers rules hnegative (hbound hv)

theorem leaf_between {field : Text} {low high : Literal} {clause : Clause}
    (hstring : ∀ s ∈ low.strings ++ high.strings, stringOk .bound s)
    (h : between field low high = .ok clause) :
    LeafForm enclosedOk bareOk boundsOk field clause := by
  obtain ⟨hlow, hhigh⟩ := List.forall_mem_append.1 hstring
  obtain ⟨l, hl, h⟩ := bind_eq_ok.1 h
  obtain ⟨u, hu, h⟩ := bind_eq_ok.1 h
  obtain rfl := pure_eq_ok.1 h
  exact .range (rules.bounds l u (stringOk_text rules hlow hl) (stringOk_text rules hhigh hu))

theorem leaf_like {type : FieldType} {field : Text} {pattern : Literal} {clause : Clause}
    (hstring : ∀ s ∈ pattern.strings, stringOk .enclosed s)
    (h : like type field pattern = .ok clause) :
    LeafForm enclosedOk bareOk boundsOk field clause := by
  obtain ⟨raw, hraw, h⟩ := bind_eq_ok.1 h
  have hpattern := rules.pattern raw (stringOk_text rules hstring hraw)
  cases type with
  | text =>
    obtain rfl := pure_eq_ok.1 h
    exact .quoted hpattern
  | tag =>
    obtain rfl := pure_eq_ok.1 h
    exact .braced hpattern
  | numeric => cases h

theorem leaf_neverMatch (field : Text) :
    LeafForm enclosedOk bareOk boundsOk field (neverMatch field) :=
  .bare (rules.own _ (List.all_eq_true.1 (by decide)))

theorem leaf_isNull (field : Text) (negated : Bool) :
    LeafForm enclosedOk bareOk boundsOk field (isNull field negated) := by
  cases negated with
  | true => exact .matchAll
  | false => exact .bare (rules.own _ (List.all_eq_true.1 (by decide)))

/-- The clauses of a list are leaves, one for each value. -/
theorem leaf_members {type : FieldType} {field : Text} {values : List Literal}
    {clauses : List Clause} (hstring : ∀ value ∈ values, ∀ s ∈ value.strings, stringOk .enclosed s)
    (h : members type field values = .ok clauses) :
    clauses.length = values.length ∧
      ∀ clause ∈ clauses, LeafForm enclosedOk bareOk boundsOk field clause := by
  induction values generalizing clauses with
  | nil =>
    cases h
    exact ⟨rfl, by simp⟩
  | cons value values ih =>
    obtain ⟨hvalue, hrest⟩ := List.forall_mem_cons.1 hstring
    obtain ⟨clause, hclause, h⟩ := bind_eq_ok.1 h
    rw [member_eq_equals] at hclause
    obtain ⟨rest, hclauses, h⟩ := bind_eq_ok.1 h
    obtain rfl := pure_eq_ok.1 h
    obtain ⟨hlength, hleaves⟩ := ih hrest hclauses
    exact ⟨by simp [hlength], List.forall_mem_cons.2 ⟨leaf_equals rules hvalue hclause, hleaves⟩⟩

omit rules in
/-- A list without usable values never matches, and any other list is the union of its members. -/
theorem isIn_eq_ok {policy : EmptyListPolicy} {type : FieldType} {field : Text}
    {values : List Literal} {negated : Bool} {clause : Clause}
    (h : isIn policy type field values negated = .ok clause) :
    (values.filter fun value => !value.isNull) = [] ∧ (values = [] → policy = .neverMatch) ∧
        clause = neverMatch field ∨
      (values.filter fun value => !value.isNull) ≠ [] ∧
        ∃ clauses, members type field (values.filter fun value => !value.isNull) = .ok clauses ∧
          clause = if negated then .not (.or clauses) else .or clauses := by
  unfold isIn at h
  split at h
  · rename_i hempty
    obtain rfl := List.isEmpty_iff.1 hempty
    cases policy with
    | reject => cases h
    | neverMatch =>
      cases h
      exact .inl ⟨rfl, fun _ => rfl, rfl⟩
  · rename_i hempty
    dsimp only at h
    split at h
    · rename_i husable
      cases h
      have hpolicy : values = [] → policy = .neverMatch :=
        fun hnil => absurd (List.isEmpty_iff.2 hnil) hempty
      exact .inl ⟨List.isEmpty_iff.1 husable, hpolicy, rfl⟩
    · rename_i husable
      obtain ⟨clauses, hclauses, rfl⟩ := map_eq_ok.1 h
      exact .inr ⟨fun hnil => husable (List.isEmpty_iff.2 hnil), clauses, hclauses, rfl⟩

variable {atomOk : Text → Prop} {tagOk : Text → List Text → Prop}

theorem each_isIn {policy : EmptyListPolicy} {type : FieldType} {field : Text}
    {values : List Literal} {negated : Bool} {clause : Clause}
    (hleaf : ∀ clause, LeafForm enclosedOk bareOk boundsOk field clause →
      clause.Each atomOk tagOk)
    (hstring : ∀ value ∈ values, ∀ s ∈ value.strings, stringOk .enclosed s)
    (h : isIn policy type field values negated = .ok clause) : clause.Each atomOk tagOk := by
  obtain ⟨-, -, rfl⟩ | ⟨husable, clauses, hclauses, rfl⟩ := isIn_eq_ok h
  · exact hleaf _ (leaf_neverMatch rules field)
  · obtain ⟨hlength, hleaves⟩ := leaf_members rules
      (fun value hvalue => hstring value (List.mem_of_mem_filter hvalue)) hclauses
    have hne : clauses ≠ [] := by
      rintro rfl
      exact husable (List.length_eq_zero_iff.1 hlength.symm)
    have hunion : (Clause.or clauses).Each atomOk tagOk :=
      .or hne fun clause hclause => hleaf clause (hleaves clause hclause)
    cases negated with
    | true => exact .not hunion
    | false => exact hunion

/-- What holds of every form of leaf holds throughout a compiled clause. -/
theorem each_of_leafForms {compiler : Compiler} {depth : Nat} {condition : Condition}
    {clause : Clause} (h : compiler.Compiles depth condition clause)
    (hleaf : ∀ field ∈ condition.fields, ∀ clause,
      LeafForm enclosedOk bareOk boundsOk field clause → clause.Each atomOk tagOk)
    (hstring : ∀ place s, (place, s) ∈ condition.places → stringOk place s) :
    clause.Each atomOk tagOk := by
  induction h with
  | and _ _ _ ihl ihr =>
    obtain ⟨hleafLeft, hleafRight⟩ := List.forall_mem_append.1 hleaf
    have hstringLeft := fun place s hs => hstring place s (List.mem_append_left _ hs)
    have hstringRight := fun place s hs => hstring place s (List.mem_append_right _ hs)
    exact .and (ihl hleafLeft hstringLeft) (ihr hleafRight hstringRight)
  | or _ _ _ ihl ihr =>
    obtain ⟨hleafLeft, hleafRight⟩ := List.forall_mem_append.1 hleaf
    have hstringLeft := fun place s hs => hstring place s (List.mem_append_left _ hs)
    have hstringRight := fun place s hs => hstring place s (List.mem_append_right _ hs)
    refine .or (by simp) (List.forall_mem_cons.2 ⟨ihl hleafLeft hstringLeft, ?_⟩)
    exact List.forall_mem_singleton.2 (ihr hleafRight hstringRight)
  | not _ _ ih => exact .not (ih hleaf hstring)
  | group _ _ ih => exact .group (ih hleaf hstring)
  | @compare _ field _ _ _ clause _ _ hclause =>
    exact hleaf field List.mem_cons_self clause (leaf_compare rules hstring hclause)
  | @between _ field _ _ clause _ hclause =>
    refine hleaf field List.mem_cons_self clause (leaf_between rules (fun s hs => ?_) hclause)
    exact hstring .bound s (List.mem_map_of_mem hs)
  | @isIn _ field _ _ _ _ _ _ hclause =>
    refine each_isIn rules (hleaf field List.mem_cons_self) (fun value hvalue s hs => ?_) hclause
    exact hstring .enclosed s (List.mem_map_of_mem (List.mem_flatMap.2 ⟨value, hvalue, hs⟩))
  | @like _ field _ _ clause _ _ hclause =>
    refine hleaf field List.mem_cons_self clause (leaf_like rules (fun s hs => ?_) hclause)
    exact hstring .enclosed s (List.mem_map_of_mem hs)
  | @isNull _ field negated _ =>
    exact hleaf field List.mem_cons_self _ (leaf_isNull rules field negated)

end Leaf

/-! ### Strings in characters of one kind -/

/-- Leaves with values in characters of one kind. The bounds of a range are numbers, or else any
values whatever. -/
abbrev Leaf (ok : Char → Prop) (field : Text) : Clause → Prop :=
  LeafForm (Escaped ok) (Escaped ok)
    (fun low high => (∀ c ∈ low ++ high, c ≠ ']') ∨ ∀ c ∈ low ++ high, ok c) field

section Characters

variable {ok : Char → Prop} (hown : ∀ c, isOwnChar c = true → ok c)
include hown

theorem escaped_of_ownChars {t : Text} (h : ∀ c ∈ t, isOwnChar c = true) : Escaped ok t := by
  refine .of_forall fun c hc => ⟨hown c (h c hc), ?_, ?_, ?_⟩ <;>
  · apply ne_of_class (h c hc)
    decide

theorem leafRules_of_chars :
    LeafRules (fun _ t => ∀ c ∈ t, ok c) (Escaped ok) (Escaped ok)
      (fun low high => (∀ c ∈ low ++ high, c ≠ ']') ∨ ∀ c ∈ low ++ high, ok c) where
  figures _ _ hfigures c hc := hown c (isOwnChar_of_isFigure (hfigures c hc))
  enclosed _ hstring := .escape hstring
  pattern _ hstring := .pattern (hown _ (by decide)) (hown _ (by decide)) hstring
  bare _ hstring := ⟨.escape hstring, .escape hstring⟩
  own _ hchars := escaped_of_ownChars hown hchars
  numbers low high hchars := by
    refine .inl fun c hc => ?_
    rcases hchars c hc with hc | rfl
    · exact ne_of_class hc (by decide)
    · decide
  bounds _ _ hlow hhigh := .inr (List.forall_mem_append.2 ⟨hlow, hhigh⟩)

theorem each_of_compiles {atomOk : Text → Prop} {tagOk : Text → List Text → Prop}
    {compiler : Compiler} {depth : Nat} {condition : Condition} {clause : Clause}
    (h : compiler.Compiles depth condition clause)
    (hleaf : ∀ field ∈ condition.fields, ∀ clause, Leaf ok field clause → clause.Each atomOk tagOk)
    (hstring : ∀ s ∈ condition.strings, ∀ c ∈ s, ok c) : clause.Each atomOk tagOk :=
  each_of_leafForms (leafRules_of_chars hown) h hleaf
    fun _ s hs => hstring s (Condition.mem_strings_of_mem_places hs)

end Characters

/-! ### Leaves in characters of one kind -/

theorem forall_mem_fieldHead {ok : Char → Prop} {field : Text} (hfield : ∀ c ∈ field, ok c)
    (hat : ok '@') (hcolon : ok ':') : ∀ c ∈ fieldHead field, ok c := by
  simp only [fieldHead, List.cons_append, List.forall_mem_cons, List.forall_mem_append]
  exact ⟨hat, hfield, hcolon, by simp⟩

theorem LeafForm.each_of_spelling {ok : Char → Prop} {P : Text → Prop}
    {boundsOk : Text → Text → Prop} {field : Text} {clause : Clause}
    (rules : Clause.Spelling ok P) (hfield : ∀ c ∈ field, ok c)
    (hrange : ∀ low high, boundsOk low high →
      P (fieldHead field ++ '[' :: low ++ ' ' :: high ++ [']']))
    (h : LeafForm P P boundsOk field clause) : clause.Each P (Clause.TagOf ok P) := by
  have hhead : P (fieldHead field) :=
    rules.append (rules.append (rules.mark (by decide : ['@'] ⊆ _)) (rules.chars hfield))
      (rules.mark (by decide))
  have hminus : P ['-'] := rules.mark (by decide)
  have hquote : P ['"'] := rules.mark (by decide)
  cases h with
  | quoted hvalue =>
    exact .atom (rules.append (rules.append hhead (rules.append hquote hvalue)) hquote)
  | tag hvalue => exact .tag ⟨hfield, by simpa using hvalue⟩
  | braced hvalue => exact .atom (rules.tagText ⟨hfield, by simpa using hvalue⟩)
  | bare hvalue => exact .atom (rules.append hhead hvalue)
  | notBare hvalue => exact .atom (rules.append (rules.append hminus hhead) hvalue)
  | notBraced hvalue =>
    exact .atom (rules.append hminus (rules.tagText ⟨hfield, by simpa using hvalue⟩))
  | range hbounds => exact .atom (hrange _ _ hbounds)
  | matchAll => exact .atom (rules.mark (by decide))

end Compiler

end FilterQuery
