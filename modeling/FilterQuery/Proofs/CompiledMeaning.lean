import FilterQuery.Proofs.BalancedQueries
import FilterQuery.Proofs.ClauseReading

/-!
# What compiled queries say

Every predicate of a condition is about one leaf of the query language, or about one leaf for each
value of a list. Once it is settled which leaves match, the condition is true or false, and so is
the compiled query when it is read. The two agree for every condition that compiles and every choice
of options, as long as names and strings hold none of the characters that structure a query.
-/

namespace FilterQuery

open QueryReading Outcome

namespace Condition

/-! ### Conditions over leaves -/

def onField (field body : Text) : Text := '@' :: field ++ ':' :: body

def inQuotes (value : Text) : Text := '"' :: value ++ ['"']

def inBraces (value : Text) : Text := '{' :: value ++ ['}']

def bounds (low high : Text) : Text := '[' :: low ++ ' ' :: high ++ [']']

def numericBody (value : Text) : Comparator → Text
  | .eq => bounds value value
  | .ne => value
  | .gt => bounds ('(' :: value) "+inf".toList
  | .ge => bounds value "+inf".toList
  | .lt => bounds "-inf".toList ('(' :: value)
  | .le => bounds "-inf".toList value

/-- What a field is compared with. A field that differs from a value is not equal to what is given
here. -/
def comparisonBody? (type : FieldType) (op : Comparator) (value : Literal) : Option Text :=
  match type, op with
  | .text, .eq => value.text.toOption.map fun v => inQuotes (Escape.escape v)
  | .text, .ne => value.text.toOption.map Escape.escape
  | .tag, .eq | .tag, .ne => value.text.toOption.map fun v => inBraces (Escape.escape v)
  | .numeric, op => value.numericText.toOption.map fun v => numericBody v op
  | _, _ => none

def patternBody? (type : FieldType) (pattern : Literal) : Option Text :=
  match type with
  | .text => pattern.text.toOption.map fun p => inQuotes (Escape.pattern p)
  | .tag => pattern.text.toOption.map fun p => inBraces (Escape.pattern p)
  | .numeric => none

variable (compiler : Compiler) (single : Text → Bool)

/-- Whether a field has one of the values of a list. Nulls do not count, and a list without anything
else asks for a leaf of its own, negated or not. -/
def inList? (type : FieldType) (field : Text) (values : List Literal) (negated : Bool) :
    Option Bool :=
  let usable := values.filter fun value => !value.isNull
  if usable = [] then
    if values = [] ∧ compiler.options.emptyList = .reject then none
    else some (single (onField field "__NEVER_MATCH__".toList))
  else do
    let bodies ← usable.mapM (comparisonBody? type .eq)
    return negated ^^ bodies.any fun body => single (onField field body)

/-- Whether a condition is true, given which leaves match. Conditions that ask for something no leaf
can say are neither true nor false. -/
def truth? : Condition → Option Bool
  | and left right => do
    let left ← truth? left
    let right ← truth? right
    return left && right
  | or left right => do
    let left ← truth? left
    let right ← truth? right
    return left || right
  | not inner => (truth? inner).map (!·)
  | group inner => truth? inner
  | compare field op value => do
    let type ← (compiler.schema.resolve field).toOption
    let body ← comparisonBody? type op value
    return decide (op = .ne) ^^ single (onField field body)
  | between field low high => do
    let low ← low.text.toOption
    let high ← high.text.toOption
    return single (onField field (bounds low high))
  | isIn field values negated => do
    let type ← (compiler.schema.resolve field).toOption
    inList? compiler single type field values negated
  | like field pattern => do
    let type ← (compiler.schema.resolve field).toOption
    let body ← patternBody? type pattern
    return single (onField field body)
  | isNull field negated =>
    some (single (if negated then ['*'] else onField field "__NEVER_MATCH_NULL__".toList))

end Condition

namespace Compiler

open Condition

/-! ### Clauses of predicates -/

theorem fieldHead_append (field body : Text) : fieldHead field ++ body = onField field body := by
  simp [fieldHead, onField]

theorem tagText_singleton (field value : Text) :
    Clause.tagText field [value] = onField field (inBraces value) := by
  simp [Clause.tagText, onField, inBraces]

theorem quoted_eq (field value : Text) :
    quoted field value = .atom (onField field (inQuotes value)) := by
  simp [quoted, fieldHead, onField, inQuotes]

theorem range_eq (field low high : Text) :
    range field low high = .atom (onField field (bounds low high)) := by
  simp [range, fieldHead, onField, bounds]

theorem comparisonBody?_numeric {value : Literal} {v : Text} (h : value.numericText = .ok v)
    (op : Comparator) : comparisonBody? .numeric op value = some (numericBody v op) := by
  have hv := toOption_eq_some.2 h
  cases op <;> simp [comparisonBody?, hv]

section Predicate

variable {type : FieldType} {field : Text} {value : Literal} {clause : Clause}

theorem equals_truth (h : equals type field value = .ok clause) :
    ∃ body, comparisonBody? type .eq value = some body ∧
      ∀ single, clause.truth single = single (onField field body) := by
  cases type with
  | text =>
    obtain ⟨v, hv, rfl⟩ := map_eq_ok.1 h
    obtain ⟨raw, hraw, rfl⟩ := map_eq_ok.1 hv
    refine ⟨_, by rw [comparisonBody?, toOption_eq_some.2 hraw]; rfl, fun single => ?_⟩
    rw [quoted_eq]
    rfl
  | tag =>
    obtain ⟨v, hv, rfl⟩ := map_eq_ok.1 h
    obtain ⟨raw, hraw, rfl⟩ := map_eq_ok.1 hv
    refine ⟨_, by rw [comparisonBody?, toOption_eq_some.2 hraw]; rfl, fun single => ?_⟩
    simp [Clause.truth, Clause.holds, tagText_singleton]
  | numeric =>
    obtain ⟨v, hv, rfl⟩ := map_eq_ok.1 h
    refine ⟨_, comparisonBody?_numeric hv .eq, fun single => ?_⟩
    rw [range_eq]
    rfl

theorem differs_truth (h : differs type field value = .ok clause) :
    ∃ body, comparisonBody? type .ne value = some body ∧
      ∀ single, clause.truth single = !single (onField field body) := by
  cases type with
  | text =>
    obtain ⟨v, hv, rfl⟩ := map_eq_ok.1 h
    obtain ⟨raw, hraw, rfl⟩ := map_eq_ok.1 hv
    refine ⟨_, by rw [comparisonBody?, toOption_eq_some.2 hraw]; rfl, fun single => ?_⟩
    rw [List.cons_append, fieldHead_append]
    rfl
  | tag =>
    obtain ⟨v, hv, rfl⟩ := map_eq_ok.1 h
    obtain ⟨raw, hraw, rfl⟩ := map_eq_ok.1 hv
    refine ⟨_, by rw [comparisonBody?, toOption_eq_some.2 hraw]; rfl, fun single => ?_⟩
    rw [tagText_singleton]
    rfl
  | numeric =>
    obtain ⟨v, hv, rfl⟩ := map_eq_ok.1 h
    refine ⟨_, comparisonBody?_numeric hv .ne, fun single => ?_⟩
    rw [List.cons_append, fieldHead_append]
    rfl

theorem ordered_truth {op : Comparator} {write : Text → Clause}
    (hwrite : ∀ v single, (write v).truth single = single (onField field (numericBody v op)))
    (h : ordered type field op value write = .ok clause) :
    ∃ body, comparisonBody? type op value = some body ∧
      ∀ single, clause.truth single = single (onField field body) := by
  obtain ⟨rfl, v, hv, rfl⟩ := ordered_eq_ok h
  exact ⟨_, comparisonBody?_numeric hv op, hwrite v⟩

theorem compare_truth {op : Comparator} (h : compare type field op value = .ok clause) :
    ∃ body, comparisonBody? type op value = some body ∧
      ∀ single, clause.truth single = (decide (op = .ne) ^^ single (onField field body)) := by
  have hrange : ∀ low high single,
      (range field low high).truth single = single (onField field (bounds low high)) := by
    intro low high single
    rw [range_eq]
    rfl
  cases op with
  | eq => simpa using equals_truth h
  | ne => simpa using differs_truth h
  | gt => simpa using ordered_truth (fun _ => hrange _ _) h
  | ge => simpa using ordered_truth (fun _ => hrange _ _) h
  | lt => simpa using ordered_truth (fun _ => hrange _ _) h
  | le => simpa using ordered_truth (fun _ => hrange _ _) h

theorem like_truth {pattern : Literal} (h : like type field pattern = .ok clause) :
    ∃ body, patternBody? type pattern = some body ∧
      ∀ single, clause.truth single = single (onField field body) := by
  obtain ⟨raw, hraw, h⟩ := bind_eq_ok.1 h
  cases type with
  | text =>
    obtain rfl := pure_eq_ok.1 h
    refine ⟨_, by rw [patternBody?, toOption_eq_some.2 hraw]; rfl, fun single => ?_⟩
    rw [quoted_eq]
    rfl
  | tag =>
    obtain rfl := pure_eq_ok.1 h
    refine ⟨_, by rw [patternBody?, toOption_eq_some.2 hraw]; rfl, fun single => ?_⟩
    rw [braced, tagText_singleton]
    rfl
  | numeric => cases h

/-- The members of a list ask for the leaves of its values, in order. -/
theorem members_truth {values : List Literal} {clauses : List Clause}
    (h : members type field values = .ok clauses) :
    ∃ bodies, values.mapM (comparisonBody? type .eq) = some bodies ∧
      ∀ single, clauses.any (·.truth single) =
        bodies.any fun body => single (onField field body) := by
  induction values generalizing clauses with
  | nil =>
    cases h
    exact ⟨[], rfl, fun _ => rfl⟩
  | cons value values ih =>
    obtain ⟨clause, hclause, h⟩ := bind_eq_ok.1 h
    rw [member_eq_equals] at hclause
    obtain ⟨rest, hrest, h⟩ := bind_eq_ok.1 h
    obtain rfl := pure_eq_ok.1 h
    obtain ⟨body, hbody, htruth⟩ := equals_truth hclause
    obtain ⟨bodies, hbodies, htruths⟩ := ih hrest
    exact ⟨body :: bodies, by simp [hbody, hbodies], fun single => by simp [htruth, htruths]⟩

theorem isIn_truth (compiler : Compiler) (single : Text → Bool) {values : List Literal}
    {negated : Bool}
    (h : isIn compiler.options.emptyList type field values negated = .ok clause) :
    inList? compiler single type field values negated = some (clause.truth single) := by
  unfold inList?
  obtain ⟨husable, hpolicy, rfl⟩ | ⟨husable, clauses, hclauses, rfl⟩ := isIn_eq_ok h
  · have haccepted : ¬ (values = [] ∧ compiler.options.emptyList = .reject) := by
      rintro ⟨hvalues, hreject⟩
      simp [hpolicy hvalues] at hreject
    rw [if_pos husable, if_neg haccepted, neverMatch, fieldHead_append]
    rfl
  · obtain ⟨bodies, hbodies, htruth⟩ := members_truth hclauses
    rw [if_neg husable, hbodies, Option.bind_eq_bind, Option.bind_some, ← htruth]
    cases negated with
    | true => simp [Clause.truth, Clause.holds]
    | false => simp [Clause.truth, Clause.holds]

end Predicate

/-! ### Compiled conditions -/

theorem between_truth {field : Text} {low high : Literal} {clause : Clause}
    (h : between field low high = .ok clause) :
    ∃ l u, low.text = .ok l ∧ high.text = .ok u ∧
      ∀ single, clause.truth single = single (onField field (bounds l u)) := by
  obtain ⟨l, hl, h⟩ := bind_eq_ok.1 h
  obtain ⟨u, hu, h⟩ := bind_eq_ok.1 h
  obtain rfl := pure_eq_ok.1 h
  refine ⟨l, u, hl, hu, fun single => ?_⟩
  rw [range_eq]
  rfl

theorem isNull_truth (field : Text) (negated : Bool) (single : Text → Bool) :
    (isNull field negated).truth single =
      single (if negated then ['*'] else onField field "__NEVER_MATCH_NULL__".toList) := by
  cases negated with
  | true => rfl
  | false =>
    rw [isNull, if_neg Bool.false_ne_true, if_neg Bool.false_ne_true, neverMatchNull,
      fieldHead_append]
    rfl

/-- A condition that compiles is true exactly where its clause is. -/
theorem truth_of_compiles {compiler : Compiler} {depth : Nat} {condition : Condition}
    {clause : Clause} (h : compiler.Compiles depth condition clause) (single : Text → Bool) :
    condition.truth? compiler single = some (clause.truth single) := by
  induction h with
  | and _ _ _ ihl ihr =>
    rw [truth?, ihl, ihr]
    rfl
  | or _ _ _ ihl ihr =>
    rw [truth?, ihl, ihr]
    simp [Clause.truth, Clause.holds]
  | not _ _ ih =>
    rw [truth?, ih]
    rfl
  | group _ _ ih =>
    rw [truth?, ih]
    rfl
  | compare _ htype hclause =>
    obtain ⟨body, hbody, htruth⟩ := compare_truth hclause
    simp [truth?, toOption_eq_some.2 htype, hbody, htruth]
  | between _ hclause =>
    obtain ⟨l, u, hl, hu, htruth⟩ := between_truth hclause
    simp [truth?, toOption_eq_some.2 hl, toOption_eq_some.2 hu, htruth]
  | isIn _ htype hclause =>
    rw [truth?, toOption_eq_some.2 htype]
    exact isIn_truth compiler single hclause
  | like _ htype hclause =>
    obtain ⟨body, hbody, htruth⟩ := like_truth hclause
    simp [truth?, toOption_eq_some.2 htype, hbody, htruth]
  | @isNull _ field negated _ => rw [truth?, isNull_truth]

theorem truth_merged (compiler : Compiler) (clause : Clause) :
    (compiler.merged clause).truth = clause.truth := by
  unfold merged
  split_ifs
  · funext single
    exact Clause.holds_coalesce _ _ clause
  · rfl

/-- Whatever the options, the query is a written clause that says what the given one does. -/
theorem finish_eq_render (compiler : Compiler) {clause : Clause}
    (hneutral : (compiler.merged clause).NeutralLeaves)
    (hleaves : clause.Each SignedLeaf ReadableTag) :
    ∃ written : Clause, compiler.finish clause = written.render ∧
      written.Each SignedLeaf ReadableTag ∧ written.truth = clause.truth := by
  have hmerged : (compiler.merged clause).Each SignedLeaf ReadableTag :=
    each_merged compiler (fun _ _ _ => ReadableTag.append) hleaves
  rw [finish_eq, ← truth_merged compiler clause]
  split_ifs
  · obtain ⟨⟨peeled, hpeels, hstrip⟩, -⟩ := Clause.strip_render hneutral
    refine ⟨peeled, hstrip, hpeels.each hmerged, ?_⟩
    funext single
    exact hpeels.holds _ _
  · exact ⟨_, rfl, hmerged, rfl⟩

theorem plain_of_isWordChar {c : Char} (h : Token.isWordChar c = true) : Parentheses.Plain c := by
  refine ⟨?_, ?_, ?_⟩ <;>
  · rintro rfl
    exact absurd h (by decide)

theorem plain_of_isValueChar {c : Char} (h : isValueChar c = true) : Parentheses.Plain c := by
  refine ⟨?_, ?_, ?_⟩ <;>
  · rintro rfl
    exact absurd h (by decide)

theorem isValueChar_of_isOwnChar {c : Char} (h : isOwnChar c = true) : isValueChar c = true := by
  by_contra hvalue
  simp only [isValueChar, Bool.not_eq_true', Bool.not_eq_false, List.contains_eq_mem,
    decide_eq_true_eq, List.mem_cons, List.not_mem_nil, or_false] at hvalue
  rcases hvalue with rfl | rfl | rfl | rfl | rfl | rfl | rfl | rfl <;> exact absurd h (by decide)

/-- A compiled query has one reading, which is true exactly where the condition is. -/
theorem compile_reading (compiler : Compiler) (condition : Condition) {query : Text}
    (hfields : ∀ field ∈ condition.fields, ∀ c ∈ field, Token.isWordChar c = true)
    (hstrings : ∀ s ∈ condition.strings, ∀ c ∈ s, isValueChar c = true)
    (h : compiler.compile condition = .ok query) :
    ∃ reading, (∀ other, Reads .query query other [] ↔ other = reading) ∧
      ∀ single, condition.truth? compiler single = some (reading.holds single) := by
  obtain ⟨clause, hclause, rfl⟩ := map_eq_ok.1 h
  have hcompiles := compiles_of_clauseAt hclause
  have hneutral : (compiler.merged clause).NeutralLeaves :=
    neutralLeaves_merged compiler
      (fun field hfield c hc => plain_of_isWordChar (hfields field hfield c hc))
      (fun s hs c hc => plain_of_isValueChar (hstrings s hs c hc)) hclause
  have hleaves : clause.Each SignedLeaf ReadableTag :=
    each_of_compiles (fun _ => isValueChar_of_isOwnChar) hcompiles
      (fun field hfield _ hleaf => each_leaf (hfields field hfield) hleaf) hstrings
  obtain ⟨written, hquery, heach, htruth⟩ := finish_eq_render compiler hneutral hleaves
  obtain ⟨reading, hreads, hholds⟩ := (Clause.readable_of_each heach).query.readsAs [] (by simp)
  rw [List.append_nil, ← hquery] at hreads
  refine ⟨reading, fun other => ⟨fun hother => (hother.unique hreads).1, ?_⟩, fun single => ?_⟩
  · rintro rfl
    exact hreads
  · rw [truth_of_compiles hcompiles single, hholds, htruth]

/-- Escaped and unescaped spaces, merged tags and a negated conjunction, inside a group that is
stripped. -/
theorem compile_reading_mergedTags :
    let compiler : Compiler :=
      ⟨.ofEntries [("role".toList, .tag), ("name".toList, .text), ("age".toList, .numeric)],
        { coalesceTags := true }⟩
    let condition : Condition :=
      .group (.or
        (.not (.and (.compare "name".toList .ne (.string "a b".toList))
          (.isIn "role".toList [.string "x,y".toList, .null, .string "z".toList] true)))
        (.between "age".toList (.string "1 2".toList) (.integer 3)))
    let query := "(-(-@name:a\\ b -@role:\x7bx\\,y,z\x7d)) | (@age:[1 2 3])".toList
    compiler.compile condition = .ok query ∧
      ∃ reading, (∀ other, Reads .query query other [] ↔ other = reading) ∧
        ∀ single, condition.truth? compiler single = some (reading.holds single) := by
  refine (and_iff_left_of_imp (compile_reading _ _ ?_ ?_)).2 (by decide +kernel)
  · simp [fields, Token.isWordChar, Text.isLetter]
  · simp [strings, Literal.strings, isValueChar]

end Compiler

end FilterQuery
