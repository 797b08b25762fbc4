import FilterQuery.Batch
import FilterQuery.Proofs.BalancedQueries
import FilterQuery.Proofs.RefusedConditions
import FilterQuery.Proofs.TrimmedText

/-!
# Batches line by line

A batch writes one line for every query that is not blank: to the output if the query compiles, to
the errors if it does not. No line breaks in two. A query on one line has no line feed, whatever is
cut from it has none, and the compiler and its errors add none of their own.
-/

namespace FilterQuery

open Outcome

/-! ### Messages -/

theorem Numeral.newline_not_mem_ofNat (n : Nat) : '\n' ∉ Numeral.ofNat n := by
  intro hmem
  exact absurd (isDigit_of_mem_ofNat hmem) (by decide)

theorem ParseFault.newline_not_mem_message {fault : ParseFault} (h : '\n' ∉ fault.quoted) :
    '\n' ∉ fault.message := by
  cases fault with
  | unsupportedOperator symbol => exact List.not_mem_append (by decide) h
  | unexpectedCharacter c => exact List.not_mem_append (by decide) h
  | integerOutOfRange numeral => exact List.not_mem_append (by decide) h
  | invalidNumber numeral => exact List.not_mem_append (by decide) h
  | tooDeep limit =>
    refine List.not_mem_append (List.not_mem_append ?_ ?_) ?_
    · decide
    · exact Numeral.newline_not_mem_ofNat limit
    · decide
  | expected what =>
    refine List.not_mem_append (by decide) ?_
    cases what with
    | operator field => exact List.not_mem_append (by decide) h
    | _ => decide
  | _ => decide

theorem ParseError.newline_not_mem_message {error : ParseError}
    (h : '\n' ∉ error.fault.quoted) : '\n' ∉ error.message := by
  refine List.not_mem_append (List.not_mem_append (List.not_mem_append ?_ ?_) ?_) ?_
  · decide
  · exact Numeral.newline_not_mem_ofNat error.position
  · decide
  · exact ParseFault.newline_not_mem_message h

theorem CompileError.newline_not_mem_message {error : CompileError} (h : '\n' ∉ error.quoted) :
    '\n' ∉ error.message := by
  cases error with
  | unknownField field => exact List.not_mem_append (List.not_mem_append (by decide) h) (by decide)
  | rangeUnsupported op type field =>
    have hop : '\n' ∉ op.symbol := by cases op <;> decide
    have htype : '\n' ∉ type.name := by cases type <;> decide
    refine List.not_mem_append (List.not_mem_append (List.not_mem_append (List.not_mem_append
      (List.not_mem_append ?_ hop) ?_) htype) ?_) h <;> decide
  | patternUnsupported field => exact List.not_mem_append (by decide) h
  | nullValue => decide
  | notNumber text => exact List.not_mem_append (by decide) h
  | emptyList field => exact List.not_mem_append (List.not_mem_append (by decide) h) (by decide)
  | tooDeep limit =>
    refine List.not_mem_append (List.not_mem_append ?_ ?_) ?_
    · decide
    · exact Numeral.newline_not_mem_ofNat limit
    · decide

/-! ### Compiled queries -/

theorem Parentheses.strip_subset (text : Text) : strip text ⊆ text := by
  fun_induction strip text with
  | case1 query inner hinner _ _ ih =>
    rw [inside?_eq_some.1 hinner]
    have hinside : inner ⊆ '(' :: inner ++ [')'] :=
      List.subset_append_of_subset_left _ (List.subset_cons_self _ _)
    exact List.Subset.trans ih hinside
  | case2 => exact List.Subset.refl _
  | case3 => exact List.Subset.refl _

namespace Compiler

open Clause Escape

theorem newline_ne_of_isOwnChar {c : Char} (h : isOwnChar c = true) : c ≠ '\n' :=
  ne_of_class h (by decide)

theorem newline_not_mem_of_forall {text : Text} (h : ∀ c ∈ text, c ≠ '\n') : '\n' ∉ text :=
  fun hmem => h '\n' hmem rfl

theorem newline_not_mem_of_escaped {text : Text} (h : Escaped (· ≠ '\n') text) : '\n' ∉ text :=
  newline_not_mem_of_forall (h.forall_mem (by decide))

theorem spelling_of_oneLine : Spelling (· ≠ '\n') ('\n' ∉ ·) where
  append htext hmore := by simp [htext, hmore]
  chars := newline_not_mem_of_forall
  marks := by simp

theorem leafRules_of_oneLine :
    LeafRules (fun _ t => '\n' ∉ t) ('\n' ∉ ·) ('\n' ∉ ·) (fun low high => '\n' ∉ low ++ high) where
  figures _ _ hfigures :=
    newline_not_mem_of_forall fun c hc =>
      newline_ne_of_isOwnChar (isOwnChar_of_isFigure (hfigures c hc))
  enclosed _ hstring :=
    newline_not_mem_of_escaped (.escape fun _ hc => ne_of_mem_of_not_mem hc hstring)
  pattern _ hstring :=
    newline_not_mem_of_escaped
      (.pattern (by decide) (by decide) fun _ hc => ne_of_mem_of_not_mem hc hstring)
  bare _ hstring := by
    have hescaped := newline_not_mem_of_escaped
      (.escape fun _ hc => ne_of_mem_of_not_mem hc hstring)
    exact ⟨hescaped, hescaped⟩
  own _ hown := newline_not_mem_of_forall fun c hc => newline_ne_of_isOwnChar (hown c hc)
  numbers low high hchars := by
    refine newline_not_mem_of_forall fun c hc => ?_
    rcases hchars c hc with hc | rfl
    · exact newline_ne_of_isOwnChar hc
    · decide
  bounds _ _ hlow hhigh := by simp [hlow, hhigh]

theorem newline_not_mem_compile {compiler : Compiler} {condition : Condition} {query : Text}
    (htexts : ∀ s ∈ condition.texts, '\n' ∉ s) (h : compiler.compile condition = .ok query) :
    '\n' ∉ query := by
  obtain ⟨hfields, hstrings⟩ := List.forall_mem_append.1 htexts
  obtain ⟨clause, hclause, rfl⟩ := map_eq_ok.1 h
  have hleaves : clause.Each ('\n' ∉ ·) (TagOf (· ≠ '\n') ('\n' ∉ ·)) := by
    refine each_of_leafForms leafRules_of_oneLine (compiles_of_clauseAt hclause)
      (fun field hmem leaf hleaf => ?_)
      fun place s hs => hstrings s (Condition.mem_strings_of_mem_places hs)
    have hfield := hfields field hmem
    refine hleaf.each_of_spelling spelling_of_oneLine
      (fun c hc => ne_of_mem_of_not_mem hc hfield) fun low high hbounds => ?_
    simp only [List.mem_append, not_or] at hbounds
    simp [fieldHead, hfield, hbounds.1, hbounds.2]
  have hmerged := each_merged compiler (fun _ _ _ => TagOf.append) hleaves
  have hrender := spelling_of_oneLine.render hmerged
  rw [finish_eq]
  split_ifs
  · exact fun hmem => hrender (Parentheses.strip_subset _ hmem)
  · exact hrender

theorem newline_not_mem_compileError {compiler : Compiler} {condition : Condition}
    {error : CompileError} (htexts : ∀ s ∈ condition.texts, '\n' ∉ s)
    (h : compiler.compile condition = .error error) : '\n' ∉ error.message := by
  apply CompileError.newline_not_mem_message
  rcases quotesFrom_clauseAt (map_eq_error.1 h) with hmem | hown
  · exact htexts _ hmem
  · exact newline_not_mem_of_forall fun c hc => newline_ne_of_isOwnChar (hown c hc)

theorem newline_not_mem_compileText {compiler : Compiler} {query result : Text}
    (hquery : '\n' ∉ query) (h : compiler.compileText query = .ok result) : '\n' ∉ result := by
  rw [compileText_eq] at h
  obtain ⟨condition, hparse, hcompile⟩ := bind_eq_ok.1 h
  refine newline_not_mem_compile (fun s hs hmem => hquery ?_) (mapError_eq_ok.1 hcompile)
  exact Condition.parse_texts_subset (mapError_eq_ok.1 hparse) s hs hmem

theorem newline_not_mem_queryError {compiler : Compiler} {query : Text} {error : QueryError}
    (hquery : '\n' ∉ query) (h : compiler.compileText query = .error error) :
    '\n' ∉ error.message := by
  rw [compileText_eq] at h
  rcases bind_eq_error.1 h with hparse | ⟨condition, hparse, hcompile⟩
  · obtain ⟨cause, hcause, rfl⟩ := mapError_eq_error.1 hparse
    refine ParseError.newline_not_mem_message fun hmem => hquery ?_
    exact Condition.parse_quoted_subset hcause hmem
  · obtain ⟨cause, hcause, rfl⟩ := mapError_eq_error.1 hcompile
    refine newline_not_mem_compileError (fun s hs hmem => hquery ?_) hcause
    exact Condition.parse_texts_subset (mapError_eq_ok.1 hparse) s hs hmem

end Compiler

/-! ### Lines -/

namespace Text

theorem newline_not_mem_of_mem_lines {text line : Text} (h : line ∈ lines text) : '\n' ∉ line := by
  fun_induction lines text generalizing line with
  | case1 => cases h
  | case2 rest ih =>
    rcases List.mem_cons.1 h with rfl | h
    · simp
    · exact ih h
  | case3 rest ih =>
    rcases List.mem_cons.1 h with rfl | h
    · simp
    · exact ih h
  | case4 c rest hnewline hreturn hlines ih =>
    obtain rfl := List.mem_singleton.1 h
    simpa using fun heq : '\n' = c => hnewline heq.symm
  | case5 c rest hnewline hreturn first more hlines ih =>
    rw [hlines] at ih
    rcases List.mem_cons.1 h with rfl | h
    · have hfirst := ih List.mem_cons_self
      simpa [hfirst] using fun heq : '\n' = c => hnewline heq.symm
    · exact ih (List.mem_cons_of_mem _ h)

/-- A line and the piece between line feeds that it comes from: a carriage return at the end does
not belong to the line. -/
def IsLineOf (line piece : Text) : Prop := piece = line ∨ piece = line ++ ['\r']

theorem IsLineOf.cons {line piece : Text} (h : IsLineOf line piece) (c : Char) :
    IsLineOf (c :: line) (c :: piece) := by
  rcases h with rfl | rfl
  · exact .inl rfl
  · exact .inr rfl

theorem IsLineOf.trim_eq {line piece : Text} (h : IsLineOf line piece) :
    trim line = trim piece := by
  rcases h with rfl | rfl
  · rfl
  · exact (trim_append_blank (by decide)).symm

theorem map_trim_eq {lines pieces : List Text} (h : List.Forall₂ IsLineOf lines pieces) :
    lines.map trim = pieces.map trim := by
  induction h with
  | nil => rfl
  | cons hline _ ih => rw [List.map_cons, List.map_cons, hline.trim_eq, ih]

theorem forall₂_trims_iff {pieces queries : List Text} :
    List.Forall₂ Trims pieces queries ↔ pieces.map trim = queries := by
  have htrims : Trims = fun piece query => trim piece = query :=
    funext₂ fun _ _ => propext trims_iff
  rw [htrims, ← List.forall₂_map_left_iff (R := Eq), List.forall₂_eq_eq_eq]

/-- Every piece between line feeds gives a line, except for an empty piece at the end. -/
theorem lines_splitOn (text : Text) :
    ∃ pieces, List.Forall₂ IsLineOf (lines text) pieces ∧
      (text.splitOn '\n' = pieces ∨ text.splitOn '\n' = pieces ++ [[]]) := by
  have hbreak : ∀ rest : Text, ('\n' :: rest).splitOn '\n' = [] :: rest.splitOn '\n' := by
    intro rest
    rw [List.splitOn_cons_eq_if_modifyHead, if_pos (by decide)]
  have hcons : ∀ (c : Char) (rest : Text), c ≠ '\n' →
      (c :: rest).splitOn '\n' = (rest.splitOn '\n').modifyHead (c :: ·) := by
    intro c rest hc
    rw [List.splitOn_cons_eq_if_modifyHead, if_neg (by simpa using hc)]
  fun_induction lines text with
  | case1 => exact ⟨[], .nil, .inr rfl⟩
  | case2 rest ih =>
    obtain ⟨pieces, hpieces, hsplit⟩ := ih
    refine ⟨[] :: pieces, .cons (.inl rfl) hpieces, ?_⟩
    rw [hbreak]
    rcases hsplit with hsplit | hsplit
    · exact .inl (by rw [hsplit])
    · exact .inr (by rw [hsplit, List.cons_append])
  | case3 rest ih =>
    obtain ⟨pieces, hpieces, hsplit⟩ := ih
    refine ⟨['\r'] :: pieces, .cons (.inr rfl) hpieces, ?_⟩
    rw [hcons _ _ (by decide), hbreak, List.modifyHead_cons]
    rcases hsplit with hsplit | hsplit
    · exact .inl (by rw [hsplit])
    · exact .inr (by rw [hsplit, List.cons_append])
  | case4 c rest hnewline _ hlines ih =>
    obtain ⟨pieces, hpieces, hsplit⟩ := ih
    rw [hlines] at hpieces
    cases hpieces
    refine ⟨[[c]], .cons (.inl rfl) .nil, .inl ?_⟩
    rcases hsplit with hsplit | hsplit
    · exact absurd hsplit (List.splitOn_ne_nil _ _)
    · rw [hcons c rest hnewline, hsplit]
      rfl
  | case5 c rest hnewline _ first more hlines ih =>
    obtain ⟨pieces, hpieces, hsplit⟩ := ih
    rw [hlines] at hpieces
    cases hpieces with
    | @cons _ piece _ pieces hfirst hmore =>
      refine ⟨(c :: piece) :: pieces, .cons (hfirst.cons c) hmore, ?_⟩
      rw [hcons c rest hnewline]
      rcases hsplit with hsplit | hsplit
      · exact .inl (by rw [hsplit, List.modifyHead_cons])
      · exact .inr (by rw [hsplit, List.cons_append, List.modifyHead_cons, List.cons_append])

end Text

/-! ### Batches -/

namespace Batch

/-- The pieces between line feeds that are not blank, without the white space around them. -/
def IsQueries (text : Text) (queries : List Text) : Prop :=
  List.Forall₂ Text.Trims
    ((text.splitOn '\n').filter fun piece => piece.any fun c => !Text.isBlank c) queries

def translations (compiler : Compiler) (queries : List Text) : List Text :=
  queries.filterMap fun query => (compiler.compileText query).toOption

def complaints (compiler : Compiler) (queries : List Text) : List Text :=
  queries.filterMap fun query =>
    match compiler.compileText query with
    | .ok _ => none
    | .error error => some ("Error: ".toList ++ query ++ ": ".toList ++ error.message)

theorem filter_map_trim (pieces : List Text) :
    ((pieces.map Text.trim).filter fun query => !query.isEmpty) =
      (pieces.filter fun piece => piece.any fun c => !Text.isBlank c).map Text.trim := by
  rw [List.filter_map]
  congr 1
  apply List.filter_congr
  intro piece _
  rw [Bool.eq_iff_iff]
  simpa using Text.trim_ne_nil_iff

/-- The queries of a text are those that its lines are trimmed to. -/
theorem isQueries_iff {text : Text} {queries : List Text} :
    IsQueries text queries ↔
      queries = ((Text.lines text).map Text.trim).filter fun query => !query.isEmpty := by
  have hforall : IsQueries text queries ↔
      queries = ((text.splitOn '\n').map Text.trim).filter fun query => !query.isEmpty := by
    rw [IsQueries, filter_map_trim, Text.forall₂_trims_iff, eq_comm]
  obtain ⟨pieces, hpieces, hsplit⟩ := Text.lines_splitOn text
  rw [hforall, Text.map_trim_eq hpieces]
  rcases hsplit with hsplit | hsplit
  · rw [hsplit]
  · have hblank : ([Text.trim []].filter fun query : Text => !query.isEmpty) = [] := rfl
    rw [hsplit, List.map_append, List.filter_append, List.map_singleton, hblank, List.append_nil]

theorem runLines_eq (compiler : Compiler) {text : Text} {queries : List Text}
    (h : IsQueries text queries) :
    runLines compiler text = queries.map fun query => ⟨query, compiler.compileText query⟩ := by
  rw [isQueries_iff.1 h]
  rfl

theorem IsQueries.newline_not_mem {text : Text} {queries : List Text} (h : IsQueries text queries) :
    ∀ query ∈ queries, '\n' ∉ query := by
  intro query hquery
  rw [isQueries_iff.1 h] at hquery
  obtain ⟨line, hline, rfl⟩ := List.mem_map.1 (List.mem_of_mem_filter hquery)
  exact fun hmem => Text.newline_not_mem_of_mem_lines hline (Text.trim_subset line hmem)

section Run

variable (compiler : Compiler) (queries : List Text)

theorem output_eq :
    output (queries.map fun query => ⟨query, compiler.compileText query⟩) =
      (translations compiler queries).flatMap line := by
  induction queries with
  | nil => rfl
  | cons query queries ih =>
    unfold output translations at ih ⊢
    rw [List.map_cons, List.flatMap_cons, List.filterMap_cons, ih]
    cases hresult : compiler.compileText query with
    | ok result => simp [Outcome.output, Except.toOption]
    | error error => simp [Outcome.output, Except.toOption]

theorem errors_eq :
    errors (queries.map fun query => ⟨query, compiler.compileText query⟩) =
      (complaints compiler queries).flatMap line := by
  induction queries with
  | nil => rfl
  | cons query queries ih =>
    unfold errors complaints at ih ⊢
    rw [List.map_cons, List.flatMap_cons, List.filterMap_cons, ih]
    cases hresult : compiler.compileText query with
    | ok result => rfl
    | error error => rfl

theorem failures_eq :
    failures (queries.map fun query => ⟨query, compiler.compileText query⟩) =
      (complaints compiler queries).length := by
  induction queries with
  | nil => rfl
  | cons query queries ih =>
    unfold failures complaints at ih ⊢
    rw [List.map_cons, List.countP_cons, List.filterMap_cons, ih]
    cases hresult : compiler.compileText query with
    | ok result => rfl
    | error error => rfl

/-- Every query either compiles or is complained about. -/
theorem length_translations_add_length_complaints :
    (translations compiler queries).length + (complaints compiler queries).length =
      queries.length := by
  induction queries with
  | nil => rfl
  | cons query queries ih =>
    unfold translations complaints at ih ⊢
    rw [List.filterMap_cons, List.filterMap_cons, List.length_cons, ← ih]
    cases hresult : compiler.compileText query with
    | ok result =>
      simp only [Except.toOption, List.length_cons]
      omega
    | error error =>
      simp only [Except.toOption, List.length_cons]
      omega

variable {queries} (hqueries : ∀ query ∈ queries, '\n' ∉ query)
include hqueries

theorem newline_not_mem_translations : ∀ text ∈ translations compiler queries, '\n' ∉ text := by
  intro text htext
  obtain ⟨query, hquery, hresult⟩ := List.mem_filterMap.1 htext
  have hok : compiler.compileText query = .ok text := by
    cases hcompile : compiler.compileText query with
    | ok result =>
      rw [hcompile] at hresult
      exact congrArg _ (Option.some.inj hresult)
    | error error =>
      rw [hcompile] at hresult
      cases hresult
  exact Compiler.newline_not_mem_compileText (hqueries query hquery) hok

theorem newline_not_mem_complaints : ∀ text ∈ complaints compiler queries, '\n' ∉ text := by
  intro text htext
  obtain ⟨query, hquery, hresult⟩ := List.mem_filterMap.1 htext
  have hline := hqueries query hquery
  cases hcompile : compiler.compileText query with
  | ok result =>
    rw [hcompile] at hresult
    cases hresult
  | error error =>
    rw [hcompile] at hresult
    cases hresult
    refine List.not_mem_append (List.not_mem_append (List.not_mem_append ?_ hline) ?_) ?_
    · decide
    · decide
    · exact Compiler.newline_not_mem_queryError hline hcompile

end Run

theorem count_newline_flatMap_line {texts : List Text} (h : ∀ text ∈ texts, '\n' ∉ text) :
    (texts.flatMap line).count '\n' = texts.length := by
  induction texts with
  | nil => rfl
  | cons text texts ih =>
    obtain ⟨htext, htexts⟩ := List.forall_mem_cons.1 h
    have hline : (line text).count '\n' = 1 := by
      rw [line, List.count_append, List.count_eq_zero.2 htext]
      rfl
    rw [List.flatMap_cons, List.count_append, hline, ih htexts, List.length_cons]
    omega

theorem decode?_toUTF8 (text : Text) : decode? (String.ofList text).toUTF8 = some text := by
  have hvalid : (String.ofList text).toUTF8.IsValidUTF8 := (String.ofList text).isValidUTF8
  unfold decode? String.fromUTF8?
  rw [dif_pos hvalid]
  exact congrArg some (String.toList_ofList)

/-- A batch of lines writes one line for every line that is not blank, in order: the result if it
compiles, and else a complaint. None of these has a line feed inside. -/
theorem runLines_lines (compiler : Compiler) (text : Text) :
    decode? (String.ofList text).toUTF8 = some text ∧
      ∃ queries, (∀ others, IsQueries text others ↔ others = queries) ∧
        output (runLines compiler text) =
          (translations compiler queries).flatMap (· ++ ['\n']) ∧
        errors (runLines compiler text) =
          (complaints compiler queries).flatMap (· ++ ['\n']) ∧
        failures (runLines compiler text) = (complaints compiler queries).length ∧
        (∀ written ∈ translations compiler queries ++ complaints compiler queries,
          '\n' ∉ written) ∧
        (output (runLines compiler text)).count '\n' +
          (errors (runLines compiler text)).count '\n' = queries.length := by
  obtain ⟨queries, hqueries⟩ : ∃ queries, IsQueries text queries := ⟨_, isQueries_iff.2 rfl⟩
  have hunique : ∀ others, IsQueries text others ↔ others = queries := by
    intro others
    rw [isQueries_iff, isQueries_iff.1 hqueries]
  have htranslations := newline_not_mem_translations compiler hqueries.newline_not_mem
  have hcomplaints := newline_not_mem_complaints compiler hqueries.newline_not_mem
  rw [runLines_eq compiler hqueries, output_eq, errors_eq, failures_eq]
  refine ⟨decode?_toUTF8 text, queries, hunique, rfl, rfl, rfl, ?_, ?_⟩
  · exact List.forall_mem_append.2 ⟨htranslations, hcomplaints⟩
  · rw [count_newline_flatMap_line htranslations, count_newline_flatMap_line hcomplaints]
    exact length_translations_add_length_complaints compiler queries

end Batch

end FilterQuery
