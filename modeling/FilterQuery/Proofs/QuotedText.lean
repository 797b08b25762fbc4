import FilterQuery.Proofs.CompiledLeaves
import FilterQuery.Proofs.ConditionGrammar
import FilterQuery.Proofs.Lexemes
import FilterQuery.Proofs.StatementOpening

/-!
# Where quoted text comes from

Names and strings of a condition, and whatever a parse error quotes, are cut from the text that was
read. The scanner gives every token characters of the text. The reader gives names and strings of
tokens to the condition, and quotes no others where it fails.
-/

namespace FilterQuery

open Outcome

/-! ### Tokens -/

def Token.text : Token → Text
  | field name => name
  | string content => content
  | number numeral => numeral
  | _ => []

def ParseFault.quoted : ParseFault → Text
  | unsupportedOperator symbol => symbol
  | unexpectedCharacter c => [c]
  | expected (.operator field) => field
  | integerOutOfRange numeral => numeral
  | invalidNumber numeral => numeral
  | _ => []

namespace Token

theorem subset_doubled (content : Text) : content ⊆ doubled content := by
  intro c hc
  refine List.mem_flatMap.2 ⟨c, hc, ?_⟩
  by_cases hquote : c = '\''
  · simp [hquote]
  · simp [hquote]

theorem Lexeme.text_subset {spelling : Text} {token : Token} (h : Lexeme spelling token) :
    token.text ⊆ spelling := by
  cases h with
  | opening | closing | comma | comparator _ | keyword _ _ => exact List.nil_subset _
  | string content =>
    apply List.subset_append_of_subset_left
    exact List.subset_cons_of_subset _ (subset_doubled content)
  | number _ | minus _ => exact List.Subset.refl _
  | plus _ => exact List.subset_cons_self _ _
  | field _ _ => exact List.dropWhile_subset _

theorem lexeme_quoted_subset {c : Char} {rest : Text} {fault : ParseFault}
    (h : lexeme c rest = .error fault) : fault.quoted ⊆ c :: rest := by
  unfold lexeme at h
  split_ifs at h
  · split at h
    · cases h
    · cases h
      exact List.nil_subset _
  · dsimp only at h
    split at h
    · cases h
    · cases h
      exact List.cons_subset_cons c (List.takeWhile_subset _)
  · cases h
    exact List.cons_subset_cons c (List.nil_subset _)

theorem scanFrom_subset {position : Nat} {text : Text} {tokens : List Placed}
    (h : scanFrom position text = .ok tokens) : ∀ placed ∈ tokens, placed.token.text ⊆ text := by
  obtain ⟨pieces, trailing, -, rfl, rfl⟩ := exists_pieces_of_scanFrom h
  intro token htoken
  have hmem := List.mem_map_of_mem (f := Placed.token) htoken
  rw [map_token_placed] at hmem
  obtain ⟨piece, hpiece, heq⟩ := List.mem_map.1 hmem
  rw [← heq]
  intro c hc
  apply List.mem_append_left
  refine List.mem_flatMap.2 ⟨piece, hpiece, ?_⟩
  exact List.mem_append_right _ (piece.isLexeme.text_subset hc)

theorem scanFrom_quoted_subset {position : Nat} {text : Text} {error : ParseError}
    (h : scanFrom position text = .error error) : error.fault.quoted ⊆ text := by
  fun_induction scanFrom position text with
  | case1 => cases h
  | case2 position c rest _ ih => exact List.subset_cons_of_subset c (ih h)
  | case3 position c rest _ fault hlexeme =>
    cases h
    exact lexeme_quoted_subset hlexeme
  | case4 position c rest _ token more _ ih =>
    have hdrop := List.Subset.trans (ih (map_eq_error.1 h)) (List.drop_subset more rest)
    exact List.subset_cons_of_subset c hdrop

theorem readLiteral_quoted_subset {token : Token} {fault : ParseFault}
    (h : token.readLiteral = .error fault) : fault.quoted ⊆ token.text := by
  unfold readLiteral at h
  split at h
  · cases h
  · rename_i numeral
    unfold readNumber at h
    split_ifs at h
    · cases h
      exact List.Subset.refl numeral
    · split at h
      · split_ifs at h
        cases h
        exact List.Subset.refl numeral
      · cases h
        exact List.Subset.refl numeral
  · cases h
  · cases h
    exact List.nil_subset _

theorem text_of_isLiteral {token : Token} {value : Literal} (h : token.IsLiteral value) :
    ∀ s ∈ value.strings, s = token.text := by
  cases h with
  | string content => simp [Literal.strings, text]
  | null => simp [Literal.strings]
  | integer => simp [Literal.strings]
  | decimal => simp [Literal.strings]

end Token

/-! ### Conditions -/

namespace Condition

def texts (condition : Condition) : List Text := condition.fields ++ condition.strings

theorem texts_and (left right : Condition) {s : Text} :
    s ∈ (Condition.and left right).texts ↔ s ∈ left.texts ∨ s ∈ right.texts := by
  simp only [texts, fields, strings, List.mem_append]
  tauto

theorem texts_or (left right : Condition) {s : Text} :
    s ∈ (Condition.or left right).texts ↔ s ∈ left.texts ∨ s ∈ right.texts :=
  texts_and left right

theorem texts_negatedIf (negated : Bool) (predicate : Condition) :
    (negatedIf negated predicate).texts = predicate.texts := by
  cases negated <;> rfl

theorem text_of_members {tokens : List Token} {values : List Literal} (h : Members tokens values) :
    ∀ s ∈ values.flatMap Literal.strings, ∃ token ∈ tokens, s = token.text := by
  induction h with
  | @single token value hliteral =>
    intro s hs
    exact ⟨token, List.mem_cons_self, Token.text_of_isLiteral hliteral s (by simpa using hs)⟩
  | @more tokens values token value _ hliteral ih =>
    intro s hs
    rw [List.flatMap_append, List.mem_append] at hs
    rcases hs with hs | hs
    · obtain ⟨known, hmem, heq⟩ := ih s hs
      exact ⟨known, List.mem_append_left _ hmem, heq⟩
    · exact ⟨token, by simp, Token.text_of_isLiteral hliteral s (by simpa using hs)⟩

theorem text_of_predicate {tokens : List Token} {predicate : Condition}
    (h : Predicate tokens predicate) : ∀ s ∈ predicate.texts, ∃ token ∈ tokens, s = token.text := by
  intro s hs
  cases h with
  | @compare field op token value hliteral =>
    rcases List.mem_append.1 hs with hs | hs
    · exact ⟨.field field, by simp, List.mem_singleton.1 hs⟩
    · exact ⟨token, by simp, Token.text_of_isLiteral hliteral s hs⟩
  | @between field negated lowToken highToken low high hlow hhigh =>
    rw [texts_negatedIf] at hs
    rcases List.mem_append.1 hs with hs | hs
    · exact ⟨.field field, by simp, List.mem_singleton.1 hs⟩
    · rcases List.mem_append.1 hs with hs | hs
      · exact ⟨lowToken, by simp, Token.text_of_isLiteral hlow s hs⟩
      · exact ⟨highToken, by simp, Token.text_of_isLiteral hhigh s hs⟩
  | inNone field negated =>
    refine ⟨.field field, by simp, ?_⟩
    simpa [texts, fields, strings, Token.text] using hs
  | @inList field negated tokens values hmembers =>
    rcases List.mem_append.1 hs with hs | hs
    · exact ⟨.field field, by simp, List.mem_singleton.1 hs⟩
    · obtain ⟨token, hmem, heq⟩ := text_of_members hmembers s hs
      exact ⟨token, by simp [hmem], heq⟩
  | @like field negated token pattern hliteral =>
    rw [texts_negatedIf] at hs
    rcases List.mem_append.1 hs with hs | hs
    · exact ⟨.field field, by simp, List.mem_singleton.1 hs⟩
    · exact ⟨token, by simp, Token.text_of_isLiteral hliteral s hs⟩
  | isNull field negated =>
    refine ⟨.field field, by simp, ?_⟩
    simpa [texts, fields, strings, Token.text] using hs

theorem text_of_derives {part : Part} {tokens : List Token} {condition : Condition} {nesting : Nat}
    (h : Derives part tokens condition nesting) :
    ∀ s ∈ condition.texts, ∃ token ∈ tokens, s = token.text := by
  induction h with
  | conjunction _ ih | negation _ ih | primary _ ih => exact ih
  | or _ _ ihl ihr =>
    intro s hs
    rcases (texts_or _ _).1 hs with hs | hs
    · obtain ⟨token, hmem, heq⟩ := ihl s hs
      exact ⟨token, List.mem_append_left _ hmem, heq⟩
    · obtain ⟨token, hmem, heq⟩ := ihr s hs
      exact ⟨token, List.mem_append_right _ (List.mem_cons_of_mem _ hmem), heq⟩
  | and _ _ ihl ihr =>
    intro s hs
    rcases (texts_and _ _).1 hs with hs | hs
    · obtain ⟨token, hmem, heq⟩ := ihl s hs
      exact ⟨token, List.mem_append_left _ hmem, heq⟩
    · obtain ⟨token, hmem, heq⟩ := ihr s hs
      exact ⟨token, List.mem_append_right _ (List.mem_cons_of_mem _ hmem), heq⟩
  | not _ ih =>
    intro s hs
    obtain ⟨token, hmem, heq⟩ := ih s hs
    exact ⟨token, List.mem_cons_of_mem _ hmem, heq⟩
  | predicate hpredicate => exact text_of_predicate hpredicate
  | group _ ih =>
    intro s hs
    obtain ⟨token, hmem, heq⟩ := ih s hs
    exact ⟨token, by simp [hmem], heq⟩

namespace Reader

variable {limit : Nat}

/-- A token that cannot come next is quoted itself, or the field name right before it is. -/
theorem step_quoted {reader : Reader} {token : Token} {fault : ParseFault}
    (h : reader.step limit token = .error fault) :
    fault.quoted ⊆ token.text ∨ reader.awaiting = .predicate fault.quoted := by
  have hnothing : ([] : Text) ⊆ token.text := List.nil_subset _
  obtain ⟨level, enclosing, awaiting⟩ := reader
  cases awaiting with
  | operand =>
    change stepOperand _ limit token = _ at h
    unfold stepOperand descend at h
    split at h
    · split_ifs at h
      cases h
      exact .inl hnothing
    · split_ifs at h
      cases h
      exact .inl hnothing
    · cases h
    · cases h
      exact .inl hnothing
  | predicate field =>
    change stepPredicate _ field token = _ at h
    unfold stepPredicate at h
    split at h <;> cases h
    exact .inr rfl
  | negatedPredicate field =>
    change stepNegatedPredicate _ field token = _ at h
    unfold stepNegatedPredicate at h
    split at h <;> cases h
    exact .inl hnothing
  | comparedValue _ _ | pattern _ _ | lowBound _ _ | highBound _ _ _ | nextMember _ _ _ =>
    exact .inl (Token.readLiteral_quoted_subset (map_eq_error.1 h))
  | firstMember _ _ =>
    unfold step at h
    dsimp only at h
    split_ifs at h
    exact .inl (Token.readLiteral_quoted_subset (map_eq_error.1 h))
  | betweenAnd _ _ _ | listOpening _ _ | afterMember _ _ _ | nullOrNot _ | null _ =>
    unfold step at h
    dsimp only at h
    split_ifs at h
    cases h
    exact .inl hnothing
  | connective conjunction =>
    change stepConnective _ conjunction token = _ at h
    unfold stepConnective at h
    split at h
    · cases h
    · cases h
    · split at h
      · cases h
        exact .inl hnothing
      · split_ifs at h
        cases h
        exact .inl hnothing

theorem finish_quoted {reader : Reader} {fault : ParseFault} (h : reader.finish = .error fault) :
    fault.quoted = [] ∨ reader.awaiting = .predicate fault.quoted := by
  obtain ⟨level, enclosing, awaiting⟩ := reader
  cases awaiting with
  | predicate field =>
    cases h
    exact .inr rfl
  | connective conjunction =>
    unfold finish at h
    dsimp only at h
    split at h <;> cases h
    exact .inl rfl
  | _ =>
    cases h
    exact .inl rfl

theorem field_mem_of_stands {reader : Reader} {read : List Token} {field : Text}
    (h : Stands limit reader read) (hawaiting : reader.awaiting = .predicate field) :
    .field field ∈ read := by
  cases h with
  | operand _ _ hbegun =>
    cases hawaiting
    cases hbegun
    simp
  | connective => cases hawaiting

/-- What a failed run quotes stands in one of the tokens. -/
theorem run_quoted {endPosition : Nat} {tokens : List Placed} {error : ParseError}
    (h : start.run limit endPosition tokens = .error error) :
    ∀ c ∈ error.fault.quoted, ∃ placed ∈ tokens, c ∈ placed.token.text := by
  intro c hc
  -- The name that a reader quotes is the last token that it took.
  have hfield : ∀ {read : List Placed} {last : Reader},
      start.feed limit (read.map Placed.token) = .ok last →
      last.awaiting = .predicate error.fault.quoted → read ⊆ tokens →
      ∃ placed ∈ tokens, c ∈ placed.token.text := by
    intro read last hfeed hawaiting hread
    have hmem := field_mem_of_stands (stands_feed stands_start hfeed) hawaiting
    obtain ⟨placed, hplaced, htoken⟩ := List.mem_map.1 hmem
    refine ⟨placed, hread hplaced, ?_⟩
    rw [htoken]
    exact hc
  rcases run_eq_error h with ⟨read, placed, rest, last, rfl, hfeed, hstep, -⟩ |
    ⟨last, hfeed, hfinish, -⟩
  · rcases step_quoted hstep with hsubset | hawaiting
    · exact ⟨placed, by simp, hsubset hc⟩
    · exact hfield hfeed hawaiting (List.subset_append_left _ _)
  · rcases finish_quoted hfinish with hnil | hawaiting
    · rw [hnil] at hc
      cases hc
    · exact hfield hfeed hawaiting (List.Subset.refl tokens)

end Reader

theorem ofText_texts_subset {limit : Nat} {text : Text} {condition : Condition}
    (h : ofText limit text = .ok condition) : ∀ s ∈ condition.texts, s ⊆ text := by
  obtain ⟨tokens, hscan, hread⟩ := bind_eq_ok.1 h
  obtain ⟨nesting, -, hderives⟩ := derives_of_ofTokens hread
  intro s hs
  obtain ⟨token, htoken, rfl⟩ := text_of_derives hderives s hs
  obtain ⟨placed, hplaced, rfl⟩ := List.mem_map.1 htoken
  exact Token.scanFrom_subset hscan placed hplaced

theorem ofText_quoted_subset {limit : Nat} {text : Text} {error : ParseError}
    (h : ofText limit text = .error error) : error.fault.quoted ⊆ text := by
  rcases bind_eq_error.1 h with hscan | ⟨tokens, hscan, hread⟩
  · exact Token.scanFrom_quoted_subset hscan
  · unfold ofTokens at hread
    split_ifs at hread
    · cases hread
      exact List.nil_subset text
    · intro c hc
      obtain ⟨placed, hplaced, hmem⟩ := Reader.run_quoted hread c hc
      exact Token.scanFrom_subset hscan placed hplaced hmem

theorem parse_texts_subset {limit : Nat} {query : Text} {condition : Condition}
    (h : parse limit query = .ok condition) : ∀ s ∈ condition.texts, s ⊆ query := by
  unfold parse at h
  split at h
  · exact ofText_texts_subset h
  · rename_i text htext
    intro s hs
    have hsubset := ofText_texts_subset (mapError_eq_ok.1 h) s hs
    exact List.Subset.trans hsubset (Statement.condition?_suffix htext).subset

theorem parse_quoted_subset {limit : Nat} {query : Text} {error : ParseError}
    (h : parse limit query = .error error) : error.fault.quoted ⊆ query := by
  unfold parse at h
  split at h
  · exact ofText_quoted_subset h
  · rename_i text htext
    obtain ⟨cause, hcause, rfl⟩ := mapError_eq_error.1 h
    have hsubset := ofText_quoted_subset hcause
    exact List.Subset.trans hsubset (Statement.condition?_suffix htext).subset

end Condition

end FilterQuery
