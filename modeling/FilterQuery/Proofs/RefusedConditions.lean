import FilterQuery.Proofs.QuotedText

/-!
# Refused conditions

A condition that has no query is refused with an error. What the error quotes is a field name or a
string of the condition, or else a word of the compiler's own.
-/

namespace FilterQuery

open Outcome

def CompileError.quoted : CompileError → Text
  | unknownField field => field
  | rangeUnsupported _ _ field => field
  | patternUnsupported field => field
  | notNumber text => text
  | emptyList field => field
  | nullValue => []
  | tooDeep _ => []

namespace Compiler

/-- An error quotes one of the given texts, or words of the compiler's own. -/
def QuotesFrom (texts : List Text) (error : CompileError) : Prop :=
  error.quoted ∈ texts ∨ ∀ c ∈ error.quoted, isOwnChar c = true

theorem QuotesFrom.mono {texts more : List Text} {error : CompileError}
    (h : QuotesFrom texts error) (hsubset : texts ⊆ more) : QuotesFrom more error :=
  h.imp_left fun hmem => hsubset hmem

theorem quotesFrom_guard {limit depth : Nat} {body : Except CompileError Clause}
    {error : CompileError} {texts : List Text}
    (h : (if limit < depth then .error (.tooDeep limit) else body) = .error error)
    (hbody : body = .error error → QuotesFrom texts error) : QuotesFrom texts error := by
  split_ifs at h
  · cases h
    exact .inr (by simp [CompileError.quoted])
  · exact hbody h

/-- Of two steps the first that is refused says why. -/
theorem quotesFrom_both {First Second Result : Type} {left : Except CompileError First}
    {right : Except CompileError Second} {write : First → Second → Result} {error : CompileError}
    {texts : List Text} (h : (do let l ← left; let r ← right; return write l r) = .error error)
    (hleft : left = .error error → QuotesFrom texts error)
    (hright : right = .error error → QuotesFrom texts error) : QuotesFrom texts error := by
  rcases bind_eq_error.1 h with hl | ⟨l, -, h⟩
  · exact hleft hl
  · rcases bind_eq_error.1 h with hr | ⟨r, -, h⟩
    · exact hright hr
    · cases h

theorem quotesFrom_decimalText {x : Binary64} {error : CompileError} {texts : List Text}
    (h : Literal.decimalText x = .error error) : QuotesFrom texts error := by
  unfold Literal.decimalText at h
  split_ifs at h
  cases h
  right
  apply List.all_eq_true.1
  change (Literal.nonFiniteName x).all isOwnChar = true
  unfold Literal.nonFiniteName
  split_ifs <;> decide

theorem quotesFrom_text {value : Literal} {error : CompileError} (h : value.text = .error error) :
    QuotesFrom value.strings error := by
  cases value with
  | string t => cases h
  | integer n => cases h
  | decimal x => exact quotesFrom_decimalText h
  | null =>
    cases h
    exact .inr (by simp [CompileError.quoted])

theorem quotesFrom_numericText {value : Literal} {error : CompileError}
    (h : value.numericText = .error error) : QuotesFrom value.strings error := by
  cases value with
  | string t =>
    unfold Literal.numericText at h
    dsimp only at h
    split_ifs at h
    cases h
    exact .inl List.mem_cons_self
  | integer n => cases h
  | decimal x => exact quotesFrom_decimalText h
  | null =>
    cases h
    exact .inr (List.all_eq_true.1 (by decide : "NULL".toList.all isOwnChar = true))

theorem quotesFrom_equals {type : FieldType} {field : Text} {value : Literal}
    {error : CompileError} (h : equals type field value = .error error) :
    QuotesFrom value.strings error := by
  cases type with
  | text | tag => exact quotesFrom_text (map_eq_error.1 (map_eq_error.1 h))
  | numeric => exact quotesFrom_numericText (map_eq_error.1 h)

theorem quotesFrom_differs {type : FieldType} {field : Text} {value : Literal}
    {error : CompileError} (h : differs type field value = .error error) :
    QuotesFrom value.strings error := by
  cases type with
  | text | tag => exact quotesFrom_text (map_eq_error.1 (map_eq_error.1 h))
  | numeric => exact quotesFrom_numericText (map_eq_error.1 h)

theorem quotesFrom_ordered {type : FieldType} {field : Text} {op : Comparator} {value : Literal}
    {write : Text → Clause} {error : CompileError}
    (h : ordered type field op value write = .error error) :
    QuotesFrom (field :: value.strings) error := by
  cases type with
  | text | tag =>
    cases h
    exact .inl List.mem_cons_self
  | numeric =>
    exact (quotesFrom_numericText (map_eq_error.1 h)).mono (List.subset_cons_self field _)

theorem quotesFrom_compare {type : FieldType} {field : Text} {op : Comparator} {value : Literal}
    {error : CompileError} (h : compare type field op value = .error error) :
    QuotesFrom (field :: value.strings) error := by
  cases op with
  | eq => exact (quotesFrom_equals h).mono (List.subset_cons_self field _)
  | ne => exact (quotesFrom_differs h).mono (List.subset_cons_self field _)
  | gt | ge | lt | le => exact quotesFrom_ordered h

theorem quotesFrom_between {field : Text} {low high : Literal} {error : CompileError}
    (h : between field low high = .error error) :
    QuotesFrom (low.strings ++ high.strings) error := by
  refine quotesFrom_both h (fun hlow => ?_) fun hhigh => ?_
  · exact (quotesFrom_text hlow).mono (List.subset_append_left _ _)
  · exact (quotesFrom_text hhigh).mono (List.subset_append_right _ _)

theorem quotesFrom_members {type : FieldType} {field : Text} {values : List Literal}
    {error : CompileError} (h : members type field values = .error error) :
    QuotesFrom (values.flatMap Literal.strings) error := by
  induction values with
  | nil => cases h
  | cons value values ih =>
    refine quotesFrom_both h (fun hvalue => ?_) fun hrest => ?_
    · rw [member_eq_equals] at hvalue
      exact (quotesFrom_equals hvalue).mono (List.subset_append_left _ _)
    · exact (ih hrest).mono (List.subset_append_right _ _)

theorem quotesFrom_isIn {policy : EmptyListPolicy} {type : FieldType} {field : Text}
    {values : List Literal} {negated : Bool} {error : CompileError}
    (h : isIn policy type field values negated = .error error) :
    QuotesFrom (field :: values.flatMap Literal.strings) error := by
  unfold isIn at h
  split at h
  · cases policy with
    | reject =>
      cases h
      exact .inl List.mem_cons_self
    | neverMatch => cases h
  · dsimp only at h
    split at h
    · cases h
    · refine (quotesFrom_members (map_eq_error.1 h)).mono fun s hs => ?_
      obtain ⟨value, hvalue, hmem⟩ := List.mem_flatMap.1 hs
      exact List.mem_cons_of_mem _ (List.mem_flatMap.2 ⟨value, List.mem_of_mem_filter hvalue, hmem⟩)

theorem quotesFrom_like {type : FieldType} {field : Text} {pattern : Literal}
    {error : CompileError} (h : like type field pattern = .error error) :
    QuotesFrom (field :: pattern.strings) error := by
  rcases bind_eq_error.1 h with hpattern | ⟨raw, -, h⟩
  · exact (quotesFrom_text hpattern).mono (List.subset_cons_self field _)
  · cases type with
    | text | tag => cases h
    | numeric =>
      cases h
      exact .inl List.mem_cons_self

theorem quotesFrom_resolve {schema : Schema} {field : Text} {error : CompileError}
    {texts : List Text} (h : schema.resolve field = .error error) :
    QuotesFrom (field :: texts) error := by
  unfold Schema.resolve at h
  split at h
  · cases h
  · cases h
    exact .inl List.mem_cons_self

/-- Whatever the compiler refuses, it quotes a name or a string of the condition. -/
theorem quotesFrom_clauseAt {compiler : Compiler} {depth : Nat} {condition : Condition}
    {error : CompileError} (h : compiler.clauseAt depth condition = .error error) :
    QuotesFrom condition.texts error := by
  induction condition generalizing depth with
  | and left right ihl ihr =>
    rw [clauseAt] at h
    refine quotesFrom_guard h fun h => quotesFrom_both h (fun hl => ?_) fun hr => ?_
    · exact (ihl hl).mono fun s hs => (Condition.texts_and left right).2 (.inl hs)
    · exact (ihr hr).mono fun s hs => (Condition.texts_and left right).2 (.inr hs)
  | or left right ihl ihr =>
    rw [clauseAt] at h
    refine quotesFrom_guard h fun h => quotesFrom_both h (fun hl => ?_) fun hr => ?_
    · exact (ihl hl).mono fun s hs => (Condition.texts_or left right).2 (.inl hs)
    · exact (ihr hr).mono fun s hs => (Condition.texts_or left right).2 (.inr hs)
  | not inner ih | group inner ih =>
    rw [clauseAt] at h
    exact quotesFrom_guard h fun h => ih (map_eq_error.1 h)
  | compare field op value =>
    rw [clauseAt] at h
    refine quotesFrom_guard h fun h => ?_
    rcases bind_eq_error.1 h with hresolve | ⟨type, -, h⟩
    · exact quotesFrom_resolve hresolve
    · exact quotesFrom_compare h
  | between field low high =>
    rw [clauseAt] at h
    refine quotesFrom_guard h fun h => ?_
    exact (quotesFrom_between h).mono (List.subset_cons_self field _)
  | isIn field values negated =>
    rw [clauseAt] at h
    refine quotesFrom_guard h fun h => ?_
    rcases bind_eq_error.1 h with hresolve | ⟨type, -, h⟩
    · exact quotesFrom_resolve hresolve
    · exact quotesFrom_isIn h
  | like field pattern =>
    rw [clauseAt] at h
    refine quotesFrom_guard h fun h => ?_
    rcases bind_eq_error.1 h with hresolve | ⟨type, -, h⟩
    · exact quotesFrom_resolve hresolve
    · exact quotesFrom_like h
  | isNull field negated =>
    rw [clauseAt] at h
    refine quotesFrom_guard h fun h => ?_
    cases h

end Compiler

end FilterQuery
