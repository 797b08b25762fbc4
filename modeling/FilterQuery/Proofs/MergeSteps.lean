import FilterQuery.Clause.Coalesce

/-!
# Steps of merging

One more alternative before merged ones either joins the first of them or stands before it. It joins
exactly if both amount to tag matches on one field. A property of all alternatives only has to pass
from two such matches to the match with the tags of both.
-/

namespace FilterQuery.Clause

/-- A tag match by itself, or inside groups and unions of one. -/
inductive AmountsToTag (field : Text) (values : List Text) : Clause → Prop
  | tag : AmountsToTag field values (.tag field values)
  | group {inner : Clause} : AmountsToTag field values inner →
    AmountsToTag field values (.group inner)
  | union {operand : Clause} : AmountsToTag field values operand →
    AmountsToTag field values (.or [operand])

theorem asTag?_eq_some {clause : Clause} {field : Text} {values : List Text} :
    clause.asTag? = some (field, values) ↔ clause.AmountsToTag field values := by
  constructor
  · intro h
    fun_induction asTag? clause with
    | case1 field' values' =>
      cases h
      exact .tag
    | case2 inner ih => exact .group (ih h)
    | case3 operand ih => exact .union (ih h)
    | case4 => cases h
  · intro h
    induction h with
    | tag => rfl
    | group _ ih => exact ih
    | union _ ih => exact ih

/-- A clause amounts to one tag match only. -/
theorem AmountsToTag.unique {clause : Clause} {field field' : Text} {values values' : List Text}
    (h : clause.AmountsToTag field values) (h' : clause.AmountsToTag field' values') :
    field = field' ∧ values = values' := by
  cases (asTag?_eq_some.2 h).symm.trans (asTag?_eq_some.2 h')
  exact ⟨rfl, rfl⟩

def Mergeable (first next : Clause) : Prop :=
  ∃ field values values', first.AmountsToTag field values ∧ next.AmountsToTag field values'

theorem prependMerged_cases (clause : Clause) (merged : List Clause) :
    (prependMerged clause merged = clause :: merged ∧
      ∀ next ∈ merged.head?, ¬ clause.Mergeable next) ∨
    ∃ field values values' next rest, merged = next :: rest ∧
      clause.AmountsToTag field values ∧ next.AmountsToTag field values' ∧
      prependMerged clause merged = tag field (values ++ values') :: rest := by
  cases merged with
  | nil => exact .inl ⟨rfl, by simp⟩
  | cons next rest =>
    rw [prependMerged]
    split
    · rename_i field values field' values' hclause hnext
      have hclause := asTag?_eq_some.1 hclause
      have hnext := asTag?_eq_some.1 hnext
      split
      · rename_i hfield
        subst hfield
        exact .inr ⟨field, values, values', next, rest, rfl, hclause, hnext, rfl⟩
      · rename_i hfield
        refine .inl ⟨rfl, ?_⟩
        simp only [List.head?_cons, Option.mem_some_iff, forall_eq']
        rintro ⟨other, _, _, hfirst, hsecond⟩
        have hsame := (hclause.unique hfirst).1.trans (hnext.unique hsecond).1.symm
        exact hfield hsame
    · rename_i hnone
      refine .inl ⟨rfl, ?_⟩
      simp only [List.head?_cons, Option.mem_some_iff, forall_eq']
      rintro ⟨field, values, values', hfirst, hsecond⟩
      exact hnone _ _ _ _ (asTag?_eq_some.2 hfirst) (asTag?_eq_some.2 hsecond)

@[simp] theorem mergeRuns_cons (operand : Clause) (rest : List Clause) :
    mergeRuns (operand :: rest) = prependMerged operand (mergeRuns rest) := rfl

section Alternatives

variable {P : Clause → Prop}
  (hjoin : ∀ {field values values' first next}, first.AmountsToTag field values →
    next.AmountsToTag field values' → P first → P next → P (tag field (values ++ values')))
include hjoin

theorem forall_mem_prependMerged {clause : Clause} {merged : List Clause} (h : P clause)
    (hmerged : ∀ operand ∈ merged, P operand) :
    ∀ operand ∈ prependMerged clause merged, P operand := by
  obtain ⟨hkept, -⟩ | ⟨field, values, values', next, rest, rfl, hclause, hnext, hjoined⟩ :=
    prependMerged_cases clause merged
  · rw [hkept]
    exact List.forall_mem_cons.2 ⟨h, hmerged⟩
  · rw [hjoined]
    obtain ⟨hfirst, hrest⟩ := List.forall_mem_cons.1 hmerged
    exact List.forall_mem_cons.2 ⟨hjoin hclause hnext h hfirst, hrest⟩

theorem forall_mem_mergeRuns {operands : List Clause} (h : ∀ operand ∈ operands, P operand) :
    ∀ operand ∈ mergeRuns operands, P operand := by
  induction operands with
  | nil => exact h
  | cons operand rest ih =>
    obtain ⟨hoperand, hrest⟩ := List.forall_mem_cons.1 h
    exact forall_mem_prependMerged hjoin hoperand (ih hrest)

end Alternatives

theorem union_cases (operands : List Clause) :
    (union operands = or operands ∧ ∀ field values, operands ≠ [tag field values]) ∨
      ∃ field values, operands = [tag field values] ∧ union operands = tag field values := by
  unfold union
  split
  · rename_i field values
    exact .inr ⟨field, values, rfl, rfl⟩
  · rename_i hbare
    exact .inl ⟨rfl, hbare⟩

end FilterQuery.Clause
