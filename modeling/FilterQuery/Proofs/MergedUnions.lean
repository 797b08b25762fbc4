import FilterQuery.Proofs.ClauseTruth
import FilterQuery.Proofs.MergeSteps
import Mathlib.Data.List.Chain
import Mathlib.Tactic

/-!
# Merged unions

One pass of merging is enough. In a merged clause no union at any depth has neighbouring operands
that amount to tag matches on one field, and none consists of a bare tag match. The clauses like
that are exactly those that merging leaves as they are.
-/

namespace FilterQuery.Clause

mutual

/-- A clause and the clauses inside of it at any depth, each one before its own parts and the parts
from left to right. -/
def parts : Clause → List Clause
  | atom text => [atom text]
  | tag field values => [tag field values]
  | and left right => and left right :: (parts left ++ parts right)
  | or operands => or operands :: partsOfAll operands
  | group inner => group inner :: parts inner
  | not inner => not inner :: parts inner

def partsOfAll : List Clause → List Clause
  | [] => []
  | operand :: rest => parts operand ++ partsOfAll rest

end

@[simp] theorem partsOfAll_eq (operands : List Clause) :
    partsOfAll operands = operands.flatMap parts := by
  induction operands with
  | nil => rfl
  | cons operand rest ih => simp [partsOfAll, ih]

/-! ### Unions in which nothing is left to merge -/

/-- No two neighbours can be merged, and there is more than a bare tag match. -/
structure MergedOperands (operands : List Clause) : Prop where
  apart : operands.IsChain fun first next => ¬ first.Mergeable next
  not_bare : ∀ field values, operands ≠ [tag field values]

def IsMerged (clause : Clause) : Prop :=
  ∀ operands, or operands ∈ clause.parts → MergedOperands operands

@[simp] theorem isMerged_atom (text : Text) : (atom text).IsMerged := by simp [IsMerged, parts]

@[simp] theorem isMerged_tag (field : Text) (values : List Text) : (tag field values).IsMerged := by
  simp [IsMerged, parts]

@[simp] theorem isMerged_group {inner : Clause} : (group inner).IsMerged ↔ inner.IsMerged := by
  simp [IsMerged, parts]

@[simp] theorem isMerged_not {inner : Clause} : (not inner).IsMerged ↔ inner.IsMerged := by
  simp [IsMerged, parts]

@[simp] theorem isMerged_and {left right : Clause} :
    (and left right).IsMerged ↔ left.IsMerged ∧ right.IsMerged := by
  simp [IsMerged, parts, or_imp, forall_and]

theorem isMerged_or {operands : List Clause} :
    (or operands).IsMerged ↔
      MergedOperands operands ∧ ∀ operand ∈ operands, operand.IsMerged := by
  constructor
  · intro h
    refine ⟨h operands (by simp [parts]), fun operand hoperand inner hinner => ?_⟩
    apply h inner
    simp only [parts, partsOfAll_eq, List.mem_cons, List.mem_flatMap]
    exact .inr ⟨operand, hoperand, hinner⟩
  · rintro ⟨hmerged, hoperands⟩ inner hinner
    simp only [parts, partsOfAll_eq, List.mem_cons, List.mem_flatMap, or.injEq] at hinner
    rcases hinner with rfl | ⟨operand, hoperand, hinner⟩
    · exact hmerged
    · exact hoperands operand hoperand inner hinner

/-! ### Merging merges everything -/

theorem isChain_prependMerged (clause : Clause) {merged : List Clause}
    (h : merged.IsChain fun first next => ¬ first.Mergeable next) :
    (prependMerged clause merged).IsChain fun first next => ¬ first.Mergeable next := by
  obtain ⟨hkept, hapart⟩ | ⟨field, values, values', next, rest, rfl, -, hnext, hjoined⟩ :=
    prependMerged_cases clause merged
  · rw [hkept]
    exact List.isChain_cons.2 ⟨hapart, h⟩
  · rw [hjoined]
    obtain ⟨hfirst, hrest⟩ := List.isChain_cons.1 h
    -- The joined match is on the field of the alternative it replaces, so the one behind that is
    -- as far apart from it as before.
    refine List.isChain_cons.2 ⟨fun second hsecond => ?_, hrest⟩
    rintro ⟨field', _, values'', htag, hmatch⟩
    obtain ⟨rfl, -⟩ := htag.unique .tag
    exact hfirst second hsecond ⟨field', values', values'', hnext, hmatch⟩

theorem isChain_mergeRuns (operands : List Clause) :
    (mergeRuns operands).IsChain fun first next => ¬ first.Mergeable next := by
  induction operands with
  | nil => exact .nil
  | cons operand rest ih => exact isChain_prependMerged operand ih

theorem isMerged_coalesce (clause : Clause) : clause.coalesce.IsMerged := by
  induction clause with
  | atom text => exact isMerged_atom text
  | tag field values => exact isMerged_tag field values
  | and left right ihl ihr => exact isMerged_and.2 ⟨ihl, ihr⟩
  | or operands ih =>
    have hoperands : ∀ operand ∈ mergeRuns (operands.map coalesce), operand.IsMerged :=
      forall_mem_mergeRuns (fun _ _ _ _ => isMerged_tag _ _) (by simpa using ih)
    rw [coalesce, coalesceAll_eq]
    obtain ⟨hunion, hbare⟩ | ⟨field, values, -, hunion⟩ :=
      union_cases (mergeRuns (operands.map coalesce))
    · rw [hunion]
      exact isMerged_or.2 ⟨⟨isChain_mergeRuns _, hbare⟩, hoperands⟩
    · rw [hunion]
      exact isMerged_tag field values
  | group inner ih => exact isMerged_group.2 ih
  | not inner ih => exact isMerged_not.2 ih

/-! ### What is merged stays as it is -/

theorem mergeRuns_eq_self {operands : List Clause}
    (h : operands.IsChain fun first next => ¬ first.Mergeable next) :
    mergeRuns operands = operands := by
  induction operands with
  | nil => rfl
  | cons operand rest ih =>
    obtain ⟨hfirst, hrest⟩ := List.isChain_cons.1 h
    rw [mergeRuns_cons, ih hrest]
    obtain ⟨hkept, -⟩ | ⟨field, values, values', next, more, rfl, hoperand, hnext, -⟩ :=
      prependMerged_cases operand rest
    · exact hkept
    · exact absurd ⟨field, values, values', hoperand, hnext⟩ (hfirst next rfl)

theorem coalesce_eq_self {clause : Clause} (h : clause.IsMerged) : clause.coalesce = clause := by
  induction clause with
  | atom text => rfl
  | tag field values => rfl
  | and left right ihl ihr =>
    obtain ⟨hleft, hright⟩ := isMerged_and.1 h
    rw [coalesce, ihl hleft, ihr hright]
  | or operands ih =>
    obtain ⟨hmerged, hoperands⟩ := isMerged_or.1 h
    have hsame : operands.map coalesce = operands := by
      conv_rhs => rw [← List.map_id operands]
      exact List.map_congr_left fun operand hmem => ih operand hmem (hoperands operand hmem)
    rw [coalesce, coalesceAll_eq, hsame, mergeRuns_eq_self hmerged.apart]
    obtain ⟨hunion, -⟩ | ⟨field, values, hbare, -⟩ := union_cases operands
    · exact hunion
    · exact absurd hbare (hmerged.not_bare field values)
  | group inner ih => rw [coalesce, ih (isMerged_group.1 h)]
  | not inner ih => rw [coalesce, ih (isMerged_not.1 h)]

/-- Merging a second time changes nothing, and in no union of a merged clause is anything left to
merge. A clause keeps its form under merging only if it is like that already. -/
theorem coalesce_normalForm (clause : Clause) :
    clause.coalesce.coalesce = clause.coalesce ∧ clause.coalesce.IsMerged ∧
      (clause.coalesce = clause ↔ clause.IsMerged) := by
  have hmerged := isMerged_coalesce clause
  refine ⟨coalesce_eq_self hmerged, hmerged, ?_, coalesce_eq_self⟩
  intro hself
  rw [hself] at hmerged
  exact hmerged

end FilterQuery.Clause
