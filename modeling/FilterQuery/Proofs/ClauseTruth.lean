import FilterQuery.Proofs.MergeSteps

/-!
# What clauses say

A clause is a Boolean combination of its leaves. Once it is settled which finished texts match and
which single tags do, every clause matches or not: a tag match asks for one of its tags, and a
union for one of its operands. Merging tag alternatives keeps this for every clause.
-/

namespace FilterQuery.Clause

/-- Induction on clauses, with the hypothesis for every operand of a union. -/
@[elab_as_elim, induction_eliminator]
theorem inductionOn {motive : Clause → Prop}
    (atom : ∀ text, motive (.atom text))
    (tag : ∀ field values, motive (.tag field values))
    (and : ∀ left right, motive left → motive right → motive (.and left right))
    (or : ∀ operands, (∀ operand ∈ operands, motive operand) → motive (.or operands))
    (group : ∀ inner, motive inner → motive (.group inner))
    (not : ∀ inner, motive inner → motive (.not inner)) :
    ∀ clause, motive clause
  | .atom text => atom text
  | .tag field values => tag field values
  | .and left right =>
    and left right (inductionOn atom tag and or group not left)
      (inductionOn atom tag and or group not right)
  | .or operands => or operands fun operand _ => inductionOn atom tag and or group not operand
  | .group inner => group inner (inductionOn atom tag and or group not inner)
  | .not inner => not inner (inductionOn atom tag and or group not inner)

variable (atoms : Text → Bool) (tags : Text → Text → Bool)

mutual

/-- Whether a clause matches, given which finished texts match and which tags of a field do. -/
def holds : Clause → Bool
  | atom text => atoms text
  | tag field values => values.any (tags field)
  | and left right => holds left && holds right
  | or operands => anyHolds operands
  | group inner => holds inner
  | not inner => !holds inner

def anyHolds : List Clause → Bool
  | [] => false
  | operand :: rest => holds operand || anyHolds rest

end

@[simp] theorem anyHolds_eq (operands : List Clause) :
    anyHolds atoms tags operands = operands.any (holds atoms tags) := by
  induction operands with
  | nil => rfl
  | cons operand rest ih => simp [anyHolds, ih]

@[simp] theorem coalesceAll_eq (operands : List Clause) :
    coalesceAll operands = operands.map coalesce := by
  induction operands with
  | nil => rfl
  | cons operand rest ih => simp [coalesceAll, ih]

theorem AmountsToTag.holds_eq {clause : Clause} {field : Text} {values : List Text}
    (h : clause.AmountsToTag field values) :
    clause.holds atoms tags = values.any (tags field) := by
  induction h with
  | tag => rfl
  | group _ ih => exact ih
  | union _ ih => simpa [holds] using ih

/-- What joins the first merged alternative still asks for one of both sets of tags. -/
theorem any_prependMerged (clause : Clause) (merged : List Clause) :
    (prependMerged clause merged).any (holds atoms tags) =
      (clause.holds atoms tags || merged.any (holds atoms tags)) := by
  obtain ⟨hkept, -⟩ | ⟨field, values, values', next, rest, rfl, hclause, hnext, hjoined⟩ :=
    prependMerged_cases clause merged
  · rw [hkept, List.any_cons]
  · rw [hjoined, List.any_cons, List.any_cons, hclause.holds_eq, hnext.holds_eq, holds,
      List.any_append, Bool.or_assoc]

theorem any_mergeRuns (operands : List Clause) :
    (mergeRuns operands).any (holds atoms tags) = operands.any (holds atoms tags) := by
  induction operands with
  | nil => rfl
  | cons operand rest ih => rw [mergeRuns_cons, any_prependMerged, ih, List.any_cons]

theorem holds_union (operands : List Clause) :
    (union operands).holds atoms tags = operands.any (holds atoms tags) := by
  obtain ⟨hunion, -⟩ | ⟨field, values, rfl, hunion⟩ := union_cases operands
  · rw [hunion, holds, anyHolds_eq]
  · rw [hunion]
    simp

theorem holds_coalesce (clause : Clause) :
    clause.coalesce.holds atoms tags = clause.holds atoms tags := by
  induction clause with
  | atom text => rfl
  | tag field values => rfl
  | and left right ihl ihr => simp only [coalesce, holds, ihl, ihr]
  | or operands ih =>
    rw [coalesce, coalesceAll_eq, holds_union, any_mergeRuns, List.any_map, holds, anyHolds_eq,
      Bool.eq_iff_iff, List.any_eq_true, List.any_eq_true]
    refine exists_congr fun operand => and_congr_right fun hmem => ?_
    rw [Function.comp_apply, ih operand hmem]
  | group inner ih => simpa only [coalesce, holds] using ih
  | not inner ih => simp only [coalesce, holds, ih]

def Equivalent (clause other : Clause) : Prop :=
  ∀ atoms tags, clause.holds atoms tags = other.holds atoms tags

theorem coalesce_equivalent (clause : Clause) : clause.coalesce.Equivalent clause := by
  intro atoms tags
  exact holds_coalesce atoms tags clause

end FilterQuery.Clause
