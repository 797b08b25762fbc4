import FilterQuery.Proofs.MergedUnions

/-!
# Leaves of merged clauses

Merging loses, repeats and reorders nothing. The leaves of a merged clause are those of the clause
before, from left to right, except that runs of tag matches on one field became one match each. So
the finished texts and single tags of a clause stay the same sequence, and no tag changes its field.
-/

namespace FilterQuery.Clause

def isLeaf : Clause → Bool
  | atom _ | tag _ _ => true
  | and _ _ | or _ | group _ | not _ => false

def leaves (clause : Clause) : List Clause := clause.parts.filter isLeaf

@[simp] theorem leaves_atom (text : Text) : (atom text).leaves = [atom text] := rfl

@[simp] theorem leaves_tag (field : Text) (values : List Text) :
    (tag field values).leaves = [tag field values] := rfl

@[simp] theorem leaves_and (left right : Clause) :
    (and left right).leaves = left.leaves ++ right.leaves := by
  simp [leaves, parts, isLeaf]

@[simp] theorem leaves_or (operands : List Clause) :
    (or operands).leaves = operands.flatMap leaves := by
  simp only [leaves, parts, partsOfAll_eq, isLeaf, List.filter_cons, List.filter_flatMap]
  rfl

@[simp] theorem leaves_group (inner : Clause) : (group inner).leaves = inner.leaves := rfl

@[simp] theorem leaves_not (inner : Clause) : (not inner).leaves = inner.leaves := rfl

/-- What a clause matches with, one by one: a finished text or a single tag of a field. -/
inductive Item
  | text (text : Text)
  | tag (field value : Text)
deriving DecidableEq, Repr

def leafItems : Clause → List Item
  | atom text => [.text text]
  | tag field values => values.map (.tag field)
  | and _ _ | or _ | group _ | not _ => []

def items (clause : Clause) : List Item := clause.leaves.flatMap leafItems

/-! ### Runs of tag matches -/

/-- Leaves put together from other leaves: a text stays, and a tag match holds the tags of one or
more neighbouring matches on its field. -/
inductive Gathers : List Clause → List Clause → Prop
  | nil : Gathers [] []
  | atom {text : Text} {gathered leaves : List Clause} : Gathers gathered leaves →
    Gathers (.atom text :: gathered) (.atom text :: leaves)
  | tags {field : Text} {runs : List (List Text)} {gathered leaves : List Clause} : runs ≠ [] →
    Gathers gathered leaves →
    Gathers (.tag field runs.flatten :: gathered) (runs.map (.tag field) ++ leaves)

namespace Gathers

theorem tag (field : Text) (values : List Text) :
    Gathers [.tag field values] [.tag field values] := by
  have hrun : Gathers [.tag field [values].flatten] ([values].map (.tag field) ++ []) :=
    .tags (by simp) .nil
  simpa using hrun

theorem append {gathered gathered' leaves leaves' : List Clause} (h : Gathers gathered leaves)
    (h' : Gathers gathered' leaves') : Gathers (gathered ++ gathered') (leaves ++ leaves') := by
  induction h with
  | nil => exact h'
  | atom _ ih => exact .atom ih
  | tags hne _ ih =>
    rw [List.append_assoc]
    exact .tags hne ih

/-- Two neighbouring matches on one field are put together further. -/
theorem join {field : Text} {values values' : List Text} {rest leaves : List Clause}
    (h : Gathers (.tag field values :: .tag field values' :: rest) leaves) :
    Gathers (.tag field (values ++ values') :: rest) leaves := by
  cases h with
  | @tags _ runs _ _ hne h =>
    cases h with
    | @tags _ runs' _ leaves _ h =>
      rw [← List.flatten_append, ← List.append_assoc, ← List.map_append]
      exact .tags (by simp [hne]) h

theorem items_eq {gathered leaves : List Clause} (h : Gathers gathered leaves) :
    gathered.flatMap leafItems = leaves.flatMap leafItems := by
  induction h with
  | nil => rfl
  | atom _ ih => rw [List.flatMap_cons, List.flatMap_cons, ih]
  | @tags field runs _ _ _ _ ih =>
    have hrun : (runs.map (Clause.tag field)).flatMap leafItems =
        leafItems (.tag field runs.flatten) := by
      rw [List.flatMap_map, List.flatMap_def, leafItems, List.map_flatten]
      rfl
    rw [List.flatMap_cons, List.flatMap_append, hrun, ih]

/-- The tags of a match come from neighbouring matches on its field. -/
theorem exists_runs {gathered leaves : List Clause} (h : Gathers gathered leaves) {field : Text}
    {values : List Text} (hmem : .tag field values ∈ gathered) :
    ∃ runs : List (List Text), runs ≠ [] ∧ values = runs.flatten ∧
      runs.map (.tag field) <:+: leaves := by
  induction h with
  | nil => simp at hmem
  | atom _ ih =>
    obtain ⟨runs, hne, hvalues, hinfix⟩ := ih (by simpa using hmem)
    exact ⟨runs, hne, hvalues, List.infix_cons hinfix⟩
  | @tags field' runs' _ leaves hne' _ ih =>
    rcases List.mem_cons.1 hmem with htag | hmem
    · cases htag
      exact ⟨runs', hne', rfl, (List.prefix_append _ _).isInfix⟩
    · obtain ⟨runs, hne, hvalues, hinfix⟩ := ih hmem
      exact ⟨runs, hne, hvalues, hinfix.trans (List.suffix_append _ _).isInfix⟩

end Gathers

/-! ### Merging gathers leaves -/

theorem AmountsToTag.leaves_eq {clause : Clause} {field : Text} {values : List Text}
    (h : clause.AmountsToTag field values) : clause.leaves = [.tag field values] := by
  induction h with
  | tag => rfl
  | group _ ih => rw [leaves_group, ih]
  | union _ ih => simp [ih]

theorem gathers_prependMerged {clause : Clause} {merged leaves : List Clause}
    (h : Gathers (clause.leaves ++ merged.flatMap Clause.leaves) leaves) :
    Gathers ((prependMerged clause merged).flatMap Clause.leaves) leaves := by
  obtain ⟨hkept, -⟩ | ⟨field, values, values', next, rest, rfl, hclause, hnext, hjoined⟩ :=
    prependMerged_cases clause merged
  · rw [hkept]
    exact h
  · rw [hclause.leaves_eq, List.flatMap_cons, hnext.leaves_eq] at h
    rw [hjoined]
    exact h.join

theorem leaves_union (operands : List Clause) :
    (union operands).leaves = operands.flatMap leaves := by
  obtain ⟨hunion, -⟩ | ⟨field, values, rfl, hunion⟩ := union_cases operands
  · rw [hunion, leaves_or]
  · rw [hunion]
    simp

theorem gathers_mergeRuns {operands : List Clause}
    (h : ∀ operand ∈ operands, Gathers operand.coalesce.leaves operand.leaves) :
    Gathers ((mergeRuns (operands.map coalesce)).flatMap leaves) (operands.flatMap leaves) := by
  induction operands with
  | nil => exact .nil
  | cons operand rest ih =>
    obtain ⟨hoperand, hrest⟩ := List.forall_mem_cons.1 h
    rw [List.map_cons, mergeRuns_cons, List.flatMap_cons]
    exact gathers_prependMerged (hoperand.append (ih hrest))

theorem gathers_coalesce (clause : Clause) : Gathers clause.coalesce.leaves clause.leaves := by
  induction clause with
  | atom text => exact .atom .nil
  | tag field values => exact .tag field values
  | and left right ihl ihr =>
    rw [coalesce, leaves_and, leaves_and]
    exact ihl.append ihr
  | or operands ih =>
    rw [coalesce, coalesceAll_eq, leaves_union, leaves_or]
    exact gathers_mergeRuns ih
  | group inner ih => exact ih
  | not inner ih => exact ih

/-- A merged clause has the items of the clause in their order, and the tags of each of its tag
matches are those of neighbouring matches of the clause on the same field. -/
theorem coalesce_items (clause : Clause) :
    clause.coalesce.items = clause.items ∧
      ∀ field values, tag field values ∈ clause.coalesce.parts →
        ∃ runs : List (List Text), runs ≠ [] ∧ values = runs.flatten ∧
          runs.map (tag field) <:+: clause.leaves := by
  have hgathers := gathers_coalesce clause
  refine ⟨hgathers.items_eq, fun field values hmem => ?_⟩
  exact hgathers.exists_runs (List.mem_filter.2 ⟨hmem, rfl⟩)

end FilterQuery.Clause
