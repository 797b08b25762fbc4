import FilterQuery.Proofs.ClauseLeaves

/-!
# Lengths of merged clauses

Merging never makes the text of a clause longer, and where it changes a clause it makes the text
shorter. Two alternatives that are joined save a bar and a pair of parentheses; a bare tag match
saves the parentheses that it had in its union. The one place that could add parentheses is a
negation: it has them around a text with a space or a bar, unless that text belongs to a group.
Merging brings in no space and no bar, and it keeps groups.
-/

namespace FilterQuery.Clause

/-! ### What a negation depends on -/

theorem isGroup_coalesce (clause : Clause) : clause.coalesce.isGroup = clause.isGroup := by
  cases clause with
  | or operands =>
    rw [coalesce]
    obtain ⟨hunion, -⟩ | ⟨field, values, -, hunion⟩ := union_cases (mergeRuns (coalesceAll operands))
    · rw [hunion]
      rfl
    · rw [hunion]
      rfl
  | _ => rfl

/-- A text that a minus negates as a whole. -/
def Unbroken (text : Text) : Prop := ' ' ∉ text ∧ '|' ∉ text

@[simp] theorem unbroken_append {text more : Text} :
    Unbroken (text ++ more) ↔ Unbroken text ∧ Unbroken more := by
  simp only [Unbroken, List.mem_append, not_or]
  exact and_and_and_comm

@[simp] theorem unbroken_parenthesize {text : Text} :
    Unbroken (parenthesize text) ↔ Unbroken text := by
  simp [parenthesize, Unbroken]

@[simp] theorem unbroken_negation {clause : Clause} {text : Text} :
    Unbroken (negation clause text) ↔ Unbroken text := by
  have hminus : ∀ {t}, Unbroken ('-' :: t) ↔ Unbroken t := by simp [Unbroken]
  unfold negation
  split_ifs <;> simp [hminus]

theorem unbroken_ungrouped (clause : Clause) :
    Unbroken clause.ungrouped.render ↔ Unbroken clause.render := by
  cases clause with
  | group inner => rw [render, unbroken_parenthesize, ungrouped]
  | _ => rfl

/-- A union of two or more has bars. -/
theorem unbroken_render_or {operands : List Clause} (h : Unbroken (or operands).render) :
    operands = [] ∨ ∃ operand, operands = [operand] ∧ Unbroken operand.render := by
  rw [render, renderAlternatives_eq] at h
  cases operands with
  | nil => exact .inl rfl
  | cons operand rest =>
    cases rest with
    | nil => exact .inr ⟨operand, rfl, by simpa [unbroken_ungrouped] using h⟩
    | cons next rest =>
      rw [List.map_cons, List.map_cons, List.intercalate_cons_cons, unbroken_append,
        unbroken_append] at h
      exact absurd List.mem_cons_self h.1.2.1

theorem unbroken_coalesce {clause : Clause} (h : Unbroken clause.render) :
    Unbroken clause.coalesce.render := by
  induction clause with
  | atom text => exact h
  | tag field values => exact h
  | and left right => exact absurd (by simp [render]) h.1
  | or operands ih =>
    -- A union without bars has nothing to join.
    obtain rfl | ⟨operand, rfl, hoperand⟩ := unbroken_render_or h
    · exact h
    · have hmerged := ih operand List.mem_cons_self hoperand
      rw [coalesce, coalesceAll_eq]
      obtain ⟨hunion, -⟩ | ⟨field, values, hbare, hunion⟩ := union_cases [operand.coalesce]
      · have hwritten : Unbroken (or [operand.coalesce]).render := by
          simpa [render, unbroken_ungrouped] using hmerged
        rwa [← hunion] at hwritten
      · rw [List.singleton_inj] at hbare
        rwa [hbare, ← hunion] at hmerged
  | group inner ih =>
    rw [render, unbroken_parenthesize] at h
    rw [coalesce, render, unbroken_parenthesize]
    exact ih h
  | not inner ih =>
    rw [render, unbroken_negation] at h
    rw [coalesce, render, unbroken_negation]
    exact ih h

/-! ### Lengths -/

@[simp] theorem length_parenthesize (text : Text) :
    (parenthesize text).length = text.length + 2 := by
  simp [parenthesize]

/-- A negation of something shorter is shorter, since it has no parentheses that the other one does
not have. -/
theorem length_negation_lt {short clause : Clause} {text more : Text}
    (hgroup : short.isGroup = clause.isGroup) (hunbroken : Unbroken more → Unbroken text)
    (hlt : text.length < more.length) :
    (negation short text).length < (negation clause more).length := by
  have hbreaks : (text.contains ' ' || text.contains '|') = true →
      (more.contains ' ' || more.contains '|') = true := by
    contrapose!
    simpa [Unbroken] using hunbroken
  unfold negation
  rw [hgroup]
  split_ifs with _ htext hmore
  · simpa using hlt
  · simpa using hlt
  · exact absurd (hbreaks htext) hmore
  · simp only [length_parenthesize, List.length_cons]
    omega
  · simpa using hlt

theorem length_intercalate (separator : Text) (texts : List Text) :
    (separator.intercalate texts).length =
      (texts.map fun text => text.length + separator.length).sum - separator.length := by
  induction texts with
  | nil => simp
  | cons text rest ih =>
    cases rest with
    | nil => simp
    | cons next rest =>
      rw [List.intercalate_cons_cons, List.length_append, List.length_append, ih]
      simp only [List.map_cons, List.sum_cons]
      omega

/-- The length of the text of a clause, less the parentheses that a group brings. -/
def width (clause : Clause) : Nat := clause.ungrouped.render.length

theorem length_render (clause : Clause) :
    clause.render.length = clause.width + if clause.isGroup then 2 else 0 := by
  cases clause with
  | group inner => simp [render, width, ungrouped, isGroup]
  | _ => rfl

theorem length_render_lt {short clause : Clause} (hgroup : short.isGroup = clause.isGroup)
    (hlt : short.width < clause.width) : short.render.length < clause.render.length := by
  rw [length_render, length_render, hgroup]
  omega

theorem width_tag (field : Text) (values : List Text) :
    (tag field values).width = (tagText field values).length := rfl

theorem width_and (left right : Clause) :
    (and left right).width = left.render.length + right.render.length + 1 := by
  simp only [width, ungrouped, render, List.length_append, List.length_cons]
  omega

def totalWidth (operands : List Clause) : Nat := (operands.map fun operand => operand.width + 5).sum

@[simp] theorem totalWidth_cons (operand : Clause) (rest : List Clause) :
    totalWidth (operand :: rest) = operand.width + 5 + totalWidth rest := by
  simp [totalWidth]

/-- There is one bar less than there are alternatives. -/
theorem width_or (operands : List Clause) : (or operands).width = totalWidth operands - 3 := by
  have hrender : (or operands).width = (or operands).render.length := rfl
  have heach : ∀ operand : Clause,
      (parenthesize operand.ungrouped.render).length + 3 = operand.width + 5 := by
    intro operand
    rw [length_parenthesize, width]
  rw [hrender, render, renderAlternatives_eq, length_intercalate, List.map_map, totalWidth]
  exact congrArg (·.sum - 3) (List.map_congr_left fun operand _ => heach operand)

theorem width_or_lt {shorts operands : List Clause} (h : totalWidth shorts < totalWidth operands) :
    (or shorts).width < (or operands).width := by
  rw [width_or, width_or]
  cases operands with
  | nil => exact absurd h (Nat.not_lt_zero _)
  | cons operand rest =>
    rw [totalWidth_cons] at h ⊢
    omega

/-- Tags of two matches in one match save all but a comma of what is around the second ones. -/
theorem length_tagText_append_lt (field : Text) (values values' : List Text) :
    (tagText field (values ++ values')).length <
      (tagText field values).length + (tagText field values').length := by
  simp only [tagText, List.length_append, List.length_cons, List.length_nil, length_intercalate,
    List.map_append, List.sum_append]
  omega

theorem AmountsToTag.length_le {clause : Clause} {field : Text} {values : List Text}
    (h : clause.AmountsToTag field values) : (tagText field values).length ≤ clause.width := by
  induction h with
  | tag => exact le_rfl
  | @group inner _ ih =>
    have hrender := length_render inner
    rw [width, ungrouped]
    omega
  | @union operand _ ih =>
    rw [width_or, totalWidth_cons]
    omega

/-! ### Every step of merging -/

def SameOrSmaller {α : Type} (measure : α → Nat) (a b : α) : Prop := a = b ∨ measure a < measure b

namespace SameOrSmaller

variable {α β : Type} {measure : α → Nat} {measure' : β → Nat} {a b c : α}

theorem le (h : SameOrSmaller measure a b) : measure a ≤ measure b := by
  rcases h with rfl | hlt
  · exact le_rfl
  · exact hlt.le

theorem trans (h : SameOrSmaller measure a b) (h' : SameOrSmaller measure b c) :
    SameOrSmaller measure a c := by
  rcases h with rfl | hlt
  · exact h'
  · exact .inr (hlt.trans_le h'.le)

theorem map {f : α → β} (h : SameOrSmaller measure a b)
    (hf : measure a < measure b → measure' (f a) < measure' (f b)) :
    SameOrSmaller measure' (f a) (f b) :=
  h.imp (congrArg f) hf

end SameOrSmaller

theorem prependMerged_sameOrSmaller (clause : Clause) (merged : List Clause) :
    SameOrSmaller totalWidth (prependMerged clause merged) (clause :: merged) := by
  obtain ⟨hkept, -⟩ | ⟨field, values, values', next, rest, rfl, hclause, hnext, hjoined⟩ :=
    prependMerged_cases clause merged
  · exact .inl hkept
  · have hjoin := length_tagText_append_lt field values values'
    have hfirst := hclause.length_le
    have hsecond := hnext.length_le
    refine .inr ?_
    rw [hjoined, totalWidth_cons, totalWidth_cons, totalWidth_cons, width_tag]
    omega

theorem mergeRuns_sameOrSmaller (operands : List Clause) :
    SameOrSmaller totalWidth (mergeRuns operands) operands := by
  induction operands with
  | nil => exact .inl rfl
  | cons operand rest ih =>
    have hrest : SameOrSmaller totalWidth (operand :: mergeRuns rest) (operand :: rest) :=
      ih.map fun hlt => by simpa using hlt
    exact (prependMerged_sameOrSmaller operand (mergeRuns rest)).trans hrest

theorem map_coalesce_sameOrSmaller {operands : List Clause}
    (h : ∀ operand ∈ operands, SameOrSmaller width operand.coalesce operand) :
    SameOrSmaller totalWidth (operands.map coalesce) operands := by
  induction operands with
  | nil => exact .inl rfl
  | cons operand rest ih =>
    obtain ⟨hoperand, hrest⟩ := List.forall_mem_cons.1 h
    have hfirst : SameOrSmaller totalWidth (operand.coalesce :: rest.map coalesce)
        (operand :: rest.map coalesce) :=
      hoperand.map (f := (· :: rest.map coalesce)) fun hlt => by simpa using hlt
    exact hfirst.trans ((ih hrest).map fun hlt => by simpa using hlt)

theorem union_sameOrSmaller (operands : List Clause) :
    SameOrSmaller width (union operands) (or operands) := by
  obtain ⟨hunion, -⟩ | ⟨field, values, rfl, hunion⟩ := union_cases operands
  · exact .inl hunion
  · refine .inr ?_
    rw [hunion, width_or, totalWidth_cons]
    omega

theorem coalesce_sameOrSmaller (clause : Clause) :
    SameOrSmaller width clause.coalesce clause := by
  induction clause with
  | atom text => exact .inl rfl
  | tag field values => exact .inl rfl
  | and left right ihl ihr =>
    have hleft : SameOrSmaller width (and left.coalesce right.coalesce) (and left right.coalesce) :=
      ihl.map (f := (and · right.coalesce)) fun hlt => by
        simpa [width_and] using length_render_lt (isGroup_coalesce left) hlt
    have hright : SameOrSmaller width (and left right.coalesce) (and left right) :=
      ihr.map fun hlt => by
        simpa [width_and] using length_render_lt (isGroup_coalesce right) hlt
    exact hleft.trans hright
  | or operands ih =>
    rw [coalesce, coalesceAll_eq]
    have hmerged := (mergeRuns_sameOrSmaller (operands.map coalesce)).trans
      (map_coalesce_sameOrSmaller ih)
    exact (union_sameOrSmaller _).trans (hmerged.map width_or_lt)
  | group inner ih => exact ih.map (length_render_lt (isGroup_coalesce inner))
  | not inner ih =>
    refine ih.map fun hlt => ?_
    exact length_negation_lt (isGroup_coalesce inner) unbroken_coalesce
      (length_render_lt (isGroup_coalesce inner) hlt)

/-- A merged clause is written in no more characters than before, and in fewer unless merging left
it as it was. -/
theorem length_render_coalesce (clause : Clause) :
    clause.coalesce.render.length ≤ clause.render.length ∧
      (clause.coalesce.render.length = clause.render.length ↔ clause.coalesce = clause) := by
  rcases coalesce_sameOrSmaller clause with hsame | hlt
  · simp [hsame]
  · have hshorter := length_render_lt (isGroup_coalesce clause) hlt
    refine ⟨hshorter.le, fun hlength => absurd hlength hshorter.ne, fun hsame => ?_⟩
    rw [hsame]

end FilterQuery.Clause
