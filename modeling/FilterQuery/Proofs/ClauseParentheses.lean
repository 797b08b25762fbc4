import FilterQuery.Proofs.ClauseLeaves
import FilterQuery.Proofs.ParenthesisCount

/-!
# Parentheses of written clauses

A clause with neutral leaves is written as neutral text. Stripping such a text takes away the
parentheses of outermost groups and one-operand unions and nothing else, so that what is left is
again a written clause.
-/

namespace FilterQuery.Clause

open Parentheses

theorem holds_ungrouped (atoms : Text → Bool) (tags : Text → Text → Bool) (clause : Clause) :
    clause.ungrouped.holds atoms tags = clause.holds atoms tags := by
  cases clause <;> rfl

theorem writable_neutral : Writable Neutral where
  nil := .of_plain (by simp)
  append := .append
  space := .of_plain (by simp [Plain])
  bar := .of_plain (by simp [Plain])
  minus := .of_plain (by simp [Plain])
  parenthesize := .parenthesized

abbrev NeutralLeaves : Clause → Prop :=
  Each (fun text => Neutral text ∧ text.head? ≠ some '(')
    fun field values => Neutral (tagText field values)

theorem neutral_render {clause : Clause} (h : clause.NeutralLeaves) :
    Neutral clause.render ∧ Neutral clause.ungrouped.render :=
  writable_neutral.render (h.mono (fun _ htext => htext.1) fun _ _ htag => htag)

/-- One clause is left of another when outermost groups and one-operand unions are taken off. -/
inductive Peels : Clause → Clause → Prop
  | none (clause : Clause) : Peels clause clause
  | group {inner clause : Clause} : Peels inner clause → Peels (.group inner) clause
  | union {operand clause : Clause} : Peels operand.ungrouped clause →
    Peels (.or [operand]) clause

theorem Peels.holds {clause peeled : Clause} (h : clause.Peels peeled)
    (atoms : Text → Bool) (tags : Text → Text → Bool) :
    peeled.holds atoms tags = clause.holds atoms tags := by
  induction h with
  | none clause => rfl
  | group _ ih => exact ih
  | @union operand _ _ ih => simp [ih, holds_ungrouped, Clause.holds]

theorem Each.ungrouped {atomOk : Text → Prop} {tagOk : Text → List Text → Prop} {clause : Clause}
    (h : clause.Each atomOk tagOk) : clause.ungrouped.Each atomOk tagOk := by
  cases h with
  | group h => exact h
  | atom h => exact .atom h
  | tag h => exact .tag h
  | and hl hr => exact .and hl hr
  | or hne h => exact .or hne h
  | not h => exact .not h

theorem Peels.each {atomOk : Text → Prop} {tagOk : Text → List Text → Prop}
    {clause peeled : Clause} (hpeels : clause.Peels peeled) (h : clause.Each atomOk tagOk) :
    peeled.Each atomOk tagOk := by
  induction hpeels with
  | none clause => exact h
  | group _ ih =>
    cases h with
    | group h => exact ih h
  | @union operand _ _ ih =>
    cases h with
    | or _ h => exact ih (h operand List.mem_cons_self).ungrouped

theorem strip_of_head {text : Text} (h : text.head? ≠ some '(') : strip text = text := by
  apply strip_eq_self
  rintro inner rfl
  simp at h

theorem strip_parenthesize {clause : Clause} (h : clause.NeutralLeaves) :
    strip (parenthesize clause.render) = strip clause.render :=
  strip_of_isBalanced (neutral_render h).1.isBalanced

/-- The first of several parts keeps its parentheses, if it has any. -/
theorem strip_first {first rest : Text} (h : Neutral first) (hrest : rest ≠ [])
    (hhead : rest.head? ≠ some '(') : strip (first ++ rest) = first ++ rest := by
  cases first with
  | nil => exact strip_of_head hhead
  | cons c first =>
    by_cases hc : c = '('
    · subst hc
      exact strip_append h hrest
    · exact strip_of_head (by simpa using hc)

theorem strip_render_or {first next : Clause} {rest : List Clause}
    (h : (Clause.or (first :: next :: rest)).NeutralLeaves) :
    strip (Clause.or (first :: next :: rest)).render =
      (Clause.or (first :: next :: rest)).render := by
  cases h with
  | or _ h =>
    have hfirst := (neutral_render (h first List.mem_cons_self)).2.parenthesized
    rw [render, renderAlternatives_eq, List.map_cons, List.map_cons, List.intercalate_cons_cons,
      List.append_assoc]
    exact strip_first hfirst (by simp) (by simp)

/-- What is left of a written clause when it is stripped is a written clause again. -/
theorem strip_render {clause : Clause} (h : clause.NeutralLeaves) :
    (∃ peeled, clause.Peels peeled ∧ strip clause.render = peeled.render) ∧
      ∃ peeled, clause.ungrouped.Peels peeled ∧ strip clause.ungrouped.render = peeled.render := by
  induction h with
  | @atom text hok =>
    have hstrip : strip text = text := strip_of_head hok.2
    exact ⟨⟨_, .none _, hstrip⟩, ⟨_, .none _, hstrip⟩⟩
  | @tag field values _ =>
    have hstrip : strip (tagText field values) = tagText field values :=
      strip_of_head (by simp [tagText])
    exact ⟨⟨_, .none _, hstrip⟩, ⟨_, .none _, hstrip⟩⟩
  | @and left right hleft _ _ _ =>
    have hstrip : strip (render (.and left right)) = render (.and left right) :=
      strip_first (neutral_render hleft).1 (by simp) (by simp)
    exact ⟨⟨_, .none _, hstrip⟩, ⟨_, .none _, hstrip⟩⟩
  | @or operands hne h ih =>
    match operands with
    | [] => exact absurd rfl hne
    | [operand] =>
      obtain ⟨-, peeled, hpeels, hstrip⟩ := ih operand List.mem_cons_self
      have hunion : strip (render (.or [operand])) = peeled.render := by
        rw [← hstrip, render, renderAlternatives_eq, List.map_singleton, List.intercalate_singleton]
        exact strip_parenthesize (h operand List.mem_cons_self).ungrouped
      exact ⟨⟨peeled, .union hpeels, hunion⟩, ⟨peeled, .union hpeels, hunion⟩⟩
    | first :: next :: rest =>
      have hstrip := strip_render_or (.or hne h)
      exact ⟨⟨_, .none _, hstrip⟩, ⟨_, .none _, hstrip⟩⟩
  | @group inner hinner ih =>
    obtain ⟨⟨peeled, hpeels, hstrip⟩, -⟩ := ih
    exact ⟨⟨peeled, .group hpeels, (strip_parenthesize hinner).trans hstrip⟩,
      ⟨peeled, hpeels, hstrip⟩⟩
  | @not inner _ _ =>
    have hstrip : strip (render (.not inner)) = render (.not inner) := by
      apply strip_of_head
      rw [render, negation]
      split_ifs <;> simp
    exact ⟨⟨_, .none _, hstrip⟩, ⟨_, .none _, hstrip⟩⟩

end FilterQuery.Clause
