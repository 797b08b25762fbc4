import FilterQuery.Proofs.BalancedQueries

/-!
# Stripped queries

Stripping a compiled query peels groups and unions of one operand off its clause and takes no other
parentheses away, provided that every value closes the ranges it opens. A value that leaves a range
open hides the parentheses behind it. The first and the last parenthesis of a query are then taken
for a pair even where they belong to two alternatives.
-/

namespace FilterQuery

/-- No layer can be peeled off a union of two or more operands. -/
theorem Clause.Peels.eq_of_union {first next peeled : Clause} {rest : List Clause}
    (h : (Clause.or (first :: next :: rest)).Peels peeled) :
    peeled = .or (first :: next :: rest) := by
  cases h with
  | none => rfl

namespace Compiler

open Parentheses

/-- What is left of a query when it is stripped is the clause with outermost layers peeled off. In
particular no two alternatives lose their parentheses. -/
theorem compile_eq_render_peeled (compiler : Compiler) (condition : Condition) {query : Text}
    (hstrip : compiler.options.stripParens = true)
    (hfields : ∀ field ∈ condition.fields, ∀ c ∈ field, Plain c)
    (hstrings : ∀ s ∈ condition.strings, ∀ c ∈ s, c ≠ '(' ∧ c ≠ ')')
    (hranges : ∀ place s, (place, s) ∈ condition.places → closesRangesAt place s = true)
    (h : compiler.compile condition = .ok query) :
    ∃ clause peeled, compiler.clause condition = .ok clause ∧
      (compiler.merged clause).Peels peeled ∧ query = peeled.render ∧
      ∀ first next rest, compiler.merged clause = .or (first :: next :: rest) →
        query = (compiler.merged clause).render := by
  obtain ⟨clause, hclause, rfl⟩ := Outcome.map_eq_ok.1 h
  have hclosed : ∀ place s, (place, s) ∈ condition.places → ClosedString place s :=
    fun place s hs =>
      ⟨hstrings s (Condition.mem_strings_of_mem_places hs), hranges place s hs⟩
  have hneutral := neutralLeaves_closed compiler hfields hclosed hclause
  obtain ⟨⟨peeled, hpeels, hrender⟩, -⟩ := Clause.strip_render hneutral
  have hquery : compiler.finish clause = peeled.render := by
    rw [finish_eq, if_pos hstrip, hrender]
  refine ⟨clause, peeled, hclause, hpeels, hquery, ?_⟩
  intro first next rest hunion
  rw [hunion] at hpeels ⊢
  rw [hquery, hpeels.eq_of_union]

/-- Brackets and colons in values that close what they open, inside a group that is stripped. -/
theorem compile_eq_render_peeled_brackets :
    let compiler : Compiler := ⟨.ofEntries [("name".toList, .text), ("role".toList, .tag)], {}⟩
    let condition : Condition :=
      .group (.or (.isIn "role".toList [.string "[".toList, .string ":]".toList] false)
        (.and (.compare "name".toList .ne (.string "a:[b]".toList))
          (.between "age".toList (.string "]:[".toList) (.integer 3))))
    let query :=
      "((@role:\x7b[\x7d) | (@role:\x7b:]\x7d)) | (-@name:a:[b] @age:[]:[ 3])".toList
    compiler.compile condition = .ok query ∧
      ∃ clause peeled, compiler.clause condition = .ok clause ∧
        (compiler.merged clause).Peels peeled ∧ query = peeled.render ∧
        ∀ first next rest, compiler.merged clause = .or (first :: next :: rest) →
          query = (compiler.merged clause).render := by
  intro compiler condition query
  have hquery : compiler.compile condition = .ok query := by decide +kernel
  refine ⟨hquery, compile_eq_render_peeled compiler condition rfl ?_ ?_ ?_ hquery⟩
  · simp [condition, Condition.fields, Plain]
  · simp [condition, Condition.strings, Literal.strings]
  · intro place s hs
    simp only [condition, Condition.places, Literal.strings, List.flatMap_cons, List.flatMap_nil,
      List.append_nil, List.cons_append, List.nil_append, List.map_cons, List.map_nil,
      List.mem_cons, List.not_mem_nil, or_false, Prod.mk.injEq] at hs
    rcases hs with ⟨rfl, rfl⟩ | ⟨rfl, rfl⟩ | ⟨rfl, rfl⟩ | ⟨rfl, rfl⟩ <;> rfl

/-- A value that opens a range and does not close it: the parentheses of both alternatives are
stripped, and what is left is no written clause of the condition. -/
theorem compile_openRange_not_peeled :
    let compiler : Compiler := ⟨.ofEntries [("name".toList, .text)], {}⟩
    let condition : Condition :=
      .or (.compare "name".toList .eq (.string ":[".toList))
        (.compare "name".toList .eq (.string "b".toList))
    let query := "@name:\":[\") | (@name:\"b\"".toList
    compiler.options.stripParens = true ∧
      (∀ field ∈ condition.fields, ∀ c ∈ field, Plain c) ∧
      (∀ s ∈ condition.strings, ∀ c ∈ s, c ≠ '(' ∧ c ≠ ')') ∧
      compiler.compile condition = .ok query ∧
      ¬ ∃ clause peeled, compiler.clause condition = .ok clause ∧
        (compiler.merged clause).Peels peeled ∧ query = peeled.render := by
  intro compiler condition query
  refine ⟨rfl, ?_, ?_, by decide +kernel, ?_⟩
  · simp [condition, Condition.fields, Plain]
  · simp [condition, Condition.strings, Literal.strings]
  · rintro ⟨clause, peeled, hclause, hpeels, hquery⟩
    have hunion : compiler.clause condition =
        .ok (.or [.atom "@name:\":[\"".toList, .atom "@name:\"b\"".toList]) := rfl
    obtain rfl := Except.ok.inj (hclause.symm.trans hunion)
    have hpeeled := Clause.Peels.eq_of_union hpeels
    rw [hpeeled] at hquery
    exact absurd hquery (by decide +kernel)

end Compiler

end FilterQuery
