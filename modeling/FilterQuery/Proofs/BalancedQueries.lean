import FilterQuery.Proofs.ClosedValues

/-!
# Compiled queries are balanced

A condition whose names and strings hold no parenthesis and no opening bracket compiles to a query
with balanced parentheses, whether tag alternatives are merged and the query is stripped or not.
The parentheses of open bounds stand inside ranges, where they are not counted.
-/

namespace FilterQuery.Compiler

open Parentheses

def merged (compiler : Compiler) (clause : Clause) : Clause :=
  if compiler.options.coalesceTags then clause.coalesce else clause

theorem finish_eq (compiler : Compiler) (clause : Clause) :
    compiler.finish clause =
      if compiler.options.stripParens then strip (compiler.merged clause).render
      else (compiler.merged clause).render := rfl

theorem each_merged (compiler : Compiler) {atomOk : Text → Prop} {tagOk : Text → List Text → Prop}
    (happend : ∀ field values values', tagOk field values → tagOk field values' →
      tagOk field (values ++ values'))
    {clause : Clause} (h : clause.Each atomOk tagOk) :
    (compiler.merged clause).Each atomOk tagOk := by
  unfold merged
  split_ifs
  · exact h.coalesce happend
  · exact h

theorem neutralLeaves_closed (compiler : Compiler) {condition : Condition} {clause : Clause}
    (hfields : ∀ field ∈ condition.fields, ∀ c ∈ field, Plain c)
    (hstrings : ∀ place s, (place, s) ∈ condition.places → ClosedString place s)
    (h : compiler.clause condition = .ok clause) : (compiler.merged clause).NeutralLeaves := by
  have hmerged := each_merged compiler (fun _ _ _ => Clause.TagOf.append)
    (each_closed hfields hstrings h)
  exact hmerged.mono (fun _ => id) fun _ _ htag => neutral_closedTag htag

theorem neutralLeaves_merged (compiler : Compiler) {condition : Condition} {clause : Clause}
    (hfields : ∀ field ∈ condition.fields, ∀ c ∈ field, Plain c)
    (hstrings : ∀ s ∈ condition.strings, ∀ c ∈ s, Plain c)
    (h : compiler.clause condition = .ok clause) : (compiler.merged clause).NeutralLeaves := by
  refine neutralLeaves_closed compiler hfields (fun place s hs => ?_) h
  exact .of_plain place (hstrings s (Condition.mem_strings_of_mem_places hs))

theorem compile_isBalanced (compiler : Compiler) (condition : Condition) {query : Text}
    (hfields : ∀ field ∈ condition.fields, ∀ c ∈ field, Plain c)
    (hstrings : ∀ s ∈ condition.strings, ∀ c ∈ s, Plain c)
    (h : compiler.compile condition = .ok query) : isBalanced query = true := by
  obtain ⟨clause, hclause, rfl⟩ := Outcome.map_eq_ok.1 h
  have hmerged := neutralLeaves_merged compiler hfields hstrings hclause
  have hbalanced := (Clause.neutral_render hmerged).1.isBalanced
  rw [finish_eq]
  split_ifs
  · exact isBalanced_strip hbalanced
  · exact hbalanced

/-- An open bound and a closing bracket in a value, inside a group that is stripped. -/
theorem compile_isBalanced_openBound :
    compile ⟨.ofEntries [("role".toList, .tag), ("age".toList, .numeric)], { coalesceTags := true }⟩
        (.group (.or (.compare "age".toList .gt (.integer 21))
          (.isIn "role".toList [.string "a]".toList, .null, .string "b c".toList] false))) =
        .ok "(@age:[(21 +inf]) | (@role:\x7ba],b\\ c\x7d)".toList ∧
      isBalanced "(@age:[(21 +inf]) | (@role:\x7ba],b\\ c\x7d)".toList = true := by
  refine (and_iff_left_of_imp (compile_isBalanced _ _ ?_ ?_)).2 (by decide +kernel)
  · simp [Condition.fields, Plain]
  · simp [Condition.strings, Literal.strings, Plain]

end FilterQuery.Compiler
