import FilterQuery.Compiler
import FilterQuery.Proofs.Outcome

/-!
# The first refusal

A node of a condition is refused by itself if it lies deeper than the limit, or if it is a
predicate that does not compile. A condition compiles exactly if none of its nodes is refused, and
otherwise the first refused node in preorder says why. Merging and stripping come after that and
refuse nothing.
-/

namespace FilterQuery

open Outcome

namespace Condition

structure Node where
  depth : Nat
  condition : Condition

/-- The nodes of a condition at a given depth, each one before its parts and the parts from left to
right. -/
def nodes (depth : Nat) : Condition → List Node
  | and left right =>
    ⟨depth, and left right⟩ :: (left.nodes (depth + 1) ++ right.nodes (depth + 1))
  | or left right => ⟨depth, or left right⟩ :: (left.nodes (depth + 1) ++ right.nodes (depth + 1))
  | not inner => ⟨depth, not inner⟩ :: inner.nodes (depth + 1)
  | group inner => ⟨depth, group inner⟩ :: inner.nodes (depth + 1)
  | leaf => [⟨depth, leaf⟩]

end Condition

namespace Compiler

variable (compiler : Compiler)

/-- What a predicate compiles to by itself. -/
def leaf? : Condition → Option (Except CompileError Clause)
  | .compare field op value => some do
    let type ← compiler.schema.resolve field
    compare type field op value
  | .between field low high => some (between field low high)
  | .isIn field values negated => some do
    let type ← compiler.schema.resolve field
    isIn compiler.options.emptyList type field values negated
  | .like field pattern => some do
    let type ← compiler.schema.resolve field
    like type field pattern
  | .isNull field negated => some (.ok (isNull field negated))
  | .and _ _ | .or _ _ | .not _ | .group _ => none

def refusal? (node : Condition.Node) : Option CompileError :=
  if compiler.options.maxDepth < node.depth then some (.tooDeep compiler.options.maxDepth)
  else (compiler.leaf? node.condition).bind error?

theorem refusal?_eq_none {node : Condition.Node} :
    compiler.refusal? node = none ↔ node.depth ≤ compiler.options.maxDepth ∧
      ∀ outcome, compiler.leaf? node.condition = some outcome → ∃ clause, outcome = .ok clause := by
  unfold refusal?
  by_cases hdepth : compiler.options.maxDepth < node.depth
  · simp [hdepth, Nat.not_le.2 hdepth]
  · simp [hdepth, Nat.not_lt.1 hdepth, Option.bind_eq_none_iff, error?_eq_none]

/-- The limit is looked at before anything else. -/
theorem error?_guard (depth : Nat) (body : Except CompileError Clause) :
    error? (if compiler.options.maxDepth < depth then .error (.tooDeep compiler.options.maxDepth)
      else body) =
      if compiler.options.maxDepth < depth then some (.tooDeep compiler.options.maxDepth)
      else error? body := by
  split
  · rfl
  · rfl

theorem clauseAt_of_leaf {condition : Condition} {outcome : Except CompileError Clause}
    (hleaf : compiler.leaf? condition = some outcome) (depth : Nat) :
    compiler.clauseAt depth condition =
      if compiler.options.maxDepth < depth then .error (.tooDeep compiler.options.maxDepth)
      else outcome := by
  cases condition with
  | and | or | not | group => cases hleaf
  | _ =>
    cases hleaf
    rw [clauseAt]

/-- A limit of zero refuses every predicate, and no other limit does. -/
theorem clause_of_leaf {condition : Condition} {outcome : Except CompileError Clause}
    (hleaf : compiler.leaf? condition = some outcome) :
    compiler.clause condition =
      if compiler.options.maxDepth = 0 then .error (.tooDeep 0) else outcome := by
  rw [clause, compiler.clauseAt_of_leaf hleaf]
  by_cases hlimit : compiler.options.maxDepth = 0
  · simp [hlimit]
  · rw [if_neg (by omega), if_neg hlimit]

theorem findSome?_cons_of_inner {depth : Nat} {condition : Condition}
    (hinner : compiler.leaf? condition = none) (parts : List Condition.Node) :
    (⟨depth, condition⟩ :: parts).findSome? compiler.refusal? =
      if compiler.options.maxDepth < depth then some (.tooDeep compiler.options.maxDepth)
      else parts.findSome? compiler.refusal? := by
  rw [List.findSome?_cons, refusal?, hinner]
  by_cases hdepth : compiler.options.maxDepth < depth
  · simp [hdepth]
  · simp [hdepth]

theorem findSome?_singleton_of_leaf {depth : Nat} {condition : Condition}
    {outcome : Except CompileError Clause} (hleaf : compiler.leaf? condition = some outcome) :
    [(⟨depth, condition⟩ : Condition.Node)].findSome? compiler.refusal? =
      if compiler.options.maxDepth < depth then some (.tooDeep compiler.options.maxDepth)
      else error? outcome := by
  rw [List.findSome?_singleton, refusal?, hleaf]
  rfl

/-- A condition is refused for the reason of its first refused node. -/
theorem error?_clauseAt (depth : Nat) (condition : Condition) :
    error? (compiler.clauseAt depth condition) =
      (condition.nodes depth).findSome? compiler.refusal? := by
  induction condition generalizing depth with
  | and left right ihl ihr =>
    rw [clauseAt, error?_guard, error?_both, Condition.nodes, findSome?_cons_of_inner _ rfl,
      List.findSome?_append, ihl, ihr]
  | or left right ihl ihr =>
    rw [clauseAt, error?_guard, error?_both, Condition.nodes, findSome?_cons_of_inner _ rfl,
      List.findSome?_append, ihl, ihr]
  | not inner ih =>
    rw [clauseAt, error?_guard, error?_map, Condition.nodes, findSome?_cons_of_inner _ rfl, ih]
  | group inner ih =>
    rw [clauseAt, error?_guard, error?_map, Condition.nodes, findSome?_cons_of_inner _ rfl, ih]
  | _ =>
    rw [clauseAt_of_leaf compiler rfl, error?_guard]
    exact (findSome?_singleton_of_leaf compiler rfl).symm

/-- A clause depends on the compiler only by the limit and by what the predicates compile to. -/
theorem clauseAt_congr {compiler other : Compiler}
    (hlimit : other.options.maxDepth = compiler.options.maxDepth) {condition : Condition}
    {depth : Nat} (hleaf : ∀ node ∈ condition.nodes depth,
      other.leaf? node.condition = compiler.leaf? node.condition) :
    other.clauseAt depth condition = compiler.clauseAt depth condition := by
  induction condition generalizing depth with
  | and left right ihl ihr | or left right ihl ihr =>
    obtain ⟨-, hparts⟩ := List.forall_mem_cons.1 hleaf
    obtain ⟨hleft, hright⟩ := List.forall_mem_append.1 hparts
    rw [clauseAt, clauseAt, hlimit, ihl hleft, ihr hright]
  | not inner ih | group inner ih =>
    obtain ⟨-, hinner⟩ := List.forall_mem_cons.1 hleaf
    rw [clauseAt, clauseAt, hlimit, ih hinner]
  | _ =>
    obtain ⟨hsame, -⟩ := List.forall_mem_cons.1 hleaf
    rw [clauseAt_of_leaf compiler rfl, clauseAt_of_leaf other hsame, hlimit]

def withOutput (strip merge : Bool) : Compiler :=
  { compiler with
    options := { compiler.options with stripParens := strip, coalesceTags := merge } }

theorem clause_withOutput (strip merge : Bool) (condition : Condition) :
    (compiler.withOutput strip merge).clause condition = compiler.clause condition := by
  have hlimit : (compiler.withOutput strip merge).options.maxDepth =
      compiler.options.maxDepth := rfl
  have hleaf : ∀ leaf, (compiler.withOutput strip merge).leaf? leaf = compiler.leaf? leaf := by
    intro leaf
    cases leaf <;> rfl
  exact clauseAt_congr hlimit fun node _ => hleaf node.condition

/-- A condition compiles exactly if all its nodes lie within the limit and all its predicates
compile, and otherwise the first node that does not in preorder gives the error. The query is
refused for the same reason, however it is merged and stripped. -/
theorem clause_refused_first (compiler : Compiler) (condition : Condition) :
    ((∃ clause, compiler.clause condition = .ok clause) ↔
      ∀ node ∈ condition.nodes 1, node.depth ≤ compiler.options.maxDepth ∧
        ∀ outcome, compiler.leaf? node.condition = some outcome →
          ∃ clause, outcome = .ok clause) ∧
    (∀ error, compiler.clause condition = .error error ↔
      ∃ before node after, condition.nodes 1 = before ++ node :: after ∧
        compiler.refusal? node = some error ∧
        ∀ earlier ∈ before, compiler.refusal? earlier = none) ∧
    ∀ strip merge error, (compiler.withOutput strip merge).compile condition = .error error ↔
      compiler.clause condition = .error error := by
  have hfirst : error? (compiler.clause condition) =
      (condition.nodes 1).findSome? compiler.refusal? := compiler.error?_clauseAt 1 condition
  refine ⟨?_, fun error => ?_, fun strip merge error => ?_⟩
  · rw [← error?_eq_none, hfirst, List.findSome?_eq_none_iff]
    simp only [refusal?_eq_none]
  · rw [← error?_eq_some, hfirst, List.findSome?_eq_some_iff]
  · rw [compile, map_eq_error, clause_withOutput]

end Compiler

end FilterQuery
