import FilterQuery.Proofs.CompiledLeaves
import FilterQuery.Proofs.FirstRefusal
import FilterQuery.Proofs.NestingLimit

/-!
# Looked up fields

Comparisons, lists and patterns look up the type of their field, and nothing else looks at the
schema. So schemas that agree on these fields compile a condition alike, and a condition compiles
only if they all have a type. Without any types, what compiles are the conditions within the limit
that ask for ranges and nulls only.
-/

namespace FilterQuery

open Outcome

namespace Condition

def lookedUp : Condition → List Text
  | and left right | or left right => left.lookedUp ++ right.lookedUp
  | not inner | group inner => inner.lookedUp
  | compare field _ _ | isIn field _ _ | like field _ => [field]
  | between .. | isNull .. => []

theorem lookedUp_subset_of_mem_nodes {condition : Condition} {depth : Nat} {node : Node}
    (h : node ∈ condition.nodes depth) : node.condition.lookedUp ⊆ condition.lookedUp := by
  induction condition generalizing depth with
  | and left right ihl ihr | or left right ihl ihr =>
    rcases List.mem_cons.1 h with rfl | h
    · exact List.Subset.refl _
    · rcases List.mem_append.1 h with h | h
      · exact List.subset_append_of_subset_left _ (ihl h)
      · exact List.subset_append_of_subset_right _ (ihr h)
  | not inner ih | group inner ih =>
    rcases List.mem_cons.1 h with rfl | h
    · exact List.Subset.refl _
    · exact ih h
  | _ =>
    obtain rfl := List.mem_singleton.1 h
    exact List.Subset.refl _

/-- Ranges whose bounds have a text, tests for null, and what is made of them. -/
inductive NeedsNoTypes : Condition → Prop
  | and {left right : Condition} : NeedsNoTypes left → NeedsNoTypes right →
    NeedsNoTypes (.and left right)
  | or {left right : Condition} : NeedsNoTypes left → NeedsNoTypes right →
    NeedsNoTypes (.or left right)
  | not {inner : Condition} : NeedsNoTypes inner → NeedsNoTypes (.not inner)
  | group {inner : Condition} : NeedsNoTypes inner → NeedsNoTypes (.group inner)
  | between (field : Text) {low high : Literal} {l h : Text} : low.text = .ok l →
    high.text = .ok h → NeedsNoTypes (.between field low high)
  | isNull (field : Text) (negated : Bool) : NeedsNoTypes (.isNull field negated)

end Condition

namespace Compiler

/-! ### Two schemas -/

theorem leaf?_congr (options : Options) {schema other : Schema} {condition : Condition}
    (h : ∀ field ∈ condition.lookedUp, schema.get? field = other.get? field) :
    leaf? ⟨schema, options⟩ condition = leaf? ⟨other, options⟩ condition := by
  have hresolve : ∀ field ∈ condition.lookedUp, schema.resolve field = other.resolve field := by
    intro field hfield
    rw [Schema.resolve, Schema.resolve, h field hfield]
  cases condition with
  | compare field op value | isIn field values negated | like field pattern =>
    rw [leaf?, leaf?, hresolve field List.mem_cons_self]
  | _ => rfl

theorem compile_congr (options : Options) {schema other : Schema} {condition : Condition}
    (h : ∀ field ∈ condition.lookedUp, schema.get? field = other.get? field) :
    compile ⟨schema, options⟩ condition = compile ⟨other, options⟩ condition := by
  have hclause : clauseAt ⟨schema, options⟩ 1 condition =
      clauseAt ⟨other, options⟩ 1 condition := by
    have hlimit : (⟨schema, options⟩ : Compiler).options.maxDepth =
        (⟨other, options⟩ : Compiler).options.maxDepth := rfl
    apply clauseAt_congr hlimit
    intro node hnode
    apply leaf?_congr
    intro field hfield
    exact h field (Condition.lookedUp_subset_of_mem_nodes hnode hfield)
  rw [compile, compile, clause, clause, hclause]
  rfl

/-! ### What compiles -/

theorem Compiles.registered {compiler : Compiler} {depth : Nat} {condition : Condition}
    {clause : Clause} (h : compiler.Compiles depth condition clause) :
    ∀ field ∈ condition.lookedUp, ∃ type, compiler.schema.get? field = some type := by
  induction h with
  | and _ _ _ ihl ihr | or _ _ _ ihl ihr => exact List.forall_mem_append.2 ⟨ihl, ihr⟩
  | not _ _ ih | group _ _ ih => exact ih
  | @compare _ _ _ _ type _ _ htype _ | @isIn _ _ _ _ type _ _ htype _
  | @like _ _ _ type _ _ htype _ =>
    intro other hother
    obtain rfl := List.mem_singleton.1 hother
    exact ⟨type, Schema.resolve_eq_ok_iff.1 htype⟩
  | between | isNull => simp [Condition.lookedUp]

theorem Compiles.height_le {compiler : Compiler} {depth : Nat} {condition : Condition}
    {clause : Clause} (h : compiler.Compiles depth condition clause) :
    depth + condition.height ≤ compiler.options.maxDepth + 1 := by
  induction h with
  | _ =>
    rw [Condition.height]
    omega

theorem Compiles.needsNoTypes {compiler : Compiler} {depth : Nat} {condition : Condition}
    {clause : Clause} (h : compiler.Compiles depth condition clause)
    (hnone : condition.lookedUp = []) : condition.NeedsNoTypes := by
  induction h with
  | and _ _ _ ihl ihr =>
    obtain ⟨hleft, hright⟩ := List.append_eq_nil_iff.1 hnone
    exact .and (ihl hleft) (ihr hright)
  | or _ _ _ ihl ihr =>
    obtain ⟨hleft, hright⟩ := List.append_eq_nil_iff.1 hnone
    exact .or (ihl hleft) (ihr hright)
  | not _ _ ih => exact .not (ih hnone)
  | group _ _ ih => exact .group (ih hnone)
  | compare | isIn | like => cases hnone
  | between _ hclause =>
    obtain ⟨low, hlow, hclause⟩ := bind_eq_ok.1 hclause
    obtain ⟨high, hhigh, -⟩ := bind_eq_ok.1 hclause
    exact .between _ hlow hhigh
  | isNull => exact .isNull _ _

/-- A condition that needs no types compiles with any schema, if the limit allows it. -/
theorem exists_clauseAt_of_needsNoTypes (compiler : Compiler) {condition : Condition}
    (h : condition.NeedsNoTypes) {depth : Nat}
    (hheight : depth + condition.height ≤ compiler.options.maxDepth + 1) :
    ∃ clause, compiler.clauseAt depth condition = .ok clause := by
  have hwithin : ∀ {condition : Condition} {depth : Nat},
      depth + condition.height ≤ compiler.options.maxDepth + 1 →
        ¬ compiler.options.maxDepth < depth := by
    intro condition depth hheight
    have hpos := condition.height_pos
    omega
  induction h generalizing depth with
  | and _ _ ihl ihr | or _ _ ihl ihr =>
    have hdepth := hwithin hheight
    rw [Condition.height] at hheight
    obtain ⟨l, hl⟩ := @ihl (depth + 1) (by omega)
    obtain ⟨r, hr⟩ := @ihr (depth + 1) (by omega)
    rw [clauseAt, if_neg hdepth, hl, hr]
    exact ⟨_, rfl⟩
  | not _ ih | group _ ih =>
    have hdepth := hwithin hheight
    rw [Condition.height] at hheight
    obtain ⟨clause, hclause⟩ := @ih (depth + 1) (by omega)
    rw [clauseAt, if_neg hdepth, hclause]
    exact ⟨_, rfl⟩
  | between field hlow hhigh =>
    rw [clauseAt, if_neg (hwithin hheight), between, hlow, ok_bind, hhigh]
    exact ⟨_, rfl⟩
  | isNull field negated =>
    rw [clauseAt, if_neg (hwithin hheight)]
    exact ⟨_, rfl⟩

theorem exists_compile_empty_iff (options : Options) (condition : Condition) :
    (∃ query, compile ⟨.empty, options⟩ condition = .ok query) ↔
      condition.height ≤ options.maxDepth ∧ condition.NeedsNoTypes := by
  have hlimit : 1 + condition.height ≤ (⟨.empty, options⟩ : Compiler).options.maxDepth + 1 ↔
      condition.height ≤ options.maxDepth := by
    dsimp only
    omega
  constructor
  · rintro ⟨query, hquery⟩
    obtain ⟨clause, hclause, -⟩ := map_eq_ok.1 hquery
    have hcompiles := compiles_of_clauseAt hclause
    have hnone : condition.lookedUp = [] := by
      rw [List.eq_nil_iff_forall_not_mem]
      intro field hfield
      obtain ⟨type, htype⟩ := hcompiles.registered field hfield
      cases htype
    exact ⟨hlimit.1 hcompiles.height_le, hcompiles.needsNoTypes hnone⟩
  · rintro ⟨hheight, hneeds⟩
    obtain ⟨clause, hclause⟩ := exists_clauseAt_of_needsNoTypes _ hneeds (hlimit.2 hheight)
    exact ⟨_, map_eq_ok.2 ⟨clause, hclause, rfl⟩⟩

/-- A condition compiles alike with all schemas that agree on the fields it looks up. It compiles
only if they all have a type, and without any types exactly if it needs none and the limit allows
it. -/
theorem compile_lookedUp (options : Options) (condition : Condition) :
    (∀ schema other : Schema,
      (∀ field ∈ condition.lookedUp, schema.get? field = other.get? field) →
        compile ⟨schema, options⟩ condition = compile ⟨other, options⟩ condition) ∧
    (∀ (schema : Schema) (query : Text), compile ⟨schema, options⟩ condition = .ok query →
      ∀ field ∈ condition.lookedUp, ∃ type, schema.get? field = some type) ∧
    ((∃ query, compile ⟨.empty, options⟩ condition = .ok query) ↔
      condition.height ≤ options.maxDepth ∧ condition.NeedsNoTypes) := by
  refine ⟨fun schema other h => compile_congr options h, fun schema query hquery => ?_,
    exists_compile_empty_iff options condition⟩
  obtain ⟨clause, hclause, -⟩ := map_eq_ok.1 hquery
  exact (compiles_of_clauseAt hclause).registered

/-- Whether a field has a type makes no difference to a range on it, but does to a comparison. -/
theorem compile_lookedUp_range :
    let condition : Condition :=
      .and (.compare "name".toList .eq (.string ['a']))
        (.between "age".toList (.string ['1']) (.string ['2']))
    let schema : Schema := .ofEntries [("name".toList, .text)]
    let other : Schema := .ofEntries [("name".toList, .text), ("age".toList, .tag)]
    let query := "@name:\"a\" @age:[1 2]".toList
    (∀ field ∈ condition.lookedUp, schema.get? field = other.get? field) ∧
      compile ⟨schema, {}⟩ condition = .ok query ∧ compile ⟨other, {}⟩ condition = .ok query ∧
      (∃ type, schema.get? "name".toList = some type) ∧
      ¬ ∃ query, compile ⟨.empty, {}⟩ condition = .ok query := by
  intro condition schema other query
  have hagree : ∀ field ∈ condition.lookedUp, schema.get? field = other.get? field := by
    intro field hfield
    obtain rfl := List.mem_singleton.1 hfield
    decide
  have hquery : compile ⟨schema, {}⟩ condition = .ok query := by decide +kernel
  obtain ⟨hsame, hregistered, hempty⟩ := compile_lookedUp {} condition
  refine ⟨hagree, hquery, (hsame schema other hagree).symm.trans hquery,
    hregistered schema query hquery _ List.mem_cons_self, ?_⟩
  rw [hempty]
  rintro ⟨-, hneeds⟩
  dsimp only [condition] at hneeds
  cases hneeds with
  | and hcompare _ => cases hcompare

end Compiler

end FilterQuery
