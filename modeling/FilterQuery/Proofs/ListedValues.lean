import FilterQuery.Proofs.FirstRefusal

/-!
# Listed values

An `IN` list asks of its field what an equation asks with each value that is not null. Both compile
or are refused alike, the list for its first value that is refused, and the list is the union of
the equations in its order. A list writes its values by itself, and value by value it writes what
the equations do. A list of nothing but nulls asks for a value that no document has.
-/

namespace FilterQuery

open Outcome

namespace Literal

/-- A null: the keyword, or a string that spells it in letters of either case. -/
inductive SpellsNull : Literal → Prop
  | keyword : SpellsNull .null
  | string {s : Text} : s.map Char.toLower = "null".toList → SpellsNull (.string s)

theorem isNull_iff {value : Literal} : value.isNull = true ↔ value.SpellsNull := by
  constructor
  · intro h
    cases value with
    | string s => exact .string (beq_iff_eq.1 h)
    | null => exact .keyword
    | integer _ | decimal _ => cases h
  · intro h
    cases h with
    | keyword => rfl
    | string hspelling => exact beq_iff_eq.2 hspelling

instance : DecidablePred SpellsNull := fun _ => decidable_of_iff _ isNull_iff

def usable (values : List Literal) : List Literal := values.filter fun value => ¬ value.SpellsNull

theorem mem_usable {values : List Literal} {value : Literal} :
    value ∈ usable values ↔ value ∈ values ∧ ¬ value.SpellsNull := by
  simp [usable]

theorem usable_ne_nil_iff {values : List Literal} :
    usable values ≠ [] ↔ ∃ value ∈ values, ¬ value.SpellsNull := by
  simp only [← mem_usable]
  constructor
  · exact List.exists_mem_of_ne_nil _
  · rintro ⟨value, hvalue⟩
    exact List.ne_nil_of_mem hvalue

theorem filter_isNull (values : List Literal) :
    (values.filter fun value => !value.isNull) = usable values := by
  apply List.filter_congr
  intro value _
  by_cases hnull : value.SpellsNull
  · simp [hnull, isNull_iff.2 hnull]
  · simp [hnull, isNull_iff.not.2 hnull]

end Literal

namespace Compiler

open Literal

theorem members_eq_mapM (type : FieldType) (field : Text) (values : List Literal) :
    members type field values = values.mapM (equals type field) := by
  induction values with
  | nil => rfl
  | cons value values ih => rw [members, member_eq_equals, ih, List.mapM_cons]

theorem isIn_of_usable (policy : EmptyListPolicy) (type : FieldType) (field : Text)
    {values : List Literal} (negated : Bool) (husable : usable values ≠ []) :
    isIn policy type field values negated =
      ((usable values).mapM (equals type field)).map fun clauses =>
        if negated then .not (.or clauses) else .or clauses := by
  have hvalues : values ≠ [] := by
    rintro rfl
    exact husable rfl
  simp only [isIn, filter_isNull, List.isEmpty_iff, hvalues, husable, if_false, members_eq_mapM]

theorem isIn_of_nulls (policy : EmptyListPolicy) (type : FieldType) (field : Text)
    {values : List Literal} (negated : Bool) (hvalues : values ≠ []) (hnulls : usable values = []) :
    isIn policy type field values negated = .ok (neverMatch field) := by
  simp only [isIn, filter_isNull, List.isEmpty_iff, hvalues, hnulls, if_true, if_false]

variable (compiler : Compiler)

/-- A list is compiled like the equations with its usable values, one after the other. -/
theorem clause_isIn_of_usable (field : Text) {values : List Literal} (negated : Bool)
    (husable : usable values ≠ []) :
    compiler.clause (.isIn field values negated) =
      ((usable values).mapM fun value => compiler.clause (.compare field .eq value)).map
        fun clauses => if negated then .not (.or clauses) else .or clauses := by
  have hlist : compiler.clause (.isIn field values negated) = _ := clause_of_leaf compiler rfl
  have hequation : (fun value => compiler.clause (.compare field .eq value)) = _ :=
    funext fun value => clause_of_leaf compiler rfl
  rw [hlist, hequation]
  by_cases hlimit : compiler.options.maxDepth = 0
  · simp only [hlimit, if_true]
    exact (congrArg (Except.map _) (mapM_error husable _)).symm
  · simp only [hlimit, if_false]
    cases compiler.schema.resolve field with
    | error error => exact (congrArg (Except.map _) (mapM_error husable error)).symm
    | ok type => exact isIn_of_usable _ type field negated husable

/-- An `IN` list with a value that is not null compiles exactly if the equations with all such
values do, to their union in the order of the list, and else it is refused for the first of them.
A list of nulls on a known field never matches, negated or not, unless the limit refuses it. -/
theorem clause_isIn_equations (compiler : Compiler) (field : Text) (values : List Literal)
    (negated : Bool) :
    ((∃ value ∈ values, ¬ value.SpellsNull) →
      ((∃ clause, compiler.clause (.isIn field values negated) = .ok clause) ↔
        ∀ value ∈ values, ¬ value.SpellsNull →
          ∃ clause, compiler.clause (.compare field .eq value) = .ok clause) ∧
      (∀ clause, compiler.clause (.isIn field values negated) = .ok clause ↔
        ∃ equations, List.Forall₂
            (fun value equation => compiler.clause (.compare field .eq value) = .ok equation)
            (usable values) equations ∧
          clause = if negated then .not (.or equations) else .or equations) ∧
      ∀ error, compiler.clause (.isIn field values negated) = .error error ↔
        ∃ before value after, usable values = before ++ value :: after ∧
          compiler.clause (.compare field .eq value) = .error error ∧
          ∀ earlier ∈ before, ∃ clause, compiler.clause (.compare field .eq earlier) = .ok clause) ∧
    (values ≠ [] → (∀ value ∈ values, value.SpellsNull) →
      (∃ type, compiler.schema.get? field = some type) →
      compiler.clause (.isIn field values negated) =
        if compiler.options.maxDepth = 0 then .error (.tooDeep 0)
        else .ok (.atom ('@' :: field ++ ":__NEVER_MATCH__".toList))) := by
  constructor
  · intro hsome
    have husable := usable_ne_nil_iff.2 hsome
    rw [clause_isIn_of_usable compiler field negated husable]
    refine ⟨?_, fun clause => ?_, fun error => ?_⟩
    · simp only [← error?_eq_none, error?_map, error?_mapM, List.findSome?_eq_none_iff, mem_usable,
        and_imp]
    · rw [map_eq_ok]
      simp only [mapM_eq_ok, eq_comm (b := clause)]
    · rw [← error?_eq_some, error?_map, error?_mapM, List.findSome?_eq_some_iff]
      simp only [error?_eq_some, error?_eq_none]
  · rintro hvalues hnulls ⟨type, htype⟩
    have hnone : usable values = [] := by
      by_contra husable
      obtain ⟨value, hvalue, hnull⟩ := usable_ne_nil_iff.1 husable
      exact hnull (hnulls value hvalue)
    have hresolve : compiler.schema.resolve field = .ok type := by
      rw [Schema.resolve, htype]
    have hwritten : neverMatch field = .atom ('@' :: field ++ ":__NEVER_MATCH__".toList) := by
      simp [neverMatch, fieldHead]
    rw [clause_of_leaf compiler rfl, hresolve, ok_bind,
      isIn_of_nulls _ type field negated hvalues hnone, hwritten]

/-- Nulls between the values, a second value that is no number, and a list of nulls. -/
theorem clause_isIn_equations_ages :
    let compiler : Compiler := ⟨.ofEntries [("age".toList, .numeric)], {}⟩
    let values : List Literal :=
      [.null, .string "30".toList, .string "NuLL".toList, .string "old".toList, .string []]
    (∃ value ∈ values, ¬ value.SpellsNull) ∧
      compiler.clause (.isIn "age".toList values true) = .error (.notNumber "old".toList) ∧
      compiler.clause (.isIn "age".toList [.null, .string "Null".toList] true) =
        .ok (.atom "@age:__NEVER_MATCH__".toList) := by
  intro compiler values
  have hsome : ∃ value ∈ values, ¬ value.SpellsNull :=
    ⟨.string "30".toList, by simp [values], by decide⟩
  obtain ⟨-, -, herror⟩ := (clause_isIn_equations compiler "age".toList values true).1 hsome
  have hnulls := (clause_isIn_equations compiler "age".toList [.null, .string "Null".toList] true).2
    (by simp) (by simp; decide) ⟨.numeric, by decide⟩
  have hthirty : compiler.clause (.compare "age".toList .eq (.string "30".toList)) =
      .ok (.atom "@age:[30 30]".toList) := rfl
  refine ⟨hsome, (herror _).2 ⟨[.string "30".toList], .string "old".toList, [.string []], ?_⟩,
    hnulls⟩
  exact ⟨by decide, rfl, List.forall_mem_singleton.2 ⟨_, hthirty⟩⟩

/-- A limit of zero refuses a list of nulls as well. -/
theorem clause_isIn_nulls_tooDeep :
    ¬ ∀ (compiler : Compiler) (field : Text) (values : List Literal) (negated : Bool),
      values ≠ [] → (∀ value ∈ values, value.SpellsNull) →
      (∃ type, compiler.schema.get? field = some type) →
      compiler.clause (.isIn field values negated) =
        .ok (.atom ('@' :: field ++ ":__NEVER_MATCH__".toList)) := by
  intro hall
  let compiler : Compiler := ⟨.ofEntries [("age".toList, .numeric)], { maxDepth := 0 }⟩
  have hok := hall compiler "age".toList [.null] false (by simp)
    (List.forall_mem_singleton.2 .keyword) ⟨.numeric, by decide⟩
  have hrefused : compiler.clause (.isIn "age".toList [.null] false) = .error (.tooDeep 0) := rfl
  rw [hrefused] at hok
  cases hok

end Compiler

end FilterQuery
