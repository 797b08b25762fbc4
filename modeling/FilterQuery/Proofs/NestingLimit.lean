import FilterQuery.Proofs.ConditionGrammar
import FilterQuery.Query

/-!
# The limit on nesting

The limit is a guard and nothing else. Reading a condition and compiling it both check it, each by
a count of its own: the reader counts prefix negations and open parentheses, the compiler counts
every connective. Whatever is not refused for its depth is answered alike under every larger limit,
and a condition whose tree fits the limit is refused by neither of the two.
-/

namespace FilterQuery

namespace Outcome

/-- Two outcomes are the same, unless the first one is one of the given errors. -/
def SameUnless {Error Result : Type} (refused : Error → Prop)
    (outcome outcome' : Except Error Result) : Prop :=
  (∃ error, outcome = .error error ∧ refused error) ∨ outcome' = outcome

namespace SameUnless

variable {Error Error' Result Result' : Type} {refused : Error → Prop}
  {outcome outcome' : Except Error Result}

theorem refl (outcome : Except Error Result) : SameUnless refused outcome outcome := .inr rfl

theorem bind (h : SameUnless refused outcome outcome')
    {next next' : Result → Except Error Result'}
    (hnext : ∀ result, SameUnless refused (next result) (next' result)) :
    SameUnless refused (outcome >>= next) (outcome' >>= next') := by
  rcases h with ⟨error, rfl, herror⟩ | rfl
  · exact .inl ⟨error, rfl, herror⟩
  · cases outcome' with
    | error error => exact .refl _
    | ok result => exact hnext result

theorem map (h : SameUnless refused outcome outcome') (write : Result → Result') :
    SameUnless refused (outcome.map write) (outcome'.map write) := by
  rcases h with ⟨error, rfl, herror⟩ | rfl
  · exact .inl ⟨error, rfl, herror⟩
  · exact .refl _

theorem mapError (h : SameUnless refused outcome outcome') {explain : Error → Error'}
    {refused' : Error' → Prop} (hrefused : ∀ error, refused error → refused' (explain error)) :
    SameUnless refused' (outcome.mapError explain) (outcome'.mapError explain) := by
  rcases h with ⟨error, rfl, herror⟩ | rfl
  · exact .inl ⟨explain error, rfl, hrefused error herror⟩
  · exact .refl _

end SameUnless

end Outcome

open Outcome

namespace Condition

def height : Condition → Nat
  | and left right | or left right => max left.height right.height + 1
  | not inner | group inner => inner.height + 1
  | compare .. | between .. | isIn .. | like .. | isNull .. => 1

theorem height_pos (condition : Condition) : 1 ≤ condition.height := by
  cases condition <;> simp [height]

/-! ### The reader's count -/

/-- The nesting that the reader counts is less than the height of what it builds. -/
theorem nesting_lt_height {part : Part} {tokens : List Token} {condition : Condition}
    {nesting : Nat} (h : Derives part tokens condition nesting) : nesting < condition.height := by
  induction h with
  | conjunction _ ih => exact ih
  | or _ _ ihl ihr =>
    simp only [height]
    omega
  | negation _ ih => exact ih
  | and _ _ ihl ihr =>
    simp only [height]
    omega
  | primary _ ih => exact ih
  | not _ ih =>
    simp only [height]
    omega
  | @predicate _ inner _ => exact inner.height_pos
  | group _ ih =>
    simp only [height]
    omega

section Limit

variable {limit limit' : Nat} (hle : limit ≤ limit')
include hle

namespace Reader

theorem descend_sameUnless (reader next : Reader) :
    SameUnless (· = .tooDeep limit) (reader.descend limit next) (reader.descend limit' next) := by
  unfold descend
  by_cases hdepth : limit < reader.level.depth + 1
  · rw [if_pos hdepth]
    exact .inl ⟨_, rfl, rfl⟩
  · have hdepth' : ¬ limit' < reader.level.depth + 1 := by omega
    rw [if_neg hdepth, if_neg hdepth']
    exact .refl _

/-- Only a negation and a parenthesis look at the limit. -/
theorem step_sameUnless (reader : Reader) (token : Token) :
    SameUnless (· = .tooDeep limit) (reader.step limit token) (reader.step limit' token) := by
  cases hawaiting : reader.awaiting with
  | operand =>
    simp only [step, hawaiting, stepOperand]
    split
    · exact descend_sameUnless hle _ _
    · exact descend_sameUnless hle _ _
    · exact .refl _
    · exact .refl _
  | _ =>
    simp only [step, hawaiting]
    exact .refl _

theorem run_sameUnless (endPosition : Nat) (reader : Reader) (tokens : List Placed) :
    SameUnless (·.fault = .tooDeep limit) (reader.run limit endPosition tokens)
      (reader.run limit' endPosition tokens) := by
  induction tokens generalizing reader with
  | nil => exact .refl _
  | cons placed tokens ih =>
    rw [run, run]
    rcases step_sameUnless hle reader placed.token with ⟨fault, hfault, hdeep⟩ | hsame
    · rw [hfault]
      exact .inl ⟨⟨fault, placed.position⟩, rfl, hdeep⟩
    · rw [hsame]
      cases hstep : reader.step limit placed.token with
      | error fault => exact .refl _
      | ok next => exact ih next

end Reader

theorem ofText_sameUnless (text : Text) :
    SameUnless (·.fault = .tooDeep limit) (ofText limit text)
      (ofText limit' text) := by
  refine (SameUnless.refl (Token.scan text)).bind fun tokens => ?_
  unfold ofTokens
  split_ifs
  · exact .refl _
  · exact Reader.run_sameUnless hle _ _ tokens

theorem parse_sameUnless (query : Text) :
    SameUnless (·.fault = .tooDeep limit) (parse limit query)
      (parse limit' query) := by
  unfold parse
  cases Statement.condition? query with
  | none => exact ofText_sameUnless hle query
  | some text => exact (ofText_sameUnless hle text).mapError fun _ herror => herror

end Limit

/-- A text is read under every limit that the height of its condition fits. -/
theorem ofText_of_height_le {limit limit' : Nat} {text : Text} {condition : Condition}
    (h : ofText limit' text = .ok condition) (hheight : condition.height ≤ limit) :
    ofText limit text = .ok condition := by
  obtain ⟨tokens, htokens, hread⟩ := bind_eq_ok.1 h
  obtain ⟨nesting, -, hderives⟩ := derives_of_ofTokens hread
  have hnesting := nesting_lt_height hderives
  exact bind_eq_ok.2 ⟨tokens, htokens, ofTokens_of_derives (by omega) hderives⟩

theorem parse_of_height_le {limit limit' : Nat} {query : Text} {condition : Condition}
    (h : parse limit' query = .ok condition) (hheight : condition.height ≤ limit) :
    parse limit query = .ok condition := by
  unfold parse at h ⊢
  cases hcondition : Statement.condition? query with
  | none =>
    rw [hcondition] at h
    exact ofText_of_height_le h hheight
  | some text =>
    rw [hcondition] at h
    exact mapError_eq_ok.2 (ofText_of_height_le (mapError_eq_ok.1 h) hheight)

end Condition

namespace Compiler

/-! ### The compiler's count -/

def withLimit (compiler : Compiler) (limit : Nat) : Compiler :=
  { compiler with options := { compiler.options with maxDepth := limit } }

section Limit

variable (compiler : Compiler) {limit limit' : Nat} (hle : limit ≤ limit')
include hle

theorem guard_sameUnless {depth : Nat} {outcome outcome' : Except CompileError Clause}
    (h : SameUnless (· = .tooDeep limit) outcome outcome') :
    SameUnless (· = .tooDeep limit)
      (if limit < depth then .error (.tooDeep limit) else outcome)
      (if limit' < depth then .error (.tooDeep limit') else outcome') := by
  by_cases hdepth : limit < depth
  · rw [if_pos hdepth]
    exact .inl ⟨_, rfl, rfl⟩
  · have hdepth' : ¬ limit' < depth := by omega
    rw [if_neg hdepth, if_neg hdepth']
    exact h

theorem clauseAt_sameUnless (depth : Nat) (condition : Condition) :
    SameUnless (· = .tooDeep limit) ((compiler.withLimit limit).clauseAt depth condition)
      ((compiler.withLimit limit').clauseAt depth condition) := by
  induction condition generalizing depth with
  | and left right ihl ihr =>
    rw [clauseAt, clauseAt]
    refine guard_sameUnless hle ?_
    exact (ihl (depth + 1)).bind fun l => (ihr (depth + 1)).bind fun r => .refl _
  | or left right ihl ihr =>
    rw [clauseAt, clauseAt]
    refine guard_sameUnless hle ?_
    exact (ihl (depth + 1)).bind fun l => (ihr (depth + 1)).bind fun r => .refl _
  | not inner ih =>
    rw [clauseAt, clauseAt]
    exact guard_sameUnless hle ((ih (depth + 1)).map _)
  | group inner ih =>
    rw [clauseAt, clauseAt]
    exact guard_sameUnless hle ((ih (depth + 1)).map _)
  | _ =>
    rw [clauseAt, clauseAt]
    exact guard_sameUnless hle (.refl _)

theorem guard_eq {depth : Nat} {outcome outcome' : Except CompileError Clause}
    (hdepth : depth ≤ limit) (h : outcome = outcome') :
    (if limit < depth then .error (.tooDeep limit) else outcome) =
      if limit' < depth then .error (.tooDeep limit') else outcome' := by
  have hlimit : ¬ limit < depth := by omega
  have hlimit' : ¬ limit' < depth := by omega
  rw [if_neg hlimit, if_neg hlimit', h]

/-- Where the tree fits the limit, the limit is never met. -/
theorem clauseAt_of_height_le {depth : Nat} {condition : Condition}
    (hheight : depth + condition.height ≤ limit + 1) :
    (compiler.withLimit limit).clauseAt depth condition =
      (compiler.withLimit limit').clauseAt depth condition := by
  induction condition generalizing depth with
  | and left right ihl ihr =>
    simp only [Condition.height] at hheight
    rw [clauseAt, clauseAt]
    apply guard_eq hle (by omega)
    rw [ihl (by omega), ihr (by omega)]
  | or left right ihl ihr =>
    simp only [Condition.height] at hheight
    rw [clauseAt, clauseAt]
    apply guard_eq hle (by omega)
    rw [ihl (by omega), ihr (by omega)]
  | not inner ih =>
    simp only [Condition.height] at hheight
    rw [clauseAt, clauseAt]
    apply guard_eq hle (by omega)
    rw [ih (by omega)]
  | group inner ih =>
    simp only [Condition.height] at hheight
    rw [clauseAt, clauseAt]
    apply guard_eq hle (by omega)
    rw [ih (by omega)]
  | _ =>
    simp only [Condition.height] at hheight
    rw [clauseAt, clauseAt]
    exact guard_eq hle (by omega) rfl

end Limit

end Compiler

/-- A query that is refused for its depth, by the reader or by the compiler. -/
inductive QueryError.IsTooDeep (limit : Nat) : QueryError → Prop
  | parse (position : Nat) : IsTooDeep limit (.parse ⟨.tooDeep limit, position⟩)
  | compile : IsTooDeep limit (.compile (.tooDeep limit))

namespace Compiler

theorem compileText_eq_ok {compiler : Compiler} {query result : Text} :
    compiler.compileText query = .ok result ↔
      ∃ condition, Condition.parse compiler.options.maxDepth query = .ok condition ∧
        compiler.compile condition = .ok result := by
  rw [compileText_eq, bind_eq_ok]
  simp only [mapError_eq_ok]

theorem compile_sameUnless (compiler : Compiler) {limit limit' : Nat} (hle : limit ≤ limit')
    (condition : Condition) :
    SameUnless (· = .tooDeep limit) ((compiler.withLimit limit).compile condition)
      ((compiler.withLimit limit').compile condition) :=
  (clauseAt_sameUnless compiler hle 1 condition).map (compiler.withLimit limit).finish

theorem compile_of_height_le (compiler : Compiler) {limit limit' : Nat} (hle : limit ≤ limit')
    {condition : Condition} (hheight : condition.height ≤ limit) :
    (compiler.withLimit limit).compile condition =
      (compiler.withLimit limit').compile condition := by
  unfold compile clause
  rw [clauseAt_of_height_le compiler hle (by omega)]
  rfl

theorem compileText_sameUnless (compiler : Compiler) (query : Text) {limit limit' : Nat}
    (hle : limit ≤ limit') :
    SameUnless (QueryError.IsTooDeep limit) ((compiler.withLimit limit).compileText query)
      ((compiler.withLimit limit').compileText query) := by
  rw [compileText_eq, compileText_eq]
  refine ((Condition.parse_sameUnless hle query).mapError ?_).bind fun condition => ?_
  · rintro ⟨fault, position⟩ rfl
    exact .parse position
  · refine (compile_sameUnless compiler hle condition).mapError ?_
    rintro error rfl
    exact .compile

/-- A larger limit changes nothing but refusals for depth, and nothing at all where the tree of the
condition fits the smaller one. -/
theorem compileText_withLimit (compiler : Compiler) (query : Text) {limit limit' : Nat}
    (hle : limit ≤ limit') :
    ((∀ error, (compiler.withLimit limit).compileText query = .error error →
        ¬ error.IsTooDeep limit) →
      (compiler.withLimit limit').compileText query =
        (compiler.withLimit limit).compileText query) ∧
    ∀ condition result, Condition.parse limit' query = .ok condition →
      condition.height ≤ limit → (compiler.withLimit limit').compileText query = .ok result →
      (compiler.withLimit limit).compileText query = .ok result := by
  constructor
  · intro hnot
    rcases compiler.compileText_sameUnless query hle with ⟨error, herror, hdeep⟩ | hsame
    · exact absurd hdeep (hnot error herror)
    · exact hsame
  · intro condition result hparse hheight hresult
    obtain ⟨other, hother, hcompile⟩ := compileText_eq_ok.1 hresult
    obtain rfl : condition = other := Except.ok.inj (hparse.symm.trans hother)
    have hparse' := Condition.parse_of_height_le hparse hheight
    have hcompile' := (compile_of_height_le compiler hle hheight).trans hcompile
    exact compileText_eq_ok.2 ⟨condition, hparse', hcompile'⟩

/-- Three levels of the tree, of which the reader counts two. -/
theorem compileText_withLimit_three :
    let compiler : Compiler := ⟨.ofEntries [("role".toList, .tag)], {}⟩
    let query := "NOT (role = 'a')".toList
    let condition : Condition := .not (.group (.compare "role".toList .eq (.string "a".toList)))
    (compiler.withLimit 2).compileText query = .error (.compile (.tooDeep 2)) ∧
      condition.height = 3 ∧
      (compiler.withLimit 3).compileText query = .ok "-(@role:\x7ba\x7d)".toList ∧
      (compiler.withLimit 256).compileText query = (compiler.withLimit 3).compileText query := by
  intro compiler query condition
  have hfirst : (compiler.withLimit 256).compileText query = .ok "-(@role:\x7ba\x7d)".toList := by
    decide +kernel
  have hthree : (3 : Nat) ≤ 256 := by decide
  have hparse : Condition.parse 256 query = .ok condition := by decide +kernel
  have hheight : condition.height = 3 := by decide
  obtain ⟨hsame, hfits⟩ := compileText_withLimit compiler query hthree
  have hok := hfits condition _ hparse (by omega) hfirst
  refine ⟨by decide +kernel, hheight, hok, hsame fun error herror => ?_⟩
  rw [hok] at herror
  cases herror

end Compiler

end FilterQuery
