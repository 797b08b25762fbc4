import FilterQuery.Condition.Parse
import FilterQuery.Proofs.SpelledLiterals

/-!
# The grammar of conditions

Conditions are derived from token lists in four parts: alternatives of conjunctions of negations of
predicates and parenthesised conditions. A derivation counts how deep its prefix negations and
parentheses are nested. The reader accepts exactly what can be derived within its limit, and what
it builds is the condition of the derivation.

One direction feeds a derivation to the reader, part by part. In the other, the reader keeps track
of what its state stands for: the tokens read so far are a derivation that is open at its right end.
-/

namespace FilterQuery.Condition

open Outcome

/-- The word `NOT` where a predicate may carry it inside. -/
def negationMark (negated : Bool) : List Token := if negated then [.keyword .not] else []

def negatedIf (negated : Bool) (predicate : Condition) : Condition :=
  if negated then .not predicate else predicate

inductive Members : List Token → List Literal → Prop
  | single {token : Token} {value : Literal} : token.IsLiteral value → Members [token] [value]
  | more {tokens : List Token} {values : List Literal} {token : Token} {value : Literal} :
    Members tokens values → token.IsLiteral value →
    Members (tokens ++ [.comma, token]) (values ++ [value])

inductive Predicate : List Token → Condition → Prop
  | compare (field : Text) (op : Comparator) {token : Token} {value : Literal} :
    token.IsLiteral value →
    Predicate [.field field, .comparator op, token] (.compare field op value)
  | between (field : Text) (negated : Bool) {lowToken highToken : Token} {low high : Literal} :
    lowToken.IsLiteral low → highToken.IsLiteral high →
    Predicate
      (.field field :: negationMark negated ++
        [.keyword .between, lowToken, .keyword .and, highToken])
      (negatedIf negated (.between field low high))
  | inNone (field : Text) (negated : Bool) :
    Predicate (.field field :: negationMark negated ++ [.keyword .inList, .opening, .closing])
      (.isIn field [] negated)
  | inList (field : Text) (negated : Bool) {tokens : List Token} {values : List Literal} :
    Members tokens values →
    Predicate
      (.field field :: negationMark negated ++ [.keyword .inList, .opening] ++ tokens ++ [.closing])
      (.isIn field values negated)
  | like (field : Text) (negated : Bool) {token : Token} {pattern : Literal} :
    token.IsLiteral pattern →
    Predicate (.field field :: negationMark negated ++ [.keyword .like, token])
      (negatedIf negated (.like field pattern))
  | isNull (field : Text) (negated : Bool) :
    Predicate (.field field :: .keyword .is :: negationMark negated ++ [.keyword .null])
      (.isNull field negated)

inductive Part
  | condition
  | conjunction
  | negation
  | primary

/-- The derivations of token lists, with the condition that each builds and the nesting of its
prefix negations and parentheses. Alternatives and conjunctions grow to the right, so both
connectives group to the left. -/
inductive Derives : Part → List Token → Condition → Nat → Prop
  | conjunction {tokens : List Token} {inner : Condition} {nesting : Nat} :
    Derives .conjunction tokens inner nesting → Derives .condition tokens inner nesting
  | or {tokens more : List Token} {left right : Condition} {nesting nesting' : Nat} :
    Derives .condition tokens left nesting → Derives .conjunction more right nesting' →
    Derives .condition (tokens ++ .keyword .or :: more) (.or left right) (max nesting nesting')
  | negation {tokens : List Token} {inner : Condition} {nesting : Nat} :
    Derives .negation tokens inner nesting → Derives .conjunction tokens inner nesting
  | and {tokens more : List Token} {left right : Condition} {nesting nesting' : Nat} :
    Derives .conjunction tokens left nesting → Derives .negation more right nesting' →
    Derives .conjunction (tokens ++ .keyword .and :: more) (.and left right) (max nesting nesting')
  | primary {tokens : List Token} {inner : Condition} {nesting : Nat} :
    Derives .primary tokens inner nesting → Derives .negation tokens inner nesting
  | not {tokens : List Token} {inner : Condition} {nesting : Nat} :
    Derives .negation tokens inner nesting →
    Derives .negation (.keyword .not :: tokens) (.not inner) (nesting + 1)
  | predicate {tokens : List Token} {inner : Condition} :
    Predicate tokens inner → Derives .primary tokens inner 0
  | group {tokens : List Token} {inner : Condition} {nesting : Nat} :
    Derives .condition tokens inner nesting →
    Derives .primary (.opening :: tokens ++ [.closing]) (.group inner) (nesting + 1)

namespace Reader

def feed (limit : Nat) (reader : Reader) (tokens : List Token) : Except ParseFault Reader :=
  tokens.foldlM (fun reader token => reader.step limit token) reader

variable {limit : Nat}

@[simp] theorem feed_nil (reader : Reader) : reader.feed limit [] = .ok reader := rfl

@[simp] theorem feed_cons (reader : Reader) (token : Token) (tokens : List Token) :
    reader.feed limit (token :: tokens) = reader.step limit token >>= (feed limit · tokens) := rfl

theorem feed_append (reader : Reader) (tokens more : List Token) :
    reader.feed limit (tokens ++ more) = reader.feed limit tokens >>= (feed limit · more) :=
  List.foldlM_append

theorem run_eq_ok_iff {endPosition : Nat} {reader : Reader} {tokens : List Placed}
    {condition : Condition} :
    reader.run limit endPosition tokens = .ok condition ↔
      ∃ last, reader.feed limit (tokens.map Placed.token) = .ok last ∧
        last.finish = .ok condition := by
  induction tokens generalizing reader with
  | nil => simp [run, mapError_eq_ok]
  | cons placed tokens ih =>
    rw [run, List.map_cons, feed_cons]
    cases hstep : reader.step limit placed.token with
    | error fault => simp [bind, Except.bind]
    | ok next => simpa [bind, Except.bind] using ih

/-- A run fails at the first token that the reader cannot take, or else at the end. -/
theorem run_eq_error {endPosition : Nat} {reader : Reader} {tokens : List Placed}
    {error : ParseError} (h : reader.run limit endPosition tokens = .error error) :
    (∃ read placed rest last, tokens = read ++ placed :: rest ∧
        reader.feed limit (read.map Placed.token) = .ok last ∧
        last.step limit placed.token = .error error.fault ∧ error.position = placed.position) ∨
      ∃ last, reader.feed limit (tokens.map Placed.token) = .ok last ∧
        last.finish = .error error.fault ∧ error.position = endPosition := by
  induction tokens generalizing reader with
  | nil =>
    obtain ⟨fault, hfinish, rfl⟩ := mapError_eq_error.1 h
    exact .inr ⟨reader, rfl, hfinish, rfl⟩
  | cons placed tokens ih =>
    rw [run] at h
    cases hstep : reader.step limit placed.token with
    | error fault =>
      rw [hstep] at h
      cases h
      exact .inl ⟨[], placed, tokens, reader, rfl, rfl, hstep, rfl⟩
    | ok next =>
      rw [hstep] at h
      have hfeed : ∀ more : List Token,
          reader.feed limit (placed.token :: more) = next.feed limit more := by
        intro more
        rw [feed_cons, hstep, ok_bind]
      rcases ih h with ⟨read, refused, rest, last, rfl, hread, hrefused⟩ | ⟨last, hread, hlast⟩
      · exact .inl ⟨placed :: read, refused, rest, last, rfl, (hfeed _).trans hread, hrefused⟩
      · exact .inr ⟨last, (hfeed _).trans hread, hlast⟩

/-! ### What can be derived is read -/

theorem negate_not (n : Nat) (inner : Condition) :
    Level.negate n (.not inner) = .not (Level.negate n inner) := by
  induction n with
  | zero => rfl
  | succ n ih => rw [Level.negate, ih, Level.negate]

section Await

variable (reader : Reader) (awaiting awaiting' : Awaiting)

@[simp] theorem awaiting_await : (reader.await awaiting).awaiting = awaiting := rfl

@[simp] theorem await_await :
    (reader.await awaiting).await awaiting' = reader.await awaiting' := rfl

@[simp] theorem complete_await (operand : Condition) :
    (reader.await awaiting).complete operand = reader.complete operand := rfl

@[simp] theorem completeNegatable_await (negated : Bool) (predicate : Condition) :
    (reader.await awaiting).completeNegatable negated predicate =
      reader.complete (negatedIf negated predicate) := rfl

end Await

theorem step_literal {token : Token} {value : Literal} (h : token.IsLiteral value)
    (write : Literal → Reader) : token.readLiteral.map write = .ok (write value) := by
  rw [Token.readLiteral_of_isLiteral h]
  rfl

theorem ne_closing_of_isLiteral {token : Token} {value : Literal} (h : token.IsLiteral value) :
    token ≠ .closing := by
  rintro rfl
  cases h

theorem feed_members {tokens : List Token} {values : List Literal} (h : Members tokens values)
    (reader : Reader) (field : Text) (negated : Bool) :
    (reader.await (.firstMember field negated)).feed limit tokens =
      .ok (reader.await (.afterMember field negated values)) := by
  induction h with
  | single hvalue => simp [step, ne_closing_of_isLiteral hvalue, step_literal hvalue]
  | more _ hvalue ih =>
    rw [feed_append, ih]
    simp [step, step_literal hvalue]

theorem feed_field {reader : Reader} (hoperand : reader.awaiting = .operand) (field : Text)
    (tokens : List Token) :
    reader.feed limit (.field field :: tokens) =
      (reader.await (.predicate field)).feed limit tokens := by
  rw [feed_cons, step, hoperand]
  rfl

theorem feed_predicate {tokens : List Token} {predicate : Condition}
    (h : Predicate tokens predicate) {reader : Reader} (hoperand : reader.awaiting = .operand) :
    reader.feed limit tokens = .ok (reader.complete predicate) := by
  cases h with
  | compare field op hvalue =>
    rw [feed_field hoperand]
    simp [step, stepPredicate, step_literal hvalue]
  | between field negated hlow hhigh =>
    rw [List.cons_append, feed_field hoperand]
    cases negated <;>
      simp [negationMark, step, stepPredicate, stepNegatedPredicate, step_literal hlow,
        step_literal hhigh]
  | inNone field negated =>
    rw [List.cons_append, feed_field hoperand]
    cases negated <;> simp [negationMark, step, stepPredicate, stepNegatedPredicate]
  | inList field negated hmembers =>
    have hopened : (reader.await (.predicate field)).feed limit
        (negationMark negated ++ [.keyword .inList, .opening]) =
          .ok (reader.await (.firstMember field negated)) := by
      cases negated <;> rfl
    rw [List.cons_append, List.cons_append, List.cons_append, feed_field hoperand,
      feed_append, feed_append, hopened, ok_bind, feed_members hmembers]
    simp [step]
  | like field negated hpattern =>
    rw [List.cons_append, feed_field hoperand]
    cases negated <;>
      simp [negationMark, step, stepPredicate, stepNegatedPredicate, step_literal hpattern]
  | isNull field negated =>
    rw [List.cons_append, List.cons_append, feed_field hoperand]
    cases negated <;> rfl

theorem step_not {reader : Reader} (hoperand : reader.awaiting = .operand)
    (hdepth : reader.level.depth + 1 ≤ limit) :
    reader.step limit (.keyword .not) =
      .ok { reader with
        level := { reader.level with negations := reader.level.negations + 1 } } := by
  simp [step, hoperand, stepOperand, descend, Nat.not_lt.2 hdepth]

theorem step_opening {reader : Reader} (hoperand : reader.awaiting = .operand)
    (hdepth : reader.level.depth + 1 ≤ limit) :
    reader.step limit .opening =
      .ok ⟨.fresh (reader.level.depth + 1), reader.level :: reader.enclosing, .operand⟩ := by
  simp [step, hoperand, stepOperand, descend, Nat.not_lt.2 hdepth]

/-- What feeding a derivation does to a reader that awaits an operand. A conjunction begins where
no conjunct and no negation stands before it, and a condition begins a level. -/
def Reads (limit : Nat) : Part → List Token → Condition → Nat → Prop
  | .condition, tokens, inner, nesting => ∀ outside enclosing, outside + nesting ≤ limit →
    ∃ alternatives last, feed limit ⟨.fresh outside, enclosing, .operand⟩ tokens =
        .ok ⟨⟨outside, alternatives, none, 0⟩, enclosing, .connective last⟩ ∧
      Level.disjunction ⟨outside, alternatives, none, 0⟩ last = inner
  | .conjunction, tokens, inner, nesting => ∀ outside alternatives enclosing,
    outside + nesting ≤ limit →
      feed limit ⟨⟨outside, alternatives, none, 0⟩, enclosing, .operand⟩ tokens =
        .ok ⟨⟨outside, alternatives, none, 0⟩, enclosing, .connective inner⟩
  | .negation, tokens, inner, nesting | .primary, tokens, inner, nesting =>
    ∀ level enclosing, level.depth + nesting ≤ limit →
      feed limit ⟨level, enclosing, .operand⟩ tokens =
        .ok (complete ⟨level, enclosing, .operand⟩ inner)

theorem reads_of_derives {part : Part} {tokens : List Token} {inner : Condition} {nesting : Nat}
    (h : Derives part tokens inner nesting) : Reads limit part tokens inner nesting := by
  induction h with
  | conjunction _ ih =>
    intro outside enclosing hlimit
    exact ⟨none, _, ih outside none enclosing hlimit, rfl⟩
  | @or tokens more left right nesting nesting' _ _ ihl ihr =>
    intro outside enclosing hlimit
    obtain ⟨alternatives, last, hfeed, rfl⟩ := ihl outside enclosing (by omega)
    refine ⟨some _, right, ?_, rfl⟩
    rw [feed_append, hfeed, ok_bind, feed_cons]
    exact ihr outside _ enclosing (by omega)
  | negation _ ih =>
    intro outside alternatives enclosing hlimit
    exact ih ⟨outside, alternatives, none, 0⟩ enclosing (by simpa [Level.depth] using hlimit)
  | @and tokens more left right nesting nesting' _ _ ihl ihr =>
    intro outside alternatives enclosing hlimit
    rw [feed_append, ihl outside alternatives enclosing (by omega), ok_bind, feed_cons]
    exact ihr ⟨outside, alternatives, some left, 0⟩ enclosing (by simp [Level.depth]; omega)
  | primary _ ih => exact ih
  | @not tokens inner nesting _ ih =>
    intro level enclosing hlimit
    have hdepth : ({ level with negations := level.negations + 1 } : Level).depth + nesting ≤ limit := by
      simp only [Level.depth] at hlimit ⊢
      omega
    rw [feed_cons, step_not rfl (by simp; omega), ok_bind, ih _ enclosing hdepth]
    simp [complete, Level.conjunction, Level.negate, negate_not]
  | predicate hpredicate =>
    intro level enclosing hlimit
    exact feed_predicate hpredicate rfl
  | @group tokens inner nesting _ ih =>
    intro level enclosing hlimit
    obtain ⟨alternatives, last, hfeed, rfl⟩ := ih (level.depth + 1) (level :: enclosing) (by omega)
    rw [List.cons_append, feed_cons, step_opening rfl (by simp; omega), ok_bind, feed_append, hfeed]
    rfl

/-! ### What is read can be derived -/

/-- What stands before a connective: nothing, or a part that ends with the connective. -/
inductive Before (limit outside : Nat) (part : Part) (connective : Keyword) :
    Option Condition → List Token → Prop
  | nothing : Before limit outside part connective none []
  | part {tokens : List Token} {inner : Condition} {nesting : Nat} :
    Derives part tokens inner nesting → outside + nesting ≤ limit →
    Before limit outside part connective (some inner) (tokens ++ [.keyword connective])

/-- The tokens of a level before the present operand. -/
inductive Opened (limit : Nat) : Level → List Token → Prop
  | intro {outside negations : Nat} {alternatives conjuncts : Option Condition}
    {before left : List Token} :
    Before limit outside .condition .or alternatives before →
    Before limit outside .conjunction .and conjuncts left → outside + negations ≤ limit →
    Opened limit ⟨outside, alternatives, conjuncts, negations⟩
      (before ++ left ++ List.replicate negations (.keyword .not))

/-- The tokens of the levels around one that has `outside` negations and parentheses open. -/
inductive Enclosed (limit : Nat) : Nat → List Level → List Token → Prop
  | none : Enclosed limit 0 [] []
  | level {level : Level} {enclosing : List Level} {around tokens : List Token} :
    Enclosed limit level.outside enclosing around → Opened limit level tokens →
    Enclosed limit (level.depth + 1) (level :: enclosing) (around ++ tokens ++ [.opening])

inductive Begun : Awaiting → List Token → Prop
  | operand : Begun .operand []
  | predicate (field : Text) : Begun (.predicate field) [.field field]
  | negatedPredicate (field : Text) :
    Begun (.negatedPredicate field) [.field field, .keyword .not]
  | comparedValue (field : Text) (op : Comparator) :
    Begun (.comparedValue field op) [.field field, .comparator op]
  | pattern (field : Text) (negated : Bool) :
    Begun (.pattern field negated) (.field field :: negationMark negated ++ [.keyword .like])
  | lowBound (field : Text) (negated : Bool) :
    Begun (.lowBound field negated) (.field field :: negationMark negated ++ [.keyword .between])
  | betweenAnd (field : Text) (negated : Bool) {token : Token} {low : Literal} :
    token.IsLiteral low →
    Begun (.betweenAnd field negated low)
      (.field field :: negationMark negated ++ [.keyword .between, token])
  | highBound (field : Text) (negated : Bool) {token : Token} {low : Literal} :
    token.IsLiteral low →
    Begun (.highBound field negated low)
      (.field field :: negationMark negated ++ [.keyword .between, token, .keyword .and])
  | listOpening (field : Text) (negated : Bool) :
    Begun (.listOpening field negated) (.field field :: negationMark negated ++ [.keyword .inList])
  | firstMember (field : Text) (negated : Bool) :
    Begun (.firstMember field negated)
      (.field field :: negationMark negated ++ [.keyword .inList, .opening])
  | afterMember (field : Text) (negated : Bool) {tokens : List Token} {values : List Literal} :
    Members tokens values →
    Begun (.afterMember field negated values)
      (.field field :: negationMark negated ++ [.keyword .inList, .opening] ++ tokens)
  | nextMember (field : Text) (negated : Bool) {tokens : List Token} {values : List Literal} :
    Members tokens values →
    Begun (.nextMember field negated values)
      (.field field :: negationMark negated ++ [.keyword .inList, .opening] ++ tokens ++ [.comma])
  | nullOrNot (field : Text) : Begun (.nullOrNot field) [.field field, .keyword .is]
  | null (field : Text) : Begun (.null field) [.field field, .keyword .is, .keyword .not]

/-- What a state of the reader stands for: the tokens that lead to it. -/
inductive Stands (limit : Nat) : Reader → List Token → Prop
  | operand {level : Level} {enclosing : List Level} {awaiting : Awaiting}
    {around opened begun : List Token} :
    Enclosed limit level.outside enclosing around → Opened limit level opened →
    Begun awaiting begun → Stands limit ⟨level, enclosing, awaiting⟩ (around ++ opened ++ begun)
  | connective {outside nesting : Nat} {alternatives : Option Condition} {enclosing : List Level}
    {last : Condition} {around before tokens : List Token} :
    Enclosed limit outside enclosing around →
    Before limit outside .condition .or alternatives before →
    Derives .conjunction tokens last nesting → outside + nesting ≤ limit →
    Stands limit ⟨⟨outside, alternatives, none, 0⟩, enclosing, .connective last⟩
      (around ++ before ++ tokens)

theorem opened_fresh {outside : Nat} (h : outside ≤ limit) : Opened limit (.fresh outside) [] :=
  .intro .nothing .nothing h

theorem stands_start : Stands limit start [] := by
  have hopened : Opened limit (.fresh 0) [] := opened_fresh (Nat.zero_le limit)
  exact .operand .none hopened .operand

theorem derives_negate {tokens : List Token} {inner : Condition} {nesting : Nat}
    (h : Derives .primary tokens inner nesting) (n : Nat) :
    Derives .negation (List.replicate n (.keyword .not) ++ tokens) (Level.negate n inner)
      (nesting + n) := by
  induction n with
  | zero => exact .primary h
  | succ n ih => exact .not ih

theorem derives_disjunction {outside nesting : Nat} {alternatives : Option Condition}
    {before tokens : List Token} {last : Condition}
    (hbefore : Before limit outside .condition .or alternatives before)
    (h : Derives .conjunction tokens last nesting) (hlimit : outside + nesting ≤ limit) :
    ∃ nesting', outside + nesting' ≤ limit ∧
      Derives .condition (before ++ tokens)
        (Level.disjunction ⟨outside, alternatives, none, 0⟩ last) nesting' := by
  cases hbefore with
  | nothing => exact ⟨nesting, hlimit, .conjunction h⟩
  | @part tokens' inner nesting' hpart hpartLimit =>
    refine ⟨max nesting' nesting, by omega, ?_⟩
    rw [List.append_assoc, List.singleton_append]
    exact .or hpart h

/-- A completed operand ends a conjunction. -/
theorem stands_complete (awaiting : Awaiting) {level : Level} {enclosing : List Level}
    {around opened tokens : List Token} {operand : Condition} {nesting : Nat}
    (haround : Enclosed limit level.outside enclosing around) (hopened : Opened limit level opened)
    (h : Derives .primary tokens operand nesting) (hlimit : level.depth + nesting ≤ limit) :
    Stands limit (complete ⟨level, enclosing, awaiting⟩ operand) (around ++ opened ++ tokens) := by
  cases hopened with
  | @intro outside negations alternatives conjuncts before left hbefore hleft hdepth =>
    have hnegation := derives_negate h negations
    simp only [Level.depth] at hlimit haround
    cases hleft with
    | nothing =>
      have hstands := Stands.connective haround hbefore (.negation hnegation) (by omega)
      simpa [complete, Level.conjunction] using hstands
    | @part tokens' inner nesting' hinner hinnerLimit =>
      have hstands := Stands.connective haround hbefore (.and hinner hnegation) (by omega)
      simpa [complete, Level.conjunction] using hstands

theorem Opened.depth_le {level : Level} {tokens : List Token} (h : Opened limit level tokens) :
    level.depth ≤ limit := by
  cases h with
  | intro _ _ hdepth => exact hdepth

theorem Opened.negate {level : Level} {tokens : List Token} (h : Opened limit level tokens)
    (hdepth : level.depth + 1 ≤ limit) :
    Opened limit { level with negations := level.negations + 1 } (tokens ++ [.keyword .not]) := by
  cases h with
  | @intro outside negations _ _ _ _ hbefore hleft _ =>
    have hmore : outside + (negations + 1) ≤ limit := hdepth
    have hopened := Opened.intro hbefore hleft hmore
    rwa [List.replicate_succ', ← List.append_assoc] at hopened

section Step

variable {level : Level} {enclosing : List Level} {around opened : List Token} {token : Token}
  {next : Reader} (haround : Enclosed limit level.outside enclosing around)
  (hopened : Opened limit level opened)
include haround hopened

theorem stands_stepOperand
    (hstep : stepOperand ⟨level, enclosing, .operand⟩ limit token = .ok next) :
    Stands limit next (around ++ opened ++ [token]) := by
  unfold stepOperand at hstep
  split at hstep
  · unfold descend at hstep
    split_ifs at hstep with hlimit
    cases hstep
    have hnegated := hopened.negate (Nat.not_lt.1 hlimit)
    have hstands := Stands.operand (by exact haround) hnegated .operand
    simpa using hstands
  · unfold descend at hstep
    split_ifs at hstep with hlimit
    cases hstep
    have hfresh : Opened limit (.fresh (level.depth + 1)) [] := opened_fresh (Nat.not_lt.1 hlimit)
    simpa using Stands.operand (.level haround hopened) hfresh .operand
  · cases hstep
    exact .operand haround hopened (.predicate _)
  · cases hstep

/-- Each token leads from one beginning of a predicate to the next, or completes it. -/
theorem stands_step_begun {awaiting : Awaiting} {begun : List Token} (hbegun : Begun awaiting begun)
    (hstep : step ⟨level, enclosing, awaiting⟩ limit token = .ok next) :
    Stands limit next (around ++ opened ++ (begun ++ [token])) := by
  have hawait : ∀ {awaiting'}, Begun awaiting' (begun ++ [token]) →
      Stands limit ⟨level, enclosing, awaiting'⟩ (around ++ opened ++ (begun ++ [token])) :=
    fun h => .operand haround hopened h
  have hcomplete : ∀ {predicate}, Predicate (begun ++ [token]) predicate →
      Stands limit (complete ⟨level, enclosing, awaiting⟩ predicate)
        (around ++ opened ++ (begun ++ [token])) :=
    fun h => stands_complete awaiting haround hopened (.predicate h) hopened.depth_le
  cases hbegun with
  | operand => exact stands_stepOperand haround hopened hstep
  | predicate field =>
    simp only [step, stepPredicate] at hstep
    split at hstep <;> cases hstep
    · exact hawait (.comparedValue field _)
    · exact hawait (.lowBound field false)
    · exact hawait (.listOpening field false)
    · exact hawait (.pattern field false)
    · exact hawait (.nullOrNot field)
    · exact hawait (.negatedPredicate field)
  | negatedPredicate field =>
    simp only [step, stepNegatedPredicate] at hstep
    split at hstep <;> cases hstep
    · exact hawait (.lowBound field true)
    · exact hawait (.listOpening field true)
    · exact hawait (.pattern field true)
  | comparedValue field op =>
    obtain ⟨value, hvalue, rfl⟩ := map_eq_ok.1 hstep
    exact hcomplete (.compare field op (Token.readLiteral_eq_ok_iff.1 hvalue))
  | pattern field negated =>
    obtain ⟨value, hvalue, rfl⟩ := map_eq_ok.1 hstep
    have hlike := Predicate.like field negated (Token.readLiteral_eq_ok_iff.1 hvalue)
    exact hcomplete (by simpa [negatedIf] using hlike)
  | lowBound field negated =>
    obtain ⟨low, hlow, rfl⟩ := map_eq_ok.1 hstep
    have hbetween := Begun.betweenAnd field negated (Token.readLiteral_eq_ok_iff.1 hlow)
    exact hawait (by simpa using hbetween)
  | betweenAnd field negated hlow =>
    simp only [step] at hstep
    split_ifs at hstep with hand
    cases hstep
    subst hand
    have hhigh := Begun.highBound field negated hlow
    exact hawait (by simpa using hhigh)
  | highBound field negated hlow =>
    obtain ⟨high, hhigh, rfl⟩ := map_eq_ok.1 hstep
    have hbetween := Predicate.between field negated hlow (Token.readLiteral_eq_ok_iff.1 hhigh)
    exact hcomplete (by simpa [negatedIf] using hbetween)
  | listOpening field negated =>
    simp only [step] at hstep
    split_ifs at hstep with hopening
    cases hstep
    subst hopening
    have hfirst := Begun.firstMember field negated
    exact hawait (by simpa using hfirst)
  | firstMember field negated =>
    simp only [step] at hstep
    split_ifs at hstep with hclosing
    · cases hstep
      subst hclosing
      have hnone := Predicate.inNone field negated
      exact hcomplete (by simpa using hnone)
    · obtain ⟨value, hvalue, rfl⟩ := map_eq_ok.1 hstep
      have hmember := Begun.afterMember field negated
        (.single (Token.readLiteral_eq_ok_iff.1 hvalue))
      exact hawait (by simpa using hmember)
  | afterMember field negated hmembers =>
    simp only [step] at hstep
    split_ifs at hstep with hcomma hclosing
    · cases hstep
      subst hcomma
      exact hawait (.nextMember field negated hmembers)
    · cases hstep
      subst hclosing
      exact hcomplete (.inList field negated hmembers)
  | nextMember field negated hmembers =>
    obtain ⟨value, hvalue, rfl⟩ := map_eq_ok.1 hstep
    have hmember := Begun.afterMember field negated
      (.more hmembers (Token.readLiteral_eq_ok_iff.1 hvalue))
    exact hawait (by simpa using hmember)
  | nullOrNot field =>
    simp only [step] at hstep
    split_ifs at hstep with hnot hnull
    · cases hstep
      subst hnot
      exact hawait (.null field)
    · cases hstep
      subst hnull
      exact hcomplete (.isNull field false)
  | null field =>
    simp only [step] at hstep
    split_ifs at hstep with hnull
    cases hstep
    subst hnull
    exact hcomplete (.isNull field true)

end Step

theorem stands_stepConnective {outside nesting : Nat} {alternatives : Option Condition}
    {enclosing : List Level} {last : Condition} {around before tokens : List Token} {token : Token}
    {next : Reader} (haround : Enclosed limit outside enclosing around)
    (hbefore : Before limit outside .condition .or alternatives before)
    (h : Derives .conjunction tokens last nesting) (hlimit : outside + nesting ≤ limit)
    (hstep : stepConnective ⟨⟨outside, alternatives, none, 0⟩, enclosing, .connective last⟩ last
      token = .ok next) :
    Stands limit next (around ++ before ++ tokens ++ [token]) := by
  obtain ⟨nesting', hlimit', hcondition⟩ := derives_disjunction hbefore h hlimit
  have hdepth : outside + 0 ≤ limit := by omega
  unfold stepConnective at hstep
  split at hstep
  · cases hstep
    have hopened := Opened.intro hbefore (.part h hlimit) hdepth
    simpa using Stands.operand haround hopened .operand
  · cases hstep
    have hopened := Opened.intro (.part hcondition hlimit') .nothing hdepth
    simpa using Stands.operand haround hopened .operand
  · cases haround with
    | none => cases hstep
    | @level outer _ _ _ houter hopened =>
      dsimp only at hstep
      split_ifs at hstep with hclosing
      cases hstep
      subst hclosing
      have hgroup := stands_complete .operand houter hopened (.group hcondition) (by omega)
      simpa using hgroup

theorem stands_step {reader next : Reader} {read : List Token} {token : Token}
    (h : Stands limit reader read) (hstep : reader.step limit token = .ok next) :
    Stands limit next (read ++ [token]) := by
  cases h with
  | operand haround hopened hbegun =>
    rw [List.append_assoc]
    exact stands_step_begun haround hopened hbegun hstep
  | connective haround hbefore hconjunction hlimit =>
    exact stands_stepConnective haround hbefore hconjunction hlimit hstep

theorem stands_feed {reader last : Reader} {read tokens : List Token}
    (h : Stands limit reader read) (hfeed : reader.feed limit tokens = .ok last) :
    Stands limit last (read ++ tokens) := by
  induction tokens generalizing reader read with
  | nil =>
    cases hfeed
    simpa using h
  | cons token tokens ih =>
    obtain ⟨next, hstep, hrest⟩ := bind_eq_ok.1 hfeed
    simpa using ih (stands_step h hstep) hrest

theorem derives_of_finish {reader : Reader} {read : List Token} {condition : Condition}
    (h : Stands limit reader read) (hfinish : reader.finish = .ok condition) :
    ∃ nesting ≤ limit, Derives .condition read condition nesting := by
  cases h with
  | operand _ _ hbegun => cases hbegun <;> cases hfinish
  | connective haround hbefore hconjunction hlimit =>
    cases haround with
    | none =>
      cases hfinish
      obtain ⟨nesting, hlimit', hcondition⟩ := derives_disjunction hbefore hconjunction hlimit
      exact ⟨nesting, by omega, by simpa using hcondition⟩
    | level _ _ => cases hfinish

end Reader

variable {limit endPosition : Nat} {tokens : List Placed} {condition : Condition}

theorem derives_of_ofTokens (h : ofTokens limit endPosition tokens = .ok condition) :
    ∃ nesting ≤ limit, Derives .condition (tokens.map Placed.token) condition nesting := by
  unfold ofTokens at h
  split_ifs at h
  obtain ⟨last, hfeed, hfinish⟩ := Reader.run_eq_ok_iff.1 h
  exact Reader.derives_of_finish (Reader.stands_feed Reader.stands_start hfeed) hfinish

theorem ofTokens_of_derives {nesting : Nat} (hlimit : nesting ≤ limit)
    (h : Derives .condition (tokens.map Placed.token) condition nesting) :
    ofTokens limit endPosition tokens = .ok condition := by
  obtain ⟨alternatives, last, hfeed, rfl⟩ :=
    Reader.reads_of_derives h 0 [] (by simpa using hlimit)
  have hne : tokens.isEmpty = false := by
    cases tokens with
    | nil => cases hfeed
    | cons placed tokens => rfl
  rw [ofTokens, hne, if_neg Bool.false_ne_true]
  exact Reader.run_eq_ok_iff.2 ⟨_, hfeed, rfl⟩

/-- The reader accepts what the grammar derives within the limit, and builds its condition. -/
theorem ofTokens_eq_ok_iff (limit endPosition : Nat) (tokens : List Placed)
    (condition : Condition) :
    ofTokens limit endPosition tokens = .ok condition ↔
      ∃ nesting ≤ limit, Derives .condition (tokens.map Placed.token) condition nesting := by
  constructor
  · exact derives_of_ofTokens
  · rintro ⟨nesting, hlimit, hderives⟩
    exact ofTokens_of_derives hlimit hderives

end FilterQuery.Condition
