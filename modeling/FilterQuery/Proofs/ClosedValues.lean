import FilterQuery.Proofs.ClauseParentheses
import FilterQuery.Proofs.CompiledLeaves

/-!
# Values that close their ranges

A colon and an opening bracket open a range wherever they stand together, also inside a value, and
parentheses are not counted before a closing bracket closes it. Escaping and patterns change nothing
about this. Where no value leaves a range open, the leaves of a compiled clause are neutral.
-/

namespace FilterQuery

namespace Parentheses

/-! ### Ranges in values -/

/-- Whether a text leaves no range open, given whether one is open before it and whether it comes
right after a colon. -/
def closesRanges (inRange afterColon : Bool) : Text → Bool
  | [] => !inRange
  | c :: rest =>
    closesRanges (if inRange then c != ']' else c == '[' && afterColon) (c == ':') rest

theorem closesRanges_inRange {text : Text} {afterColon : Bool}
    (h : closesRanges true afterColon text = true) (afterColon' : Bool) :
    closesRanges false afterColon' text = true := by
  induction text generalizing afterColon afterColon' with
  | nil => simp [closesRanges] at h
  | cons c text ih =>
    simp only [closesRanges, if_true] at h
    simp only [closesRanges, Bool.false_eq_true, if_false]
    by_cases hclosing : c = ']'
    · subst hclosing
      simpa using h
    · have hopen : (c != ']') = true := by simpa using hclosing
      rw [hopen] at h
      cases c == '[' && afterColon' with
      | true => exact h
      | false => exact ih h _

/-- A text that closes its ranges after a colon does so anywhere. -/
theorem closesRanges_afterColon {text : Text} (h : closesRanges false true text = true)
    (afterColon : Bool) : closesRanges false afterColon text = true := by
  cases text with
  | nil => exact h
  | cons c text =>
    simp only [closesRanges, Bool.false_eq_true, if_false, Bool.and_true] at h ⊢
    by_cases hbracket : c = '['
    · subst hbracket
      cases afterColon with
      | true => simpa using h
      | false => exact closesRanges_inRange (by simpa using h) _
    · have hplain : (c == '[') = false := by simpa using hbracket
      rw [hplain] at h ⊢
      simpa using h

theorem closesRanges_of_plain {text : Text} (h : ∀ c ∈ text, c ≠ '[') (afterColon : Bool) :
    closesRanges false afterColon text = true := by
  induction text generalizing afterColon with
  | nil => rfl
  | cons c text ih =>
    obtain ⟨hc, hrest⟩ := List.forall_mem_cons.1 h
    have hplain : (c == '[') = false := by simpa using hc
    simpa [closesRanges, hplain] using ih hrest _

/-- What is no bracket neither opens nor closes a range. -/
theorem closesRanges_cons {c : Char} (hopening : c ≠ '[') (hclosing : c ≠ ']')
    (inRange afterColon : Bool) (text : Text) :
    closesRanges inRange afterColon (c :: text) = closesRanges inRange (c == ':') text := by
  have hopening' : (c == '[') = false := by simpa using hopening
  have hclosing' : (c != ']') = true := by simpa using hclosing
  cases inRange <;> simp [closesRanges, hopening', hclosing']

open Escape

theorem closesRanges_escapeChar (c : Char) (inRange afterColon : Bool) (text : Text) :
    closesRanges inRange afterColon (escapeChar c ++ text) =
      closesRanges inRange afterColon (c :: text) := by
  unfold escapeChar
  split_ifs with hspecial
  · have hne : c ≠ '[' ∧ c ≠ ']' := by
      refine ⟨?_, ?_⟩ <;>
      · rintro rfl
        exact absurd hspecial (by decide)
    rw [List.cons_append, closesRanges_cons (by decide) (by decide), List.singleton_append,
      closesRanges_cons hne.1 hne.2, closesRanges_cons hne.1 hne.2]
  · rfl

theorem closesRanges_escape (inRange afterColon : Bool) (text : Text) :
    closesRanges inRange afterColon (escape text) = closesRanges inRange afterColon text := by
  induction text generalizing inRange afterColon with
  | nil => rfl
  | cons c text ih =>
    rw [escape_cons, closesRanges_escapeChar, closesRanges, closesRanges, ih]

theorem closesRanges_pattern (inRange afterColon : Bool) (text : Text) :
    closesRanges inRange afterColon (pattern text) = closesRanges inRange afterColon text := by
  induction text generalizing inRange afterColon with
  | nil => rfl
  | cons c text ih =>
    rw [pattern_cons, patternChar]
    split_ifs with hmany hone
    · subst hmany
      rw [List.singleton_append, closesRanges_cons (by decide) (by decide),
        closesRanges_cons (by decide) (by decide), ih]
      rfl
    · subst hone
      rw [List.singleton_append, closesRanges_cons (by decide) (by decide),
        closesRanges_cons (by decide) (by decide), ih]
      rfl
    · rw [closesRanges_escapeChar, closesRanges, closesRanges, ih]

/-- A value without parentheses that closes its ranges, where a colon may come right before it. -/
structure ClosedValue (afterColon : Bool) (value : Text) : Prop where
  parens : ∀ c ∈ value, c ≠ '(' ∧ c ≠ ')'
  ranges : closesRanges false afterColon value = true

/-- Without parentheses, brackets are all that the count sees. -/
theorem Count.run_of_noParens {text : Text} (h : ∀ c ∈ text, c ≠ '(' ∧ c ≠ ')') (depth : Nat)
    (inRange afterColon : Bool) :
    ∃ last, run ⟨depth, inRange, afterColon⟩ text =
      some ⟨depth, !closesRanges inRange afterColon text, last⟩ := by
  induction text generalizing inRange afterColon with
  | nil => exact ⟨afterColon, by simp [closesRanges]⟩
  | cons c text ih =>
    obtain ⟨⟨hopening, hclosing⟩, hrest⟩ := List.forall_mem_cons.1 h
    have hstep : step ⟨depth, inRange, afterColon⟩ c =
        some ⟨depth, if inRange then c != ']' else c == '[' && afterColon, c == ':'⟩ := by
      cases inRange with
      | true => simp [step]
      | false =>
        cases hbracket : c == '[' && afterColon with
        | true => simp [step, hbracket]
        | false => simp [step, hbracket, hopening, hclosing]
    rw [run_cons, hstep, Option.bind_some]
    exact ih hrest _ _

namespace ClosedValue

theorem neutral {value : Text} (h : ClosedValue true value) : Neutral value := by
  intro depth afterColon
  obtain ⟨last, hrun⟩ := Count.run_of_noParens h.parens depth false afterColon
  exact ⟨last, by rw [hrun, closesRanges_afterColon h.ranges afterColon, Bool.not_true]⟩

/-- Behind a character that is no colon, a value may begin with a bracket. -/
theorem neutral_cons {value : Text} (h : ClosedValue false value) {c : Char} (hc : Plain c)
    (hcolon : c ≠ ':') : Neutral (c :: value) := by
  intro depth afterColon
  obtain ⟨hopening, hclosing, hbracket⟩ := hc
  have hstep : Count.step ⟨depth, false, afterColon⟩ c = some ⟨depth, false, false⟩ := by
    simp [Count.step, hopening, hclosing, hbracket, hcolon]
  obtain ⟨last, hrun⟩ := Count.run_of_noParens h.parens depth false false
  exact ⟨last, by rw [Count.run_cons, hstep, Option.bind_some, hrun, h.ranges, Bool.not_true]⟩

theorem escape {value : Text} {afterColon : Bool} (h : ClosedValue afterColon value) :
    ClosedValue afterColon (escape value) where
  parens := (Escaped.escape h.parens).forall_mem (by decide)
  ranges := by rw [closesRanges_escape, h.ranges]

theorem pattern {value : Text} {afterColon : Bool} (h : ClosedValue afterColon value) :
    ClosedValue afterColon (pattern value) where
  parens := (Escaped.pattern (by decide) (by decide) h.parens).forall_mem (by decide)
  ranges := by rw [closesRanges_pattern, h.ranges]

end ClosedValue

/-- Values between commas, behind a character that is no colon. -/
theorem neutral_values {values : List Text} (h : ∀ value ∈ values, ClosedValue false value)
    {c : Char} (hc : Plain c) (hcolon : c ≠ ':') : Neutral (c :: [','].intercalate values) := by
  induction values generalizing c with
  | nil => exact .of_plain (by simpa using hc)
  | cons value rest ih =>
    obtain ⟨hvalue, hrest⟩ := List.forall_mem_cons.1 h
    have hfirst := hvalue.neutral_cons hc hcolon
    cases rest with
    | nil => simpa using hfirst
    | cons next rest =>
      have hnext := ih hrest (by decide : Plain ',') (by decide)
      rw [List.intercalate_cons_cons, List.append_assoc]
      exact hfirst.append hnext

end Parentheses

namespace Compiler

open Parentheses

theorem neutral_fieldHead {field : Text} (hfield : ∀ c ∈ field, Plain c) :
    Neutral (fieldHead field) :=
  .of_plain (forall_mem_fieldHead hfield (by decide) (by decide))

abbrev ClosedTag : Text → List Text → Prop := Clause.TagOf Plain (ClosedValue false)

theorem neutral_closedTag {field : Text} {values : List Text} (h : ClosedTag field values) :
    Neutral (Clause.tagText field values) := by
  have hbody := neutral_values h.values (by decide : Plain '{') (by decide)
  have hclosing : Neutral ['}'] := .of_plain (by simp [Plain])
  have htext := ((neutral_fieldHead h.name).append hbody).append hclosing
  simpa [Clause.tagText, fieldHead] using htext

section Field

variable {field : Text} (hfield : ∀ c ∈ field, Plain c)
include hfield

/-- The bounds of a range may hold brackets, or else parentheses, but not both. -/
def ClosedBounds (low high : Text) : Prop :=
  (∀ c ∈ low ++ high, c ≠ ']') ∨ ∀ c ∈ low ++ high, c ≠ '(' ∧ c ≠ ')'

theorem neutral_range {low high : Text} (h : ClosedBounds low high) :
    Neutral (fieldHead field ++ '[' :: low ++ ' ' :: high ++ [']']) := by
  have hhead : ∀ c ∈ '@' :: field, Plain c := List.forall_mem_cons.2 ⟨by decide, hfield⟩
  have hbody : ∀ depth, ∃ inRange last, (Count.mk depth true false).run (low ++ ' ' :: high) =
      some ⟨depth, inRange, last⟩ := by
    intro depth
    rcases h with h | h
    · obtain ⟨hlow, hhigh⟩ := List.forall_mem_append.1 h
      have hinside : ∀ c ∈ low ++ ' ' :: high, c ≠ ']' :=
        List.forall_mem_append.2 ⟨hlow, List.forall_mem_cons.2 ⟨by decide, hhigh⟩⟩
      exact ⟨true, Count.run_inRange hinside depth false⟩
    · obtain ⟨hlow, hhigh⟩ := List.forall_mem_append.1 h
      have hplain : ∀ c ∈ low ++ ' ' :: high, c ≠ '(' ∧ c ≠ ')' :=
        List.forall_mem_append.2 ⟨hlow, List.forall_mem_cons.2 ⟨by decide, hhigh⟩⟩
      exact ⟨_, Count.run_of_noParens hplain depth true false⟩
  simpa [fieldHead] using Neutral.range hhead hbody

/-- Every form of leaf with closed values is neutral and does not begin with a parenthesis. -/
theorem LeafForm.closed {clause : Clause}
    (h : LeafForm (ClosedValue false) (ClosedValue true) ClosedBounds field clause) :
    clause.Each (fun text => Neutral text ∧ text.head? ≠ some '(') ClosedTag := by
  have hhead := neutral_fieldHead hfield
  have hminus : Neutral ['-'] := .of_plain (by simp [Plain])
  have hquote : Neutral ['"'] := .of_plain (by simp [Plain])
  cases h with
  | quoted hvalue =>
    have hquoted := hvalue.neutral_cons (by decide : Plain '"') (by decide)
    exact .atom ⟨(hhead.append hquoted).append hquote, by simp [fieldHead]⟩
  | tag hvalue => exact .tag ⟨hfield, by simpa using hvalue⟩
  | braced hvalue =>
    have htag : ClosedTag field [_] := ⟨hfield, by simpa using hvalue⟩
    exact .atom ⟨neutral_closedTag htag, by simp [Clause.tagText]⟩
  | bare hvalue => exact .atom ⟨hhead.append hvalue.neutral, by simp [fieldHead]⟩
  | notBare hvalue => exact .atom ⟨hminus.append (hhead.append hvalue.neutral), by simp⟩
  | notBraced hvalue =>
    have htag : ClosedTag field [_] := ⟨hfield, by simpa using hvalue⟩
    exact .atom ⟨hminus.append (neutral_closedTag htag), by simp⟩
  | range hbounds => exact .atom ⟨neutral_range hfield hbounds, by simp [fieldHead]⟩
  | matchAll => exact .atom ⟨.of_plain (by simp [Plain]), by simp⟩

end Field

/-- Whether a string closes the ranges it opens, at its place in a leaf. The bounds of a range end
inside that range. -/
def closesRangesAt : Condition.Place → Text → Bool
  | .enclosed, s => closesRanges false false s
  | .bare, s => closesRanges false true s
  | .bound, _ => true

def ClosedString (place : Condition.Place) (s : Text) : Prop :=
  (∀ c ∈ s, c ≠ '(' ∧ c ≠ ')') ∧ closesRangesAt place s = true

theorem ClosedString.of_plain (place : Condition.Place) {s : Text} (h : ∀ c ∈ s, Plain c) :
    ClosedString place s := by
  have hbracket : ∀ c ∈ s, c ≠ '[' := fun c hc => (h c hc).2.2
  refine ⟨fun c hc => ⟨(h c hc).1, (h c hc).2.1⟩, ?_⟩
  cases place with
  | enclosed => exact closesRanges_of_plain hbracket false
  | bare => exact closesRanges_of_plain hbracket true
  | bound => rfl

theorem plain_of_isOwnChar {c : Char} (h : isOwnChar c = true) : Plain c := by
  refine ⟨?_, ?_, ?_⟩ <;>
  · apply ne_of_class h
    decide

theorem leafRules_of_closed :
    LeafRules ClosedString (ClosedValue false) (ClosedValue true) ClosedBounds where
  figures place t hfigures :=
    .of_plain place fun c hc => plain_of_isOwnChar (isOwnChar_of_isFigure (hfigures c hc))
  enclosed t hstring := ClosedValue.escape ⟨hstring.1, hstring.2⟩
  pattern t hstring := ClosedValue.pattern ⟨hstring.1, hstring.2⟩
  bare t hstring :=
    ⟨ClosedValue.escape ⟨hstring.1, closesRanges_afterColon hstring.2 false⟩,
      ClosedValue.escape ⟨hstring.1, hstring.2⟩⟩
  own t hown :=
    have hplain := ClosedString.of_plain .bare fun c hc => plain_of_isOwnChar (hown c hc)
    ⟨hplain.1, hplain.2⟩
  numbers low high hchars := by
    refine .inl fun c hc => ?_
    rcases hchars c hc with hc | rfl
    · exact ne_of_class hc (by decide)
    · decide
  bounds low high hlow hhigh := .inr (List.forall_mem_append.2 ⟨hlow.1, hhigh.1⟩)

theorem each_closed {compiler : Compiler} {condition : Condition} {clause : Clause}
    (hfields : ∀ field ∈ condition.fields, ∀ c ∈ field, Plain c)
    (hstrings : ∀ place s, (place, s) ∈ condition.places → ClosedString place s)
    (h : compiler.clause condition = .ok clause) :
    clause.Each (fun text => Neutral text ∧ text.head? ≠ some '(') ClosedTag :=
  each_of_leafForms leafRules_of_closed (compiles_of_clauseAt h)
    (fun field hfield _ hleaf => hleaf.closed (hfields field hfield)) hstrings

end Compiler

end FilterQuery
