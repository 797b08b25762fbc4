import FilterQuery.Proofs.ClauseParentheses
import FilterQuery.Proofs.CompiledLeaves
import FilterQuery.Proofs.QueryReading
import FilterQuery.Token.Scan

/-!
# Reading written clauses

A written clause is a query that says what the clause says, provided that each of its leaves is
read as one leaf. The parentheses of a written clause are few: conjunctions have none, a union has
one pair for each operand, and a negation only has them where its text has a space or a bar. A text
without spaces is one operand, so that a minus before it negates all of it.

The leaves of compiled clauses are read as one leaf: their spaces are escaped or stand inside a
range.
-/

namespace FilterQuery

open Escape

namespace QueryReading

/-! ### Leaves that are read to their end -/

/-- Text with which a leaf goes on and after which it may end. -/
def Settles (text : Text) : Prop :=
  ∀ state : LeafState, state.settled = true →
    ∃ last : LeafState, state.run text = some last ∧ last.settled = true

namespace Settles

theorem nil : Settles [] := fun state hstate => ⟨state, rfl, hstate⟩

theorem append {text more : Text} (h : Settles text) (hmore : Settles more) :
    Settles (text ++ more) := by
  intro state hstate
  obtain ⟨middle, hrun, hmiddle⟩ := h state hstate
  obtain ⟨last, hrun', hlast⟩ := hmore middle hmiddle
  refine ⟨last, ?_, hlast⟩
  rw [LeafState.run_append, hrun, Option.bind_some, hrun']

theorem singleton {c : Char} (hspace : c ≠ ' ') (hclosing : c ≠ ')') (hbackslash : c ≠ '\\')
    (hbracket : c ≠ '[') : Settles [c] := by
  intro state hstate
  have hstep : state.step c = some (if c = ':' then .afterColon else .plain) := by
    cases state with
    | plain => simp [LeafState.step, hspace, hclosing, hbackslash, hbracket, apply_ite some]
    | afterColon => simp [LeafState.step, hspace, hclosing, hbackslash, hbracket, apply_ite some]
    | escaped => cases hstate
    | inRange => cases hstate
  refine ⟨_, by rw [LeafState.run_cons, hstep]; rfl, ?_⟩
  split_ifs <;> rfl

theorem of_forall {text : Text}
    (h : ∀ c ∈ text, c ≠ ' ' ∧ c ≠ ')' ∧ c ≠ '\\' ∧ c ≠ '[') : Settles text := by
  induction text with
  | nil => exact nil
  | cons c text ih =>
    obtain ⟨⟨hspace, hclosing, hbackslash, hbracket⟩, hrest⟩ := List.forall_mem_cons.1 h
    exact (singleton hspace hclosing hbackslash hbracket).append (ih hrest)

/-- A backslash and the character behind it are passed together. -/
theorem pair (c : Char) : Settles ['\\', c] := by
  intro state hstate
  refine ⟨.plain, ?_, rfl⟩
  cases state with
  | plain => rfl
  | afterColon => rfl
  | escaped => cases hstate
  | inRange => cases hstate

theorem of_escaped {ok : Char → Prop} (hok : ∀ c, ok c → c ≠ ')' ∧ c ≠ '[') {text : Text}
    (h : Escaped ok text) : Settles text := by
  induction h with
  | nil => exact nil
  | @bare c rest hc hbackslash hspace _ _ ih =>
    exact (singleton hspace (hok c hc).1 hbackslash (hok c hc).2).append ih
  | @pair c rest _ _ ih => exact (pair c).append ih

theorem intercalate {separator : Text} {texts : List Text} (hsep : Settles separator)
    (h : ∀ text ∈ texts, Settles text) : Settles (separator.intercalate texts) :=
  Clause.closed_intercalate nil append hsep h

end Settles

/-! ### Tags between braces -/

section Tags

variable {ok : Char → Prop}

theorem splitTags_escaped {value : Text} (h : Escaped ok value) : splitTags value = [value] := by
  induction h with
  | nil => rfl
  | bare _ hbackslash _ hcomma _ ih => rw [splitTags_cons hbackslash hcomma, ih]; rfl
  | pair _ _ ih => rw [splitTags, ih]; rfl

theorem splitTags_append {value : Text} (h : Escaped ok value) (more : Text) :
    splitTags (value ++ ',' :: more) = value :: splitTags more := by
  induction h with
  | nil => rfl
  | bare _ hbackslash _ hcomma _ ih =>
    rw [List.cons_append, splitTags_cons hbackslash hcomma, ih]
    rfl
  | pair _ _ ih =>
    rw [List.cons_append, List.cons_append, splitTags, ih]
    rfl

theorem splitTags_intercalate {values : List Text} (hne : values ≠ [])
    (h : ∀ value ∈ values, Escaped ok value) : splitTags ([','].intercalate values) = values := by
  induction values with
  | nil => exact absurd rfl hne
  | cons value rest ih =>
    obtain ⟨hvalue, hrest⟩ := List.forall_mem_cons.1 h
    cases rest with
    | nil => rw [List.intercalate_singleton, splitTags_escaped hvalue]
    | cons next rest =>
      rw [List.intercalate_cons_cons, List.append_assoc, List.singleton_append,
        splitTags_append hvalue, ih (by simp) hrest]

variable {field : Text} (hfield : ∀ c ∈ field, c ≠ ':')
include hfield

theorem takeWhile_field (value : Text) :
    (field ++ ':' :: value).takeWhile (· != ':') = field := by
  rw [List.takeWhile_append_of_pos (by simpa using hfield)]
  simp

theorem dropWhile_field (value : Text) :
    (field ++ ':' :: value).dropWhile (· != ':') = ':' :: value := by
  rw [List.dropWhile_append_of_pos (by simpa using hfield)]
  simp

theorem tagSet?_eq_none {value : Text} (hvalue : value.head? ≠ some '{') :
    tagSet? ('@' :: field ++ ':' :: value) = none := by
  rw [List.cons_append, tagSet?, takeWhile_field hfield, dropWhile_field hfield]
  cases value with
  | nil => rfl
  | cons c value =>
    split
    · rename_i heq
      simp_all
    · rfl

theorem tagSet?_tagText {values : List Text} (hne : values ≠ [])
    (h : ∀ value ∈ values, Escaped ok value) :
    tagSet? (Clause.tagText field values) = some (field, values) := by
  have htext : Clause.tagText field values =
      '@' :: (field ++ ':' :: '{' :: ([','].intercalate values ++ ['}'])) := by
    simp [Clause.tagText]
  rw [htext, tagSet?, takeWhile_field hfield, dropWhile_field hfield]
  simp [splitTags_intercalate hne h]

theorem leafHolds_tagText {values : List Text} (hne : values ≠ [])
    (h : ∀ value ∈ values, Escaped ok value) (single : Text → Bool) :
    leafHolds single (Clause.tagText field values) =
      values.any fun value => single (Clause.tagText field [value]) := by
  rw [leafHolds, tagSet?_tagText hfield hne h]

end Tags

/-! ### Leaves of compiled clauses -/

structure SingleLeaf (leaf : Text) : Prop where
  head : leaf.head? = some '@' ∨ leaf.head? = some '*'
  run : ∃ last : LeafState, LeafState.plain.run leaf = some last ∧ last.settled = true
  holds : ∀ single, leafHolds single leaf = single leaf

inductive SignedLeaf : Text → Prop
  | positive {leaf : Text} : SingleLeaf leaf → SignedLeaf leaf
  | negative {leaf : Text} : SingleLeaf leaf → SignedLeaf ('-' :: leaf)

/-- Characters that a string may hold: once escaped, they do not structure a query. -/
def isValueChar (c : Char) : Bool := !(['(', ')', '[', ']', '{', '}', '"', '|'].contains c)

structure ReadableTag (field : Text) (values : List Text) : Prop where
  name : ∀ c ∈ field, Token.isWordChar c = true
  values_ne_nil : values ≠ []
  values : ∀ value ∈ values, Escaped (isValueChar · = true) value

theorem ReadableTag.append {field : Text} {values values' : List Text}
    (h : ReadableTag field values) (h' : ReadableTag field values') :
    ReadableTag field (values ++ values') :=
  ⟨h.name, by simp [h.values_ne_nil], List.forall_mem_append.2 ⟨h.values, h'.values⟩⟩

theorem Settles.of_value {value : Text} (h : Escaped (isValueChar · = true) value) :
    Settles value := by
  refine .of_escaped (fun c hc => ⟨?_, ?_⟩) h <;>
  · rintro rfl
    exact absurd hc (by decide)

section Field

variable {field : Text} (hfield : ∀ c ∈ field, Token.isWordChar c = true)
include hfield

theorem ne_of_mem_name {d : Char} (hd : Token.isWordChar d = false) : ∀ c ∈ field, c ≠ d := by
  rintro c hc rfl
  simp [hfield c hc] at hd

theorem settles_marked : Settles ('@' :: field) := by
  apply Settles.of_forall
  refine List.forall_mem_cons.2 ⟨by decide, fun c hc => ⟨?_, ?_, ?_, ?_⟩⟩ <;>
  · apply ne_of_mem_name hfield _ c hc
    decide

theorem run_fieldHead : LeafState.plain.run (Compiler.fieldHead field) = some .afterColon := by
  obtain ⟨last, hrun, hlast⟩ := settles_marked hfield .plain rfl
  rw [Compiler.fieldHead, LeafState.run_append, hrun]
  cases last with
  | plain => rfl
  | afterColon => rfl
  | escaped => cases hlast
  | inRange => cases hlast

omit hfield in
theorem ReadableTag.settles {values : List Text} (h : ReadableTag field values) :
    Settles (Clause.tagText field values) := by
  have hopening : Settles [':', '{'] := .of_forall (by simp)
  have hclosing : Settles ['}'] := .of_forall (by simp)
  have hvalues : Settles ([','].intercalate values) :=
    .intercalate (.of_forall (by simp)) fun value hvalue => .of_value (h.values value hvalue)
  exact (((settles_marked h.name).append hopening).append hvalues).append hclosing

/-- A value that is not in braces makes a single leaf. -/
theorem singleLeaf_bare {value : Text} (hhead : value.head? ≠ some '{')
    (hrun : ∃ last : LeafState, LeafState.afterColon.run value = some last ∧ last.settled = true) :
    SingleLeaf (Compiler.fieldHead field ++ value) where
  head := .inl rfl
  run := by simpa [LeafState.run_append, run_fieldHead hfield] using hrun
  holds single := by
    have htext : Compiler.fieldHead field ++ value = '@' :: field ++ ':' :: value := by
      simp [Compiler.fieldHead]
    rw [leafHolds, htext, tagSet?_eq_none (ne_of_mem_name hfield (by decide)) hhead]

theorem singleLeaf_value {value : Text} (h : Escaped (isValueChar · = true) value) :
    SingleLeaf (Compiler.fieldHead field ++ value) := by
  refine singleLeaf_bare hfield ?_ (Settles.of_value h .afterColon rfl)
  intro hhead
  cases h with
  | nil => cases hhead
  | bare hc _ _ _ _ =>
    cases hhead
    exact absurd hc (by decide)
  | pair _ _ => cases hhead

theorem singleLeaf_quoted {value : Text} (h : Escaped (isValueChar · = true) value) :
    SingleLeaf (Compiler.fieldHead field ++ '"' :: value ++ ['"']) := by
  have hquote : Settles ['"'] := .of_forall (by simp)
  have hquoted : Settles ('"' :: value ++ ['"']) := (hquote.append (.of_value h)).append hquote
  rw [List.append_assoc]
  exact singleLeaf_bare hfield (by simp) (hquoted .afterColon rfl)

theorem singleLeaf_braced {value : Text} (h : Escaped (isValueChar · = true) value) :
    SingleLeaf (Clause.tagText field [value]) where
  head := .inl rfl
  run := (ReadableTag.mk hfield (by simp) (by simpa using h)).settles .plain rfl
  holds single := by
    rw [leafHolds_tagText (ne_of_mem_name hfield (by decide)) (by simp) (by simpa using h)]
    simp

omit hfield in
theorem run_inRange {body : Text} (h : ∀ c ∈ body, c ≠ ']') :
    LeafState.inRange.run body = some .inRange := by
  induction body with
  | nil => rfl
  | cons c body ih =>
    obtain ⟨hc, hbody⟩ := List.forall_mem_cons.1 h
    have hstep : LeafState.inRange.step c = some .inRange := by simp [LeafState.step, hc]
    rw [LeafState.run_cons, hstep, Option.bind_some, ih hbody]

/-- The space between two bounds stands inside the range and does not end the leaf. -/
theorem singleLeaf_range {low high : Text} (h : ∀ c ∈ low ++ high, c ≠ ']') :
    SingleLeaf (Compiler.fieldHead field ++ '[' :: low ++ ' ' :: high ++ [']']) := by
  have hbody : ∀ c ∈ low ++ ' ' :: high, c ≠ ']' := by
    obtain ⟨hlow, hhigh⟩ := List.forall_mem_append.1 h
    exact List.forall_mem_append.2 ⟨hlow, List.forall_mem_cons.2 ⟨by decide, hhigh⟩⟩
  have hrun : LeafState.afterColon.run ('[' :: (low ++ ' ' :: high ++ [']'])) = some .plain := by
    have hopening : LeafState.afterColon.step '[' = some .inRange := rfl
    rw [LeafState.run_cons, hopening, Option.bind_some, LeafState.run_append, run_inRange hbody]
    rfl
  have htext : Compiler.fieldHead field ++ '[' :: low ++ ' ' :: high ++ [']'] =
      Compiler.fieldHead field ++ '[' :: (low ++ ' ' :: high ++ [']']) := by simp
  rw [htext]
  exact singleLeaf_bare hfield (by simp) ⟨_, hrun, rfl⟩

/-- Every form of leaf is read as one leaf. -/
theorem each_leaf {clause : Clause} (h : Compiler.Leaf (isValueChar · = true) field clause) :
    clause.Each SignedLeaf ReadableTag := by
  cases h with
  | quoted hvalue => exact .atom (.positive (singleLeaf_quoted hfield hvalue))
  | tag hvalue => exact .tag ⟨hfield, by simp, by simpa using hvalue⟩
  | braced hvalue => exact .atom (.positive (singleLeaf_braced hfield hvalue))
  | bare hvalue => exact .atom (.positive (singleLeaf_value hfield hvalue))
  | notBare hvalue => exact .atom (.negative (singleLeaf_value hfield hvalue))
  | notBraced hvalue => exact .atom (.negative (singleLeaf_braced hfield hvalue))
  | @range low high hbounds =>
    have hbracket : ∀ c ∈ low ++ high, c ≠ ']' := by
      rcases hbounds with hbounds | hbounds
      · exact hbounds
      · rintro c hc rfl
        exact absurd (hbounds _ hc) (by decide)
    exact .atom (.positive (singleLeaf_range hfield hbracket))
  | matchAll =>
    have hstar : Settles ['*'] := .of_forall (by simp)
    exact .atom (.positive ⟨.inr rfl, hstar .plain rfl, fun _ => rfl⟩)

end Field

/-! ### Clauses -/

def signedHolds (single : Text → Bool) : Text → Bool
  | '-' :: text => !single text
  | text => single text

theorem SingleLeaf.operandText {leaf : Text} (h : SingleLeaf leaf) :
    OperandText leaf fun single => single leaf := by
  obtain ⟨last, hrun, hlast⟩ := h.run
  have hleaf : OperandText leaf fun single => leafHolds single leaf := by
    refine .leaf ?_ ?_ ?_ hrun hlast <;>
    · rcases h.head with hhead | hhead <;> simp [hhead]
  simpa only [h.holds] using hleaf

theorem SignedLeaf.operandText {text : Text} (h : SignedLeaf text) :
    OperandText text fun single => signedHolds single text := by
  cases h with
  | positive hleaf =>
    have hplain : ∀ single, signedHolds single text = single text := by
      intro single
      rw [signedHolds]
      rintro leaf rfl
      exact absurd hleaf.head (by simp)
    simpa only [hplain] using hleaf.operandText
  | negative hleaf => exact hleaf.operandText.not

theorem ReadableTag.operandText {field : Text} {values : List Text} (h : ReadableTag field values) :
    OperandText (Clause.tagText field values)
      fun single => values.any fun value => single (Clause.tagText field [value]) := by
  obtain ⟨last, hrun, hlast⟩ := h.settles .plain rfl
  have hleaf := OperandText.leaf (by simp [Clause.tagText]) (by simp [Clause.tagText])
    (by simp [Clause.tagText]) hrun hlast
  simpa only [leafHolds_tagText (ne_of_mem_name h.name (by decide)) h.values_ne_nil h.values]
    using hleaf

theorem QueryText.operand {text : Text} {truth : Truth} (h : OperandText text truth)
    (hhead : text.head? ≠ some '|') : QueryText text truth :=
  .unit h.unit hhead

end QueryReading

namespace Clause

open QueryReading

def truth (clause : Clause) : Truth := fun single =>
  clause.holds (signedHolds single) fun field value => single (tagText field [value])

/-- A clause that is written as a query, also without the parentheses of a group, and as one operand
where a minus needs one. -/
structure Readable (clause : Clause) : Prop where
  query : QueryText clause.render clause.truth
  inner : QueryText clause.ungrouped.render clause.truth
  operand : clause.isGroup = true ∨ ' ' ∉ clause.render → OperandText clause.render clause.truth

/-- A clause that is one operand already. -/
theorem Readable.of_operand {clause : Clause} (hinner : clause.ungrouped = clause)
    (hhead : clause.render.head? ≠ some '|') (h : OperandText clause.render clause.truth) :
    clause.Readable where
  query := .operand h hhead
  inner := by
    rw [hinner]
    exact .operand h hhead
  operand _ := h

theorem Readable.negation {clause : Clause} (h : clause.Readable) :
    OperandText (negation clause clause.render) fun single => !clause.truth single := by
  unfold Clause.negation
  split_ifs with hgroup hspace
  · exact (h.operand (.inl hgroup)).not
  · exact h.query.parenthesized.not
  · refine (h.operand (.inr ?_)).not
    simp only [List.contains_eq_mem, Bool.or_eq_true, decide_eq_true_eq, not_or] at hspace
    exact hspace.1

theorem Readable.or {operands : List Clause} (hne : operands ≠ [])
    (h : ∀ operand ∈ operands, operand.Readable) : (Clause.or operands).Readable := by
  have halternative : ∀ operand ∈ operands,
      OperandText (parenthesize operand.ungrouped.render) operand.truth :=
    fun operand hmem => (h operand hmem).inner.parenthesized
  have htruth : (Clause.or operands).truth =
      fun single => operands.any fun operand => operand.truth single := by
    funext single
    simp only [truth, holds, anyHolds_eq]
  have hrender : (Clause.or operands).render =
      " | ".toList.intercalate
        (operands.map fun operand => parenthesize operand.ungrouped.render) := by
    rw [render, renderAlternatives_eq]
  have hunit : UnitText (Clause.or operands).render (Clause.or operands).truth := by
    rw [hrender, htruth]
    exact .alternatives hne halternative
  obtain ⟨first, rest, rfl⟩ := List.exists_cons_of_ne_nil hne
  have hquery : QueryText (Clause.or (first :: rest)).render (Clause.or (first :: rest)).truth := by
    refine .unit hunit ?_
    rw [hrender]
    cases rest <;> simp [parenthesize, List.intercalate_cons_cons]
  refine ⟨hquery, hquery, fun hoperand => ?_⟩
  -- Two operands have a bar between them, and the spaces around it rule the operand out.
  cases rest with
  | nil =>
    rw [hrender, htruth]
    simpa using halternative first List.mem_cons_self
  | cons next rest =>
    rw [hrender] at hoperand
    simp [isGroup, List.intercalate_cons_cons] at hoperand

theorem readable_of_each {clause : Clause} (h : clause.Each SignedLeaf ReadableTag) :
    clause.Readable := by
  induction h with
  | @atom text hleaf =>
    refine .of_operand rfl ?_ hleaf.operandText
    cases hleaf with
    | positive hleaf => rcases hleaf.head with hhead | hhead <;> simp [render, hhead]
    | negative _ => simp [render]
  | tag htag => exact .of_operand rfl (by simp [render, tagText]) htag.operandText
  | and _ _ ihl ihr =>
    have hboth := ihl.query.and ihr.query
    exact ⟨hboth, hboth, by simp [isGroup, render]⟩
  | or hne _ ih => exact .or hne ih
  | group _ ih =>
    have hgroup := ih.query.parenthesized
    exact ⟨.operand hgroup (by simp [render, parenthesize]), ih.query, fun _ => hgroup⟩
  | not _ ih =>
    refine .of_operand rfl ?_ ih.negation
    rw [render, negation]
    split_ifs <;> simp

end Clause

end FilterQuery
