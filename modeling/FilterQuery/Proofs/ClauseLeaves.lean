import FilterQuery.Proofs.ClauseTruth
import Mathlib.Tactic

/-!
# Leaves of clauses

What holds of every leaf of a clause still holds after tag alternatives were merged, provided that
it passes from two tag matches on one field to the match with the tags of both. It holds of the text
of the clause, provided that it passes through what is written around and between leaves.
-/

namespace FilterQuery.Clause

/-- A clause with leaves of the given kinds and without empty unions. -/
inductive Each (atomOk : Text → Prop) (tagOk : Text → List Text → Prop) : Clause → Prop
  | atom {text : Text} : atomOk text → Each atomOk tagOk (.atom text)
  | tag {field : Text} {values : List Text} : tagOk field values →
    Each atomOk tagOk (.tag field values)
  | and {left right : Clause} : Each atomOk tagOk left → Each atomOk tagOk right →
    Each atomOk tagOk (.and left right)
  | or {operands : List Clause} : operands ≠ [] →
    (∀ operand ∈ operands, Each atomOk tagOk operand) → Each atomOk tagOk (.or operands)
  | group {inner : Clause} : Each atomOk tagOk inner → Each atomOk tagOk (.group inner)
  | not {inner : Clause} : Each atomOk tagOk inner → Each atomOk tagOk (.not inner)

theorem prependMerged_ne_nil (clause : Clause) (merged : List Clause) :
    prependMerged clause merged ≠ [] := by
  obtain ⟨hkept, -⟩ | ⟨field, values, values', next, rest, -, -, -, hjoined⟩ :=
    prependMerged_cases clause merged
  · simp [hkept]
  · simp [hjoined]

theorem mergeRuns_ne_nil {operands : List Clause} (h : operands ≠ []) :
    mergeRuns operands ≠ [] := by
  cases operands with
  | nil => exact absurd rfl h
  | cons operand rest => exact prependMerged_ne_nil operand (mergeRuns rest)

namespace Each

variable {atomOk : Text → Prop} {tagOk : Text → List Text → Prop}

theorem of_amountsToTag {clause : Clause} {field : Text} {values : List Text}
    (h : clause.Each atomOk tagOk) (htag : clause.AmountsToTag field values) :
    tagOk field values := by
  induction htag with
  | tag =>
    cases h with
    | tag hok => exact hok
  | group _ ih =>
    cases h with
    | group hinner => exact ih hinner
  | union _ ih =>
    cases h with
    | or _ hoperands => exact ih (hoperands _ List.mem_cons_self)

theorem mono {atomOk' : Text → Prop} {tagOk' : Text → List Text → Prop} {clause : Clause}
    (h : clause.Each atomOk tagOk) (hatom : ∀ text, atomOk text → atomOk' text)
    (htag : ∀ field values, tagOk field values → tagOk' field values) :
    clause.Each atomOk' tagOk' := by
  induction h with
  | atom hok => exact .atom (hatom _ hok)
  | tag hok => exact .tag (htag _ _ hok)
  | and _ _ ihl ihr => exact .and ihl ihr
  | or hne _ ih => exact .or hne ih
  | group _ ih => exact .group ih
  | not _ ih => exact .not ih

theorem coalesce (happend : ∀ field values values', tagOk field values → tagOk field values' →
      tagOk field (values ++ values'))
    {clause : Clause} (h : clause.Each atomOk tagOk) : clause.coalesce.Each atomOk tagOk := by
  induction h with
  | atom hok => exact .atom hok
  | tag hok => exact .tag hok
  | and _ _ ihl ihr => exact .and ihl ihr
  | @or operands hne _ ih =>
    have hmerged : ∀ operand ∈ mergeRuns (operands.map Clause.coalesce),
        operand.Each atomOk tagOk := by
      refine forall_mem_mergeRuns (fun htag htag' hfirst hnext => .tag ?_) (by simpa using ih)
      exact happend _ _ _ (hfirst.of_amountsToTag htag) (hnext.of_amountsToTag htag')
    have hmergedNe : mergeRuns (operands.map Clause.coalesce) ≠ [] :=
      mergeRuns_ne_nil (by simpa using hne)
    rw [Clause.coalesce, coalesceAll_eq]
    obtain ⟨hunion, -⟩ | ⟨field, values, hbare, hunion⟩ :=
      union_cases (mergeRuns (operands.map Clause.coalesce))
    · rw [hunion]
      exact .or hmergedNe hmerged
    · rw [hunion]
      exact hmerged _ (by simp [hbare])
  | group _ ih => exact .group ih
  | not _ ih => exact .not ih

end Each

/-! ### From leaves to text -/

def ungrouped : Clause → Clause
  | group inner => inner
  | clause => clause

/-- Every alternative is written between one pair of parentheses. -/
theorem alternative_render (clause : Clause) :
    alternative clause clause.render = parenthesize clause.ungrouped.render := by
  cases clause <;> rfl

@[simp] theorem renderAlternatives_eq (operands : List Clause) :
    renderAlternatives operands =
      operands.map fun operand => parenthesize operand.ungrouped.render := by
  induction operands with
  | nil => rfl
  | cons operand rest ih => rw [renderAlternatives, ih, alternative_render, List.map_cons]

/-- What passes from texts to their concatenation passes to texts with a separator between them. -/
theorem closed_intercalate {P : Text → Prop} (hnil : P [])
    (happend : ∀ {text more}, P text → P more → P (text ++ more)) {separator : Text}
    {texts : List Text} (hsep : P separator) (h : ∀ text ∈ texts, P text) :
    P (separator.intercalate texts) := by
  induction texts with
  | nil => exact hnil
  | cons text rest ih =>
    obtain ⟨htext, hrest⟩ := List.forall_mem_cons.1 h
    cases rest with
    | nil => simpa using htext
    | cons next rest =>
      rw [List.intercalate_cons_cons]
      exact happend (happend htext hsep) (ih hrest)

/-- What a property of texts must pass through, so that it passes from the leaves of a clause to the
text of the clause. -/
structure Writable (P : Text → Prop) : Prop where
  nil : P []
  append : ∀ {text more}, P text → P more → P (text ++ more)
  space : P [' ']
  bar : P " | ".toList
  minus : P ['-']
  parenthesize : ∀ {text}, P text → P (parenthesize text)

namespace Writable

variable {P : Text → Prop} (rules : Writable P)
include rules

theorem negation {clause : Clause} {text : Text} (h : P text) : P (negation clause text) := by
  unfold Clause.negation
  split_ifs
  · exact rules.append rules.minus h
  · exact rules.append rules.minus (rules.parenthesize h)
  · exact rules.append rules.minus h

theorem render {clause : Clause} (h : clause.Each P fun field values => P (tagText field values)) :
    P clause.render ∧ P clause.ungrouped.render := by
  induction h with
  | atom htext => exact ⟨htext, htext⟩
  | tag htag => exact ⟨htag, htag⟩
  | and _ _ ihl ihr =>
    have hboth := rules.append ihl.1 (rules.append rules.space ihr.1)
    exact ⟨hboth, hboth⟩
  | @or operands _ _ ih =>
    have hunion : P (Clause.render (.or operands)) := by
      rw [Clause.render, renderAlternatives_eq]
      refine closed_intercalate rules.nil rules.append rules.bar fun text htext => ?_
      obtain ⟨operand, hmem, rfl⟩ := List.mem_map.1 htext
      exact rules.parenthesize (ih operand hmem).2
    exact ⟨hunion, hunion⟩
  | group _ ih => exact ⟨rules.parenthesize ih.1, ih.1⟩
  | not _ ih => exact ⟨rules.negation ih.1, rules.negation ih.1⟩

end Writable

structure TagOf (nameOk : Char → Prop) (valueOk : Text → Prop) (field : Text)
    (values : List Text) : Prop where
  name : ∀ c ∈ field, nameOk c
  values : ∀ value ∈ values, valueOk value

theorem TagOf.append {nameOk : Char → Prop} {valueOk : Text → Prop} {field : Text}
    {values values' : List Text} (h : TagOf nameOk valueOk field values)
    (h' : TagOf nameOk valueOk field values') : TagOf nameOk valueOk field (values ++ values') :=
  ⟨h.name, List.forall_mem_append.2 ⟨h.values, h'.values⟩⟩

/-- A property that passes to concatenations and holds of every text in characters of one kind, the
marks of queries among them. -/
structure Spelling (ok : Char → Prop) (P : Text → Prop) : Prop where
  append : ∀ {text more}, P text → P more → P (text ++ more)
  chars : ∀ {text}, (∀ c ∈ text, ok c) → P text
  marks : ∀ c ∈ "@:\"\x7b\x7d,*- |()".toList, ok c

namespace Spelling

variable {ok : Char → Prop} {P : Text → Prop} (rules : Spelling ok P)
include rules

theorem mark {text : Text} (h : text ⊆ "@:\"\x7b\x7d,*- |()".toList) : P text :=
  rules.chars fun c hc => rules.marks c (h hc)

theorem writable : Writable P where
  nil := rules.chars (by simp)
  append := rules.append
  space := rules.mark (by decide)
  bar := rules.mark (by decide)
  minus := rules.mark (by decide)
  parenthesize h :=
    rules.append (rules.append (rules.mark (by decide : ['('] ⊆ _)) h) (rules.mark (by decide))

theorem tagText {field : Text} {values : List Text} (h : TagOf ok P field values) :
    P (tagText field values) := by
  have hvalues : P ([','].intercalate values) :=
    closed_intercalate rules.writable.nil rules.append (rules.mark (by decide)) h.values
  have hname : P ('@' :: field ++ [':', '{']) :=
    rules.append (rules.append (rules.mark (by decide : ['@'] ⊆ _)) (rules.chars h.name))
      (rules.mark (by decide))
  exact rules.append (rules.append hname hvalues) (rules.mark (by decide))

/-- What holds of the leaves holds of the text. -/
theorem render {clause : Clause} (h : clause.Each P (TagOf ok P)) : P clause.render :=
  (rules.writable.render (h.mono (fun _ => id) fun _ _ => rules.tagText)).1

end Spelling

end FilterQuery.Clause
