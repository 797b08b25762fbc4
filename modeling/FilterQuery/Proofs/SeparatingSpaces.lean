import FilterQuery.Proofs.BalancedQueries
import FilterQuery.Text.Letter

/-!
# Separating spaces

A conjunction is written with nothing but a space between its two sides. What stands before that
space ends with no backslash, and its brackets match. A single leaf has no such space, whatever its
value: each of its spaces stands behind a backslash, or behind a bracket that is still open. So no
value makes a leaf look like a conjunction, except for the bounds of a range, which are not escaped:
a closing bracket in one of them ends the range early.
-/

namespace FilterQuery

namespace Clause

/-! ### Spaces that separate nothing -/

def SpacesEscaped (text : Text) : Prop :=
  ∀ before after, text = before ++ ' ' :: after → before.getLast? = some '\\'

def SpacesGuarded (text : Text) : Prop :=
  ∀ before after, text = before ++ ' ' :: after →
    before.getLast? = some '\\' ∨ before.count ']' < before.count '['

/-- A space in a text that is put together stands in one of the parts. -/
theorem split_append {text more before after : Text}
    (h : text ++ more = before ++ ' ' :: after) :
    (∃ rest, text = before ++ ' ' :: rest) ∨
      ∃ rest, before = text ++ rest ∧ more = rest ++ ' ' :: after := by
  rcases List.append_eq_append_iff.1 h with ⟨rest, hbefore, hmore⟩ | ⟨rest, htext, hafter⟩
  · exact .inr ⟨rest, hbefore, hmore⟩
  · cases rest with
    | nil => exact .inr ⟨[], by simpa using htext.symm, by simpa using hafter.symm⟩
    | cons c rest =>
      obtain ⟨rfl, -⟩ := List.cons.inj hafter
      exact .inl ⟨rest, htext⟩

namespace SpacesEscaped

theorem append {text more : Text} (h : SpacesEscaped text) (hmore : SpacesEscaped more) :
    SpacesEscaped (text ++ more) := by
  intro before after hsplit
  rcases split_append hsplit with ⟨rest, hrest⟩ | ⟨rest, rfl, hrest⟩
  · exact h before rest hrest
  · have hlast := hmore rest after hrest
    rw [List.getLast?_append, hlast]
    rfl

theorem of_forall {text : Text} (h : ∀ c ∈ text, c ≠ ' ') : SpacesEscaped text := by
  rintro before after rfl
  exact absurd rfl (h ' ' (by simp))

theorem of_escaped {ok : Char → Prop} {text : Text} (h : Escape.Escaped ok text) :
    SpacesEscaped text := by
  induction h with
  | nil => exact of_forall (by simp)
  | @bare c rest _ _ hspace _ _ ih =>
    have hfirst : SpacesEscaped [c] := of_forall (by simpa using hspace)
    exact hfirst.append ih
  | @pair c rest _ _ ih =>
    have hpair : SpacesEscaped ['\\', c] := by
      intro before after hsplit
      cases before with
      | nil => cases hsplit
      | cons d before =>
        obtain ⟨rfl, htail⟩ := List.cons.inj hsplit
        cases before with
        | nil => rfl
        | cons e before => simp at htail
    exact hpair.append ih

theorem guarded {text : Text} (h : SpacesEscaped text) : SpacesGuarded text :=
  fun before after hsplit => .inl (h before after hsplit)

end SpacesEscaped

namespace SpacesGuarded

/-- The space between the bounds of a range stands behind the bracket that opens it. -/
theorem range {head body : Text} (hhead : ∀ c ∈ head, c ≠ ' ' ∧ c ≠ ']')
    (hbody : ∀ c ∈ body, c ≠ ']') : SpacesGuarded (head ++ '[' :: body ++ [']']) := by
  intro before after hsplit
  right
  have hopened : ∀ c ∈ head ++ ['['], c ≠ ' ' ∧ c ≠ ']' :=
    List.forall_mem_append.2 ⟨hhead, by simp⟩
  have hsplit' : (head ++ ['[']) ++ (body ++ [']']) = before ++ ' ' :: after := by
    simpa using hsplit
  rcases split_append hsplit' with ⟨rest, hrest⟩ | ⟨rest, rfl, hrest⟩
  · have hspace : ' ' ∈ head ++ ['['] := by simp [hrest]
    exact absurd rfl (hopened ' ' hspace).1
  · have hinside : ∀ c ∈ rest, c ≠ ']' := by
      rcases split_append hrest with ⟨more, rfl⟩ | ⟨more, rfl, hmore⟩
      · exact (List.forall_mem_append.1 hbody).1
      · cases more with
        | nil => simp at hmore
        | cons c more => simp at hmore
    have hclosed : (head ++ ['['] ++ rest).count ']' = 0 := by
      rw [List.count_eq_zero]
      intro hmem
      rcases List.mem_append.1 hmem with hmem | hmem
      · exact (hopened _ hmem).2 rfl
      · exact hinside _ hmem rfl
    have hopen : 0 < (head ++ ['['] ++ rest).count '[' := by
      rw [List.count_pos_iff]
      simp
    omega

theorem cons {text : Text} (h : SpacesGuarded text) {c : Char} (hspace : c ≠ ' ')
    (hclosing : c ≠ ']') : SpacesGuarded (c :: text) := by
  intro before after hsplit
  cases before with
  | nil =>
    obtain ⟨rfl, -⟩ := List.cons.inj hsplit
    exact absurd rfl hspace
  | cons d before =>
    obtain ⟨rfl, htext⟩ := List.cons.inj hsplit
    rcases h before after htext with hlast | hcount
    · left
      rw [List.getLast?_cons, hlast]
      rfl
    · right
      have hopening : before.count '[' ≤ (c :: before).count '[' := List.count_le_count_cons
      rw [List.count_cons_of_ne hclosing]
      omega

theorem concat {text : Text} (h : SpacesGuarded text) {c : Char} (hspace : c ≠ ' ') :
    SpacesGuarded (text ++ [c]) := by
  intro before after hsplit
  rcases split_append hsplit with ⟨rest, hrest⟩ | ⟨rest, rfl, hrest⟩
  · exact h before rest hrest
  · cases rest with
    | nil =>
      obtain ⟨rfl, -⟩ := List.cons.inj hrest
      exact absurd rfl hspace
    | cons d rest => simp at hrest

theorem parenthesized {text : Text} (h : SpacesGuarded text) : SpacesGuarded (parenthesize text) :=
  (h.cons (by decide) (by decide)).concat (by decide)

theorem inside {text : Text} (h : SpacesGuarded ('(' :: text ++ [')'])) : SpacesGuarded text := by
  rintro before after rfl
  have hsplit : '(' :: (before ++ ' ' :: after) ++ [')'] =
      ('(' :: before) ++ ' ' :: (after ++ [')']) := by simp
  rcases h _ _ hsplit with hlast | hcount
  · left
    cases before with
    | nil => simp at hlast
    | cons d before => simpa using hlast
  · right
    simpa using hcount

theorem strip {text : Text} (h : SpacesGuarded text) : SpacesGuarded (Parentheses.strip text) := by
  fun_induction Parentheses.strip text with
  | case1 query inner hinner _ _ ih =>
    rw [Parentheses.inside?_eq_some.1 hinner] at h
    exact ih h.inside
  | case2 => exact h
  | case3 => exact h

end SpacesGuarded

/-- A single leaf, as it is or in a union by itself, perhaps negated, with no separating space. -/
inductive Single : Clause → Prop
  | atom {text : Text} : SpacesGuarded text → Single (.atom text)
  | tag {field : Text} {values : List Text} : SpacesGuarded (tagText field values) →
    Single (.tag field values)
  | union {operand : Clause} : Single operand → Single (.or [operand])
  | not {inner : Clause} : Single inner → Single (.not inner)

namespace Single

theorem coalesce {clause : Clause} (h : clause.Single) : clause.coalesce.Single := by
  induction h with
  | atom htext => exact .atom htext
  | tag htag => exact .tag htag
  | @union operand _ ih =>
    change (Clause.union [operand.coalesce]).Single
    obtain ⟨hunion, -⟩ | ⟨field, values, hbare, hunion⟩ := union_cases [operand.coalesce]
    · rw [hunion]
      exact .union ih
    · rw [hunion, ← (List.cons.inj hbare).1]
      exact ih
  | not _ ih => exact .not ih

theorem ungrouped_eq {clause : Clause} (h : clause.Single) : clause.ungrouped = clause := by
  cases h <;> rfl

theorem guarded_render {clause : Clause} (h : clause.Single) : SpacesGuarded clause.render := by
  induction h with
  | atom htext => exact htext
  | tag htag => exact htag
  | union h ih =>
    rw [render, renderAlternatives_eq, List.map_singleton, List.intercalate_singleton,
      h.ungrouped_eq]
    exact ih.parenthesized
  | @not inner _ ih =>
    have hminus : ∀ text, SpacesGuarded text → SpacesGuarded ('-' :: text) :=
      fun _ htext => htext.cons (by decide) (by decide)
    rw [render, negation]
    split_ifs
    · exact hminus _ ih
    · exact hminus _ ih.parenthesized
    · exact hminus _ ih

end Single

/-! ### Texts that a separating space may follow -/

/-- A text with matching brackets that ends with no backslash. -/
structure Finished (text : Text) : Prop where
  backslash : text.getLast? ≠ some '\\'
  brackets : text.count '[' = text.count ']'

namespace Finished

theorem nil : Finished [] := ⟨by simp, rfl⟩

theorem append {text more : Text} (h : Finished text) (hmore : Finished more) :
    Finished (text ++ more) where
  backslash := by
    rw [List.getLast?_append]
    cases hlast : more.getLast? with
    | none => exact h.backslash
    | some c =>
      have hc := hmore.backslash
      rwa [hlast] at hc
  brackets := by rw [List.count_append, List.count_append, h.brackets, hmore.brackets]

/-- Characters that neither are brackets nor escape what comes after them. -/
abbrev Ordinary (c : Char) : Prop := c ≠ '\\' ∧ c ≠ '[' ∧ c ≠ ']'

theorem of_forall {text : Text} (h : ∀ c ∈ text, Ordinary c) : Finished text where
  backslash hlast := (h _ (List.mem_of_getLast? hlast)).1 rfl
  brackets := by
    rw [List.count_eq_zero.2 fun hmem => (h _ hmem).2.1 rfl,
      List.count_eq_zero.2 fun hmem => (h _ hmem).2.2 rfl]

theorem of_escaped {text : Text} (h : Escape.Escaped Ordinary text) : Finished text := by
  induction h with
  | nil => exact nil
  | @bare c rest hc _ _ _ _ ih =>
    have hfirst : Finished [c] := of_forall (by simpa using hc)
    exact hfirst.append ih
  | @pair c rest hc _ ih =>
    have hpair : Finished ['\\', c] := by
      obtain ⟨hbackslash, hopening, hclosing⟩ := hc
      refine ⟨by simpa using hbackslash, ?_⟩
      rw [List.count_eq_zero.2 (by simp [hopening.symm]),
        List.count_eq_zero.2 (by simp [hclosing.symm])]
    exact hpair.append ih

theorem range {head body : Text} (hhead : ∀ c ∈ head, Ordinary c) (hbody : ∀ c ∈ body, Ordinary c) :
    Finished (head ++ '[' :: body ++ [']']) where
  backslash := by
    rw [List.getLast?_concat]
    decide
  brackets := by
    have hheadCount := (of_forall hhead).brackets
    have hbodyCount := (of_forall hbody).brackets
    simp [hheadCount, hbodyCount]

theorem spelling : Spelling Ordinary Finished where
  append := .append
  chars := of_forall
  marks := by simp [Ordinary]

end Finished

/-- What a finished text and a separating space begin is no single leaf. -/
theorem SpacesGuarded.ne_of_finished {text before : Text} (h : SpacesGuarded text)
    (hbefore : Finished before) (after : Text) : text ≠ before ++ ' ' :: after := by
  intro hsplit
  rcases h before after hsplit with hlast | hcount
  · exact hbefore.backslash hlast
  · exact absurd hbefore.brackets (by omega)

end Clause

/-- A predicate on one field that compiles to one leaf: a list has at most one usable value. -/
def Condition.IsLeaf : Condition → Prop
  | compare _ _ _ | between _ _ _ | like _ _ | isNull _ _ => True
  | isIn _ values _ => (values.filter fun value => !value.isNull).length ≤ 1
  | and _ _ | or _ _ | not _ | group _ => False

namespace Compiler

open Clause Escape

/-! ### Single leaves -/

/-- Values may hold anything, but the bounds of a range no closing bracket. -/
theorem leafRules_of_openBounds :
    LeafRules (fun place t => place = .bound → ∀ c ∈ t, c ≠ ']') (Escaped fun _ => True)
      (Escaped fun _ => True) (fun low high => ∀ c ∈ low ++ high, c ≠ ']') where
  figures _ _ hfigures _ c hc := ne_of_class (isOwnChar_of_isFigure (hfigures c hc)) (by decide)
  enclosed _ _ := .escape (by simp)
  pattern _ _ := .pattern trivial trivial (by simp)
  bare _ _ := ⟨.escape (by simp), .escape (by simp)⟩
  own _ hown := escaped_of_ownChars (by simp) hown
  numbers low high hchars c hc := by
    rcases hchars c hc with hc | rfl
    · exact ne_of_class hc (by decide)
    · decide
  bounds _ _ hlow hhigh := List.forall_mem_append.2 ⟨hlow rfl, hhigh rfl⟩

theorem LeafForm.single {field : Text} {clause : Clause}
    (hfield : ∀ c ∈ field, c ≠ ' ' ∧ c ≠ ']')
    (h : LeafForm (Escaped fun _ => True) (Escaped fun _ => True)
      (fun low high => ∀ c ∈ low ++ high, c ≠ ']') field clause) : clause.Single := by
  have hname := forall_mem_fieldHead hfield (by decide) (by decide)
  have hhead : SpacesEscaped (fieldHead field) := .of_forall fun c hc => (hname c hc).1
  have htag : ∀ {value}, Escaped (fun _ => True) value → SpacesEscaped (tagText field [value]) := by
    intro value hvalue
    have hopening : SpacesEscaped ['{'] := .of_forall (by simp)
    have hclosing : SpacesEscaped ['}'] := .of_forall (by simp)
    have htext := ((hhead.append hopening).append (.of_escaped hvalue)).append hclosing
    simpa [tagText, fieldHead] using htext
  have hminus : SpacesEscaped ['-'] := .of_forall (by simp)
  have hquote : SpacesEscaped ['"'] := .of_forall (by simp)
  cases h with
  | quoted hvalue =>
    exact .atom ((hhead.append (hquote.append (.of_escaped hvalue))).append hquote).guarded
  | tag hvalue => exact .tag (htag hvalue).guarded
  | braced hvalue => exact .atom (htag hvalue).guarded
  | bare hvalue => exact .atom (hhead.append (.of_escaped hvalue)).guarded
  | notBare hvalue => exact .atom ((hminus.append hhead).append (.of_escaped hvalue)).guarded
  | notBraced hvalue => exact .atom (hminus.append (htag hvalue)).guarded
  | @range low high hbounds =>
    obtain ⟨hlow, hhigh⟩ := List.forall_mem_append.1 hbounds
    have hbody : ∀ c ∈ low ++ ' ' :: high, c ≠ ']' :=
      List.forall_mem_append.2 ⟨hlow, List.forall_mem_cons.2 ⟨by decide, hhigh⟩⟩
    have hrange := SpacesGuarded.range hname hbody
    exact .atom (by simpa using hrange)
  | matchAll => exact .atom (SpacesEscaped.of_forall (by simp)).guarded

theorem single_of_isLeaf {compiler : Compiler} {depth : Nat} {leaf : Condition} {clause : Clause}
    (hleaf : leaf.IsLeaf) (hfields : ∀ field ∈ leaf.fields, ∀ c ∈ field, c ≠ ' ' ∧ c ≠ ']')
    (hbounds : ∀ s, (.bound, s) ∈ leaf.places → ∀ c ∈ s, c ≠ ']')
    (h : compiler.Compiles depth leaf clause) : clause.Single := by
  have hstring : ∀ place s, (place, s) ∈ leaf.places → place = .bound → ∀ c ∈ s, c ≠ ']' := by
    rintro _ s hs rfl
    exact hbounds s hs
  have rules := leafRules_of_openBounds
  cases h with
  | and | or | not | group => exact hleaf.elim
  | compare _ _ hclause =>
    exact (leaf_compare rules hstring hclause).single (hfields _ List.mem_cons_self)
  | between _ hclause =>
    refine (leaf_between rules (fun s hs => ?_) hclause).single (hfields _ List.mem_cons_self)
    exact hstring .bound s (List.mem_map_of_mem hs)
  | like _ _ hclause =>
    exact (leaf_like rules (by simp) hclause).single (hfields _ List.mem_cons_self)
  | isNull => exact (leaf_isNull rules _ _).single (hfields _ List.mem_cons_self)
  | @isIn _ field values negated _ _ _ _ hclause =>
    obtain ⟨-, -, rfl⟩ | ⟨husable, clauses, hclauses, rfl⟩ := isIn_eq_ok hclause
    · exact (leaf_neverMatch rules field).single (hfields _ List.mem_cons_self)
    · obtain ⟨hlength, hleaves⟩ := leaf_members rules (by simp) hclauses
      have hone : clauses.length = 1 := by
        have hle : (values.filter fun value => !value.isNull).length ≤ 1 := hleaf
        have hpos := List.length_pos_iff.2 husable
        omega
      obtain ⟨clause, rfl⟩ := List.length_eq_one_iff.1 hone
      have hsingle := (hleaves clause List.mem_cons_self).single (hfields _ List.mem_cons_self)
      cases negated with
      | true => exact .not (.union hsingle)
      | false => exact .union hsingle

theorem guarded_finish {compiler : Compiler} {clause : Clause} (h : clause.Single) :
    SpacesGuarded (compiler.finish clause) := by
  have hrender : SpacesGuarded (compiler.merged clause).render := by
    unfold merged
    split_ifs
    · exact h.coalesce.guarded_render
    · exact h.guarded_render
  rw [finish_eq]
  split_ifs
  · exact hrender.strip
  · exact hrender

/-! ### Conjunctions -/

/-- Letters and digits of every script, and the low line. -/
def isNameChar (c : Char) : Bool := Text.isLetter c || Text.isNumeral c || c == '_'

theorem forall_isNameChar {texts : List Text} (h : texts.all (·.all isNameChar) = true) :
    ∀ text ∈ texts, ∀ c ∈ text, isNameChar c = true :=
  fun text htext => List.all_eq_true.1 (List.all_eq_true.1 h text htext)

theorem plain_of_isNameChar {c : Char} (h : isNameChar c = true) : Parentheses.Plain c := by
  refine ⟨?_, ?_, ?_⟩ <;>
  · apply ne_of_class h
    decide

theorem ordinary_of_isNameChar {c : Char} (h : isNameChar c = true) : Finished.Ordinary c := by
  refine ⟨?_, ?_, ?_⟩ <;>
  · apply ne_of_class h
    decide

theorem ordinary_of_isOwnChar {c : Char} (h : isOwnChar c = true) : Finished.Ordinary c := by
  refine ⟨?_, ?_, ?_⟩ <;>
  · apply ne_of_class h
    decide

theorem leafRules_of_ordinary :
    LeafRules (fun _ t => ∀ c ∈ t, Finished.Ordinary c) Finished Finished
      (fun low high => ∀ c ∈ low ++ high, Finished.Ordinary c) where
  figures _ _ hfigures c hc := ordinary_of_isOwnChar (isOwnChar_of_isFigure (hfigures c hc))
  enclosed _ hstring := .of_escaped (.escape hstring)
  pattern _ hstring := .of_escaped (.pattern (by decide) (by decide) hstring)
  bare _ hstring := ⟨.of_escaped (.escape hstring), .of_escaped (.escape hstring)⟩
  own _ hown := .of_forall fun c hc => ordinary_of_isOwnChar (hown c hc)
  numbers low high hchars c hc := by
    rcases hchars c hc with hc | rfl
    · exact ordinary_of_isOwnChar hc
    · decide
  bounds _ _ hlow hhigh := List.forall_mem_append.2 ⟨hlow, hhigh⟩

theorem finished_merged (compiler : Compiler) {depth : Nat} {condition : Condition}
    {clause : Clause}
    (hfields : ∀ field ∈ condition.fields, ∀ c ∈ field, Finished.Ordinary c)
    (hstrings : ∀ s ∈ condition.strings, ∀ c ∈ s, Finished.Ordinary c)
    (h : compiler.Compiles depth condition clause) : Finished (compiler.merged clause).render := by
  have hleaves : clause.Each Finished (TagOf Finished.Ordinary Finished) := by
    refine each_of_leafForms leafRules_of_ordinary h (fun field hmem leaf hleaf => ?_)
      fun place s hs => hstrings s (Condition.mem_strings_of_mem_places hs)
    refine hleaf.each_of_spelling Finished.spelling (hfields field hmem) fun low high hbounds => ?_
    obtain ⟨hlow, hhigh⟩ := List.forall_mem_append.1 hbounds
    have hname := forall_mem_fieldHead (hfields field hmem) (by decide) (by decide)
    have hbody : ∀ c ∈ low ++ ' ' :: high, Finished.Ordinary c :=
      List.forall_mem_append.2 ⟨hlow, List.forall_mem_cons.2 ⟨by decide, hhigh⟩⟩
    have hrange := Finished.range hname hbody
    simpa using hrange
  exact Finished.spelling.render (each_merged compiler (fun _ _ _ => TagOf.append) hleaves)

/-- A conjunction is its left side and a separating space, and then its right side. -/
theorem compile_and {compiler : Compiler} {left right : Condition} {query : Text}
    (hfields : ∀ field ∈ (Condition.and left right).fields, ∀ c ∈ field, isNameChar c = true)
    (hstrings : ∀ s ∈ (Condition.and left right).strings, ∀ c ∈ s, isNameChar c = true)
    (h : compiler.compile (.and left right) = .ok query) :
    ∃ before after, Finished before ∧ query = before ++ ' ' :: after := by
  obtain ⟨clause, hclause, rfl⟩ := Outcome.map_eq_ok.1 h
  have hneutral := neutralLeaves_merged compiler
    (fun field hfield c hc => plain_of_isNameChar (hfields field hfield c hc))
    (fun s hs c hc => plain_of_isNameChar (hstrings s hs c hc)) hclause
  cases compiles_of_clauseAt hclause with
  | @and _ _ _ l r _ hl hr =>
    have hmerged : compiler.merged (.and l r) = .and (compiler.merged l) (compiler.merged r) := by
      unfold merged
      split_ifs <;> rfl
    rw [hmerged] at hneutral
    have hfinished : Finished (compiler.merged l).render := by
      refine finished_merged compiler (fun field hfield c hc => ?_) (fun s hs c hc => ?_) hl
      · exact ordinary_of_isNameChar (hfields field (List.mem_append_left _ hfield) c hc)
      · exact ordinary_of_isNameChar (hstrings s (List.mem_append_left _ hs) c hc)
    refine ⟨_, (compiler.merged r).render, hfinished, ?_⟩
    rw [finish_eq, hmerged, render]
    cases hneutral with
    | and hleft _ =>
      split_ifs
      · exact strip_first (neutral_render hleft).1 (by simp) (by simp)
      · rfl

/-- No leaf compiles to the query of a conjunction, whatever its values are, unless a bound of a
range holds a closing bracket. -/
theorem compile_leaf_ne_compile_and (compiler : Compiler) (leaf left right : Condition)
    {query query' : Text} (hleaf : leaf.IsLeaf)
    (hname : ∀ field ∈ leaf.fields, ∀ c ∈ field, isNameChar c = true)
    (hbounds : ∀ s, (.bound, s) ∈ leaf.places → ∀ c ∈ s, c ≠ ']')
    (hnames : ∀ field ∈ (Condition.and left right).fields, ∀ c ∈ field, isNameChar c = true)
    (hstrings : ∀ s ∈ (Condition.and left right).strings, ∀ c ∈ s, isNameChar c = true)
    (h : compiler.compile leaf = .ok query)
    (h' : compiler.compile (.and left right) = .ok query') : query ≠ query' := by
  obtain ⟨clause, hclause, rfl⟩ := Outcome.map_eq_ok.1 h
  obtain ⟨before, after, hbefore, rfl⟩ := compile_and hnames hstrings h'
  have hfields : ∀ field ∈ leaf.fields, ∀ c ∈ field, c ≠ ' ' ∧ c ≠ ']' := by
    intro field hfield c hc
    have hchar := hname field hfield c hc
    exact ⟨ne_of_class hchar (by decide), ne_of_class hchar (by decide)⟩
  have hsingle := single_of_isLeaf hleaf hfields hbounds (compiles_of_clauseAt hclause)
  exact (guarded_finish hsingle).ne_of_finished hbefore after

/-- A bound that spells a second range but does not close the first. -/
theorem compile_leaf_ne_compile_and_openBound :
    let compiler : Compiler :=
      ⟨.ofEntries [("age".toList, .numeric), ("role".toList, .tag)], {}⟩
    let leaf : Condition := .between "age".toList (.string "1 2 @role:\x7bx".toList) (.integer 4)
    let left : Condition := .between "age".toList (.string "1".toList) (.integer 2)
    let right : Condition := .isIn "role".toList [.string "x".toList, .null] false
    compiler.compile leaf = .ok "@age:[1 2 @role:\x7bx 4]".toList ∧
      compiler.compile (.and left right) = .ok "@age:[1 2] (@role:\x7bx\x7d)".toList ∧
      "@age:[1 2 @role:\x7bx 4]".toList ≠ "@age:[1 2] (@role:\x7bx\x7d)".toList := by
  intro compiler leaf left right
  have hleaf : compiler.compile leaf = .ok "@age:[1 2 @role:\x7bx 4]".toList := by decide +kernel
  have hand : compiler.compile (.and left right) = .ok "@age:[1 2] (@role:\x7bx\x7d)".toList := by
    decide +kernel
  refine ⟨hleaf, hand, compile_leaf_ne_compile_and compiler leaf left right trivial ?_ ?_ ?_ ?_
    hleaf hand⟩
  · exact forall_isNameChar (by decide +kernel)
  · simp [leaf, Condition.places, Literal.strings]
  · exact forall_isNameChar (by decide +kernel)
  · exact forall_isNameChar (by decide +kernel)

/-- The bounds of a range are not escaped: a closing bracket in one of them makes a single leaf
compile to the query of a conjunction. -/
theorem compile_between_eq_compile_and :
    let compiler : Compiler := ⟨.empty, {}⟩
    let leaf : Condition := .between "age".toList (.string "1 2] @role:[3".toList) (.integer 4)
    let conjunction : Condition :=
      .and (.between "age".toList (.integer 1) (.integer 2))
        (.between "role".toList (.integer 3) (.integer 4))
    leaf.IsLeaf ∧ conjunction.strings = [] ∧
      compiler.compile leaf = .ok "@age:[1 2] @role:[3 4]".toList ∧
      compiler.compile conjunction = .ok "@age:[1 2] @role:[3 4]".toList := by
  intro compiler leaf conjunction
  exact ⟨trivial, rfl, by decide +kernel, by decide +kernel⟩

end Compiler

end FilterQuery
