import FilterQuery.Clause.Basic
import Mathlib.Tactic

/-!
# Reading queries

A query is read from left to right. Units with a space between them must all match, a bar between
operands binds tighter and asks for one of them, and a minus negates one operand. An operand in
parentheses is a query again, and any other operand is a leaf: it runs to the first space or closing
parenthesis that neither stands behind a backslash nor inside a range.

A query has at most one reading. Which single leaves match is left open; a match with several tags
asks for one of them.
-/

namespace FilterQuery

inductive QueryReading
  | leaf (text : Text)
  | not (inner : QueryReading)
  | and (left right : QueryReading)
  | or (left right : QueryReading)
deriving DecidableEq, Repr

namespace QueryReading

/-! ### Leaves -/

inductive LeafState
  | plain
  | afterColon
  | escaped
  | inRange
deriving DecidableEq, Repr

namespace LeafState

/-- The state after one more character, unless the leaf ends before it. -/
def step : LeafState → Char → Option LeafState
  | escaped, _ => some plain
  | inRange, c => some (if c = ']' then plain else inRange)
  | state, c =>
    if c = ' ' ∨ c = ')' then none
    else if c = '\\' then some escaped
    else if c = ':' then some afterColon
    else if c = '[' ∧ state = afterColon then some inRange
    else some plain

def run (state : LeafState) (text : Text) : Option LeafState := text.foldlM step state

@[simp] theorem run_nil (state : LeafState) : state.run [] = some state := rfl

@[simp] theorem run_cons (state : LeafState) (c : Char) (text : Text) :
    state.run (c :: text) = (state.step c).bind (run · text) := rfl

theorem run_append (state : LeafState) (text more : Text) :
    state.run (text ++ more) = (state.run text).bind (run · more) :=
  List.foldlM_append

/-- Neither behind a backslash nor inside a range, so that a space ends the leaf. -/
def settled : LeafState → Bool
  | plain | afterColon => true
  | escaped | inRange => false

end LeafState

def leafSpan (state : LeafState) : Text → Text × Text
  | [] => ([], [])
  | c :: text =>
    match state.step c with
    | none => ([], c :: text)
    | some next => (c :: (leafSpan next text).1, (leafSpan next text).2)

/-- A text that begins where an operand may end. -/
def Ends (rest : Text) : Prop := ∀ c ∈ rest.head?, c = ' ' ∨ c = ')'

theorem leafSpan_append {state last : LeafState} {leaf rest : Text}
    (hrun : state.run leaf = some last) (hlast : last.settled = true) (hrest : Ends rest) :
    leafSpan state (leaf ++ rest) = (leaf, rest) := by
  induction leaf generalizing state with
  | nil =>
    cases hrun
    cases rest with
    | nil => rfl
    | cons c rest =>
      have hend := hrest c rfl
      have hstep : last.step c = none := by
        cases last <;> simp_all [LeafState.settled, LeafState.step]
      simp [leafSpan, hstep]
  | cons c leaf ih =>
    obtain ⟨next, hstep, hnext⟩ := Option.bind_eq_some_iff.1 hrun
    simp [leafSpan, hstep, ih hnext]

/-! ### The grammar -/

inductive Part
  | query
  | unit
  | operand

/-- How a part at the beginning of a text is read, and what follows it. -/
inductive Reads : Part → Text → QueryReading → Text → Prop
  | leaf {text leaf rest : Text} : text.head? ≠ some '-' → text.head? ≠ some '(' →
    leafSpan .plain text = (leaf, rest) → leaf ≠ [] → Reads .operand text (.leaf leaf) rest
  | not {text rest : Text} {inner : QueryReading} : Reads .operand text inner rest →
    Reads .operand ('-' :: text) (.not inner) rest
  | group {text rest : Text} {inner : QueryReading} : Reads .query text inner (')' :: rest) →
    Reads .operand ('(' :: text) inner rest
  | operand {text rest : Text} {inner : QueryReading} : Reads .operand text inner rest →
    ¬ " | ".toList <+: rest → Reads .unit text inner rest
  | or {text more rest : Text} {left right : QueryReading} :
    Reads .operand text left (" | ".toList ++ more) → Reads .unit more right rest →
    Reads .unit text (.or left right) rest
  | unit {text rest : Text} {inner : QueryReading} : Reads .unit text inner rest →
    rest.head? ≠ some ' ' → Reads .query text inner rest
  | and {text more rest : Text} {left right : QueryReading} : Reads .unit text left (' ' :: more) →
    Reads .query more right rest → Reads .query text (.and left right) rest

/-- No text can be read in two ways. -/
theorem Reads.unique {part : Part} {text rest rest' : Text} {reading reading' : QueryReading}
    (h : Reads part text reading rest) (h' : Reads part text reading' rest') :
    reading = reading' ∧ rest = rest' := by
  induction h generalizing reading' rest' with
  | leaf hminus hopening hspan _ =>
    cases h' with
    | leaf _ _ hspan' _ =>
      cases hspan.symm.trans hspan'
      exact ⟨rfl, rfl⟩
    | not _ => simp at hminus
    | group _ => simp at hopening
  | not _ ih =>
    cases h' with
    | leaf hminus _ _ _ => simp at hminus
    | not h' =>
      obtain ⟨rfl, rfl⟩ := ih h'
      exact ⟨rfl, rfl⟩
  | group _ ih =>
    cases h' with
    | leaf _ hopening _ _ => simp at hopening
    | group h' =>
      obtain ⟨rfl, hrest⟩ := ih h'
      exact ⟨rfl, (List.cons.inj hrest).2⟩
  | operand _ hbar ih =>
    cases h' with
    | operand h' _ => exact ih h'
    | or h' _ =>
      obtain ⟨-, rfl⟩ := ih h'
      exact absurd (List.prefix_append ..) hbar
  | or _ _ ihl ihr =>
    cases h' with
    | operand h' hbar =>
      obtain ⟨-, rfl⟩ := ihl h'
      exact absurd (List.prefix_append ..) hbar
    | or hl hr =>
      obtain ⟨rfl, hmore⟩ := ihl hl
      obtain rfl := List.append_cancel_left hmore
      obtain ⟨rfl, rfl⟩ := ihr hr
      exact ⟨rfl, rfl⟩
  | unit _ hspace ih =>
    cases h' with
    | unit h' _ => exact ih h'
    | and h' _ =>
      obtain ⟨-, rfl⟩ := ih h'
      simp at hspace
  | and _ _ ihl ihr =>
    cases h' with
    | unit h' hspace =>
      obtain ⟨-, rfl⟩ := ihl h'
      simp at hspace
    | and hl hr =>
      obtain ⟨rfl, hmore⟩ := ihl hl
      obtain rfl := (List.cons.inj hmore).2
      obtain ⟨rfl, rfl⟩ := ihr hr
      exact ⟨rfl, rfl⟩

/-! ### What a reading asks for -/

/-- Tags as they stand between braces: a comma behind a backslash belongs to its tag. -/
def splitTags : Text → List Text
  | [] => [[]]
  | '\\' :: c :: text => (splitTags text).modifyHead ('\\' :: c :: ·)
  | ',' :: text => [] :: splitTags text
  | c :: text => (splitTags text).modifyHead (c :: ·)

theorem splitTags_cons {c : Char} (hbackslash : c ≠ '\\') (hcomma : c ≠ ',') (text : Text) :
    splitTags (c :: text) = (splitTags text).modifyHead (c :: ·) := by
  rw [splitTags]
  · exact fun _ _ hc => absurd hc hbackslash
  · exact hcomma

/-- The field and the tags of a leaf that matches a field with a set of tags. -/
def tagSet? : Text → Option (Text × List Text)
  | '@' :: text =>
    match text.takeWhile (· != ':'), text.dropWhile (· != ':') with
    | field, ':' :: '{' :: body =>
      if body.getLast? = some '}' then some (field, splitTags body.dropLast) else none
    | _, _ => none
  | _ => none

/-- Whether a leaf matches, given which leaves with at most one tag do. -/
def leafHolds (single : Text → Bool) (leaf : Text) : Bool :=
  match tagSet? leaf with
  | some (field, tags) => tags.any fun tag => single (Clause.tagText field [tag])
  | none => single leaf

def holds (single : Text → Bool) : QueryReading → Bool
  | leaf text => leafHolds single text
  | not inner => !inner.holds single
  | and left right => left.holds single && right.holds single
  | or left right => left.holds single || right.holds single

abbrev Truth := (Text → Bool) → Bool

/-- A part of a query says something, in front of the rest of the query. -/
def ReadsAs (part : Part) (text : Text) (truth : Truth) (rest : Text) : Prop :=
  ∃ reading, Reads part (text ++ rest) reading rest ∧ ∀ single, reading.holds single = truth single

/-! ### Texts by the part they can stand for -/

def OperandText (text : Text) (truth : Truth) : Prop :=
  ∀ rest, Ends rest → ReadsAs .operand text truth rest

def UnitText (text : Text) (truth : Truth) : Prop :=
  ∀ rest, Ends rest → ¬ " | ".toList <+: rest → ReadsAs .unit text truth rest

/-- Units with a space between them, in any nesting. -/
inductive QueryText : Text → Truth → Prop
  | unit {text : Text} {truth : Truth} : UnitText text truth → text.head? ≠ some '|' →
    QueryText text truth
  | and {left right : Text} {truth truth' : Truth} : QueryText left truth →
    QueryText right truth' →
    QueryText (left ++ ' ' :: right) fun single => truth single && truth' single

theorem OperandText.leaf {leaf : Text} {last : LeafState} (hhead : leaf.head? ≠ none)
    (hminus : leaf.head? ≠ some '-') (hopening : leaf.head? ≠ some '(')
    (hrun : LeafState.plain.run leaf = some last) (hlast : last.settled = true) :
    OperandText leaf fun single => leafHolds single leaf := by
  intro rest hrest
  cases leaf with
  | nil => simp at hhead
  | cons c leaf =>
    have hspan := leafSpan_append hrun hlast hrest
    refine ⟨.leaf (c :: leaf), .leaf ?_ ?_ hspan (by simp), fun _ => rfl⟩
    · simpa using hminus
    · simpa using hopening

theorem OperandText.not {text : Text} {truth : Truth} (h : OperandText text truth) :
    OperandText ('-' :: text) fun single => !truth single := by
  intro rest hrest
  obtain ⟨reading, hreads, hholds⟩ := h rest hrest
  exact ⟨.not reading, .not hreads, fun single => by simp [holds, hholds]⟩

theorem OperandText.unit {text : Text} {truth : Truth} (h : OperandText text truth) :
    UnitText text truth := by
  intro rest hrest hbar
  obtain ⟨reading, hreads, hholds⟩ := h rest hrest
  exact ⟨reading, .operand hreads hbar, hholds⟩

theorem OperandText.or {text more : Text} {truth truth' : Truth} (h : OperandText text truth)
    (h' : UnitText more truth') :
    UnitText (text ++ " | ".toList ++ more) fun single => truth single || truth' single := by
  intro rest hrest hbar
  obtain ⟨right, hright, hholds'⟩ := h' rest hrest hbar
  obtain ⟨left, hleft, hholds⟩ := h (" | ".toList ++ (more ++ rest)) (by simp [Ends])
  refine ⟨.or left right, .or ?_ hright, fun single => by simp [holds, hholds, hholds']⟩
  simpa only [List.append_assoc] using hleft

/-- Operands with bars between them ask for one of them. -/
theorem UnitText.alternatives {α : Type} {text : α → Text} {truth : α → Truth} {operands : List α}
    (hne : operands ≠ []) (h : ∀ operand ∈ operands, OperandText (text operand) (truth operand)) :
    UnitText (" | ".toList.intercalate (operands.map text))
      fun single => operands.any fun operand => truth operand single := by
  induction operands with
  | nil => exact absurd rfl hne
  | cons operand rest ih =>
    obtain ⟨hoperand, hrest⟩ := List.forall_mem_cons.1 h
    cases rest with
    | nil =>
      rw [List.map_singleton, List.intercalate_singleton]
      simpa using hoperand.unit
    | cons next rest =>
      rw [List.map_cons, List.map_cons, List.intercalate_cons_cons]
      exact hoperand.or (ih (by simp) hrest)

namespace QueryText

variable {text : Text} {truth : Truth}

theorem head_ne_bar (h : QueryText text truth) {rest : Text} (hrest : rest.head? ≠ some '|') :
    (text ++ rest).head? ≠ some '|' := by
  induction h generalizing rest with
  | @unit text _ _ hhead =>
    cases text with
    | nil => exact hrest
    | cons c text => simpa using hhead
  | and _ _ ihl _ =>
    rw [List.append_assoc]
    exact ihl (by simp)

/-- A space before another query joins the two, however the first one nests. -/
theorem followed (h : QueryText text truth) {more rest : Text} {truth' : Truth}
    (hbar : (more ++ rest).head? ≠ some '|') (hmore : ReadsAs .query more truth' rest) :
    ReadsAs .query (text ++ ' ' :: more) (fun single => truth single && truth' single) rest := by
  induction h generalizing more truth' with
  | unit hunit _ =>
    obtain ⟨right, hright, hholds'⟩ := hmore
    have hnoBar : ¬ " | ".toList <+: ' ' :: (more ++ rest) := by
      rintro ⟨tail, htail⟩
      have hmore : '|' :: ' ' :: tail = more ++ rest := (List.cons.inj htail).2
      rw [← hmore] at hbar
      exact hbar rfl
    obtain ⟨left, hleft, hholds⟩ := hunit (' ' :: (more ++ rest)) (by simp [Ends]) hnoBar
    refine ⟨.and left right, .and ?_ hright, fun single => by simp [holds, hholds, hholds']⟩
    simpa only [List.append_assoc, List.cons_append] using hleft
  | @and left right _ _ _ hr ihl ihr =>
    have hboth := ihr hbar hmore
    have hhead : (right ++ ' ' :: more ++ rest).head? ≠ some '|' := by
      rw [List.append_assoc]
      exact hr.head_ne_bar (by simp)
    simpa only [List.append_assoc, List.cons_append, Bool.and_assoc] using ihl hhead hboth

/-- A query is read to its end, which is the end of the text or a closing parenthesis. -/
theorem readsAs (h : QueryText text truth) (rest : Text) (hrest : ∀ c ∈ rest.head?, c = ')') :
    ReadsAs .query text truth rest := by
  induction h with
  | unit hunit _ =>
    have hspace : rest.head? ≠ some ' ' := fun hhead => absurd (hrest ' ' hhead) (by decide)
    have hnoBar : ¬ " | ".toList <+: rest := by
      rintro ⟨tail, rfl⟩
      simp at hspace
    obtain ⟨reading, hreads, hholds⟩ := hunit rest (fun c hc => .inr (hrest c hc)) hnoBar
    exact ⟨reading, .unit hreads hspace, hholds⟩
  | and hl hr _ ihr =>
    have hbar : rest.head? ≠ some '|' := fun hhead => absurd (hrest '|' hhead) (by decide)
    exact hl.followed (hr.head_ne_bar hbar) ihr

theorem parenthesized (h : QueryText text truth) :
    OperandText (Clause.parenthesize text) truth := by
  intro rest _
  obtain ⟨reading, hreads, hholds⟩ := h.readsAs (')' :: rest) (by simp)
  refine ⟨reading, ?_, hholds⟩
  simpa [Clause.parenthesize] using Reads.group hreads

end QueryText

end QueryReading

end FilterQuery
