import FilterQuery.Proofs.Outcome
import FilterQuery.Statement
import Mathlib.Tactic

/-!
# Openings of select statements

The opening of a select statement is what stands before its condition: `SELECT`, one or more
characters, and `WHERE`, each set off by white space. A text is a statement exactly if some
beginning of it is an opening, and its condition is what follows the shortest one. So an opening in
front of a condition changes nothing but the positions of errors.
-/

namespace FilterQuery

namespace Statement

/-- A text spells a word that is given in small letters, each letter in either case. -/
def Spells (word text : Text) : Prop :=
  List.Forall₂ (fun letter c => isLetterOf letter c = true) word text

inductive Spaced (word : Text) : Text → Prop
  | intro {before after : Char} {spelling : Text} : Text.isBlank before = true →
    Spells word spelling → Text.isBlank after = true → Spaced word (before :: spelling ++ [after])

/-- What stands before the condition of a select statement. -/
inductive Opening : Text → Prop
  | intro {blanks select columns spacedWhere : Text} {blank : Char} :
    (∀ c ∈ blanks, Text.isBlank c = true) → Spells "select".toList select →
    Text.isBlank blank = true → columns ≠ [] → Spaced "where".toList spacedWhere →
    Opening (blanks ++ select ++ blank :: columns ++ spacedWhere)

structure ShortestOpening (text : Text) : Prop where
  opening : Opening text
  shortest : ∀ shorter, shorter <+: text → shorter ≠ text → ¬ Opening shorter

/-! ### Words -/

theorem dropWord_eq_some_iff {word text rest : Text} :
    dropWord word text = some rest ↔ ∃ spelling, Spells word spelling ∧ text = spelling ++ rest := by
  constructor
  · intro h
    fun_induction dropWord word text with
    | case1 text =>
      cases h
      exact ⟨[], .nil, rfl⟩
    | case2 letter word c text hletter ih =>
      obtain ⟨spelling, hspelling, rfl⟩ := ih h
      exact ⟨c :: spelling, .cons hletter hspelling, rfl⟩
    | case3 => cases h
    | case4 => cases h
  · rintro ⟨spelling, hspelling, rfl⟩
    induction hspelling with
    | nil => rfl
    | cons hletter _ ih =>
      rw [List.cons_append, dropWord, if_pos hletter]
      exact ih

theorem dropBlank_eq_some_iff {text rest : Text} :
    dropBlank text = some rest ↔ ∃ c, Text.isBlank c = true ∧ text = c :: rest := by
  cases text with
  | nil => simp [dropBlank]
  | cons c text =>
    by_cases hblank : Text.isBlank c = true
    · simp [dropBlank, hblank]
    · simp only [dropBlank, if_neg hblank]
      constructor
      · intro h
        cases h
      · rintro ⟨c', hc', heq⟩
        cases heq
        exact absurd hc' hblank

theorem dropSpaced_eq_some_iff {word text rest : Text} :
    dropSpaced word text = some rest ↔ ∃ spaced, Spaced word spaced ∧ text = spaced ++ rest := by
  constructor
  · intro h
    obtain ⟨text₁, hbefore, h⟩ := Option.bind_eq_some_iff.1 h
    obtain ⟨text₂, hword, hafter⟩ := Option.bind_eq_some_iff.1 h
    obtain ⟨before, hblank, rfl⟩ := dropBlank_eq_some_iff.1 hbefore
    obtain ⟨spelling, hspelling, rfl⟩ := dropWord_eq_some_iff.1 hword
    obtain ⟨after, hblank', rfl⟩ := dropBlank_eq_some_iff.1 hafter
    exact ⟨_, .intro hblank hspelling hblank', by simp⟩
  · rintro ⟨_, @⟨before, after, spelling, hblank, hspelling, hblank'⟩, rfl⟩
    have hbefore : dropBlank (before :: spelling ++ [after] ++ rest) =
        some (spelling ++ after :: rest) := dropBlank_eq_some_iff.2 ⟨before, hblank, by simp⟩
    have hword : dropWord word (spelling ++ after :: rest) = some (after :: rest) :=
      dropWord_eq_some_iff.2 ⟨spelling, hspelling, rfl⟩
    have hafter : dropBlank (after :: rest) = some rest :=
      dropBlank_eq_some_iff.2 ⟨after, hblank', rfl⟩
    rw [dropSpaced, hbefore, Option.bind_eq_bind, Option.bind_some, hword]
    exact hafter

theorem Spaced.length {word spaced : Text} (h : Spaced word spaced) :
    spaced.length = word.length + 2 := by
  cases h with
  | intro _ hspelling _ => simp [hspelling.length_eq]

/-! ### The first `WHERE` -/

theorem dropSpaced_ne_none {text spaced : Text} (hstart : spaced <+: text)
    (hspaced : Spaced "where".toList spaced) : dropSpaced "where".toList text ≠ none := by
  obtain ⟨rest, rfl⟩ := hstart
  rw [dropSpaced_eq_some_iff.2 ⟨spaced, hspaced, rfl⟩]
  exact Option.some_ne_none rest

/-- What is found follows the first place where the word stands between white space. -/
theorem afterWhere?_eq_some {text rest : Text} (h : afterWhere? text = some rest) :
    ∃ before spaced, text = before ++ spaced ++ rest ∧ Spaced "where".toList spaced ∧
      ∀ before' spaced', before' ++ spaced' <+: text → Spaced "where".toList spaced' →
        before.length ≤ before'.length := by
  induction text with
  | nil => cases h
  | cons c text ih =>
    rw [afterWhere?_cons] at h
    cases hhere : dropSpaced "where".toList (c :: text) with
    | some found =>
      rw [hhere] at h
      cases h
      obtain ⟨spaced, hspaced, htext⟩ := dropSpaced_eq_some_iff.1 hhere
      exact ⟨[], spaced, htext, hspaced, fun _ _ _ _ => Nat.zero_le _⟩
    | none =>
      rw [hhere, Option.none_or] at h
      obtain ⟨before, spaced, rfl, hspaced, hfirst⟩ := ih h
      refine ⟨c :: before, spaced, rfl, hspaced, fun before' spaced' hstart hspaced' => ?_⟩
      cases before' with
      | nil => exact absurd hhere (dropSpaced_ne_none hstart hspaced')
      | cons d before' =>
        have htail := (List.cons_prefix_cons.1 hstart).2
        exact Nat.succ_le_succ (hfirst before' spaced' htail hspaced')

theorem afterWhere?_eq_none {text : Text} (h : afterWhere? text = none) {before spaced : Text}
    (hstart : before ++ spaced <+: text) : ¬ Spaced "where".toList spaced := by
  intro hspaced
  induction text generalizing before with
  | nil =>
    have hnil := (List.append_eq_nil_iff.1 (List.prefix_nil.1 hstart)).2
    subst hnil
    cases hspaced.length
  | cons c text ih =>
    rw [afterWhere?_cons, Option.or_eq_none_iff] at h
    cases before with
    | nil => exact dropSpaced_ne_none hstart hspaced h.1
    | cons d before => exact ih h.2 (List.cons_prefix_cons.1 hstart).2

/-! ### The words before it -/

/-- What follows `SELECT`, white space and one more character. -/
def afterSelect? (query : Text) : Option Text := do
  let text ← dropWord "select".toList (Text.trimStart query)
  let text ← dropBlank text
  match text with
  | [] => none
  | _ :: text => some text

theorem condition?_eq_bind (query : Text) :
    condition? query = (afterSelect? query).bind afterWhere? := by
  unfold condition? afterSelect?
  simp only [Option.bind_eq_bind, Option.bind_assoc]
  congr 2
  funext text
  congr 1
  funext text
  cases text <;> rfl

theorem trimStart_append_select {blanks select rest : Text}
    (hblanks : ∀ c ∈ blanks, Text.isBlank c = true) (hselect : Spells "select".toList select) :
    Text.trimStart (blanks ++ (select ++ rest)) = select ++ rest := by
  cases hselect with
  | @cons _ c _ select hletter _ =>
    have hs : isLetterOf 's' c = true := hletter
    have hfirst := Text.isBlank_eq_false_of_class (Text.eq_false_of_isBlank (by decide)) hs
    rw [Text.trimStart, List.dropWhile_append_of_pos hblanks, List.cons_append,
      List.dropWhile_cons_of_neg]
    simp [hfirst]

theorem afterSelect?_eq_some_iff {query rest : Text} :
    afterSelect? query = some rest ↔
      ∃ blanks select blank first, (∀ c ∈ blanks, Text.isBlank c = true) ∧
        Spells "select".toList select ∧ Text.isBlank blank = true ∧
        query = blanks ++ (select ++ blank :: first :: rest) := by
  constructor
  · intro h
    obtain ⟨text, hselect, hafter⟩ := Option.bind_eq_some_iff.1 h
    obtain ⟨text', hblank, hlast⟩ := Option.bind_eq_some_iff.1 hafter
    obtain ⟨select, hspells, htrim⟩ := dropWord_eq_some_iff.1 hselect
    obtain ⟨blank, hisBlank, rfl⟩ := dropBlank_eq_some_iff.1 hblank
    cases text' with
    | nil => cases hlast
    | cons first text' =>
      cases hlast
      refine ⟨query.takeWhile Text.isBlank, select, blank, first, ?_, hspells, hisBlank, ?_⟩
      · exact List.all_eq_true.1 List.all_takeWhile
      · rw [← htrim]
        exact List.takeWhile_append_dropWhile.symm
  · rintro ⟨blanks, select, blank, first, hblanks, hspells, hblank, rfl⟩
    have hselect : dropWord "select".toList (select ++ blank :: first :: rest) =
        some (blank :: first :: rest) := dropWord_eq_some_iff.2 ⟨select, hspells, rfl⟩
    have hafter : dropBlank (blank :: first :: rest) = some (first :: rest) :=
      dropBlank_eq_some_iff.2 ⟨blank, hblank, rfl⟩
    rw [afterSelect?, trimStart_append_select hblanks hspells, hselect, Option.bind_eq_bind,
      Option.bind_some, hafter]
    rfl

/-! ### Openings -/

theorem Opening.afterSelect?_eq {opening : Text} (h : Opening opening) (rest : Text) :
    ∃ before spaced, Spaced "where".toList spaced ∧
      afterSelect? (opening ++ rest) = some (before ++ spaced ++ rest) := by
  cases h with
  | @intro blanks select columns spaced blank hblanks hselect hblank hcolumns hspaced =>
    cases columns with
    | nil => exact absurd rfl hcolumns
    | cons first before =>
      refine ⟨before, spaced, hspaced, afterSelect?_eq_some_iff.2 ?_⟩
      exact ⟨blanks, select, blank, first, hblanks, hselect, hblank, by simp⟩

/-- The condition of a statement follows the shortest opening. -/
theorem exists_shortestOpening {query text : Text} (h : condition? query = some text) :
    ∃ opening, query = opening ++ text ∧ ShortestOpening opening := by
  rw [condition?_eq_bind] at h
  obtain ⟨tail, htail, hwhere⟩ := Option.bind_eq_some_iff.1 h
  obtain ⟨before, spaced, hsplit, hspaced, hfirst⟩ := afterWhere?_eq_some hwhere
  obtain ⟨blanks, select, blank, first, hblanks, hselect, hblank, hquery⟩ :=
    afterSelect?_eq_some_iff.1 htail
  have hopening : Opening (blanks ++ select ++ blank :: (first :: before) ++ spaced) :=
    .intro hblanks hselect hblank (List.cons_ne_nil _ _) hspaced
  have hwhole : query = blanks ++ select ++ blank :: (first :: before) ++ spaced ++ text := by
    rw [hquery, hsplit]
    simp
  refine ⟨_, hwhole, hopening, fun shorter hshorter hne hother => hne ?_⟩
  -- Both openings end with a `WHERE` behind the same `SELECT`, and the first one was taken.
  obtain ⟨rest, hrest⟩ := hshorter.trans ⟨text, hwhole.symm⟩
  obtain ⟨before', spaced', hspaced', htail'⟩ := hother.afterSelect?_eq rest
  rw [hrest, htail, hsplit] at htail'
  have htails : before ++ spaced ++ text = before' ++ spaced' ++ rest := Option.some.inj htail'
  have hle : before.length ≤ before'.length := by
    apply hfirst before' spaced' _ hspaced'
    rw [hsplit, htails]
    exact List.prefix_append _ _
  apply hshorter.eq_of_length_le
  have hlength := congrArg List.length htails
  have hlength' := congrArg List.length (hrest.trans hwhole)
  simp only [List.length_append, hspaced.length, hspaced'.length] at hlength hlength' ⊢
  omega

/-- The condition of a statement is an end of the statement. -/
theorem condition?_suffix {query text : Text} (h : condition? query = some text) :
    text <:+ query := by
  obtain ⟨opening, rfl, -⟩ := exists_shortestOpening h
  exact List.suffix_append opening text

theorem condition?_eq_none_iff {query : Text} :
    condition? query = none ↔ ∀ start, start <+: query → ¬ Opening start := by
  constructor
  · rintro h opening ⟨rest, rfl⟩ hopening
    obtain ⟨before, spaced, hspaced, htail⟩ := hopening.afterSelect?_eq rest
    rw [condition?_eq_bind, htail, Option.bind_some] at h
    exact afterWhere?_eq_none h (List.prefix_append _ _) hspaced
  · intro h
    cases hcondition : condition? query with
    | none => rfl
    | some text =>
      obtain ⟨opening, rfl, hshortest⟩ := exists_shortestOpening hcondition
      exact absurd hshortest.opening (h opening (List.prefix_append _ _))

/-- A text has at most one shortest opening. -/
theorem ShortestOpening.unique {opening opening' query : Text} (h : ShortestOpening opening)
    (h' : ShortestOpening opening') (hquery : opening <+: query) (hquery' : opening' <+: query) :
    opening = opening' := by
  rcases List.prefix_or_prefix_of_prefix hquery hquery' with hle | hle
  · by_contra hne
    exact h'.shortest opening hle hne h.opening
  · by_contra hne
    exact h.shortest opening' hle (Ne.symm hne) h'.opening

theorem condition?_append {opening : Text} (h : ShortestOpening opening) (text : Text) :
    condition? (opening ++ text) = some text := by
  cases hcondition : condition? (opening ++ text) with
  | none =>
    exact absurd h.opening (condition?_eq_none_iff.1 hcondition _ (List.prefix_append _ _))
  | some text' =>
    obtain ⟨opening', heq, h'⟩ := exists_shortestOpening hcondition
    have hsame : opening = opening' :=
      h.unique h' (List.prefix_append _ _) ⟨text', heq.symm⟩
    subst hsame
    rw [List.append_cancel_left heq]

end Statement

namespace Condition

/-- A condition behind the shortest opening of a select statement is read as it is by itself, and
its errors are reported as many characters later as the opening has. -/
theorem parse_opening_append (limit : Nat) {opening condition : Text}
    (hopening : Statement.Opening opening)
    (hshortest : ∀ shorter, shorter <+: opening → shorter ≠ opening →
      ¬ Statement.Opening shorter)
    (hplain : ∀ start, start <+: condition → ¬ Statement.Opening start) :
    parse limit (opening ++ condition) =
      (parse limit condition).mapError (.shift opening.length) := by
  have hstatement := Statement.condition?_append ⟨hopening, hshortest⟩ condition
  have hcondition := Statement.condition?_eq_none_iff.2 hplain
  have hlength : (opening ++ condition).length - condition.length = opening.length := by
    rw [List.length_append]
    omega
  rw [parse, parse, hstatement, hcondition]
  dsimp only
  rw [hlength]

/-- The opening counts 22 characters, and the `where` inside the string is none of its words. -/
theorem parse_opening_append_accent :
    let opening := "SELECT é FROM t WHERE ".toList
    let condition := "a ? ' where '".toList
    Statement.ShortestOpening opening ∧
      parse 256 condition = .error ⟨.unexpectedCharacter '?', 2⟩ ∧
      parse 256 (opening ++ condition) = .error ⟨.unexpectedCharacter '?', 24⟩ := by
  intro opening condition
  have hstatement : Statement.condition? opening = some [] := by decide +kernel
  have hcondition : Statement.condition? condition = none := by decide +kernel
  have hparse : parse 256 condition = .error ⟨.unexpectedCharacter '?', 2⟩ := by decide +kernel
  have hshortest : Statement.ShortestOpening opening := by
    obtain ⟨opening', heq, h⟩ := Statement.exists_shortestOpening hstatement
    rw [List.append_nil] at heq
    rwa [heq]
  refine ⟨hshortest, hparse, ?_⟩
  rw [parse_opening_append 256 hshortest.opening hshortest.shortest
    (Statement.condition?_eq_none_iff.1 hcondition), hparse]
  rfl

end Condition

end FilterQuery
