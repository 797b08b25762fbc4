import FilterQuery.Escape

/-!
# Wildcards of patterns

A written pattern is read from left to right, a backslash together with the character behind it. A
wildcard behind no backslash stands for one of the pattern that was written. Stars and question
marks are written as they are, so they are read as the wildcards `%` and `_`: reading gives back
exactly the patterns without them, and two patterns are written alike exactly if they differ in
nothing else.
-/

namespace FilterQuery.Escape

def wildcardOf (c : Char) : Char := if c = '*' then '%' else if c = '?' then '_' else c

/-- The pattern that a text was written for: of a backslash and the character behind it the
character, and wildcards elsewhere. There is none if the text ends right behind a backslash. -/
def readPattern : Text → Option Text
  | [] => some []
  | '\\' :: c :: text => (readPattern text).map (c :: ·)
  | c :: text => if c = '\\' then none else (readPattern text).map (wildcardOf c :: ·)

theorem readPattern_cons {c : Char} (hbackslash : c ≠ '\\') (text : Text) :
    readPattern (c :: text) = (readPattern text).map (wildcardOf c :: ·) := by
  rw [readPattern, if_neg hbackslash]
  exact fun _ _ hc => absurd hc hbackslash

theorem wildcardOf_of_isSpecial {c : Char} (h : isSpecial c = true) : wildcardOf c = c := by
  have hstar : c ≠ '*' := ne_of_class h rfl
  have hmark : c ≠ '?' := ne_of_class h rfl
  rw [wildcardOf, if_neg hstar, if_neg hmark]

/-- A character is written as a single one that is no backslash, or behind a backslash. -/
theorem patternChar_cases (c : Char) :
    (∃ d, d ≠ '\\' ∧ patternChar c = [d] ∧ wildcardOf d = wildcardOf c) ∨
      isSpecial c = true ∧ patternChar c = ['\\', c] := by
  by_cases hpercent : c = '%'
  · subst hpercent
    exact .inl ⟨'*', by decide, rfl, rfl⟩
  by_cases hunderscore : c = '_'
  · subst hunderscore
    exact .inl ⟨'?', by decide, rfl, rfl⟩
  rw [patternChar, if_neg hpercent, if_neg hunderscore]
  obtain ⟨hspecial, hpair⟩ | ⟨hplain, hself⟩ := escapeChar_cases c
  · exact .inr ⟨hspecial, hpair⟩
  · exact .inl ⟨c, ne_backslash hplain, hself, rfl⟩

theorem readPattern_patternChar_append (c : Char) (text : Text) :
    readPattern (patternChar c ++ text) = (readPattern text).map (wildcardOf c :: ·) := by
  obtain ⟨d, hbackslash, hwritten, hsame⟩ | ⟨hspecial, hwritten⟩ := patternChar_cases c
  · rw [hwritten, List.singleton_append, readPattern_cons hbackslash, hsame]
  · rw [hwritten, List.cons_append, List.singleton_append, readPattern,
      wildcardOf_of_isSpecial hspecial]

theorem readPattern_pattern (raw : Text) :
    readPattern (pattern raw) = some (raw.map wildcardOf) := by
  induction raw with
  | nil => rfl
  | cons c raw ih =>
    rw [pattern_cons, readPattern_patternChar_append, ih]
    rfl

theorem map_wildcardOf_eq_self_iff {raw : Text} :
    raw.map wildcardOf = raw ↔ '*' ∉ raw ∧ '?' ∉ raw := by
  have hself : raw.map wildcardOf = raw.map id ↔ ∀ c ∈ raw, wildcardOf c = id c := List.map_inj_left
  rw [List.map_id] at hself
  rw [hself]
  constructor
  · intro h
    constructor
    · intro hstar
      exact absurd (h _ hstar) (by decide)
    · intro hmark
      exact absurd (h _ hmark) (by decide)
  · rintro ⟨hstar, hmark⟩ c hc
    have hneStar : c ≠ '*' := fun heq => hstar (heq ▸ hc)
    have hneMark : c ≠ '?' := fun heq => hmark (heq ▸ hc)
    rw [wildcardOf, if_neg hneStar, if_neg hneMark, id]

theorem patternChar_wildcardOf (c : Char) : patternChar (wildcardOf c) = patternChar c := by
  by_cases hstar : c = '*'
  · subst hstar
    rfl
  by_cases hmark : c = '?'
  · subst hmark
    rfl
  rw [wildcardOf, if_neg hstar, if_neg hmark]

theorem pattern_map_wildcardOf (raw : Text) : pattern (raw.map wildcardOf) = pattern raw := by
  induction raw with
  | nil => rfl
  | cons c raw ih => rw [List.map_cons, pattern_cons, pattern_cons, ih, patternChar_wildcardOf]

/-- Patterns are written alike if they differ in nothing but the spelling of their wildcards. -/
theorem pattern_eq_pattern_iff {raw raw' : Text} :
    pattern raw = pattern raw' ↔ raw.map wildcardOf = raw'.map wildcardOf := by
  constructor
  · intro h
    apply Option.some.inj
    rw [← readPattern_pattern, ← readPattern_pattern, h]
  · intro h
    rw [← pattern_map_wildcardOf raw, ← pattern_map_wildcardOf raw', h]

/-- A character that stands behind no backslash was written for one character of the pattern, and
what stands before and after it for the rest. -/
theorem exists_split_of_pattern {raw before after : Text} {c : Char} (hbackslash : c ≠ '\\')
    (h : pattern raw = before ++ c :: after) (hbefore : readPattern before ≠ none) :
    ∃ start d rest, raw = start ++ d :: rest ∧ wildcardOf d = wildcardOf c ∧
      before = pattern start ∧ after = pattern rest := by
  induction raw generalizing before with
  | nil => simp at h
  | cons d raw ih =>
    -- What is written for `d` is the character, or it lies before the character as a whole.
    have hlater : ∀ {later}, before = patternChar d ++ later → pattern raw = later ++ c :: after →
        ∃ start e rest, d :: raw = start ++ e :: rest ∧ wildcardOf e = wildcardOf c ∧
          before = pattern start ∧ after = pattern rest := by
      rintro later rfl hrest
      have hread : readPattern later ≠ none := by
        intro hnone
        rw [readPattern_patternChar_append, hnone] at hbefore
        exact hbefore rfl
      obtain ⟨start, e, rest, rfl, hsame, rfl, hafter⟩ := ih hrest hread
      exact ⟨d :: start, e, rest, rfl, hsame, rfl, hafter⟩
    rw [pattern_cons] at h
    obtain ⟨e, -, hwritten, hsame⟩ | ⟨-, hwritten⟩ := patternChar_cases d
    · rw [hwritten, List.singleton_append] at h
      cases before with
      | nil =>
        obtain ⟨rfl, hafter⟩ := List.cons.inj h
        exact ⟨[], d, raw, rfl, hsame.symm, rfl, hafter.symm⟩
      | cons b before =>
        obtain ⟨rfl, hrest⟩ := List.cons.inj h
        exact hlater (by rw [hwritten]; rfl) hrest
    · rw [hwritten, List.cons_append, List.singleton_append] at h
      match before with
      | [] => exact absurd (List.cons.inj h).1.symm hbackslash
      | [b] =>
        obtain ⟨rfl, -⟩ := List.cons.inj h
        exact absurd rfl hbefore
      | b :: b' :: before =>
        obtain ⟨rfl, hpair⟩ := List.cons.inj h
        obtain ⟨rfl, hrest⟩ := List.cons.inj hpair
        exact hlater (by rw [hwritten]; rfl) hrest

theorem eq_of_wildcardOf {c d : Char} (h : wildcardOf c = wildcardOf d) (hd : d = '*' ∨ d = '?') :
    c = wildcardOf d ∨ c = d := by
  by_cases hstar : c = '*'
  · rcases hd with rfl | rfl
    · exact .inr hstar
    · subst hstar
      cases h
  by_cases hmark : c = '?'
  · rcases hd with rfl | rfl
    · subst hmark
      cases h
    · exact .inr hmark
  rw [wildcardOf, if_neg hstar, if_neg hmark] at h
  exact .inl h

/-- A bare star was written for `%` or for a star, and a bare question mark for `_` or for a
question mark. So a pattern is read back exactly if it has no star and no question mark, and it is
written like another one exactly if they differ in the spelling of wildcards only. -/
theorem pattern_wildcards (raw : Text) :
    (∀ before after, pattern raw = before ++ '*' :: after → readPattern before ≠ none →
      ∃ start c rest, raw = start ++ c :: rest ∧ (c = '%' ∨ c = '*') ∧
        before = pattern start ∧ after = pattern rest) ∧
    (∀ before after, pattern raw = before ++ '?' :: after → readPattern before ≠ none →
      ∃ start c rest, raw = start ++ c :: rest ∧ (c = '_' ∨ c = '?') ∧
        before = pattern start ∧ after = pattern rest) ∧
    (readPattern (pattern raw) = some raw ↔ '*' ∉ raw ∧ '?' ∉ raw) ∧
    ∀ raw', pattern raw = pattern raw' ↔ raw.map wildcardOf = raw'.map wildcardOf := by
  refine ⟨?_, ?_, ?_, fun raw' => pattern_eq_pattern_iff⟩
  · intro before after h hbefore
    obtain ⟨start, c, rest, hraw, hsame, hparts⟩ :=
      exists_split_of_pattern (by decide) h hbefore
    exact ⟨start, c, rest, hraw, eq_of_wildcardOf hsame (.inl rfl), hparts⟩
  · intro before after h hbefore
    obtain ⟨start, c, rest, hraw, hsame, hparts⟩ :=
      exists_split_of_pattern (by decide) h hbefore
    exact ⟨start, c, rest, hraw, eq_of_wildcardOf hsame (.inr rfl), hparts⟩
  · rw [readPattern_pattern, Option.some.injEq, map_wildcardOf_eq_self_iff]

/-- A star behind an escaped backslash, and a wildcard at the end. -/
theorem pattern_wildcards_backslash :
    let raw := "a\\*b_".toList
    (∃ start c rest, raw = start ++ c :: rest ∧ (c = '%' ∨ c = '*') ∧
        "a\\\\".toList = pattern start ∧ "b?".toList = pattern rest) ∧
      (∃ start c rest, raw = start ++ c :: rest ∧ (c = '_' ∨ c = '?') ∧
        "a\\\\*b".toList = pattern start ∧ [] = pattern rest) ∧
      readPattern (pattern raw) ≠ some raw := by
  intro raw
  obtain ⟨hstar, hmark, hread, -⟩ := pattern_wildcards raw
  refine ⟨hstar _ _ rfl (by decide), hmark _ _ rfl (by decide), ?_⟩
  intro hback
  exact absurd (hread.1 hback).1 (by decide)

/-- A star is written like `%`, so it is not read back. -/
theorem pattern_star_eq_pattern_percent :
    pattern ['*'] = pattern ['%'] ∧ readPattern (pattern ['*']) ≠ some ['*'] := by
  decide

end FilterQuery.Escape
