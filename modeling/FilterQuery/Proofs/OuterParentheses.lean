import FilterQuery.Proofs.ParenthesisCount

/-!
# Outer pairs of parentheses

Stripping takes pairs of parentheses off both ends of a text, one after the other, and stops before
the first pair that is around unbalanced text. This holds of every text. The text itself need not be
balanced, since a range that it leaves open hides closing parentheses behind it.
-/

namespace FilterQuery.Parentheses

def wrap (pairs : Nat) (text : Text) : Text :=
  List.replicate pairs '(' ++ text ++ List.replicate pairs ')'

@[simp] theorem wrap_zero (text : Text) : wrap 0 text = text := by simp [wrap]

theorem wrap_succ (pairs : Nat) (text : Text) :
    wrap (pairs + 1) text = '(' :: wrap pairs text ++ [')'] := by
  rw [wrap, wrap, List.replicate_succ, List.replicate_succ' (n := pairs) (a := ')')]
  simp only [List.cons_append, List.append_assoc]

theorem wrap_one (text : Text) : wrap 1 text = '(' :: text ++ [')'] := by
  rw [wrap_succ, wrap_zero]

theorem wrap_one_injective {text other : Text} (h : wrap 1 text = wrap 1 other) : text = other := by
  rw [wrap_one, wrap_one] at h
  exact (List.cons.inj (List.append_cancel_right h)).2

/-- A text without as many of its outer pairs, where each pair taken off was around balanced
text. -/
structure Unwraps (pairs : Nat) (query rest : Text) : Prop where
  wrap_eq : query = wrap pairs rest
  balanced : ∀ fewer inner, 0 < fewer → fewer ≤ pairs → query = wrap fewer inner →
    isBalanced inner = true

namespace Unwraps

theorem refl (query : Text) : Unwraps 0 query query where
  wrap_eq := (wrap_zero query).symm
  balanced fewer _ hpos hle _ := by omega

/-- One more pair around balanced text. -/
theorem outer {pairs : Nat} {inner rest : Text} (hinner : isBalanced inner = true)
    (h : Unwraps pairs inner rest) : Unwraps (pairs + 1) (wrap 1 inner) rest where
  wrap_eq := by
    rw [wrap_one, wrap_succ, ← h.wrap_eq]
  balanced := by
    intro fewer text hpos hle htext
    obtain ⟨fewer, rfl⟩ := Nat.exists_eq_succ_of_ne_zero hpos.ne'
    have hsame : inner = wrap fewer text := by
      apply wrap_one_injective
      rw [htext, wrap_succ, wrap_one]
    -- Without the outermost pair this is the text that was found balanced; without more of them it
    -- lies further inside.
    by_cases hzero : fewer = 0
    · subst hzero
      rwa [hsame, wrap_zero] at hinner
    · exact h.balanced fewer text (by omega) (by omega) hsame

theorem isBalanced_rest {pairs : Nat} {query rest : Text} (h : Unwraps pairs query rest)
    (hpos : 0 < pairs) : isBalanced rest = true :=
  h.balanced pairs rest hpos le_rfl h.wrap_eq

end Unwraps

theorem exists_unwraps_strip (query : Text) : ∃ pairs, Unwraps pairs query (strip query) := by
  fun_induction strip query with
  | case1 query inner hinside _ hbalanced ih =>
    obtain ⟨pairs, hpairs⟩ := ih
    have hquery : query = wrap 1 inner := by
      rw [inside?_eq_some.1 hinside, wrap_one]
    rw [hquery]
    exact ⟨pairs + 1, hpairs.outer hbalanced⟩
  | case2 query => exact ⟨0, .refl query⟩
  | case3 query => exact ⟨0, .refl query⟩

/-- What is left could only lose a pair around unbalanced text. -/
theorem isBalanced_inside_strip {query inner : Text} (h : strip query = wrap 1 inner) :
    isBalanced inner = false := by
  rw [wrap_one] at h
  fun_induction strip query with
  | case1 query _ _ _ _ ih => exact ih h
  | case2 query other hinside _ hbalanced =>
    rw [inside?_eq_some.2 h] at hinside
    cases hinside
    simpa using hbalanced
  | case3 query hnone =>
    rw [inside?_eq_some.2 h] at hnone
    cases hnone

theorem strip_strip (query : Text) : strip (strip query) = strip query := by
  apply strip_eq_self
  intro inner hinner
  exact isBalanced_inside_strip (hinner.trans (wrap_one inner).symm)

/-- A text is what stripping leaves of it inside some number of pairs. Every text in between, with
one or more of these pairs taken off, is balanced. No further pair can be taken off like that. -/
theorem strip_outer_pairs (query : Text) :
    ∃ pairs, query = wrap pairs (strip query) ∧
      (0 < pairs → isBalanced (strip query) = true) ∧
      (isBalanced query = true → isBalanced (strip query) = true) ∧
      strip (strip query) = strip query ∧
      (∀ fewer inner, 1 ≤ fewer → fewer ≤ pairs → query = wrap fewer inner →
        isBalanced inner = true) ∧
      ∀ inner, strip query = wrap 1 inner → isBalanced inner = false := by
  obtain ⟨pairs, hpairs⟩ := exists_unwraps_strip query
  exact ⟨pairs, hpairs.wrap_eq, hpairs.isBalanced_rest, isBalanced_strip, strip_strip query,
    hpairs.balanced, fun _ => isBalanced_inside_strip⟩

/-- The open range hides the closing parenthesis, but the pair is stripped. -/
example : isBalanced "(:[)".toList = false ∧ strip "(:[)".toList = ":[".toList := by
  decide +kernel

end FilterQuery.Parentheses
