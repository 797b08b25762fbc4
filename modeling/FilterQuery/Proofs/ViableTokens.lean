import FilterQuery.Proofs.ConditionGrammar

/-!
# Viable beginnings of a condition

Tokens are viable if some continuation makes a condition of them. From each of its states the
reader can still reach the end of a condition: what has been begun is completed with nulls, and the
open parentheses are closed. So the tokens that it takes are viable, and a refused list of tokens
is viable up to the token that the error points at and no further.
-/

namespace FilterQuery.Condition

open Outcome

def Viable (limit : Nat) (tokens : List Placed) : Prop :=
  ∃ more endPosition condition, ofTokens limit endPosition (tokens ++ more) = .ok condition

/-- The position of the token with number `k`, or of the end where there is none. -/
def positionAt (endPosition : Nat) (tokens : List Placed) (k : Nat) : Nat :=
  match tokens[k]? with
  | some placed => placed.position
  | none => endPosition

def Awaiting.completion : Awaiting → List Token
  | operand => [.field ['x'], .keyword .is, .keyword .null]
  | predicate _ => [.keyword .is, .keyword .null]
  | negatedPredicate _ => [.keyword .like, .keyword .null]
  | comparedValue _ _ | pattern _ _ | highBound _ _ _ => [.keyword .null]
  | lowBound _ _ => [.keyword .null, .keyword .and, .keyword .null]
  | betweenAnd _ _ _ => [.keyword .and, .keyword .null]
  | listOpening _ _ => [.opening, .closing]
  | firstMember _ _ | afterMember _ _ _ => [.closing]
  | nextMember _ _ _ => [.keyword .null, .closing]
  | nullOrNot _ | null _ => [.keyword .null]
  | connective _ => []

namespace Reader

variable (limit : Nat)

/-- The completion leads to a connective, and no token of it looks at the limit. -/
theorem feed_completion (reader : Reader) :
    ∃ level conjunction, reader.feed limit reader.awaiting.completion =
      .ok ⟨level, reader.enclosing, .connective conjunction⟩ := by
  obtain ⟨level, enclosing, awaiting⟩ := reader
  cases awaiting with
  | connective conjunction => exact ⟨level, conjunction, rfl⟩
  | _ => exact ⟨_, _, rfl⟩

/-- Where a connective may come next, the condition may end as soon as every parenthesis is
closed. -/
theorem feed_closings (level : Level) (enclosing : List Level) (conjunction : Condition) :
    ∃ last condition, feed limit ⟨level, enclosing, .connective conjunction⟩
        (List.replicate enclosing.length .closing) = .ok last ∧ last.finish = .ok condition := by
  induction enclosing generalizing level conjunction with
  | nil => exact ⟨_, _, rfl, rfl⟩
  | cons outer enclosing ih =>
    -- A parenthesis that closes completes an operand of the level around it.
    have hgroup : step ⟨level, outer :: enclosing, .connective conjunction⟩ limit .closing =
        .ok (complete ⟨outer, enclosing, .operand⟩ (.group (level.disjunction conjunction))) := rfl
    rw [List.length_cons, List.replicate_succ, feed_cons, hgroup]
    apply ih

/-- A condition can be reached from every state. -/
theorem exists_feed_finish (reader : Reader) :
    ∃ more last condition, reader.feed limit more = .ok last ∧ last.finish = .ok condition := by
  obtain ⟨level, conjunction, hcompletion⟩ := feed_completion limit reader
  obtain ⟨last, condition, hclosings, hfinish⟩ :=
    feed_closings limit level reader.enclosing conjunction
  refine ⟨reader.awaiting.completion ++ List.replicate reader.enclosing.length .closing, last,
    condition, ?_, hfinish⟩
  rw [feed_append, hcompletion]
  exact hclosings

end Reader

variable {limit : Nat}

/-- The viable beginnings are those that the reader takes. -/
theorem viable_iff_feed {tokens : List Placed} :
    Viable limit tokens ↔
      ∃ reader, Reader.start.feed limit (tokens.map Placed.token) = .ok reader := by
  constructor
  · rintro ⟨more, endPosition, condition, h⟩
    unfold ofTokens at h
    split_ifs at h
    obtain ⟨last, hfeed, -⟩ := Reader.run_eq_ok_iff.1 h
    rw [List.map_append, Reader.feed_append] at hfeed
    obtain ⟨reader, hreader, -⟩ := bind_eq_ok.1 hfeed
    exact ⟨reader, hreader⟩
  · rintro ⟨reader, hreader⟩
    obtain ⟨more, last, condition, hmore, hfinish⟩ := reader.exists_feed_finish limit
    have hstands : Reader.Stands limit last (tokens.map Placed.token ++ more) :=
      Reader.stands_feed (Reader.stands_feed Reader.stands_start hreader) hmore
    obtain ⟨nesting, hlimit, hderives⟩ := Reader.derives_of_finish hstands hfinish
    refine ⟨more.map fun token => ⟨token, 0⟩, 0, condition, ofTokens_of_derives hlimit ?_⟩
    simpa [Function.comp_def] using hderives

theorem not_viable_of_step {read : List Placed} {placed : Placed} {reader : Reader}
    {fault : ParseFault} (hfeed : Reader.start.feed limit (read.map Placed.token) = .ok reader)
    (hstep : reader.step limit placed.token = .error fault) :
    ¬ Viable limit (read ++ [placed]) := by
  intro hviable
  obtain ⟨next, hnext⟩ := viable_iff_feed.1 hviable
  rw [List.map_append, Reader.feed_append, hfeed, ok_bind] at hnext
  obtain ⟨taken, htaken, -⟩ := bind_eq_ok.1 hnext
  cases hstep.symm.trans htaken

/-- A refused list of tokens is viable up to the token, or the end, that the error points at, and
with that token it is no longer viable. -/
theorem ofTokens_error_position {limit endPosition : Nat} {tokens : List Placed}
    {error : ParseError} (h : ofTokens limit endPosition tokens = .error error) :
    ∃ k ≤ tokens.length, error.position = positionAt endPosition tokens k ∧
      Viable limit (tokens.take k) ∧
      (k < tokens.length → ¬ Viable limit (tokens.take (k + 1))) := by
  unfold ofTokens at h
  split_ifs at h with hempty
  · obtain rfl : tokens = [] := List.isEmpty_iff.1 hempty
    cases h
    exact ⟨0, Nat.le_refl 0, rfl, viable_iff_feed.2 ⟨Reader.start, rfl⟩, fun hlt => by cases hlt⟩
  · rcases Reader.run_eq_error h with
      ⟨read, placed, rest, reader, rfl, hfeed, hstep, hposition⟩ | ⟨reader, hfeed, -, hposition⟩
    · have htake : (read ++ placed :: rest).take (read.length + 1) = read ++ [placed] := by
        simp [List.take_append]
      refine ⟨read.length, by simp, by simp [positionAt, hposition], ?_, fun _ => ?_⟩
      · rw [List.take_left]
        exact viable_iff_feed.2 ⟨reader, hfeed⟩
      · rw [htake]
        exact not_viable_of_step hfeed hstep
    · refine ⟨tokens.length, Nat.le_refl _, by simp [positionAt, hposition], ?_, fun hlt => ?_⟩
      · rw [List.take_length]
        exact viable_iff_feed.2 ⟨reader, hfeed⟩
      · exact absurd hlt (Nat.lt_irrefl _)

/-- Under the limit one, `NOT (` is refused at its second token. -/
theorem ofTokens_error_position_tooDeep :
    let tokens : List Placed := [⟨.keyword .not, 0⟩, ⟨.opening, 4⟩, ⟨.field ['a'], 5⟩,
      ⟨.comparator .eq, 7⟩, ⟨.number ['1'], 9⟩, ⟨.closing, 10⟩]
    ofTokens 1 11 tokens = .error ⟨.tooDeep 1, 4⟩ ∧
      ∃ k ≤ tokens.length, 4 = positionAt 11 tokens k ∧ Viable 1 (tokens.take k) ∧
        (k < tokens.length → ¬ Viable 1 (tokens.take (k + 1))) := by
  intro tokens
  have h : ofTokens 1 11 tokens = .error ⟨.tooDeep 1, 4⟩ := by decide
  exact ⟨h, ofTokens_error_position h⟩

end FilterQuery.Condition
