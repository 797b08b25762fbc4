import FilterQuery.Parentheses
import Mathlib.Tactic

/-!
# Counting parentheses

The count of open parentheses is a state that one character after the other changes. A text is
neutral if it leaves every count outside a range as it was. Neutral texts may stand next to each
other and between parentheses, and a balanced query stays balanced when it is stripped.
-/

namespace FilterQuery.Parentheses

structure Count where
  depth : Nat
  inRange : Bool
  afterColon : Bool

/-- A character that is never counted and opens no range. -/
def Plain (c : Char) : Prop := c ≠ '(' ∧ c ≠ ')' ∧ c ≠ '['

instance : DecidablePred Plain := fun c => inferInstanceAs (Decidable (c ≠ '(' ∧ c ≠ ')' ∧ c ≠ '['))

namespace Count

def start : Count := ⟨0, false, false⟩

/-- The count after one more character, unless that closes what was never opened. -/
def step (count : Count) (c : Char) : Option Count :=
  if count.inRange then some ⟨count.depth, c != ']', c == ':'⟩
  else if c == '[' && count.afterColon then some ⟨count.depth, true, c == ':'⟩
  else if c == '(' then some ⟨count.depth + 1, false, c == ':'⟩
  else if c == ')' then
    match count.depth with
    | 0 => none
    | depth + 1 => some ⟨depth, false, c == ':'⟩
  else some ⟨count.depth, false, c == ':'⟩

def run (count : Count) (text : Text) : Option Count := text.foldlM step count

@[simp] theorem run_nil (count : Count) : count.run [] = some count := rfl

@[simp] theorem run_cons (count : Count) (c : Char) (text : Text) :
    count.run (c :: text) = (count.step c).bind (run · text) := rfl

@[simp] theorem run_append (count : Count) (text more : Text) :
    count.run (text ++ more) = (count.run text).bind (run · more) :=
  List.foldlM_append

theorem step_deeper {count next : Count} {c : Char} (more : Nat) (h : count.step c = some next) :
    step { count with depth := count.depth + more } c =
      some { next with depth := next.depth + more } := by
  obtain ⟨depth, inRange, afterColon⟩ := count
  unfold step at h ⊢
  dsimp only at h ⊢
  split_ifs at h ⊢
  · cases h; rfl
  · cases h; rfl
  · cases h
    simp only [Option.some.injEq, Count.mk.injEq, and_true]
    omega
  · cases depth with
    | zero => simp at h
    | succ depth =>
      cases h
      rw [Nat.succ_add]
  · cases h; rfl

/-- With more parentheses open to begin with, as many more are open in the end. -/
theorem run_deeper {count count' : Count} {text : Text} (more : Nat)
    (h : count.run text = some count') :
    run { count with depth := count.depth + more } text =
      some { count' with depth := count'.depth + more } := by
  induction text generalizing count with
  | nil =>
    simp only [run_nil, Option.some.injEq] at h
    subst h
    rfl
  | cons c text ih =>
    simp only [run_cons, Option.bind_eq_some_iff] at h ⊢
    obtain ⟨next, hstep, hrun⟩ := h
    exact ⟨{ next with depth := next.depth + more }, step_deeper more hstep, ih hrun⟩

/-- Whether inside a range or not, plain characters leave the depth as it is. -/
theorem run_plain {text : Text} (h : ∀ c ∈ text, Plain c) (depth : Nat)
    (inRange afterColon : Bool) :
    ∃ inRange' afterColon', (inRange = false → inRange' = false) ∧
      run ⟨depth, inRange, afterColon⟩ text = some ⟨depth, inRange', afterColon'⟩ := by
  induction text generalizing inRange afterColon with
  | nil => exact ⟨inRange, afterColon, id, rfl⟩
  | cons c text ih =>
    obtain ⟨hopening, hclosing, hbracket⟩ := h c List.mem_cons_self
    have hrest : ∀ c ∈ text, Plain c := fun c hc => h c (List.mem_cons_of_mem _ hc)
    obtain ⟨inRange', afterColon', himp, hrun⟩ := ih hrest (inRange && c != ']') (c == ':')
    refine ⟨inRange', afterColon', fun hout => himp (by simp [hout]), ?_⟩
    cases inRange with
    | true => simpa [step] using hrun
    | false => simpa [step, hopening, hclosing, hbracket] using hrun

/-- Without a closing bracket a range stays open. -/
theorem run_inRange {body : Text} (h : ∀ c ∈ body, c ≠ ']') (depth : Nat) (afterColon : Bool) :
    ∃ afterColon', run ⟨depth, true, afterColon⟩ body = some ⟨depth, true, afterColon'⟩ := by
  induction body generalizing afterColon with
  | nil => exact ⟨afterColon, rfl⟩
  | cons c body ih =>
    have hc : c ≠ ']' := h c List.mem_cons_self
    obtain ⟨last, hlast⟩ := ih (fun c hc => h c (List.mem_cons_of_mem _ hc)) (c == ':')
    have hopen : (c != ']') = true := by simpa using hc
    exact ⟨last, by simpa [step, hopen] using hlast⟩

end Count

theorem balancedFrom_eq_run (depth : Nat) (inRange afterColon : Bool) (text : Text) :
    balancedFrom depth inRange afterColon text =
      ((Count.mk depth inRange afterColon).run text).any (·.depth == 0) := by
  induction text generalizing depth inRange afterColon with
  | nil => rfl
  | cons c text ih =>
    rw [balancedFrom.eq_def, Count.run_cons, Count.step]
    dsimp only
    split_ifs
    · exact ih ..
    · exact ih ..
    · exact ih ..
    · cases depth with
      | zero => rfl
      | succ depth => exact ih ..
    · exact ih ..

theorem isBalanced_iff {query : Text} :
    isBalanced query = true ↔ ∃ count, Count.start.run query = some count ∧ count.depth = 0 := by
  rw [isBalanced, balancedFrom_eq_run, Option.any_eq_true]
  simp [Count.start]

/-- A text that leaves every count outside a range where it was. -/
def Neutral (text : Text) : Prop :=
  ∀ depth afterColon, ∃ afterColon',
    (Count.mk depth false afterColon).run text = some ⟨depth, false, afterColon'⟩

namespace Neutral

theorem append {text more : Text} (h : Neutral text) (hmore : Neutral more) :
    Neutral (text ++ more) := by
  intro depth afterColon
  obtain ⟨middle, hmiddle⟩ := h depth afterColon
  obtain ⟨last, hlast⟩ := hmore depth middle
  exact ⟨last, by simp [hmiddle, hlast]⟩

theorem parenthesized {text : Text} (h : Neutral text) : Neutral ('(' :: text ++ [')']) := by
  intro depth afterColon
  obtain ⟨last, hlast⟩ := h (depth + 1) false
  exact ⟨false, by simp [Count.step, hlast]⟩

theorem of_plain {text : Text} (h : ∀ c ∈ text, Plain c) : Neutral text := by
  intro depth afterColon
  obtain ⟨inRange, afterColon', himp, hrun⟩ := Count.run_plain h depth false afterColon
  exact ⟨afterColon', by rw [hrun, himp rfl]⟩

/-- A range is neutral if its body keeps the depth, wherever the range closes. -/
theorem range {head body : Text} (hhead : ∀ c ∈ head, Plain c)
    (hbody : ∀ depth, ∃ inRange last,
      (Count.mk depth true false).run body = some ⟨depth, inRange, last⟩) :
    Neutral (head ++ ':' :: '[' :: body ++ [']']) := by
  intro depth afterColon
  obtain ⟨first, hfirst⟩ := of_plain hhead depth afterColon
  obtain ⟨inRange, last, hlast⟩ := hbody depth
  refine ⟨false, ?_⟩
  cases inRange <;> simp [Count.step, hfirst, hlast]

theorem isBalanced {text : Text} (h : Neutral text) : isBalanced text = true := by
  obtain ⟨afterColon, hrun⟩ := h 0 false
  exact isBalanced_iff.2 ⟨_, hrun, rfl⟩

/-- What follows the first parenthesis of a neutral text closes it too early to be balanced. -/
theorem not_isBalanced {text : Text} (h : Neutral ('(' :: text)) (rest : Text) :
    Parentheses.isBalanced (text ++ rest) = false := by
  rw [Bool.eq_false_iff, ne_eq, isBalanced_iff]
  rintro ⟨count, hrun, -⟩
  rw [Count.run_append, Option.bind_eq_some_iff] at hrun
  obtain ⟨middle, hmiddle, -⟩ := hrun
  obtain ⟨afterColon, hneutral⟩ := h 0 false
  have hdeeper := Count.run_deeper 1 hmiddle
  simp only [Count.run_cons, Count.step, Count.start] at hneutral hdeeper
  simp [hdeeper] at hneutral

end Neutral

theorem inside?_eq_some {query inner : Text} :
    inside? query = some inner ↔ query = '(' :: inner ++ [')'] := by
  constructor
  · intro h
    unfold inside? at h
    split at h
    · rename_i rest
      split_ifs at h with hlast
      cases h
      rw [List.cons_append, List.dropLast_append_getLast? ')' hlast]
    · simp at h
  · rintro rfl
    simp [inside?]

theorem strip_of_isBalanced {inner : Text} (h : isBalanced inner = true) :
    strip ('(' :: inner ++ [')']) = strip inner := by
  have hinside : inside? ('(' :: inner ++ [')']) = some inner := inside?_eq_some.2 rfl
  rw [strip]
  split
  · rename_i other hother
    cases hinside.symm.trans hother
    rw [if_pos h]
  · rename_i hnone
    cases hinside.symm.trans hnone

/-- Nothing is stripped unless one pair is around a balanced text. -/
theorem strip_eq_self {query : Text}
    (h : ∀ inner, query = '(' :: inner ++ [')'] → isBalanced inner = false) :
    strip query = query := by
  rw [strip]
  split
  · rename_i inner hinner
    simp [h inner (inside?_eq_some.1 hinner)]
  · rfl

theorem isBalanced_strip {query : Text} (h : isBalanced query = true) :
    isBalanced (strip query) = true := by
  fun_induction strip query with
  | case1 query inner hinner hlength hbalanced ih => exact ih hbalanced
  | case2 query inner hinner hlength hbalanced => exact h
  | case3 query hnone => exact h

/-- The first parenthesis of a query is not its outermost one if it is closed before the end. -/
theorem strip_append {first rest : Text} (h : Neutral ('(' :: first)) (hrest : rest ≠ []) :
    strip ('(' :: first ++ rest) = '(' :: first ++ rest := by
  apply strip_eq_self
  intro inner hinner
  obtain ⟨init, last, rfl⟩ : ∃ init last, rest = init ++ [last] :=
    ⟨rest.dropLast, rest.getLast hrest, (List.dropLast_append_getLast hrest).symm⟩
  have hparts : first ++ init = inner := by
    rw [List.cons_append, List.cons_append, List.cons.injEq, ← List.append_assoc] at hinner
    exact (List.append_inj' hinner.2 rfl).1
  rw [← hparts]
  exact h.not_isBalanced init

end FilterQuery.Parentheses
