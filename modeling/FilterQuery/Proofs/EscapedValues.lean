import FilterQuery.Escape
import FilterQuery.Proofs.Outcome

/-!
# Escaped values

An escaped value is read from left to right, a backslash together with the character behind it. No
backslash is left over, no special character stands by itself, and what is read is the value. So
different values are escaped differently, and escaping a second time changes the text again, except
for values without special characters.

The value can also be escaped in several passes, each of them putting a backslash before one of the
special characters. The pass for the backslash has to be the first, since the others insert
backslashes; the order of the others does not matter.
-/

namespace FilterQuery.Escape

def specials : List Char := ['\\', '@', '.', ',', ' ', '_', '+']

theorem mem_specials {c : Char} : c ∈ specials ↔ isSpecial c = true := by
  simp [specials, isSpecial, or_assoc]

theorem forall_isSpecial_eq_false_iff {value : Text} :
    (∀ c ∈ value, isSpecial c = false) ↔ ∀ c ∈ specials, c ∉ value := by
  simp only [mem_specials, ← Bool.not_eq_true]
  constructor
  · intro h c hspecial hc
    exact h c hc hspecial
  · intro h c hc hspecial
    exact h c hspecial hc

/-! ### Reading -/

inductive ReadingFault
  /-- The text ends right behind a backslash. -/
  | openPair
  /-- A special character stands behind no backslash. -/
  | bare (c : Char)
deriving DecidableEq, Repr

/-- Reads an escaped value. A backslash and the character behind it stand for the character,
whatever it is; a character behind no backslash stands for itself and must not be special. -/
def readEscaped : Text → Except ReadingFault Text
  | [] => .ok []
  | ['\\'] => .error .openPair
  | '\\' :: c :: text => (readEscaped text).map (c :: ·)
  | c :: text => if c ∈ specials then .error (.bare c) else (readEscaped text).map (c :: ·)

theorem readEscaped_cons {c : Char} (h : isSpecial c = false) (text : Text) :
    readEscaped (c :: text) = (readEscaped text).map (c :: ·) := by
  have hbackslash := ne_backslash h
  rw [readEscaped, if_neg (by simp [mem_specials, h])]
  · exact fun hc => absurd hc hbackslash
  · exact fun _ _ hc => absurd hc hbackslash

theorem readEscaped_escapeChar_append (c : Char) (text : Text) :
    readEscaped (escapeChar c ++ text) = (readEscaped text).map (c :: ·) := by
  obtain ⟨-, hpair⟩ | ⟨hplain, hself⟩ := escapeChar_cases c
  · rw [hpair, List.cons_append, List.singleton_append, readEscaped]
  · rw [hself, List.singleton_append, readEscaped_cons hplain]

theorem readEscaped_escape (value : Text) : readEscaped (escape value) = .ok value := by
  induction value with
  | nil => rfl
  | cons c value ih =>
    rw [escape_cons, readEscaped_escapeChar_append, ih]
    rfl

/-- The value that was escaped: of a backslash and the character behind it, the character. -/
def unescape : Text → Text
  | [] => []
  | '\\' :: c :: text => c :: unescape text
  | c :: text => c :: unescape text

theorem unescape_cons {c : Char} (hbackslash : c ≠ '\\') (text : Text) :
    unescape (c :: text) = c :: unescape text := by
  rw [unescape]
  exact fun _ _ hc => absurd hc hbackslash

theorem unescape_of_readEscaped {text value : Text} (h : readEscaped text = .ok value) :
    unescape text = value := by
  fun_induction readEscaped text generalizing value with
  | case1 => cases h; rfl
  | case2 => cases h
  | case3 c text ih =>
    obtain ⟨rest, hrest, rfl⟩ := Outcome.map_eq_ok.1 h
    rw [unescape, ih hrest]
  | case4 => cases h
  | case5 c text _ _ hspecial ih =>
    obtain ⟨rest, hrest, rfl⟩ := Outcome.map_eq_ok.1 h
    have hbackslash : c ≠ '\\' := by
      rintro rfl
      exact hspecial (by decide)
    rw [unescape_cons hbackslash, ih hrest]

theorem unescape_escape (value : Text) : unescape (escape value) = value :=
  unescape_of_readEscaped (readEscaped_escape value)

theorem escape_inj {value other : Text} : escape value = escape other ↔ value = other := by
  constructor
  · intro h
    rw [← unescape_escape value, h, unescape_escape]
  · rintro rfl
    rfl

theorem length_escape (value : Text) :
    (escape value).length = value.length + value.countP isSpecial := by
  induction value with
  | nil => rfl
  | cons c value ih =>
    rw [escape_cons, List.length_append, ih, List.length_cons]
    obtain ⟨hspecial, hpair⟩ | ⟨hplain, hself⟩ := escapeChar_cases c
    · rw [hpair, List.countP_cons_of_pos hspecial, List.length_cons, List.length_singleton]
      omega
    · rw [hself, List.countP_cons_of_neg (by simp [hplain]), List.length_singleton]
      omega

theorem escape_eq_self_iff {value : Text} :
    escape value = value ↔ ∀ c ∈ value, isSpecial c = false := by
  constructor
  · intro h
    -- Every special character adds a backslash, so that the length gives them away.
    have hlength := length_escape value
    rw [h] at hlength
    have hnone : value.countP isSpecial = 0 := by omega
    simpa using List.countP_eq_zero.1 hnone
  · intro h
    induction value with
    | nil => rfl
    | cons c value ih =>
      obtain ⟨hc, hrest⟩ := List.forall_mem_cons.1 h
      rw [escape_cons, ih hrest, escapeChar, if_neg (by simp [hc]), List.singleton_append]

/-- An escaped value is read without fault, and as the value. Escaping it again changes nothing
exactly if the value has none of the special characters. -/
theorem escape_read_back (value : Text) :
    readEscaped (escape value) = .ok value ∧
      (escape (escape value) = escape value ↔
        ∀ c ∈ ['\\', '@', '.', ',', ' ', '_', '+'], c ∉ value) :=
  ⟨readEscaped_escape value,
    escape_inj.trans (escape_eq_self_iff.trans forall_isSpecial_eq_false_iff)⟩

/-- Backslashes pair up from the left: a third one is left over, and a dot behind two is bare. -/
example : readEscaped "a\\\\\\".toList = .error .openPair ∧
    readEscaped "a\\\\.".toList = .error (.bare '.') := ⟨rfl, rfl⟩

/-! ### One pass for each special character -/

def replace (c : Char) (replacement text : Text) : Text :=
  text.flatMap fun d => if d = c then replacement else [d]

/-- The text after a pass for each of the characters, from the first to the last, that puts a
backslash before the character. -/
def escapeInTurn (order : List Char) (text : Text) : Text :=
  order.foldl (fun text c => replace c ['\\', c] text) text

theorem escapeInTurn_cons (c : Char) (order : List Char) (text : Text) :
    escapeInTurn (c :: order) text = escapeInTurn order (replace c ['\\', c] text) := rfl

theorem escapeInTurn_append (order later : List Char) (text : Text) :
    escapeInTurn (order ++ later) text = escapeInTurn later (escapeInTurn order text) :=
  List.foldl_append

/-- The text after a single pass that puts a backslash before each of the characters. -/
def escapeAmong (chars : List Char) (text : Text) : Text :=
  text.flatMap fun d => if d ∈ chars then ['\\', d] else [d]

theorem replace_eq_escapeAmong (c : Char) (text : Text) :
    replace c ['\\', c] text = escapeAmong [c] text := by
  rw [replace, escapeAmong]
  congr 1
  funext d
  by_cases hdc : d = c
  · simp [hdc]
  · simp [hdc]

theorem escapeAmong_eq_escape {chars : List Char} (h : ∀ c, c ∈ chars ↔ c ∈ specials)
    (value : Text) : escapeAmong chars value = escape value := by
  have heach : ∀ c, (if c ∈ chars then ['\\', c] else [c]) = escapeChar c := by
    intro c
    rw [escapeChar]
    exact if_congr ((h c).trans mem_specials) rfl rfl
  simp only [escapeAmong, heach]
  rfl

/-- One more pass leaves the pairs of the passes before as they are. -/
theorem replace_escapeAmong {done : List Char} {c : Char} (hnew : c ∉ done) (hbackslash : c ≠ '\\')
    (text : Text) : replace c ['\\', c] (escapeAmong done text) = escapeAmong (done ++ [c]) text := by
  rw [replace, escapeAmong, escapeAmong, List.flatMap_assoc]
  congr 1
  funext d
  -- What is behind a backslash already is another character, and so is the backslash.
  by_cases hdone : d ∈ done
  · have hdc : d ≠ c := by
      rintro rfl
      exact hnew hdone
    simp [hdone, hdc, hbackslash.symm]
  · by_cases hdc : d = c
    · simp [hdc, hnew]
    · simp [hdone, hdc]

theorem escapeInTurn_escapeAmong {done order : List Char} (hnodup : (done ++ order).Nodup)
    (hbackslash : '\\' ∉ order) (text : Text) :
    escapeInTurn order (escapeAmong done text) = escapeAmong (done ++ order) text := by
  induction order generalizing done with
  | nil =>
    rw [List.append_nil]
    rfl
  | cons c order ih =>
    have hc : c ≠ '\\' := fun heq => hbackslash (heq ▸ List.mem_cons_self)
    have horder : '\\' ∉ order := fun hmem => hbackslash (List.mem_cons_of_mem c hmem)
    have hnew : c ∉ done := by
      intro hmem
      exact (List.nodup_append.1 hnodup).2.2 c hmem c List.mem_cons_self rfl
    rw [List.append_cons] at hnodup ⊢
    rw [escapeInTurn_cons, replace_escapeAmong hnew hc, ih hnodup horder]

theorem escapeInTurn_of_backslash {order : List Char} (h : order.Perm specials)
    (hfirst : order.head? = some '\\') (value : Text) :
    escapeInTurn order value = escape value := by
  obtain ⟨rest, rfl⟩ := List.head?_eq_some_iff.1 hfirst
  have hnodup : ('\\' :: rest).Nodup := h.nodup_iff.2 (by decide)
  calc escapeInTurn ('\\' :: rest) value = escapeInTurn rest (escapeAmong ['\\'] value) := by
        rw [escapeInTurn_cons, replace_eq_escapeAmong]
    _ = escapeAmong ('\\' :: rest) value :=
        escapeInTurn_escapeAmong hnodup (List.nodup_cons.1 hnodup).1 value
    _ = escape value := escapeAmong_eq_escape (fun _ => h.mem_iff) value

theorem length_le_length_replace (c : Char) (text : Text) :
    text.length ≤ (replace c ['\\', c] text).length := by
  induction text with
  | nil => exact Nat.le_refl _
  | cons d text ih =>
    rw [replace, List.flatMap_cons, List.length_append, List.length_cons, ← replace]
    split
    · simp only [List.length_cons]
      omega
    · simp only [List.length_singleton]
      omega

theorem length_le_length_escapeInTurn (order : List Char) (text : Text) :
    text.length ≤ (escapeInTurn order text).length := by
  induction order generalizing text with
  | nil => exact Nat.le_refl _
  | cons c order ih => exact Nat.le_trans (length_le_length_replace c text) (ih _)

/-- In any other order the character of the first pass ends up behind two backslashes. -/
theorem escapeInTurn_ne_escape {c : Char} {rest : List Char} (h : (c :: rest).Perm specials)
    (hfirst : c ≠ '\\') : escapeInTurn (c :: rest) [c] ≠ escape [c] := by
  have hnodup : (c :: rest).Nodup := h.nodup_iff.2 (by decide)
  have hmem : '\\' ∈ rest := by
    have hspecial : '\\' ∈ c :: rest := h.mem_iff.2 (by decide)
    exact (List.mem_cons.1 hspecial).resolve_left hfirst.symm
  obtain ⟨before, after, rfl⟩ := List.append_of_mem hmem
  have hbefore : escapeInTurn before (escapeAmong [c] [c]) = ['\\', c] := by
    have hsplit : (c :: before ++ '\\' :: after).Nodup := hnodup
    obtain ⟨hearlier, -, hapart⟩ := List.nodup_append.1 hsplit
    have hbackslash : '\\' ∉ before := by
      intro hmem
      exact hapart '\\' (List.mem_cons_of_mem c hmem) '\\' List.mem_cons_self rfl
    rw [escapeInTurn_escapeAmong hearlier hbackslash]
    simp [escapeAmong]
  have htwice : replace '\\' ['\\', '\\'] ['\\', c] = ['\\', '\\', c] := by
    simp [replace, hfirst]
  have hpasses : escapeInTurn (c :: (before ++ '\\' :: after)) [c] =
      escapeInTurn after ['\\', '\\', c] := by
    rw [escapeInTurn_cons, replace_eq_escapeAmong, escapeInTurn_append, hbefore, escapeInTurn_cons,
      htwice]
  have hescape : escape [c] = ['\\', c] := by
    rw [escape_cons, escape_nil, List.append_nil, escapeChar,
      if_pos (mem_specials.1 (h.mem_iff.1 List.mem_cons_self))]
  intro heq
  have hlength := length_le_length_escapeInTurn after ['\\', '\\', c]
  rw [← hpasses, heq, hescape] at hlength
  exact absurd hlength (by simp)

/-- Of all orders of the passes, those with the backslash first escape every value. -/
theorem escapeInTurn_eq_escape_iff {order : List Char} (h : order.Perm specials) :
    (∀ value, escapeInTurn order value = escape value) ↔ order.head? = some '\\' := by
  constructor
  · intro hescape
    cases order with
    | nil => exact absurd h.length_eq (by decide)
    | cons c rest =>
      rw [List.head?_cons, Option.some.injEq]
      by_contra hfirst
      exact escapeInTurn_ne_escape h hfirst (hescape [c])
  · exact escapeInTurn_of_backslash h

/-- Escaping a value is the same as seven replacements over all of it, one after the other. -/
theorem escape_eq_escapeInTurn (value : Text) :
    escape value = escapeInTurn ['\\', '@', '.', ',', ' ', '_', '+'] value :=
  ((escapeInTurn_eq_escape_iff (.refl specials)).2 rfl value).symm

end FilterQuery.Escape
