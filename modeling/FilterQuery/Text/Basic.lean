/-!
# Text

Text is a list of characters, so that every reader and printer below recurses on it. This module
holds white space, the spelling in capitals that keywords are compared in, the order of names and
the division into lines.
-/

namespace FilterQuery

abbrev Text := List Char

/-- Characters in a class differ from those outside of it. -/
theorem ne_of_class {p : Char → Bool} {c d : Char} (hc : p c = true) (hd : p d = false) :
    c ≠ d := by
  rintro rfl
  simp [hc] at hd

namespace Text

/-- The characters with the White_Space property. -/
def isBlank (c : Char) : Bool :=
  let n := c.toNat
  (9 ≤ n && n ≤ 13) || n == 0x20 || n == 0x85 || n == 0xa0 || n == 0x1680 ||
    (0x2000 ≤ n && n ≤ 0x200a) || n == 0x2028 || n == 0x2029 || n == 0x202f || n == 0x205f ||
    n == 0x3000

/-- The same characters one by one. -/
def blanks : List Char :=
  [9, 10, 11, 12, 13, 0x20, 0x85, 0xa0, 0x1680, 0x2000, 0x2001, 0x2002, 0x2003, 0x2004, 0x2005,
    0x2006, 0x2007, 0x2008, 0x2009, 0x200a, 0x2028, 0x2029, 0x202f, 0x205f, 0x3000].map Char.ofNat

theorem mem_blanks {c : Char} (h : isBlank c = true) : c ∈ blanks := by
  simp only [isBlank, Bool.or_eq_true, Bool.and_eq_true, decide_eq_true_eq, beq_iff_eq] at h
  refine List.mem_map.2 ⟨c.toNat, ?_, Char.ofNat_toNat c⟩
  simp only [List.mem_cons, List.not_mem_nil, or_false]
  omega

/-- A class that holds no white space, seen one by one, holds none. -/
theorem eq_false_of_isBlank {p : Char → Bool} (h : blanks.all (fun c => !p c) = true) {c : Char}
    (hc : isBlank c = true) : p c = false := by
  have hnot := List.all_eq_true.1 h c (mem_blanks hc)
  simpa using hnot

theorem isBlank_eq_false_of_class {p : Char → Bool} (hp : ∀ {c}, isBlank c = true → p c = false)
    {c : Char} (hc : p c = true) : isBlank c = false := by
  rw [← Bool.not_eq_true]
  intro hblank
  rw [hp hblank] at hc
  cases hc

def trimStart (t : Text) : Text := t.dropWhile isBlank

def trimEnd (t : Text) : Text := (t.reverse.dropWhile isBlank).reverse

/-- The text without the white space around it. -/
def trim (t : Text) : Text := trimEnd (trimStart t)

/-- A character in capitals, where these are ASCII letters. Any other character stands for itself:
its capitals are not ASCII, and only ASCII spellings are looked for. -/
def capitals (c : Char) : Text :=
  if c = 'ß' then ['S', 'S']
  else if c = 'ı' then ['I']
  else if c = 'ſ' then ['S']
  else if c = 'ﬀ' then ['F', 'F']
  else if c = 'ﬁ' then ['F', 'I']
  else if c = 'ﬂ' then ['F', 'L']
  else if c = 'ﬃ' then ['F', 'F', 'I']
  else if c = 'ﬄ' then ['F', 'F', 'L']
  else if c = 'ﬅ' then ['S', 'T']
  else if c = 'ﬆ' then ['S', 'T']
  else [c.toUpper]

def inCapitals (t : Text) : Text := t.flatMap capitals

/-- Equal up to the case of ASCII letters. -/
def equalIgnoringCase (s t : Text) : Bool := s.map Char.toLower == t.map Char.toLower

/-- The strict order of names: by code point, the first difference deciding, and a proper
beginning before the whole. -/
def precedes : Text → Text → Bool
  | [], [] => false
  | [], _ :: _ => true
  | _ :: _, [] => false
  | a :: as, b :: bs => a.toNat < b.toNat || (a == b && precedes as bs)

theorem not_precedes_self (s : Text) : precedes s s = false := by
  induction s with
  | nil => rfl
  | cons a s ih => simp [precedes, ih]

theorem precedes_trans {s t u : Text} (h₁ : precedes s t) (h₂ : precedes t u) : precedes s u := by
  induction s generalizing t u with
  | nil => cases t <;> cases u <;> simp_all [precedes]
  | cons a s ih =>
    cases t with
    | nil => simp [precedes] at h₁
    | cons b t =>
      cases u with
      | nil => simp [precedes] at h₂
      | cons c u =>
        simp only [precedes, Bool.or_eq_true, decide_eq_true_eq, Bool.and_eq_true,
          beq_iff_eq] at *
        rcases h₁ with h₁ | ⟨rfl, h₁⟩ <;> rcases h₂ with h₂ | ⟨rfl, h₂⟩
        · exact .inl (Nat.lt_trans h₁ h₂)
        · exact .inl h₁
        · exact .inl h₂
        · exact .inr ⟨rfl, ih h₁ h₂⟩

theorem eq_of_not_precedes {s t : Text} (h₁ : precedes s t = false) (h₂ : precedes t s = false) :
    s = t := by
  induction s generalizing t with
  | nil => cases t <;> simp_all [precedes]
  | cons a s ih =>
    cases t with
    | nil => simp [precedes] at h₂
    | cons b t =>
      simp only [precedes, Bool.or_eq_false_iff, decide_eq_false_iff_not, Bool.and_eq_false_imp,
        beq_iff_eq] at h₁ h₂
      have hab : a = b := Char.toNat_inj.1 (by omega)
      subst hab
      rw [ih (h₁.2 rfl) (h₂.2 rfl)]

/-- The lines of a text. A line ends before a line feed, or before a carriage return that comes
right before one; text after the last line feed is a line of its own. -/
def lines : Text → List Text
  | [] => []
  | '\n' :: rest => [] :: lines rest
  | '\r' :: '\n' :: rest => [] :: lines rest
  | c :: rest =>
    match lines rest with
    | [] => [[c]]
    | line :: more => (c :: line) :: more

end Text

end FilterQuery
