import FilterQuery.Proofs.Lexemes
import FilterQuery.Proofs.NumericLeaves
import FilterQuery.Proofs.SpelledLiterals
import FilterQuery.Proofs.StatementOpening

/-!
# Integer literals

A comparison of a field with a sign and digits is read as the integer that these spell in base ten,
however many digits there are. The integers of 64 bits are read, and any other is refused at the
first character of the numeral. An integer of 64 bits is read back from its own text.
-/

namespace FilterQuery

open Outcome

namespace Text

theorem toNat_lt_of_isAlphanum {c : Char} (h : c.isAlphanum = true) : c.toNat < 128 := by
  have hle : ∀ d : Char, d.toNat < 128 → c.val ≤ d.val → c.toNat < 128 :=
    fun d hd hcd => Nat.lt_of_le_of_lt (UInt32.le_iff_toNat_le.1 hcd) hd
  rcases Bool.or_eq_true_iff.1 h with hletter | hdigit
  · rcases Bool.or_eq_true_iff.1 hletter with hupper | hlower
    · exact hle 'Z' (by decide) (of_decide_eq_true hupper).2
    · exact hle 'z' (by decide) (of_decide_eq_true (Bool.and_eq_true_iff.1 hlower).2)
  · exact hle '9' (by decide) (of_decide_eq_true (Bool.and_eq_true_iff.1 hdigit).2)

theorem capitals_of_ascii {c : Char} (h : c.toNat < 128) : capitals c = [c.toUpper] := by
  have hne : ∀ d : Char, 128 ≤ d.toNat → c ≠ d := by
    rintro d hd rfl
    omega
  simp (disch := decide) only [capitals, hne, if_false]

theorem inCapitals_of_ascii {t : Text} (h : ∀ c ∈ t, c.toNat < 128) :
    inCapitals t = t.map Char.toUpper := by
  induction t with
  | nil => rfl
  | cons c t ih =>
    obtain ⟨hc, ht⟩ := List.forall_mem_cons.1 h
    rw [inCapitals, List.flatMap_cons, capitals_of_ascii hc, List.map_cons, ← ih ht]
    rfl

theorem countP_isBlank_of_class {p : Char → Bool} (hp : ∀ {c}, isBlank c = true → p c = false)
    {t : Text} (h : ∀ c ∈ t, p c = true) : t.countP isBlank = 0 := by
  rw [List.countP_eq_zero]
  intro c hc
  rw [isBlank_eq_false_of_class hp (h c hc)]
  exact Bool.false_ne_true

end Text

namespace Numeral

/-- The text of an integer is a sign and digits that spell it. -/
theorem exists_signed_ofInt (n : Int) :
    ∃ negative digits, Signed (ofInt n) negative digits ∧ digits ≠ [] ∧
      (∀ c ∈ digits, c.isDigit = true) ∧ spelledInt negative digits = n := by
  cases n with
  | ofNat n =>
    refine ⟨false, ofNat n, .none _, ofNat_ne_nil n, fun c hc => isDigit_of_mem_ofNat hc, ?_⟩
    rw [spelledInt, ← value_eq_spelledNat, value_ofNat]
    rfl
  | negSucc n =>
    refine ⟨true, ofNat (n + 1), .minus _, ofNat_ne_nil _, fun c hc => isDigit_of_mem_ofNat hc, ?_⟩
    rw [spelledInt, ← value_eq_spelledNat, value_ofNat]
    rfl

end Numeral

namespace Token

open Numeral

/-- The numeral of a token: a plus sign is not kept. -/
def kept (negative : Bool) (digits : Text) : Text := if negative then '-' :: digits else digits

theorem signed_kept (negative : Bool) (digits : Text) :
    Signed (kept negative digits) negative digits := by
  cases negative with
  | false => exact .none digits
  | true => exact .minus digits

theorem lexeme_of_signed {numeral digits : Text} {negative : Bool}
    (hsigned : Signed numeral negative digits) (hne : digits ≠ [])
    (hdigits : ∀ c ∈ digits, c.isDigit = true) :
    Lexeme numeral (.number (kept negative digits)) := by
  have hfigures : IsFigures digits := ⟨hne, fun c hc => .inl (hdigits c hc)⟩
  cases hsigned with
  | none => exact .number hfigures
  | plus => exact .plus hfigures
  | minus => exact .minus hfigures

theorem readLiteral_out_of_range {numeral digits : Text} {negative : Bool}
    (hsigned : Signed numeral negative digits) (hne : digits ≠ [])
    (hdigits : ∀ c ∈ digits, c.isDigit = true)
    (hrange : ¬ (-2 ^ 63 ≤ spelledInt negative digits ∧ spelledInt negative digits ≤ 2 ^ 63 - 1)) :
    (Token.number numeral).readLiteral = .error (.integerOutOfRange numeral) := by
  have hread : readInt? numeral = some (spelledInt negative digits) :=
    readInt?_eq_some_iff.2 ⟨negative, digits, hsigned, hne, hdigits, rfl⟩
  have hfits : isInt64 (spelledInt negative digits) = false := by
    rw [← Bool.not_eq_true, isInt64_iff]
    exact hrange
  have hpoint : '.' ∉ numeral := by
    rw [point_mem_iff_of_signed hsigned]
    exact fun hmem => absurd (hdigits _ hmem) (by decide)
  simp [readLiteral, readNumber, hpoint, hread, hfits]

theorem IsWord.isWordChar {word : Text} (h : IsWord word) :
    ∀ c ∈ word, Token.isWordChar c = true := by
  cases word with
  | nil => exact h.elim
  | cons first rest =>
    obtain ⟨hfirst, hrest⟩ := isWord_cons_iff.1 h
    exact List.forall_mem_cons.2 ⟨isWordChar_of_isWordStart hfirst, hrest⟩

/-- An ASCII letter or an underscore, then ASCII letters, digits and underscores. -/
def IsPlainName : Text → Prop
  | [] => False
  | first :: rest => (first.isAlpha = true ∨ first = '_') ∧
    ∀ c ∈ rest, c.isAlphanum = true ∨ c = '_'

theorem IsPlainName.chars {name : Text} (h : IsPlainName name) :
    ∀ c ∈ name, c.isAlphanum = true ∨ c = '_' := by
  cases name with
  | nil => exact h.elim
  | cons first rest =>
    refine List.forall_mem_cons.2 ⟨h.1.imp_left fun hletter => ?_, h.2⟩
    rw [Char.isAlphanum, hletter, Bool.true_or]

theorem IsPlainName.ascii {name : Text} (h : IsPlainName name) : ∀ c ∈ name, c.toNat < 128 := by
  intro c hc
  rcases h.chars c hc with hplain | rfl
  · exact Text.toNat_lt_of_isAlphanum hplain
  · decide

theorem IsPlainName.isWord {name : Text} (h : IsPlainName name) : IsWord name := by
  have hascii := h.ascii
  cases name with
  | nil => exact h.elim
  | cons first rest =>
    obtain ⟨hfirst, hrest⟩ := List.forall_mem_cons.1 hascii
    constructor
    · rw [Text.isLetter_of_ascii hfirst]
      exact h.1.imp_right .inl
    · intro c hc
      rw [Text.isLetter_of_ascii (hrest c hc), Text.isNumeral_of_ascii (hrest c hc)]
      rcases h.2 c hc with hplain | hline
      · exact (Bool.or_eq_true_iff.1 hplain).imp_right .inl
      · exact .inr (.inr (.inl hline))

/-- A plain name bears no marks, so it names the field as it is written. -/
theorem IsPlainName.lexeme {name : Text} (h : IsPlainName name)
    (hword : ∀ keyword : Keyword, name.map Char.toUpper ≠ keyword.spelling) :
    Lexeme name (.field name) := by
  have hmarks : name.dropWhile (· == '@') = name := by
    cases name with
    | nil => rfl
    | cons first rest =>
      apply List.dropWhile_cons_of_neg
      rw [beq_iff_eq]
      rintro rfl
      rcases h.1 with hletter | hline
      · cases hletter
      · cases hline
  have hfield := Lexeme.field h.isWord (Text.inCapitals_of_ascii h.ascii ▸ hword)
  rwa [hmarks] at hfield

end Token

namespace Statement

/-- There is white space behind `SELECT` and on both sides of `WHERE`. -/
theorem Opening.three_le_countP {opening : Text} (h : Opening opening) :
    3 ≤ opening.countP Text.isBlank := by
  obtain @⟨blanks, select, columns, _, blank, -, -, hblank, -, hspaced⟩ := h
  obtain @⟨before, after, spelling, hbefore, -, hafter⟩ := hspaced
  simp only [List.countP_append, List.countP_cons_of_pos hblank, List.cons_append,
    List.countP_cons_of_pos hbefore, List.countP_cons_of_pos hafter]
  omega

theorem condition?_eq_none_of_countP {query : Text} (h : query.countP Text.isBlank < 3) :
    condition? query = none := by
  rw [condition?_eq_none_iff]
  intro start hstart hopening
  have hle := hstart.sublist.countP_le (p := Text.isBlank)
  have hthree := hopening.three_le_countP
  omega

end Statement

namespace Condition

open Numeral Token

/-- A comparison is read, or refused where its value stands. -/
theorem ofTokens_comparison (limit endPosition : Nat) (field : Text) (op : Comparator)
    (token : Token) (first second third : Nat) :
    ofTokens limit endPosition
        [⟨.field field, first⟩, ⟨.comparator op, second⟩, ⟨token, third⟩] =
      (token.readLiteral.map (.compare field op)).mapError (⟨·, third⟩) := by
  let reader := Reader.start.await (.comparedValue field op)
  have hreader : ofTokens limit endPosition
      [⟨.field field, first⟩, ⟨.comparator op, second⟩, ⟨token, third⟩] =
        reader.run limit endPosition [⟨token, third⟩] := rfl
  have hstep : reader.step limit token =
      token.readLiteral.map fun value => reader.complete (.compare field op value) := rfl
  rw [hreader, Reader.run, hstep]
  cases token.readLiteral with
  | ok value => rfl
  | error fault => rfl

/-- A field name, a comparator and a value, each parted from the next by one space. -/
theorem parse_comparison (limit : Nat) {field symbol spelling : Text} {op : Comparator}
    {token : Token} (hfield : Lexeme field (.field field)) (hsymbol : symbol ∈ op.symbols)
    (hvalue : Lexeme spelling token)
    (hplain : Statement.condition? (field ++ ' ' :: symbol ++ ' ' :: spelling) = none) :
    parse limit (field ++ ' ' :: symbol ++ ' ' :: spelling) =
      (token.readLiteral.map (.compare field op)).mapError
        (⟨·, (field ++ ' ' :: symbol ++ [' ']).length⟩) := by
  let pieces : List Piece :=
    [⟨[], field, _, by simp, hfield⟩,
      ⟨[' '], symbol, _, by simp [Text.isBlank], .comparator hsymbol⟩,
      ⟨[' '], spelling, token, by simp [Text.isBlank], hvalue⟩]
  have hscan : scanFrom 0 (pieces.flatMap Piece.text ++ []) = .ok (placed 0 pieces) :=
    scanFrom_pieces (by simp) (by simp [pieces]) 0
  have htext : pieces.flatMap Piece.text ++ [] = field ++ ' ' :: symbol ++ ' ' :: spelling := by
    simp [pieces, Piece.text]
  have hposition : 0 + field.length + (' ' :: symbol).length + 1 =
      (field ++ ' ' :: symbol ++ [' ']).length := by
    simp [Nat.add_assoc]
  rw [htext] at hscan
  rw [parse, hplain]
  dsimp only
  rw [ofText, scan, hscan, ok_bind, ← hposition]
  exact ofTokens_comparison limit _ field op token _ _ _

section

variable (limit : Nat) {field numeral digits : Text} {negative : Bool}

theorem condition?_of_signed (hname : IsPlainName field) (hsigned : Signed numeral negative digits)
    (hdigits : ∀ c ∈ digits, c.isDigit = true) :
    Statement.condition? (field ++ " = ".toList ++ numeral) = none := by
  have hfield : field.countP Text.isBlank = 0 :=
    Text.countP_isBlank_of_class isWordChar_of_isBlank hname.isWord.isWordChar
  have hbody : digits.countP Text.isBlank = 0 :=
    Text.countP_isBlank_of_class (Text.eq_false_of_isBlank (by decide)) hdigits
  have hnumeral : numeral.countP Text.isBlank = 0 := by
    cases hsigned with
    | none => exact hbody
    | plus => rw [List.countP_cons_of_neg (by decide), hbody]
    | minus => rw [List.countP_cons_of_neg (by decide), hbody]
  -- A field may be named `select`, but two spaces are too few for an opening.
  apply Statement.condition?_eq_none_of_countP
  rw [List.countP_append, List.countP_append, hfield, hnumeral]
  decide

/-- What is read of the digits decides, and a refusal stands where the numeral begins. -/
theorem parse_of_signed (hname : IsPlainName field)
    (hword : ∀ keyword : Keyword, field.map Char.toUpper ≠ keyword.spelling)
    (hsigned : Signed numeral negative digits) (hne : digits ≠ [])
    (hdigits : ∀ c ∈ digits, c.isDigit = true) :
    parse limit (field ++ " = ".toList ++ numeral) =
      ((Token.number (kept negative digits)).readLiteral.map (.compare field .eq)).mapError
        (⟨·, (field ++ " = ".toList).length⟩) := by
  have htext : field ++ " = ".toList ++ numeral = field ++ ' ' :: ['='] ++ ' ' :: numeral := by
    simp
  have hplain := condition?_of_signed hname hsigned hdigits
  rw [htext] at hplain ⊢
  have hsymbol : ['='] ∈ Comparator.eq.symbols := List.mem_cons_self
  rw [parse_comparison limit (hname.lexeme hword) hsymbol (lexeme_of_signed hsigned hne hdigits)
    hplain]
  simp

end

/-- A sign and digits are read as the integer that they spell if it fits into 64 bits, and refused
where they begin if not. The text of an integer of 64 bits is read as that integer. -/
theorem parse_integer (limit : Nat) {field : Text} (hname : IsPlainName field)
    (hword : ∀ keyword : Keyword, field.map Char.toUpper ≠ keyword.spelling) :
    (∀ numeral negative digits, Signed numeral negative digits → digits ≠ [] →
      (∀ c ∈ digits, c.isDigit = true) →
      let n := spelledInt negative digits
      let query := field ++ " = ".toList ++ numeral
      (-2 ^ 63 ≤ n ∧ n ≤ 2 ^ 63 - 1 → parse limit query = .ok (.compare field .eq (.integer n))) ∧
      (¬ (-2 ^ 63 ≤ n ∧ n ≤ 2 ^ 63 - 1) →
        ∃ error, parse limit query = .error error ∧
          error.fault.message = "Integer out of range: ".toList ++ kept negative digits ∧
          error.position = (field ++ " = ".toList).length)) ∧
    ∀ n : Int, -2 ^ 63 ≤ n → n ≤ 2 ^ 63 - 1 →
      ∃ text, (Literal.integer n).text = .ok text ∧
        parse limit (field ++ " = ".toList ++ text) = .ok (.compare field .eq (.integer n)) := by
  have hread : ∀ {numeral negative digits}, Signed numeral negative digits → digits ≠ [] →
      (∀ c ∈ digits, c.isDigit = true) →
      -2 ^ 63 ≤ spelledInt negative digits → spelledInt negative digits ≤ 2 ^ 63 - 1 →
      parse limit (field ++ " = ".toList ++ numeral) =
        .ok (.compare field .eq (.integer (spelledInt negative digits))) := by
    intro numeral negative digits hsigned hne hdigits hlow hhigh
    rw [parse_of_signed limit hname hword hsigned hne hdigits,
      readLiteral_of_isLiteral (.integer (signed_kept negative digits) hne hdigits hlow hhigh)]
    rfl
  refine ⟨fun numeral negative digits hsigned hne hdigits => ⟨?_, ?_⟩, fun n hlow hhigh => ?_⟩
  · rintro ⟨hlow, hhigh⟩
    exact hread hsigned hne hdigits hlow hhigh
  · intro hrange
    have hrefused := parse_of_signed limit hname hword hsigned hne hdigits
    rw [readLiteral_out_of_range (signed_kept negative digits) hne hdigits hrange] at hrefused
    exact ⟨_, hrefused, rfl, rfl⟩
  · obtain ⟨negative, digits, hsigned, hne, hdigits, rfl⟩ := exists_signed_ofInt n
    exact ⟨_, rfl, hread hsigned hne hdigits hlow hhigh⟩

/-- A field with the first word of a statement as its name: a plus sign and leading zeros, the least
integer of 64 bits written out and from its own text, and the first integer above the greatest. -/
theorem parse_integer_limits :
    let field := "select".toList
    IsPlainName field ∧ (∀ keyword : Keyword, field.map Char.toUpper ≠ keyword.spelling) ∧
      parse 0 (field ++ " = ".toList ++ "+007".toList) = .ok (.compare field .eq (.integer 7)) ∧
      parse 0 (field ++ " = ".toList ++ "-9223372036854775808".toList) =
        .ok (.compare field .eq (.integer (-2 ^ 63))) ∧
      (∃ error, parse 0 (field ++ " = ".toList ++ "+9223372036854775808".toList) = .error error ∧
        error.fault.message = "Integer out of range: 9223372036854775808".toList ∧
        error.position = 9) ∧
      ∃ text, (Literal.integer (-2 ^ 63)).text = .ok text ∧
        parse 0 (field ++ " = ".toList ++ text) =
          .ok (.compare field .eq (.integer (-2 ^ 63))) := by
  intro field
  have hrest : ∀ c ∈ ['e', 'l', 'e', 'c', 't'], c.isAlphanum = true ∨ c = '_' := by simp
  have hname : IsPlainName field := ⟨.inl rfl, hrest⟩
  have hword : ∀ keyword : Keyword, field.map Char.toUpper ≠ keyword.spelling := by
    intro keyword
    cases keyword <;> decide
  have hdigits : ∀ {digits : Text}, digits.all Char.isDigit = true →
      ∀ c ∈ digits, c.isDigit = true :=
    fun h => List.all_eq_true.1 h
  obtain ⟨hnumerals, htexts⟩ := parse_integer 0 hname hword
  refine ⟨hname, hword, ?_, ?_, ?_, htexts _ (by norm_num) (by norm_num)⟩
  · exact (hnumerals _ false "007".toList (.plus _) (by decide) (hdigits rfl)).1 (by decide +kernel)
  · exact (hnumerals _ true "9223372036854775808".toList (.minus _) (by decide) (hdigits rfl)).1
      (by decide +kernel)
  · exact (hnumerals _ false "9223372036854775808".toList (.plus _) (by decide) (hdigits rfl)).2
      (by decide +kernel)

end Condition

end FilterQuery
