import FilterQuery.Proofs.CompiledMeaning
import FilterQuery.Proofs.FirstRefusal
import FilterQuery.Proofs.SpelledLiterals
import FilterQuery.Proofs.TrimmedText

/-!
# Numeric leaves

A comparison on a numeric field compiles exactly if its value spells a number: an integer, a finite
decimal, or a string that is one but for white space around it. The leaf then holds that number, in
the bounds that the comparison sets, and nothing else stands for a bound but the two infinities. Any
other string is refused as it was given.
-/

namespace FilterQuery

open Outcome

namespace Numeral

structure Unsigned (body : Text) : Prop where
  chars : ∀ c ∈ body, c.isDigit = true ∨ c = '.'
  digit : ∃ c ∈ body, c.isDigit = true
  point : body.count '.' ≤ 1

inductive IsNumber : Text → Prop
  | unsigned {body : Text} : Unsigned body → IsNumber body
  | plus {body : Text} : Unsigned body → IsNumber ('+' :: body)
  | minus {body : Text} : Unsigned body → IsNumber ('-' :: body)

theorem isUnsigned_iff {body : Text} : isUnsigned body = true ↔ Unsigned body := by
  simp only [isUnsigned, Bool.and_eq_true, List.all_eq_true, Bool.or_eq_true, beq_iff_eq,
    List.any_eq_true, decide_eq_true_eq]
  constructor
  · rintro ⟨⟨hchars, hdigit⟩, hpoint⟩
    exact ⟨hchars, hdigit, hpoint⟩
  · rintro ⟨hchars, hdigit, hpoint⟩
    exact ⟨⟨hchars, hdigit⟩, hpoint⟩

theorem Unsigned.head?_ne {body : Text} (h : Unsigned body) {c : Char} (hdigit : c.isDigit = false)
    (hpoint : c ≠ '.') : body.head? ≠ some c := by
  intro hhead
  rcases h.chars c (List.mem_of_mem_head? hhead) with hc | hc
  · rw [hc] at hdigit
    cases hdigit
  · exact hpoint hc

theorem isNumber_of_signed {t body : Text} {negative : Bool} (hsigned : Signed t negative body)
    (h : Unsigned body) : IsNumber t := by
  cases hsigned with
  | none => exact .unsigned h
  | plus => exact .plus h
  | minus => exact .minus h

theorem exists_signed_of_isNumber {t : Text} (h : IsNumber t) :
    ∃ negative body, Signed t negative body ∧ Unsigned body := by
  cases h with
  | unsigned hbody => exact ⟨false, _, .none _, hbody⟩
  | plus hbody => exact ⟨false, _, .plus _, hbody⟩
  | minus hbody => exact ⟨true, _, .minus _, hbody⟩

theorem isNumber_iff {t : Text} : isNumber t = true ↔ IsNumber t := by
  rw [isNumber, isUnsigned_iff]
  constructor
  · exact isNumber_of_signed (signed_splitSign t)
  · intro h
    obtain ⟨negative, body, hsigned, hbody⟩ := exists_signed_of_isNumber h
    rw [splitSign_of_signed hsigned (hbody.head?_ne rfl (by decide))
      (hbody.head?_ne rfl (by decide))]
    exact hbody

theorem isFigure_of_isBlank {c : Char} (h : Text.isBlank c = true) : isFigure c = false :=
  Text.eq_false_of_isBlank (by decide) h

theorem IsNumber.isBlank_eq_false {t : Text} (h : IsNumber t) : ∀ c ∈ t, Text.isBlank c = false :=
  fun _ hc => Text.isBlank_eq_false_of_class isFigure_of_isBlank
    (isFigure_of_isNumber (isNumber_iff.2 h) hc)

/-! ### Written numbers -/

theorem ofNat_ne_nil (n : Nat) : ofNat n ≠ [] := by
  rw [ofNat]
  split_ifs
  · exact List.cons_ne_nil _ _
  · simp

theorem unsigned_of_digits {digits : Text} (hne : digits ≠ [])
    (h : ∀ c ∈ digits, c.isDigit = true) : Unsigned digits := by
  obtain ⟨c, hc⟩ := List.exists_mem_of_ne_nil digits hne
  have hpoint : digits.count '.' = 0 := by
    rw [List.count_eq_zero]
    intro hmem
    exact absurd (h _ hmem) (by decide)
  exact ⟨fun c hc => .inl (h c hc), ⟨c, hc, h c hc⟩, by omega⟩

theorem unsigned_ofNat (n : Nat) : Unsigned (ofNat n) :=
  unsigned_of_digits (ofNat_ne_nil n) fun _ hc => isDigit_of_mem_ofNat hc

theorem isNumber_ofInt (n : Int) : IsNumber (ofInt n) := by
  cases n with
  | ofNat n => exact .unsigned (unsigned_ofNat n)
  | negSucc n => exact .minus (unsigned_ofNat (n + 1))

theorem Pointed.unsigned {whole fraction : Text} (h : Pointed whole fraction) :
    Unsigned (whole ++ '.' :: fraction) :=
  isUnsigned_iff.1 (isUnsigned_and_point_iff.2 ⟨whole, fraction, rfl, h⟩).1

end Numeral

namespace Binary64

open Numeral

theorem unsigned_positional {digits : Text} (hne : digits ≠ [])
    (h : ∀ c ∈ digits, c.isDigit = true) (exponent : Int) :
    Unsigned (positional digits exponent) := by
  have hzeros : ∀ n, ∀ c ∈ List.replicate n '0', c.isDigit = true := by
    intro n c hc
    rw [List.eq_of_mem_replicate hc]
    rfl
  unfold positional
  split_ifs
  · have hpointed : Pointed (digits ++ List.replicate exponent.toNat '0') ['0'] := by
      refine ⟨?_, by simp⟩
      simp only [List.forall_mem_append]
      exact ⟨⟨h, hzeros _⟩, by simp⟩
    simpa using hpointed.unsigned
  · apply Pointed.unsigned
    constructor
    · rw [List.take_append_drop]
      exact List.forall_mem_append.2 ⟨hzeros _, h⟩
    · rw [List.take_append_drop]
      simp [hne]

theorem isNumber_text (x : Binary64) : IsNumber x.text := by
  have hnat : ∀ n exponent, Unsigned (positional (ofNat n) exponent) :=
    fun n => unsigned_positional (ofNat_ne_nil n) fun _ hc => isDigit_of_mem_ofNat hc
  have hzero : Unsigned (positional ['0'] 0) := unsigned_positional (by simp) (by simp) 0
  unfold text
  -- The digits themselves must not be computed here.
  generalize x.shortest = decimal
  obtain ⟨digits, exponent⟩ := decimal
  dsimp only
  split_ifs
  · exact .minus hzero
  · exact .minus (hnat digits exponent)
  · exact .unsigned hzero
  · exact .unsigned (hnat digits exponent)

end Binary64

namespace Literal

open Numeral

/-- The number that a value stands for on a numeric field. -/
inductive SpellsNumber : Literal → Text → Prop
  | string {s number : Text} : Text.Surrounds s number → IsNumber number →
    SpellsNumber (.string s) number
  | integer (n : Int) : SpellsNumber (.integer n) (ofInt n)
  | decimal {x : Binary64} : x.isFinite = true → SpellsNumber (.decimal x) x.text

theorem SpellsNumber.isNumber {value : Literal} {number : Text} (h : value.SpellsNumber number) :
    IsNumber number := by
  cases h with
  | string _ hnumber => exact hnumber
  | integer n => exact isNumber_ofInt n
  | decimal _ => exact Binary64.isNumber_text _

theorem numericText_eq_ok_iff {value : Literal} {number : Text} :
    value.numericText = .ok number ↔ value.SpellsNumber number := by
  constructor
  · intro h
    cases value with
    | string s =>
      simp only [numericText] at h
      split_ifs at h with hnumeric
      cases h
      rw [isNumeric_eq_isNumber] at hnumeric
      exact .string (Text.surrounds_trim s) (isNumber_iff.1 hnumeric)
    | integer n =>
      cases h
      exact .integer n
    | decimal x =>
      simp only [numericText, decimalText] at h
      split_ifs at h with hfinite
      cases h
      exact .decimal hfinite
    | null => cases h
  · intro h
    cases h with
    | string hsurrounds hnumber =>
      have htrim := Text.trim_of_surrounds hsurrounds hnumber.isBlank_eq_false
      rw [numericText, isNumeric_eq_isNumber, htrim, if_pos (isNumber_iff.2 hnumber)]
    | integer n => rfl
    | decimal hfinite => rw [numericText, decimalText, if_pos hfinite]

theorem numericText_string_refused {s : Text}
    (h : ∀ number, ¬ (Literal.string s).SpellsNumber number) :
    (Literal.string s).numericText = .error (.notNumber s) := by
  by_cases hnumber : isNumber (Text.trim s) = true
  · exact absurd (.string (Text.surrounds_trim s) (isNumber_iff.1 hnumber)) (h (Text.trim s))
  · rw [numericText, isNumeric_eq_isNumber, if_neg hnumber]

end Literal

namespace Compiler

open Condition Literal Numeral

def numericLeaf (field number : Text) (op : Comparator) : Text :=
  if op = .ne then '-' :: onField field number else onField field (numericBody number op)

theorem compare_numeric (field : Text) (op : Comparator) (value : Literal) :
    compare .numeric field op value =
      value.numericText.map fun number => .atom (numericLeaf field number op) := by
  cases op with
  | ne =>
    simp only [compare, differs, List.cons_append, fieldHead_append]
    rfl
  | _ =>
    simp only [compare, equals, ordered, range_eq]
    rfl

theorem clause_compare_of_numeric (compiler : Compiler) {field : Text}
    (hfield : compiler.schema.get? field = some .numeric) (op : Comparator) (value : Literal) :
    compiler.clause (.compare field op value) =
      if compiler.options.maxDepth = 0 then .error (.tooDeep 0)
      else value.numericText.map fun number => .atom (numericLeaf field number op) := by
  have hresolve : compiler.schema.resolve field = .ok .numeric := by
    rw [Schema.resolve, hfield]
  rw [clause_of_leaf compiler rfl, hresolve, ok_bind, compare_numeric]

/-- On a numeric field a comparison compiles to a leaf with the number that its value spells, and to
nothing else. It does so for every value that spells a number, and a string that spells none is
refused as it was given. A limit of zero refuses them all. -/
theorem clause_compare_numeric (compiler : Compiler) {field : Text}
    (hfield : compiler.schema.get? field = some .numeric) (op : Comparator) :
    (∀ value clause, compiler.clause (.compare field op value) = .ok clause →
      ∃ number, value.SpellsNumber number ∧ IsNumber number ∧
        clause = .atom (numericLeaf field number op)) ∧
    (∀ value number, value.SpellsNumber number →
      compiler.clause (.compare field op value) =
        if compiler.options.maxDepth = 0 then .error (.tooDeep 0)
        else .ok (.atom (numericLeaf field number op))) ∧
    ∀ s, (∀ number, IsNumber number → ¬ Text.Surrounds s number) →
      compiler.clause (.compare field op (.string s)) =
        if compiler.options.maxDepth = 0 then .error (.tooDeep 0) else .error (.notNumber s) := by
  have hcompare := clause_compare_of_numeric compiler hfield op
  refine ⟨?_, ?_, ?_⟩
  · intro value clause hclause
    rw [hcompare] at hclause
    split_ifs at hclause
    obtain ⟨number, hnumber, rfl⟩ := map_eq_ok.1 hclause
    have hspells := numericText_eq_ok_iff.1 hnumber
    exact ⟨number, hspells, hspells.isNumber, rfl⟩
  · intro value number hspells
    rw [hcompare, numericText_eq_ok_iff.2 hspells]
    rfl
  · intro s hnone
    have hrefused : (Literal.string s).numericText = .error (.notNumber s) := by
      apply numericText_string_refused
      intro number hspells
      cases hspells with
      | string hsurrounds hnumber => exact hnone number hnumber hsurrounds
    rw [hcompare, hrefused]
    rfl

/-- White space around a signed number, and a string of two numbers. -/
theorem clause_compare_numeric_spaces :
    let compiler : Compiler := ⟨.ofEntries [("age".toList, .numeric)], {}⟩
    let spaced : Literal := .string "\u3000+.5\n".toList
    let leaf := "@age:[-inf (+.5]".toList
    compiler.clause (.compare "age".toList .lt spaced) = .ok (.atom leaf) ∧
      (∃ number, spaced.SpellsNumber number ∧ IsNumber number ∧
        Clause.atom leaf = .atom (numericLeaf "age".toList number .lt)) ∧
      compiler.clause (.compare "age".toList .lt (.string "1 2".toList)) =
        .error (.notNumber "1 2".toList) := by
  intro compiler spaced leaf
  have hfield : compiler.schema.get? "age".toList = some .numeric := by decide
  obtain ⟨hleaf, haccepted, hrefused⟩ := clause_compare_numeric compiler hfield .lt
  have hnumber : IsNumber "+.5".toList := isNumber_iff.1 (by decide)
  have hsurrounds : Text.Surrounds "\u3000+.5\n".toList "+.5".toList :=
    ⟨['\u3000'], ['\n'], by simp [Text.isBlank], by simp [Text.isBlank], rfl⟩
  have hspaced : compiler.clause (.compare "age".toList .lt spaced) = .ok (.atom leaf) :=
    haccepted _ _ (.string hsurrounds hnumber)
  refine ⟨hspaced, hleaf _ _ hspaced, ?_⟩
  apply hrefused
  intro number hother hframed
  have htrim := Text.trim_of_surrounds hframed hother.isBlank_eq_false
  rw [← htrim, ← isNumber_iff] at hother
  exact absurd hother (by decide)

end Compiler

end FilterQuery
