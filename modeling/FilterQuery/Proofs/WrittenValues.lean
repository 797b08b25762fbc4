import FilterQuery.Compiler
import FilterQuery.Proofs.Outcome
import Mathlib.Data.List.TakeWhile
import Mathlib.Tactic

/-!
# Characters of written values

Numbers are written in digits, signs and points. A string keeps its characters, and what is escaped
has its spaces, commas and backslashes behind a backslash each.
-/

namespace FilterQuery

open Outcome

namespace Numeral

theorem isFigure_of_isDigit {c : Char} (h : c.isDigit = true) : isFigure c = true := by
  simp [isFigure, h]

theorem isDigit_digit {d : Nat} (h : d < 10) : (digit d).isDigit = true := by
  rw [Char.isDigit_iff_toNat, toNat_digit h]
  simp
  omega

theorem isDigit_of_mem_ofNat {n : Nat} {c : Char} (h : c ∈ ofNat n) : c.isDigit = true := by
  induction n using Nat.strongRecOn with
  | _ n ih =>
    rw [ofNat] at h
    split at h
    · rename_i hn
      rw [List.mem_singleton.1 h]
      exact isDigit_digit hn
    · rcases List.mem_append.1 h with h | h
      · exact ih (n / 10) (by omega) h
      · rw [List.mem_singleton.1 h]
        exact isDigit_digit (by omega)

theorem isFigure_of_mem_ofInt {n : Int} {c : Char} (h : c ∈ ofInt n) : isFigure c = true := by
  cases n with
  | ofNat n => exact isFigure_of_isDigit (isDigit_of_mem_ofNat h)
  | negSucc n =>
    rcases List.mem_cons.1 h with rfl | h
    · rfl
    · exact isFigure_of_isDigit (isDigit_of_mem_ofNat h)

theorem isFigure_of_isNumber {t : Text} (h : isNumber t = true) {c : Char} (hc : c ∈ t) :
    isFigure c = true := by
  have hbody : ∀ c ∈ (splitSign t).2, isFigure c = true := by
    intro c hc
    simp only [isNumber, isUnsigned, Bool.and_eq_true, List.all_eq_true, Bool.or_eq_true] at h
    rcases h.1.1 c hc with hdigit | hpoint
    · exact isFigure_of_isDigit hdigit
    · simp [isFigure, hpoint]
  unfold splitSign at hbody
  split at hbody
  · rcases List.mem_cons.1 hc with rfl | hc
    · rfl
    · exact hbody c hc
  · rcases List.mem_cons.1 hc with rfl | hc
    · rfl
    · exact hbody c hc
  · exact hbody c hc

theorem mem_of_mem_splitSign {t : Text} {c : Char} (h : c ∈ (splitSign t).2) : c ∈ t := by
  unfold splitSign at h
  split at h
  · exact List.mem_cons_of_mem _ h
  · exact List.mem_cons_of_mem _ h
  · exact h

theorem exists_digit_of_isNumber {t : Text} (h : isNumber t = true) :
    ∃ c ∈ t, c.isDigit = true := by
  simp only [isNumber, isUnsigned, Bool.and_eq_true, List.any_eq_true] at h
  obtain ⟨c, hc, hdigit⟩ := h.1.2
  exact ⟨c, mem_of_mem_splitSign hc, hdigit⟩

theorem toLower_of_isFigure {c : Char} (h : isFigure c = true) : c.toLower = c := by
  simp only [isFigure, Bool.or_eq_true, beq_iff_eq] at h
  rcases h with ((hdigit | rfl) | rfl) | rfl
  · have hle : c.toNat ≤ 57 := (Char.isDigit_iff_toNat.1 hdigit).2
    unfold Char.toLower
    split_ifs with hcapital
    · have hge : 65 ≤ c.toNat := hcapital.1
      omega
    · rfl
  · rfl
  · rfl
  · rfl

theorem equalIgnoringCase_eq_false_of_figures {t name : Text}
    (h : ∀ c ∈ t, isFigure c = true) {letter : Char} (hmem : letter ∈ name)
    (hletter : isFigure letter.toLower = false) : Text.equalIgnoringCase t name = false := by
  rw [Text.equalIgnoringCase, beq_eq_false_iff_ne]
  intro heq
  have hlower : letter.toLower ∈ t.map Char.toLower := heq ▸ List.mem_map_of_mem hmem
  obtain ⟨c, hc, hcase⟩ := List.mem_map.1 hlower
  rw [← hcase, toLower_of_isFigure (h c hc), h c hc] at hletter
  cases hletter

/-- Figures spell neither an exponent nor a name, so they read as a double exactly if they are a
plain number. -/
theorem isFloat_eq_isNumber {t : Text} (h : ∀ c ∈ t, isFigure c = true) :
    isFloat t = isNumber t := by
  have hbody : ∀ c ∈ (splitSign t).2, isFigure c = true :=
    fun c hc => h c (mem_of_mem_splitSign hc)
  have hmantissa : ∀ c ∈ (splitSign t).2, (c != 'e' && c != 'E') = true := by
    intro c hc
    have hfigure := hbody c hc
    simp only [Bool.and_eq_true, bne_iff_ne]
    constructor
    · rintro rfl
      cases hfigure
    · rintro rfl
      cases hfigure
  have hnames : (["inf", "infinity", "nan"].any fun name =>
      Text.equalIgnoringCase (splitSign t).2 name.toList) = false := by
    rw [List.any_eq_false]
    intro name hname
    have hletter : 'n' ∈ name.toList := by
      simp only [List.mem_cons, List.not_mem_nil, or_false] at hname
      rcases hname with rfl | rfl | rfl <;> decide
    simp [equalIgnoringCase_eq_false_of_figures hbody hletter rfl]
  simp only [isFloat, hnames, List.takeWhile_eq_self_iff.2 hmantissa,
    List.dropWhile_eq_nil_iff.2 hmantissa, isExponent, isNumber, Bool.and_true, Bool.or_false]

end Numeral

namespace Binary64

open Numeral

theorem isFigure_of_mem_positional {digits : Text} {exponent : Int}
    (hdigits : ∀ c ∈ digits, isFigure c = true) {c : Char} (h : c ∈ positional digits exponent) :
    isFigure c = true := by
  have hpadded : ∀ n, ∀ c ∈ List.replicate n '0' ++ digits, isFigure c = true := by
    intro n c hc
    rcases List.mem_append.1 hc with hc | hc
    · rw [List.eq_of_mem_replicate hc]
      rfl
    · exact hdigits c hc
  unfold positional at h
  split at h
  · simp only [List.mem_append, List.mem_cons, List.not_mem_nil, or_false] at h
    rcases h with (h | h) | rfl | rfl
    · exact hdigits c h
    · rw [List.eq_of_mem_replicate h]
      rfl
    · rfl
    · rfl
  · simp only [List.mem_append, List.mem_cons] at h
    rcases h with h | rfl | h
    · exact hpadded _ c (List.mem_of_mem_take h)
    · rfl
    · exact hpadded _ c (List.mem_of_mem_drop h)

theorem isFigure_of_mem_text {x : Binary64} {c : Char} (h : c ∈ x.text) : isFigure c = true := by
  have hnat : ∀ n, ∀ c ∈ ofNat n, isFigure c = true :=
    fun n c hc => isFigure_of_isDigit (isDigit_of_mem_ofNat hc)
  unfold text at h
  -- The digits themselves must not be computed here.
  generalize x.shortest = decimal at h
  obtain ⟨digits, exponent⟩ := decimal
  have hbody : ∀ c ∈ (if x.significand = 0 then positional ['0'] 0
      else positional (ofNat digits) exponent), isFigure c = true := by
    intro c hc
    split at hc
    · exact isFigure_of_mem_positional (by simp [isFigure]) hc
    · exact isFigure_of_mem_positional (hnat _) hc
  dsimp only at h
  split at h
  · rcases List.mem_cons.1 h with rfl | h
    · rfl
    · exact hbody c h
  · exact hbody c h

end Binary64

namespace Literal

def strings : Literal → List Text
  | string t => [t]
  | _ => []

/-- The tests on the characters, the digits and the whole text come to one: it is a plain number. -/
theorem isNumeric_eq_isNumber (t : Text) : isNumeric t = Numeral.isNumber (Text.trim t) := by
  rw [isNumeric, Bool.eq_iff_iff]
  simp only [Bool.and_eq_true, List.all_eq_true]
  constructor
  · rintro ⟨⟨hfigures, -⟩, hfloat⟩
    rwa [Numeral.isFloat_eq_isNumber hfigures] at hfloat
  · intro hnumber
    have hfigures := fun c => Numeral.isFigure_of_isNumber hnumber (c := c)
    refine ⟨⟨hfigures, ?_⟩, ?_⟩
    · obtain ⟨c, hc, hdigit⟩ := Numeral.exists_digit_of_isNumber hnumber
      exact List.any_eq_true.2 ⟨c, hc, hdigit⟩
    · rwa [Numeral.isFloat_eq_isNumber hfigures]

example : Numeral.isFloat "-1e5".toList = true ∧ isNumeric "-1e5".toList = false := by decide

theorem decimalText_eq_ok {x : Binary64} {t : Text} (h : decimalText x = .ok t) : t = x.text := by
  unfold decimalText at h
  split_ifs at h
  cases h
  rfl

/-- A string is written as it is, and a number in figures. -/
theorem mem_strings_or_isFigure {value : Literal} {t : Text} (h : value.text = .ok t) :
    t ∈ value.strings ∨ ∀ c ∈ t, Numeral.isFigure c = true := by
  cases value with
  | string s =>
    cases h
    exact .inl List.mem_cons_self
  | integer n =>
    cases h
    exact .inr fun c hc => Numeral.isFigure_of_mem_ofInt hc
  | decimal x =>
    rw [decimalText_eq_ok h]
    exact .inr fun c hc => Binary64.isFigure_of_mem_text hc
  | null => cases h

theorem isFigure_of_mem_numericText {value : Literal} {t : Text} (h : value.numericText = .ok t)
    {c : Char} (hc : c ∈ t) : Numeral.isFigure c = true := by
  cases value with
  | string s =>
    simp only [numericText] at h
    split_ifs at h with hnumeric
    cases h
    rw [isNumeric_eq_isNumber] at hnumeric
    exact Numeral.isFigure_of_isNumber hnumeric hc
  | integer n =>
    cases h
    exact Numeral.isFigure_of_mem_ofInt hc
  | decimal x =>
    rw [decimalText_eq_ok h] at hc
    exact Binary64.isFigure_of_mem_text hc
  | null => cases h

end Literal

end FilterQuery
