import FilterQuery.Binary64.Nearest
import Mathlib.Tactic

/-!
# The nearest double

A double is nearest to a fraction if no other double is closer, and if of two equally close ones it
is the one with the even significand. An infinite double counts as the power of two after the
largest finite one. Each fraction has one such double of each sign, and rounding finds it.
-/

namespace FilterQuery.Binary64

variable {x y : Binary64}

def absolute (x : Binary64) : ℚ := x.significand * 2 ^ x.scale / 2 ^ 1074

/-- Round to nearest, and a tie to even. -/
structure IsNearest (negative : Bool) (r : ℚ) (x : Binary64) : Prop where
  sign : x.isNegative = negative
  number : x.isNaN = false
  closest : ∀ y : Binary64, y.isNaN = false → |r - x.absolute| ≤ |r - y.absolute|
  even : ∀ y : Binary64, y.isNaN = false → y.absolute ≠ x.absolute →
    |r - x.absolute| = |r - y.absolute| → Even x.significand

/-! ### Steps from zero -/

/-- The magnitude that is so many doubles away from zero, in units of `2 ^ -1074`. -/
def extent (m : ℕ) : ℕ :=
  if m < 2 ^ 52 then m else (2 ^ 52 + m % 2 ^ 52) * 2 ^ (m / 2 ^ 52 - 1)

/-- A count of units of `2 ^ scale` that fills the significand, unless the scale is least. The count
may be one too many, where a carry moves it to the next scale. -/
structure Scaled (scale count : ℕ) : Prop where
  full : scale = 0 ∨ 2 ^ 52 ≤ count
  fits : count ≤ 2 ^ 53

theorem extent_scaled {scale count : ℕ} (h : Scaled scale count) :
    extent (scale * 2 ^ 52 + count) = count * 2 ^ scale := by
  obtain ⟨hfull, hfits⟩ := h
  by_cases hsmall : count < 2 ^ 52
  · obtain rfl : scale = 0 := by omega
    rw [extent, if_pos (by omega)]
    simp
  rw [extent, if_neg (by omega)]
  rcases Nat.lt_or_eq_of_le hfits with hlt | rfl
  · have hdiv : (scale * 2 ^ 52 + count) / 2 ^ 52 = scale + 1 := by omega
    have hmod : 2 ^ 52 + (scale * 2 ^ 52 + count) % 2 ^ 52 = count := by omega
    rw [hdiv, hmod, Nat.add_sub_cancel]
  · have hdiv : (scale * 2 ^ 52 + 2 ^ 53) / 2 ^ 52 = scale + 2 := by omega
    have hmod : 2 ^ 52 + (scale * 2 ^ 52 + 2 ^ 53) % 2 ^ 52 = 2 ^ 52 := by omega
    have hsucc : scale + 2 - 1 = scale + 1 := by omega
    rw [hdiv, hmod, hsucc]
    ring

theorem extent_succ (m : ℕ) : extent (m + 1) = extent m + 2 ^ (m / 2 ^ 52 - 1) := by
  obtain ⟨scale, count, hscale, hm, hscaled, hlt⟩ : ∃ scale count, scale = m / 2 ^ 52 - 1 ∧
      m = scale * 2 ^ 52 + count ∧ (scale = 0 ∨ 2 ^ 52 ≤ count) ∧ count < 2 ^ 53 :=
    ⟨m / 2 ^ 52 - 1, m - (m / 2 ^ 52 - 1) * 2 ^ 52, rfl, by omega, by omega, by omega⟩
  have hnext : Scaled scale (count + 1) := ⟨by omega, by omega⟩
  rw [← hscale, hm, extent_scaled ⟨hscaled, hlt.le⟩, Nat.add_assoc, extent_scaled hnext]
  ring

theorem extent_strictMono : StrictMono extent := by
  apply strictMono_nat_of_lt_succ
  intro m
  rw [extent_succ]
  exact Nat.lt_add_of_pos_right (by positivity)

theorem extent_add_le_of_gt {scale count m : ℕ} (h : Scaled scale count)
    (hm : scale * 2 ^ 52 + count < m) :
    extent (scale * 2 ^ 52 + count) + 2 ^ scale ≤ extent m := by
  have hscale : scale ≤ (scale * 2 ^ 52 + count) / 2 ^ 52 - 1 := by
    have := h.full
    omega
  calc extent (scale * 2 ^ 52 + count) + 2 ^ scale
      ≤ extent (scale * 2 ^ 52 + count) + 2 ^ ((scale * 2 ^ 52 + count) / 2 ^ 52 - 1) :=
        Nat.add_le_add_left (Nat.pow_le_pow_right (by norm_num) hscale) _
    _ = extent (scale * 2 ^ 52 + count + 1) := (extent_succ _).symm
    _ ≤ extent m := extent_strictMono.monotone hm

/-- Below a power of two the doubles are closer together, so it is left out here. -/
theorem extent_add_le_of_lt {scale count m : ℕ} (h : Scaled scale count)
    (hfull : scale = 0 ∨ 2 ^ 52 < count) (hm : m < scale * 2 ^ 52 + count) :
    extent m + 2 ^ scale ≤ extent (scale * 2 ^ 52 + count) := by
  obtain ⟨less, rfl⟩ : ∃ less, count = less + 1 := Nat.exists_eq_succ_of_ne_zero (by omega)
  have hless : Scaled scale less := ⟨by omega, by have := h.fits; omega⟩
  calc extent m + 2 ^ scale
      ≤ extent (scale * 2 ^ 52 + less) + 2 ^ scale :=
        Nat.add_le_add_right (extent_strictMono.monotone (by omega)) _
    _ = (less + 1) * 2 ^ scale := by rw [extent_scaled hless]; ring
    _ = extent (scale * 2 ^ 52 + (less + 1)) := (extent_scaled h).symm

/-! ### Rounding -/

theorem le_roundHalfEven (num den : ℕ) : num / den ≤ roundHalfEven num den := by
  unfold roundHalfEven
  dsimp only
  split_ifs
  · exact le_rfl
  · exact Nat.le_succ _

theorem roundHalfEven_le (num den : ℕ) : roundHalfEven num den ≤ num / den + 1 := by
  unfold roundHalfEven
  dsimp only
  split_ifs
  · exact Nat.le_succ _
  · exact le_rfl

/-- The quotient is at most a half away from its rounding, and a half only from an even one. -/
theorem roundHalfEven_bounds (num : ℕ) {den : ℕ} (hden : 0 < den) :
    2 * num ≤ 2 * (roundHalfEven num den * den) + den ∧
      2 * (roundHalfEven num den * den) ≤ 2 * num + den ∧
      (2 * num = 2 * (roundHalfEven num den * den) + den ∨
        2 * (roundHalfEven num den * den) = 2 * num + den → Even (roundHalfEven num den)) := by
  have hdiv := Nat.div_add_mod num den
  have hmod := Nat.mod_lt num hden
  have hnext : (num / den + 1) * den = den * (num / den) + den := by ring
  unfold roundHalfEven
  dsimp only
  simp only [Bool.or_eq_true, decide_eq_true_eq, Bool.and_eq_true, beq_iff_eq, Nat.even_iff]
  split_ifs with hlow
  · rw [Nat.mul_comm (num / den) den]
    omega
  · rw [hnext]
    omega

theorem abs_sub_roundHalfEven (num : ℕ) {den : ℕ} (hden : 0 < den) :
    2 * |(num : ℚ) / den - roundHalfEven num den| ≤ 1 ∧
      (2 * |(num : ℚ) / den - roundHalfEven num den| = 1 → Even (roundHalfEven num den)) := by
  obtain ⟨hbelow, habove, htie⟩ := roundHalfEven_bounds num hden
  have hpos : (0 : ℚ) < den := by exact_mod_cast hden
  have hdiff : (num : ℚ) / den - roundHalfEven num den =
      (num - roundHalfEven num den * den) / den := by field_simp
  have hhalf : 2 * |(num : ℚ) / den - roundHalfEven num den| =
      |2 * (num : ℚ) - 2 * (roundHalfEven num den * den)| / den := by
    rw [hdiff, abs_div, abs_of_pos hpos, ← mul_sub, abs_mul, abs_two, mul_div_assoc]
  rw [hhalf, div_le_one hpos, div_eq_one_iff_eq hpos.ne', abs_le]
  refine ⟨⟨?_, ?_⟩, ?_⟩
  · have : (2 : ℚ) * (roundHalfEven num den * den) ≤ 2 * num + den := by exact_mod_cast habove
    linarith
  · have : (2 : ℚ) * num ≤ 2 * (roundHalfEven num den * den) + den := by exact_mod_cast hbelow
    linarith
  · intro hhalf
    apply htie
    rcases eq_or_eq_neg_of_abs_eq hhalf with heq | heq
    · left
      exact_mod_cast (by linarith : (2 : ℚ) * num = 2 * (roundHalfEven num den * den) + den)
    · right
      exact_mod_cast (by linarith : (2 : ℚ) * (roundHalfEven num den * den) = 2 * num + den)

def rounded (steps den : ℕ) : ℕ :=
  ((steps / den).log2 - 52) * 2 ^ 52 +
    roundHalfEven steps (den * 2 ^ ((steps / den).log2 - 52))

theorem nearest_eq (negative : Bool) (num den : ℕ) :
    nearest negative num den =
      ofMagnitude negative (min (rounded (num * twoPow 1074) den) infinity) := rfl

/-- The scale is chosen so that the quotient fills the significand. -/
theorem log2_scale (steps den : ℕ) :
    ((steps / den).log2 - 52 = 0 ∨ 2 ^ 52 ≤ steps / (den * 2 ^ ((steps / den).log2 - 52))) ∧
      steps / (den * 2 ^ ((steps / den).log2 - 52)) < 2 ^ 53 := by
  rw [← Nat.div_div_eq_div_mul]
  generalize steps / den = whole
  by_cases hsmall : whole.log2 ≤ 52
  · rw [Nat.sub_eq_zero_of_le hsmall]
    refine ⟨.inl rfl, ?_⟩
    rw [pow_zero, Nat.div_one]
    exact Nat.lt_log2_self.trans_le (Nat.pow_le_pow_right (by norm_num) (by omega))
  · obtain ⟨scale, hscale⟩ : ∃ scale, whole.log2 = scale + 52 :=
      ⟨whole.log2 - 52, by omega⟩
    have hne : whole ≠ 0 := by
      rintro rfl
      simp at hsmall
    rw [hscale, Nat.add_sub_cancel]
    constructor
    · right
      rw [Nat.le_div_iff_mul_le (by positivity), ← pow_add, Nat.add_comm, ← hscale]
      exact Nat.log2_self_le hne
    · rw [Nat.div_lt_iff_lt_mul (by positivity), ← pow_add]
      exact (Nat.log2_lt hne).1 (by omega)

theorem scaled_rounded (steps den : ℕ) :
    Scaled ((steps / den).log2 - 52)
      (roundHalfEven steps (den * 2 ^ ((steps / den).log2 - 52))) := by
  obtain ⟨hfull, hfits⟩ := log2_scale steps den
  exact ⟨hfull.imp_right (le_roundHalfEven _ _).trans', (roundHalfEven_le _ _).trans hfits⟩

/-- A number is rounded to one count of doubles from zero rather than to another. -/
structure Preferred (q : ℚ) (m n : ℕ) : Prop where
  close : |q - extent m| ≤ |q - extent n|
  even : |q - extent m| = |q - extent n| → Even m

theorem abs_sub_lt_of_lt_of_le {q e d : ℚ} (hd : d < e) (he : e ≤ q) : |q - e| < |q - d| := by
  rw [abs_of_nonneg (by linarith), abs_of_nonneg (by linarith)]
  linarith

theorem preferred_of_lt {q : ℚ} {m n : ℕ} (h : |q - extent m| < |q - extent n|) :
    Preferred q m n :=
  ⟨h.le, fun heq => absurd heq h.ne⟩

theorem closest_of_gap {q e d gap : ℚ} (hnear : 2 * |q - e| ≤ gap) (hgap : gap ≤ |e - d|) :
    |q - e| ≤ |q - d| ∧ (|q - e| = |q - d| → 2 * |q - e| = gap) := by
  have htriangle : |e - d| ≤ |q - e| + |q - d| := by
    rw [abs_sub_comm q e]
    exact abs_sub_le e q d
  constructor
  · linarith
  · intro heq
    linarith

/-- Doubles on both sides are a whole unit away. Only below a power of two they are closer, and
there the fraction lies above it. -/
theorem closest_of_scaled {scale count m : ℕ} {q : ℚ} (h : Scaled scale count)
    (hnear : 2 * |q - extent (scale * 2 ^ 52 + count)| ≤ 2 ^ scale)
    (hfull : scale = 0 ∨ 2 ^ 52 * 2 ^ scale ≤ q) (hm : m ≠ scale * 2 ^ 52 + count) :
    |q - extent (scale * 2 ^ 52 + count)| ≤ |q - extent m| ∧
      (|q - extent (scale * 2 ^ 52 + count)| = |q - extent m| →
        2 * |q - extent (scale * 2 ^ 52 + count)| = 2 ^ scale) := by
  rcases Nat.lt_or_gt_of_ne hm with hlt | hgt
  · by_cases hpower : scale = 0 ∨ 2 ^ 52 < count
    · have hstep : (extent m : ℚ) + 2 ^ scale ≤ extent (scale * 2 ^ 52 + count) := by
        exact_mod_cast extent_add_le_of_lt h hpower hlt
      apply closest_of_gap hnear
      rw [le_abs]
      left
      linarith
    · have hcount : count = 2 ^ 52 := by
        have := h.full
        omega
      have hbelow : (extent m : ℚ) < extent (scale * 2 ^ 52 + count) := by
        exact_mod_cast extent_strictMono hlt
      have habove : (extent (scale * 2 ^ 52 + count) : ℚ) ≤ q := by
        rw [extent_scaled h, hcount]
        push_cast
        exact hfull.resolve_left fun hscale => hpower (.inl hscale)
      have hcloser := abs_sub_lt_of_lt_of_le hbelow habove
      exact ⟨hcloser.le, fun heq => absurd heq hcloser.ne⟩
  · have hstep : (extent (scale * 2 ^ 52 + count) : ℚ) + 2 ^ scale ≤ extent m := by
      exact_mod_cast extent_add_le_of_gt h hgt
    apply closest_of_gap hnear
    rw [le_abs]
    right
    linarith

theorem abs_sub_extent_scaled (steps den : ℕ) {scale count : ℕ} (h : Scaled scale count) :
    2 * |(steps : ℚ) / den - extent (scale * 2 ^ 52 + count)| =
      2 ^ scale * (2 * |(steps : ℚ) / (den * 2 ^ scale : ℕ) - count|) := by
  have hsplit : (steps : ℚ) / den - extent (scale * 2 ^ 52 + count) =
      2 ^ scale * ((steps : ℚ) / (den * 2 ^ scale : ℕ) - count) := by
    rw [extent_scaled h]
    push_cast
    field_simp
  rw [hsplit, abs_mul, abs_of_pos (by positivity)]
  ring

/-- No other double is closer to the fraction, and one that is as close gives way to an even one. -/
theorem rounded_preferred (steps : ℕ) {den m : ℕ} (hden : 0 < den) (hm : m ≠ rounded steps den) :
    Preferred (steps / den) (rounded steps den) m := by
  have hscaled := scaled_rounded steps den
  obtain ⟨hfull, -⟩ := log2_scale steps den
  unfold rounded at hm ⊢
  generalize (steps / den).log2 - 52 = scale at hm hscaled hfull ⊢
  obtain ⟨hhalf, heven⟩ := abs_sub_roundHalfEven steps (Nat.mul_pos hden (Nat.two_pow_pos scale))
  generalize roundHalfEven steps (den * 2 ^ scale) = count at hm hscaled hhalf heven ⊢
  have hunit := abs_sub_extent_scaled steps den hscaled
  have hpos : (0 : ℚ) < 2 ^ scale := by positivity
  have hnear : 2 * |(steps : ℚ) / den - extent (scale * 2 ^ 52 + count)| ≤ 2 ^ scale := by
    rw [hunit]
    exact mul_le_of_le_one_right hpos.le hhalf
  have hquotient : scale = 0 ∨ (2 : ℚ) ^ 52 * 2 ^ scale ≤ steps / den := by
    refine hfull.imp_right fun hle => ?_
    rw [Nat.le_div_iff_mul_le (by positivity)] at hle
    rw [le_div_iff₀ (by exact_mod_cast hden)]
    exact_mod_cast (by linarith : 2 ^ 52 * 2 ^ scale * den ≤ steps)
  obtain ⟨hle, htie⟩ := closest_of_scaled hscaled hnear hquotient hm
  refine ⟨hle, fun heq => ?_⟩
  have hone := htie heq
  rw [hunit, mul_eq_left₀ hpos.ne'] at hone
  have hcount := heven hone
  rw [Nat.even_iff] at hcount ⊢
  omega

/-- The same holds among the doubles up to infinity, which stands for all beyond it. -/
theorem min_rounded_preferred (steps : ℕ) {den m : ℕ} (hden : 0 < den) (hm : m ≤ infinity)
    (hne : m ≠ min (rounded steps den) infinity) :
    Preferred (steps / den) (min (rounded steps den) infinity) m := by
  by_cases hle : rounded steps den ≤ infinity
  · rw [Nat.min_eq_left hle] at hne ⊢
    exact rounded_preferred steps hden hne
  have hlt : infinity < rounded steps den := Nat.lt_of_not_le hle
  rw [Nat.min_eq_right hlt.le] at hne ⊢
  -- Infinity would be closer than the rounding if the fraction were below it.
  have habove : (extent infinity : ℚ) ≤ steps / den := by
    by_contra hbelow
    have hover : (extent infinity : ℚ) < extent (rounded steps den) := by
      exact_mod_cast extent_strictMono hlt
    have hclose := (rounded_preferred steps hden hlt.ne).close
    rw [abs_of_nonpos (by linarith), abs_of_nonpos (by linarith)] at hclose
    linarith
  apply preferred_of_lt
  refine abs_sub_lt_of_lt_of_le ?_ habove
  exact_mod_cast extent_strictMono (Nat.lt_of_le_of_ne hm hne)

/-! ### Bits -/

theorem infinity_eq : infinity = 2047 * 2 ^ 52 := rfl

/-- All bits but the sign, which count the doubles from zero to the magnitude. -/
def fields (x : Binary64) : ℕ := x.bits.toNat % 2 ^ 63

theorem exponentField_eq (x : Binary64) : x.exponentField = x.fields / 2 ^ 52 := by
  change x.bits.toNat / 2 ^ 52 % 2 ^ 11 = x.bits.toNat % 2 ^ 63 / 2 ^ 52
  omega

theorem fraction_eq (x : Binary64) : x.fraction = x.fields % 2 ^ 52 := by
  change x.bits.toNat % 2 ^ 52 = x.bits.toNat % 2 ^ 63 % 2 ^ 52
  omega

theorem significand_eq (x : Binary64) :
    x.significand = if x.fields < 2 ^ 52 then x.fields else 2 ^ 52 + x.fields % 2 ^ 52 := by
  have htwo : twoPow 52 = 2 ^ 52 := rfl
  rw [significand, exponentField_eq, fraction_eq, htwo]
  split_ifs <;> omega

theorem absolute_eq (x : Binary64) : x.absolute = extent x.fields / 2 ^ 1074 := by
  rw [absolute, significand_eq, scale, exponentField_eq, extent]
  split_ifs with hsmall
  · have hscale : x.fields / 2 ^ 52 - 1 = 0 := by omega
    rw [hscale, pow_zero, mul_one]
  · push_cast
    rfl

theorem even_significand_iff (x : Binary64) : Even x.significand ↔ Even x.fields := by
  rw [significand_eq, Nat.even_iff, Nat.even_iff]
  split_ifs <;> omega

theorem isNaN_eq_false_iff (x : Binary64) : x.isNaN = false ↔ x.fields ≤ infinity := by
  have hfields : x.fields < 2 ^ 63 := Nat.mod_lt _ (by norm_num)
  rw [isNaN, exponentField_eq, fraction_eq, infinity_eq, Bool.and_eq_false_iff, beq_eq_false_iff_ne,
    bne_eq_false_iff_eq]
  omega

theorem eq_of_fields (hsign : x.isNegative = y.isNegative) (hfields : x.fields = y.fields) :
    x = y := by
  have hsign' : 2 ^ 63 ≤ x.bits.toNat ↔ 2 ^ 63 ≤ y.bits.toNat := decide_eq_decide.1 hsign
  have hfields' : x.bits.toNat % 2 ^ 63 = y.bits.toNat % 2 ^ 63 := hfields
  have hx := x.bits.toNat_lt
  have hy := y.bits.toNat_lt
  have hbits : x.bits.toNat = y.bits.toNat := by omega
  obtain ⟨bits⟩ := x
  obtain ⟨bits'⟩ := y
  exact congrArg Binary64.mk (UInt64.toNat_inj.1 hbits)

theorem toNat_ofMagnitude (negative : Bool) {m : ℕ} (hm : m ≤ infinity) :
    (ofMagnitude negative m).bits.toNat = m + if negative then 2 ^ 63 else 0 := by
  rw [infinity_eq] at hm
  apply UInt64.toNat_ofNat_of_lt'
  change m + (if negative then 2 ^ 63 else 0) < 2 ^ 64
  split_ifs <;> omega

theorem fields_ofMagnitude (negative : Bool) {m : ℕ} (hm : m ≤ infinity) :
    (ofMagnitude negative m).fields = m := by
  rw [fields, toNat_ofMagnitude negative hm]
  rw [infinity_eq] at hm
  split_ifs <;> omega

theorem isNegative_ofMagnitude (negative : Bool) {m : ℕ} (hm : m ≤ infinity) :
    (ofMagnitude negative m).isNegative = negative := by
  change decide (2 ^ 63 ≤ (ofMagnitude negative m).bits.toNat) = negative
  rw [toNat_ofMagnitude negative hm]
  rw [infinity_eq] at hm
  cases negative with
  | false => simpa using by omega
  | true => simp

/-! ### The double that a fraction is read as -/

theorem absolute_lt_iff : x.absolute < y.absolute ↔ x.fields < y.fields := by
  rw [absolute_eq, absolute_eq, div_lt_div_iff_of_pos_right (by positivity), Nat.cast_lt,
    extent_strictMono.lt_iff_lt]

theorem cast_twoPow (n : ℕ) : (twoPow n : ℚ) = 2 ^ n := Nat.cast_pow 2 n

theorem abs_sub_absolute (num den : ℕ) (x : Binary64) :
    |(num : ℚ) / den - x.absolute| =
      |((num * twoPow 1074 : ℕ) : ℚ) / den - extent x.fields| / 2 ^ 1074 := by
  have hpos : (0 : ℚ) < 2 ^ 1074 := by positivity
  rw [absolute_eq, Nat.cast_mul, cast_twoPow]
  generalize (2 : ℚ) ^ 1074 = unit at hpos ⊢
  rw [eq_div_iff hpos.ne', ← abs_of_pos hpos, ← abs_mul, abs_of_pos hpos, sub_mul,
    div_mul_cancel₀ _ hpos.ne', div_mul_eq_mul_div]

theorem isNearest_nearest (negative : Bool) (num : ℕ) {den : ℕ} (hden : 0 < den) :
    (nearest negative num den).IsNearest negative (num / den) := by
  have hcap := Nat.min_le_right (rounded (num * twoPow 1074) den) infinity
  rw [nearest_eq]
  have hfields := fields_ofMagnitude negative hcap
  have hpreferred : ∀ y : Binary64, y.isNaN = false →
      y.fields ≠ min (rounded (num * twoPow 1074) den) infinity →
      Preferred ((num * twoPow 1074 : ℕ) / den)
        (min (rounded (num * twoPow 1074) den) infinity) y.fields :=
    fun y hy hne => min_rounded_preferred _ hden ((isNaN_eq_false_iff y).1 hy) hne
  generalize min (rounded (num * twoPow 1074) den) infinity = m at hcap hfields hpreferred ⊢
  constructor
  case sign => exact isNegative_ofMagnitude negative hcap
  case number => rwa [isNaN_eq_false_iff, hfields]
  case closest =>
    intro y hy
    by_cases hne : y.fields = m
    · rw [abs_sub_absolute, abs_sub_absolute, hfields, hne]
    · rw [abs_sub_absolute, abs_sub_absolute, hfields]
      exact div_le_div_of_nonneg_right (hpreferred y hy hne).close (by positivity)
  case even =>
    intro y hy hne heq
    have hfields' : y.fields ≠ m := by
      rintro rfl
      exact hne (by rw [absolute_eq, absolute_eq, hfields])
    rw [abs_sub_absolute, abs_sub_absolute, hfields, div_left_inj' (by positivity)] at heq
    rw [even_significand_iff, hfields]
    exact (hpreferred y hy hfields').even heq

/-- Of two doubles as close as any there is one closer between them, unless they are neighbours, and
of these only one is even. -/
theorem IsNearest.not_fields_lt {negative : Bool} {r : ℚ} (hx : x.IsNearest negative r)
    (hy : y.IsNearest negative r) : ¬ x.fields < y.fields := by
  intro hlt
  have habsolute := absolute_lt_iff.2 hlt
  have htie : |r - x.absolute| = |r - y.absolute| :=
    le_antisymm (hx.closest y hy.number) (hy.closest x hx.number)
  have hevenx := (even_significand_iff x).1 (hx.even y hy.number habsolute.ne' htie)
  have heveny := (even_significand_iff y).1 (hy.even x hx.number habsolute.ne htie.symm)
  have hgap : x.fields + 1 < y.fields := by
    rw [Nat.even_iff] at hevenx heveny
    omega
  have hcap : x.fields + 1 ≤ infinity := hgap.le.trans ((isNaN_eq_false_iff y).1 hy.number)
  let between := ofMagnitude false (x.fields + 1)
  have hbetween : between.fields = x.fields + 1 := fields_ofMagnitude false hcap
  have hleft : x.absolute < between.absolute := absolute_lt_iff.2 (by omega)
  have hright : between.absolute < y.absolute := absolute_lt_iff.2 (by omega)
  have hclosest := hx.closest between ((isNaN_eq_false_iff between).2 (by omega))
  rcases abs_eq_abs.1 htie with heq | heq
  · linarith
  · rw [abs_of_pos (by linarith), le_abs] at hclosest
    rcases hclosest with h | h <;> linarith

theorem IsNearest.unique {negative : Bool} {r : ℚ} (hx : x.IsNearest negative r)
    (hy : y.IsNearest negative r) : x = y := by
  apply eq_of_fields (hx.sign.trans hy.sign.symm)
  exact Nat.le_antisymm (Nat.not_lt.1 (hy.not_fields_lt hx)) (Nat.not_lt.1 (hx.not_fields_lt hy))

/-- Rounding finds the one double that is nearest to a fraction. -/
theorem isNearest_iff {negative : Bool} {num den : ℕ} (hden : 0 < den) :
    x.IsNearest negative (num / den) ↔ x = nearest negative num den := by
  constructor
  · intro h
    exact h.unique (isNearest_nearest negative num hden)
  · rintro rfl
    exact isNearest_nearest negative num hden

-- Halfway between two doubles, the lower one is even.
example : nearest false (2 ^ 53 + 1) 1 = nearest false (2 ^ 53) 1 := by decide +kernel

end FilterQuery.Binary64
