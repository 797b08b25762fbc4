import FilterQuery.Proofs.NearestDouble
import FilterQuery.Proofs.Outcome
import FilterQuery.Token.Basic
import Mathlib.Data.Nat.Digits.Defs
import Mathlib.Tactic

/-!
# Spelled literals

Which tokens stand for which values. An integer is a sign and digits within 64 bits, and a decimal
is a sign and digits around one point, which stands for the double nearest to it. Reading a token
gives its value exactly if it has one.
-/

namespace FilterQuery

open Outcome

namespace Numeral

/-- A numeral with its sign taken off: whether it is negative, and the rest. -/
inductive Signed : Text → Bool → Text → Prop
  | none (body : Text) : Signed body false body
  | plus (body : Text) : Signed ('+' :: body) false body
  | minus (body : Text) : Signed ('-' :: body) true body

theorem signed_splitSign (numeral : Text) :
    Signed numeral (splitSign numeral).1 (splitSign numeral).2 := by
  unfold splitSign
  split
  · exact .minus _
  · exact .plus _
  · exact .none _

/-- A body that begins with no sign has been cut off as far as possible. -/
theorem splitSign_of_signed {numeral body : Text} {negative : Bool}
    (h : Signed numeral negative body) (hminus : body.head? ≠ some '-')
    (hplus : body.head? ≠ some '+') : splitSign numeral = (negative, body) := by
  cases h with
  | none body =>
    unfold splitSign
    split
    · simp at hminus
    · simp at hplus
    · rfl
  | plus body => rfl
  | minus body => rfl

def spelledNat (digits : Text) : Nat :=
  Nat.ofDigits 10 (digits.reverse.map fun c => c.toNat - '0'.toNat)

def spelledInt (negative : Bool) (digits : Text) : Int :=
  if negative then -(spelledNat digits : Int) else spelledNat digits

theorem value_eq_spelledNat (digits : Text) : value digits = spelledNat digits := by
  induction digits using List.reverseRecOn with
  | nil => rfl
  | append_singleton digits c ih =>
    rw [value_append_digit, ih, spelledNat, spelledNat, List.reverse_append,
      List.reverse_singleton, List.singleton_append, List.map_cons, Nat.ofDigits_cons,
      Nat.add_comm]
    rfl

theorem isDigits_iff {t : Text} : isDigits t = true ↔ t ≠ [] ∧ ∀ c ∈ t, c.isDigit = true := by
  simp [isDigits]

theorem head?_ne_of_forall_isDigit {t : Text} (h : ∀ c ∈ t, c.isDigit = true) {c : Char}
    (hc : c.isDigit = false) : t.head? ≠ some c := by
  intro hhead
  exact absurd (h c (List.mem_of_mem_head? hhead)) (by simp [hc])

theorem readInt?_eq_some_iff {numeral : Text} {n : Int} :
    readInt? numeral = some n ↔ ∃ negative digits, Signed numeral negative digits ∧
      digits ≠ [] ∧ (∀ c ∈ digits, c.isDigit = true) ∧ spelledInt negative digits = n := by
  simp only [readInt?, value_eq_spelledNat]
  constructor
  · intro h
    split_ifs at h with hdigits hnegative
    · obtain ⟨hne, hall⟩ := isDigits_iff.1 hdigits
      exact ⟨_, _, signed_splitSign numeral, hne, hall, by simpa [spelledInt, hnegative] using h⟩
    · obtain ⟨hne, hall⟩ := isDigits_iff.1 hdigits
      exact ⟨_, _, signed_splitSign numeral, hne, hall, by simpa [spelledInt, hnegative] using h⟩
  · rintro ⟨negative, digits, hsigned, hne, hall, rfl⟩
    have hsplit := splitSign_of_signed hsigned
      (head?_ne_of_forall_isDigit hall rfl) (head?_ne_of_forall_isDigit hall rfl)
    simp only [hsplit, isDigits_iff.2 ⟨hne, hall⟩, if_true]
    rfl

structure Pointed (whole fraction : Text) : Prop where
  digits : ∀ c ∈ whole ++ fraction, c.isDigit = true
  nonempty : whole ++ fraction ≠ []

theorem isUnsigned_and_point_iff {t : Text} :
    isUnsigned t = true ∧ '.' ∈ t ↔
      ∃ whole fraction, t = whole ++ '.' :: fraction ∧ Pointed whole fraction := by
  constructor
  · rintro ⟨h, hpoint⟩
    simp only [isUnsigned, Bool.and_eq_true, List.all_eq_true, Bool.or_eq_true, beq_iff_eq,
      List.any_eq_true, decide_eq_true_eq] at h
    obtain ⟨⟨hall, d, hd, hdigit⟩, hcount⟩ := h
    obtain ⟨whole, fraction, rfl, hwhole⟩ := List.eq_append_cons_of_mem hpoint
    -- The point counts once already, so no other is left on its right.
    have hfraction : '.' ∉ fraction := by
      rw [← List.count_eq_zero]
      simp only [List.count_append, List.count_cons_self] at hcount
      omega
    have hother : ∀ c ∈ whole ++ fraction, c ≠ '.' := by
      rintro c hc rfl
      exact (List.mem_append.1 hc).elim hwhole hfraction
    have hmem : ∀ c, c ∈ whole ++ '.' :: fraction ↔ c = '.' ∨ c ∈ whole ++ fraction := by
      intro c
      simp only [List.mem_append, List.mem_cons]
      tauto
    refine ⟨whole, fraction, rfl, fun c hc => ?_, ?_⟩
    · exact (hall c ((hmem c).2 (.inr hc))).resolve_right (hother c hc)
    · rcases (hmem d).1 hd with rfl | hd
      · simp at hdigit
      · exact List.ne_nil_of_mem hd
  · rintro ⟨whole, fraction, rfl, hdigits, hne⟩
    obtain ⟨d, hd⟩ := List.exists_mem_of_ne_nil _ hne
    have hcount : List.count '.' (whole ++ fraction) = 0 :=
      List.count_eq_zero.2 fun hpoint => absurd (hdigits _ hpoint) (by decide)
    have hall : ∀ c ∈ whole ++ '.' :: fraction, c.isDigit = true ∨ c = '.' := by
      simp only [List.forall_mem_append, List.forall_mem_cons] at hdigits ⊢
      exact ⟨fun c hc => .inl (hdigits.1 c hc), .inr trivial, fun c hc => .inl (hdigits.2 c hc)⟩
    have hany : ∃ c ∈ whole ++ '.' :: fraction, c.isDigit = true := by
      refine ⟨d, ?_, hdigits d hd⟩
      simp only [List.mem_append, List.mem_cons] at hd ⊢
      tauto
    rw [List.count_append] at hcount
    simp only [isUnsigned, Bool.and_eq_true, List.all_eq_true, Bool.or_eq_true, beq_iff_eq,
      List.any_eq_true, decide_eq_true_eq, List.count_append, List.count_cons_self]
    exact ⟨⟨⟨hall, hany⟩, by omega⟩, by simp⟩

theorem readUnsigned_pointed {whole fraction : Text} (h : Pointed whole fraction) :
    readUnsigned (whole ++ '.' :: fraction) =
      (spelledNat (whole ++ fraction), fraction.length) := by
  obtain ⟨hwhole, hfraction⟩ := List.forall_mem_append.1 h.digits
  have hfilter : (whole ++ '.' :: fraction).filter Char.isDigit = whole ++ fraction := by
    rw [List.filter_append, List.filter_cons_of_neg (by decide), List.filter_eq_self.2 hwhole,
      List.filter_eq_self.2 hfraction]
  have hdrop : (whole ++ '.' :: fraction).dropWhile (· != '.') = '.' :: fraction := by
    rw [List.dropWhile_append_of_pos]
    · simp
    · intro c hc
      rw [bne_iff_ne]
      rintro rfl
      exact absurd (hwhole _ hc) (by decide)
  rw [readUnsigned, hfilter, hdrop, value_eq_spelledNat]
  simp

end Numeral

namespace Token

open Numeral

inductive IsLiteral : Token → Literal → Prop
  | string (content : Text) : IsLiteral (.string content) (.string content)
  | null : IsLiteral (.keyword .null) .null
  /-- A sign and digits, if the integer fits into 64 bits. -/
  | integer {numeral digits : Text} {negative : Bool} : Signed numeral negative digits →
    digits ≠ [] → (∀ c ∈ digits, c.isDigit = true) →
    -2 ^ 63 ≤ spelledInt negative digits → spelledInt negative digits ≤ 2 ^ 63 - 1 →
    IsLiteral (.number numeral) (.integer (spelledInt negative digits))
  /-- A sign and digits around one point, which divides by ten for each digit after it. -/
  | decimal {numeral whole fraction : Text} {negative : Bool} {x : Binary64} :
    Signed numeral negative (whole ++ '.' :: fraction) → Pointed whole fraction →
    x.IsNearest negative (spelledNat (whole ++ fraction) / 10 ^ fraction.length) →
    IsLiteral (.number numeral) (.decimal x)

theorem isInt64_iff {n : Int} : isInt64 n = true ↔ -2 ^ 63 ≤ n ∧ n ≤ 2 ^ 63 - 1 := by
  simp only [isInt64, Bool.and_eq_true, decide_eq_true_eq]
  norm_num

theorem point_mem_iff_of_signed {numeral body : Text} {negative : Bool}
    (h : Signed numeral negative body) : '.' ∈ numeral ↔ '.' ∈ body := by
  cases h <;> simp

theorem isNearest_places {negative : Bool} {num places : Nat} {x : Binary64} :
    x.IsNearest negative (num / 10 ^ places) ↔ x = .nearest negative num (tenPow places) := by
  have hcast : ((tenPow places : Nat) : ℚ) = 10 ^ places := Nat.cast_pow 10 places
  rw [← hcast]
  exact Binary64.isNearest_iff (Nat.pow_pos (by norm_num))

theorem isLiteral_of_readNumber {numeral : Text} {v : Literal} (h : readNumber numeral = .ok v) :
    IsLiteral (.number numeral) v := by
  have hsigned := signed_splitSign numeral
  unfold readNumber at h
  split at h
  · rename_i hpoint
    split at h
    · rename_i hnumber
      have hbody := (point_mem_iff_of_signed hsigned).1 (List.contains_iff_mem.1 hpoint)
      obtain ⟨whole, fraction, heq, hpointed⟩ := isUnsigned_and_point_iff.1 ⟨hnumber, hbody⟩
      dsimp only at h
      rw [heq, readUnsigned_pointed hpointed] at h
      cases h
      exact .decimal (heq ▸ hsigned) hpointed (isNearest_places.2 rfl)
    · cases h
  · split at h
    · rename_i n hn
      split_ifs at h with hfits
      cases h
      obtain ⟨negative, digits, hsigned', hne, hall, rfl⟩ := readInt?_eq_some_iff.1 hn
      obtain ⟨hlow, hhigh⟩ := isInt64_iff.1 hfits
      exact .integer hsigned' hne hall hlow hhigh
    · cases h

theorem readLiteral_of_isLiteral {token : Token} {v : Literal} (h : IsLiteral token v) :
    token.readLiteral = .ok v := by
  cases h with
  | string content => rfl
  | null => rfl
  | @integer numeral digits negative hsigned hne hall hlow hhigh =>
    have hdigits : '.' ∉ digits := fun hmem => absurd (hall _ hmem) (by decide)
    have hpoint : '.' ∉ numeral := by rwa [point_mem_iff_of_signed hsigned]
    have hread : readInt? numeral = some (spelledInt negative digits) :=
      readInt?_eq_some_iff.2 ⟨negative, digits, hsigned, hne, hall, rfl⟩
    simp [readLiteral, readNumber, hpoint, hread, isInt64_iff.2 ⟨hlow, hhigh⟩]
  | @decimal numeral whole fraction negative x hsigned hpointed hnearest =>
    have hbody := isUnsigned_and_point_iff.2 ⟨whole, fraction, rfl, hpointed⟩
    have hpoint : numeral.contains '.' = true :=
      List.contains_iff_mem.2 ((point_mem_iff_of_signed hsigned).2 hbody.2)
    have hhead : ∀ {c : Char}, c.isDigit = false → c ≠ '.' →
        (whole ++ '.' :: fraction).head? ≠ some c := by
      intro c hdigit hc
      cases whole with
      | nil => simpa using hc.symm
      | cons first whole =>
        exact head?_ne_of_forall_isDigit (List.forall_mem_append.1 hpointed.digits).1 hdigit
    have hsplit := splitSign_of_signed hsigned (hhead rfl (by decide)) (hhead rfl (by decide))
    rw [readLiteral, readNumber, if_pos hpoint, if_pos (by rw [isNumber, hsplit]; exact hbody.1)]
    rw [hsplit]
    dsimp only
    rw [readUnsigned_pointed hpointed, isNearest_places.1 hnearest]

theorem readLiteral_eq_ok_iff {token : Token} {v : Literal} :
    token.readLiteral = .ok v ↔ IsLiteral token v := by
  refine ⟨fun h => ?_, readLiteral_of_isLiteral⟩
  unfold readLiteral at h
  split at h
  · cases h
    exact .string _
  · exact isLiteral_of_readNumber h
  · cases h
    exact .null
  · cases h

end Token

end FilterQuery
