import FilterQuery.Text.Basic
import Mathlib.Data.List.TakeWhile

/-!
# Trimmed text

A text is its trimmed text with white space around it, and the trimmed text neither begins nor ends
with any. Trimming leaves nothing exactly if there is nothing but white space.
-/

namespace FilterQuery.Text

/-- White space around a text. -/
def Surrounds (s t : Text) : Prop :=
  ∃ before after, (∀ c ∈ before, isBlank c = true) ∧ (∀ c ∈ after, isBlank c = true) ∧
    s = before ++ t ++ after

/-- A text without the white space around it. -/
structure Trims (s t : Text) : Prop where
  surrounds : Surrounds s t
  first : ∀ c ∈ t.head?, isBlank c = false
  last : ∀ c ∈ t.getLast?, isBlank c = false

theorem dropWhile_isBlank_of_head? {t : Text} (h : ∀ c ∈ t.head?, isBlank c = false) :
    t.dropWhile isBlank = t := by
  cases t with
  | nil => rfl
  | cons c rest =>
    apply List.dropWhile_cons_of_neg
    rw [h c rfl]
    exact Bool.false_ne_true

theorem head?_dropWhile_isBlank (t : Text) :
    ∀ c ∈ (t.dropWhile isBlank).head?, isBlank c = false := by
  intro c hc
  have hfirst := List.head?_dropWhile_not isBlank t
  rw [hc] at hfirst
  exact hfirst

theorem trimEnd_append {t after : Text} (hafter : ∀ c ∈ after, isBlank c = true)
    (ht : ∀ c ∈ t.getLast?, isBlank c = false) : trimEnd (t ++ after) = t := by
  have hblank : ∀ c ∈ after.reverse, isBlank c = true :=
    fun c hc => hafter c (List.mem_reverse.1 hc)
  rw [← List.head?_reverse] at ht
  rw [trimEnd, List.reverse_append, List.dropWhile_append_of_pos hblank,
    dropWhile_isBlank_of_head? ht, List.reverse_reverse]

theorem trim_of_trims {s t : Text} (h : Trims s t) : trim s = t := by
  obtain ⟨⟨before, after, hbefore, hafter, rfl⟩, hfirst, hlast⟩ := h
  rw [trim, trimStart, List.append_assoc, List.dropWhile_append_of_pos hbefore]
  cases t with
  | nil =>
    rw [List.nil_append, List.dropWhile_eq_nil_iff.2 hafter]
    rfl
  | cons c rest =>
    have hstart : (c :: rest ++ after).dropWhile isBlank = c :: rest ++ after :=
      dropWhile_isBlank_of_head? hfirst
    rw [hstart]
    exact trimEnd_append hafter hlast

theorem trimEnd_append_takeWhile (t : Text) :
    trimEnd t ++ (t.reverse.takeWhile isBlank).reverse = t := by
  rw [trimEnd, ← List.reverse_append, List.takeWhile_append_dropWhile, List.reverse_reverse]

theorem surrounds_trim (s : Text) : Surrounds s (trim s) := by
  refine ⟨s.takeWhile isBlank, ((trimStart s).reverse.takeWhile isBlank).reverse,
    List.all_eq_true.1 List.all_takeWhile, ?_, ?_⟩
  · intro c hc
    exact List.all_eq_true.1 List.all_takeWhile c (List.mem_reverse.1 hc)
  · rw [List.append_assoc, trim, trimEnd_append_takeWhile, trimStart,
      List.takeWhile_append_dropWhile]

theorem trims_trim (s : Text) : Trims s (trim s) := by
  refine ⟨surrounds_trim s, ?_, ?_⟩
  · -- The end is cut from what begins with no white space, so the first character stays.
    intro c hc
    apply head?_dropWhile_isBlank s
    have hstart := trimEnd_append_takeWhile (trimStart s)
    rw [← trimStart, ← hstart, List.head?_append, ← trim, Option.mem_def.1 hc]
    rfl
  · rw [trim, trimEnd, List.getLast?_reverse]
    exact head?_dropWhile_isBlank _

theorem trims_iff {s t : Text} : Trims s t ↔ trim s = t := by
  refine ⟨trim_of_trims, ?_⟩
  rintro rfl
  exact trims_trim s

theorem trim_of_surrounds {s t : Text} (h : Surrounds s t) (ht : ∀ c ∈ t, isBlank c = false) :
    trim s = t :=
  trim_of_trims ⟨h, fun c hc => ht c (List.mem_of_mem_head? hc),
    fun c hc => ht c (List.mem_of_mem_getLast? hc)⟩

theorem trim_eq_nil_iff {t : Text} : trim t = [] ↔ ∀ c ∈ t, isBlank c = true := by
  constructor
  · intro h
    obtain ⟨before, after, hbefore, hafter, hsplit⟩ := surrounds_trim t
    rw [hsplit, h, List.append_nil]
    exact List.forall_mem_append.2 ⟨hbefore, hafter⟩
  · intro h
    have hsurrounds : Surrounds t [] := ⟨t, [], h, by simp, by simp⟩
    exact trim_of_surrounds hsurrounds (by simp)

theorem trim_ne_nil_iff {t : Text} : trim t ≠ [] ↔ ∃ c ∈ t, isBlank c = false := by
  rw [ne_eq, trim_eq_nil_iff]
  simp

theorem trim_subset (t : Text) : trim t ⊆ t := by
  intro c hc
  have hstart : c ∈ trimStart t := by
    have hreverse := List.dropWhile_subset _ (List.mem_reverse.1 hc)
    exact List.mem_reverse.1 hreverse
  exact List.dropWhile_subset _ hstart

theorem trim_append_blank {t : Text} {c : Char} (h : isBlank c = true) :
    trim (t ++ [c]) = trim t := by
  have hend : ∀ u : Text, trimEnd (u ++ [c]) = trimEnd u := by
    intro u
    rw [trimEnd, List.reverse_append, List.reverse_singleton, List.singleton_append,
      List.dropWhile_cons_of_pos h, trimEnd]
  unfold trim trimStart
  rw [List.dropWhile_append]
  split_ifs with hempty
  · rw [List.isEmpty_iff.1 hempty, List.dropWhile_cons_of_pos h, List.dropWhile_nil]
  · exact hend _

end FilterQuery.Text
