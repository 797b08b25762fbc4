import FilterQuery.Proofs.BalancedQueries
import FilterQuery.Proofs.ClauseReading
import FilterQuery.Proofs.EscapedValues
import FilterQuery.Proofs.FirstRefusal
import FilterQuery.Proofs.MergeSteps
import Mathlib.Data.Set.List

/-!
# Tag sets

An `IN` list on a tag field compiles to a single tag set once its alternatives are merged. The set
can be read back: cut at the commas that stand behind no backslash, and with the backslashes of
pairs taken away, it gives the texts of the values in their order, whatever characters they hold.
-/

namespace FilterQuery

open Outcome

namespace QueryReading

open Escape

/-- The values of a tag set, given what stands between its braces. -/
def tagValues (body : Text) : List Text := (splitTags body).map unescape

theorem tagValues_intercalate {values : List Text} (hne : values ≠ []) :
    tagValues ([','].intercalate (values.map escape)) = values := by
  have hescaped : ∀ value ∈ values.map escape, Escaped (fun _ => True) value := by
    intro value hvalue
    obtain ⟨raw, -, rfl⟩ := List.mem_map.1 hvalue
    exact .escape fun _ _ => trivial
  rw [tagValues, splitTags_intercalate (by simpa using hne) hescaped, List.map_map]
  calc values.map (unescape ∘ escape) = values.map id :=
        List.map_congr_left fun value _ => unescape_escape value
    _ = values := List.map_id values

end QueryReading

namespace Clause

/-- Matches with one tag each become one match with all of them. -/
theorem mergeRuns_tags (field : Text) {values : List Text} (hne : values ≠ []) :
    mergeRuns (values.map fun value => tag field [value]) = [tag field values] := by
  induction values with
  | nil => exact absurd rfl hne
  | cons value rest ih =>
    rw [List.map_cons, mergeRuns_cons]
    cases rest with
    | nil => rfl
    | cons next rest =>
      rw [ih (by simp), prependMerged]
      simp [asTag?]

theorem coalesce_tags (field : Text) {values : List Text} (hne : values ≠ []) :
    (or (values.map fun value => tag field [value])).coalesce = tag field values := by
  have hsame : (values.map fun value => tag field [value]).map coalesce =
      values.map fun value => tag field [value] := by
    rw [List.map_map]
    rfl
  rw [coalesce, coalesceAll_eq, hsame, mergeRuns_tags field hne]
  rfl

end Clause

/-- Values that have texts and are not all null give a list of texts. -/
theorem Literal.exists_texts {values : List Literal}
    (husable : ∃ value ∈ values, value.isNull = false)
    (htexts : ∀ value ∈ values, value.isNull = false → ∃ text, value.text = .ok text) :
    ∃ texts, texts ≠ [] ∧
      (values.filter fun value => !value.isNull).map Literal.text = texts.map .ok := by
  have hrange : (values.filter fun value => !value.isNull).map Literal.text ∈
      Set.range (List.map Except.ok) := by
    rw [Set.range_list_map]
    intro outcome houtcome
    obtain ⟨value, hvalue, rfl⟩ := List.mem_map.1 houtcome
    obtain ⟨hmem, hnull⟩ := List.mem_filter.1 hvalue
    obtain ⟨text, htext⟩ := htexts value hmem (by simpa using hnull)
    exact ⟨text, htext.symm⟩
  obtain ⟨texts, hwritten⟩ := hrange
  refine ⟨texts, ?_, hwritten.symm⟩
  rintro rfl
  obtain ⟨value, hmem, hnull⟩ := husable
  have hnil : values.filter (fun value => !value.isNull) = [] := by simpa using hwritten.symm
  have hnone := List.filter_eq_nil_iff.1 hnil value hmem
  simp [hnull] at hnone

namespace Compiler

open Escape QueryReading

theorem members_tag (field : Text) {values : List Literal} {texts : List Text}
    (h : values.map Literal.text = texts.map .ok) :
    members .tag field values = .ok (texts.map fun text => .tag field [escape text]) := by
  induction values generalizing texts with
  | nil =>
    obtain rfl : texts = [] := by simpa using h.symm
    rfl
  | cons value values ih =>
    cases texts with
    | nil => simp at h
    | cons text texts =>
      obtain ⟨hvalue, hrest⟩ := List.cons.inj h
      have hmember : member .tag field value = .ok (.tag field [escape text]) := by
        rw [member, hvalue]
        rfl
      rw [members, hmember, ok_bind, ih hrest]
      rfl

theorem isIn_tag (policy : EmptyListPolicy) (field : Text) {values : List Literal}
    {texts : List Text} (hne : texts ≠ [])
    (h : (values.filter fun value => !value.isNull).map Literal.text = texts.map .ok) :
    isIn policy .tag field values false =
      .ok (.or ((texts.map escape).map fun value => .tag field [value])) := by
  have husable : values.filter (fun value => !value.isNull) ≠ [] := by
    intro hnil
    rw [hnil] at h
    exact hne (by simpa using h.symm)
  have hvalues : values ≠ [] := by
    rintro rfl
    exact husable rfl
  simp only [isIn, List.isEmpty_iff, hvalues, husable, if_false, members_tag field h, List.map_map]
  rfl

theorem finish_tags (compiler : Compiler) (hmerge : compiler.options.coalesceTags = true)
    (field : Text) {values : List Text} (hne : values ≠ []) :
    compiler.finish (.or (values.map fun value => .tag field [value])) =
      Clause.tagText field values := by
  have hmerged : compiler.merged (.or (values.map fun value => .tag field [value])) =
      .tag field values := by
    rw [merged, if_pos hmerge, Clause.coalesce_tags field hne]
  rw [finish_eq, hmerged, Clause.render]
  split_ifs
  · exact Clause.strip_of_head (by simp [Clause.tagText])
  · rfl

theorem clause_isIn_tag (compiler : Compiler) {field : Text} {values : List Literal}
    {texts : List Text} (hfield : compiler.schema.get? field = some .tag) (hne : texts ≠ [])
    (h : (values.filter fun value => !value.isNull).map Literal.text = texts.map .ok) :
    compiler.clause (.isIn field values false) =
      if compiler.options.maxDepth = 0 then .error (.tooDeep 0)
      else .ok (.or ((texts.map escape).map fun value => .tag field [value])) := by
  have hresolve : compiler.schema.resolve field = .ok .tag := by
    rw [Schema.resolve, hfield]
  rw [clause_of_leaf compiler rfl, hresolve, ok_bind, isIn_tag _ field hne h]

/-- An `IN` list on a tag field becomes one tag set with the texts of its values that are not null,
in order and as often as they occur, unless a limit of zero refuses it. -/
theorem compile_isIn_tagValues (compiler : Compiler) {field : Text} {values : List Literal}
    (hmerge : compiler.options.coalesceTags = true)
    (hfield : compiler.schema.get? field = some .tag)
    (husable : ∃ value ∈ values, value.isNull = false)
    (htexts : ∀ value ∈ values, value.isNull = false → ∃ text, value.text = .ok text) :
    ∃ body,
      compiler.compile (.isIn field values false) =
        (if compiler.options.maxDepth = 0 then .error (.tooDeep 0)
        else .ok ('@' :: field ++ [':', '{'] ++ body ++ ['}'])) ∧
      (tagValues body).map .ok = (values.filter fun value => !value.isNull).map Literal.text := by
  obtain ⟨texts, hne, hwritten⟩ := Literal.exists_texts husable htexts
  refine ⟨[','].intercalate (texts.map escape), ?_, ?_⟩
  · rw [compile, clause_isIn_tag compiler hfield hne hwritten]
    split_ifs
    · rfl
    · exact congrArg Except.ok (finish_tags compiler hmerge field (by simpa using hne))
  · rw [tagValues_intercalate hne, hwritten]

/-- Commas and backslashes next to separators, an empty value, a value twice, and two nulls. -/
theorem compile_isIn_tagValues_commas :
    let compiler : Compiler := ⟨.ofEntries [("role".toList, .tag)], { coalesceTags := true }⟩
    let values : List Literal :=
      [.string "a,\\".toList, .null, .string [], .integer (-5), .string "NuLL".toList,
        .string ",b".toList, .string "a,\\".toList]
    (∃ value ∈ values, value.isNull = false) ∧
      (∀ value ∈ values, value.isNull = false → ∃ text, value.text = .ok text) ∧
      ∃ body, compiler.compile (.isIn "role".toList values false) =
          .ok ('@' :: "role".toList ++ [':', '{'] ++ body ++ ['}']) ∧
        (tagValues body).map .ok =
          (values.filter fun value => !value.isNull).map Literal.text := by
  intro compiler values
  have husable : ∃ value ∈ values, value.isNull = false := ⟨.integer (-5), by simp [values], rfl⟩
  have htexts : ∀ value ∈ values, value.isNull = false → ∃ text, value.text = .ok text := by
    simp [values, Literal.text, Literal.isNull]
  exact ⟨husable, htexts, compile_isIn_tagValues compiler rfl (by decide) husable htexts⟩

end Compiler

end FilterQuery
