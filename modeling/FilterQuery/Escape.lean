import FilterQuery.Text.Basic

/-!
# Escaped values

Inside a query seven characters of a value are preceded by a backslash. A pattern turns its two
wildcards into those of the query and escapes the rest like any value.
-/

namespace FilterQuery.Escape

/-- The characters that would otherwise be query syntax. -/
def isSpecial (c : Char) : Bool :=
  c == '\\' || c == '@' || c == '.' || c == ',' || c == ' ' || c == '_' || c == '+'

def escapeChar (c : Char) : Text := if isSpecial c then ['\\', c] else [c]

def escape (value : Text) : Text := value.flatMap escapeChar

def patternChar (c : Char) : Text :=
  if c = '%' then ['*'] else if c = '_' then ['?'] else escapeChar c

/-- A pattern over `%` and `_` as one over `*` and `?`. -/
def pattern (raw : Text) : Text := raw.flatMap patternChar

theorem ne_backslash {c : Char} (h : isSpecial c = false) : c ≠ '\\' :=
  (ne_of_class (p := isSpecial) rfl h).symm

theorem escapeChar_cases (c : Char) :
    isSpecial c = true ∧ escapeChar c = ['\\', c] ∨ isSpecial c = false ∧ escapeChar c = [c] := by
  cases h : isSpecial c with
  | true => exact .inl ⟨rfl, if_pos h⟩
  | false => exact .inr ⟨rfl, if_neg (by simp [h])⟩

@[simp] theorem escape_nil : escape [] = [] := rfl

@[simp] theorem escape_cons (c : Char) (value : Text) :
    escape (c :: value) = escapeChar c ++ escape value := rfl

@[simp] theorem pattern_nil : pattern [] = [] := rfl

@[simp] theorem pattern_cons (c : Char) (raw : Text) :
    pattern (c :: raw) = patternChar c ++ pattern raw := rfl

end FilterQuery.Escape
