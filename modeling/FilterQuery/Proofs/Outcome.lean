import Mathlib.Data.List.Forall2

/-!
# Outcomes of steps

Steps that may fail succeed together exactly if each of them succeeds on what the one before it
gave, and fail with the error of the first that fails.
-/

namespace FilterQuery.Outcome

variable {Error Error' Result Result' : Type}

theorem bind_eq_ok {first : Except Error Result} {next : Result → Except Error Result'}
    {last : Result'} :
    first >>= next = .ok last ↔ ∃ result, first = .ok result ∧ next result = .ok last := by
  cases first with
  | error _ => simp [bind, Except.bind]
  | ok result => simp [bind, Except.bind]

@[simp] theorem ok_bind (result : Result) (next : Result → Except Error Result') :
    (Except.ok result >>= next) = next result := rfl

theorem map_eq_ok {first : Except Error Result} {write : Result → Result'} {last : Result'} :
    first.map write = .ok last ↔ ∃ result, first = .ok result ∧ write result = last := by
  cases first with
  | error _ => simp [Except.map]
  | ok result => simp [Except.map]

theorem mapError_eq_ok {first : Except Error Result} {explain : Error → Error'}
    {result : Result} : first.mapError explain = .ok result ↔ first = .ok result := by
  cases first with
  | error _ =>
    constructor <;>
    · intro h
      cases h
  | ok other =>
    constructor <;>
    · intro h
      cases h
      rfl

theorem pure_eq_ok {result other : Result} :
    (pure result : Except Error Result) = .ok other ↔ result = other := by
  simp [pure, Except.pure]

theorem bind_eq_error {first : Except Error Result} {next : Result → Except Error Result'}
    {error : Error} :
    first >>= next = .error error ↔
      first = .error error ∨ ∃ result, first = .ok result ∧ next result = .error error := by
  cases first with
  | error _ => simp [bind, Except.bind]
  | ok result => simp [bind, Except.bind]

theorem map_eq_error {first : Except Error Result} {write : Result → Result'} {error : Error} :
    first.map write = .error error ↔ first = .error error := by
  cases first with
  | error _ => simp [Except.map]
  | ok result => simp [Except.map]

theorem mapError_eq_error {first : Except Error Result} {explain : Error → Error'}
    {error : Error'} :
    first.mapError explain = .error error ↔ ∃ cause, first = .error cause ∧ explain cause = error := by
  cases first with
  | error cause =>
    constructor
    · intro h
      cases h
      exact ⟨cause, rfl, rfl⟩
    · rintro ⟨_, hcause, rfl⟩
      cases hcause
      rfl
  | ok result =>
    constructor
    · intro h
      cases h
    · rintro ⟨_, hcause, -⟩
      cases hcause

theorem toOption_eq_some {outcome : Except Error Result} {result : Result} :
    outcome.toOption = some result ↔ outcome = .ok result := by
  cases outcome with
  | error _ =>
    constructor <;>
    · intro h
      cases h
  | ok other =>
    constructor <;>
    · intro h
      cases h
      rfl

def error? : Except Error Result → Option Error
  | .error error => some error
  | .ok _ => none

theorem error?_eq_some {outcome : Except Error Result} {error : Error} :
    error? outcome = some error ↔ outcome = .error error := by
  cases outcome with
  | error _ => simp [error?]
  | ok _ => simp [error?]

theorem error?_eq_none {outcome : Except Error Result} :
    error? outcome = none ↔ ∃ result, outcome = .ok result := by
  cases outcome with
  | error _ => simp [error?]
  | ok _ => simp [error?]

theorem error?_map (outcome : Except Error Result) (write : Result → Result') :
    error? (outcome.map write) = error? outcome := by
  cases outcome with
  | error _ => rfl
  | ok _ => rfl

/-- Of two steps the first that fails gives the error. -/
theorem error?_both {Result'' : Type} (first : Except Error Result)
    (second : Except Error Result') (write : Result → Result' → Result'') :
    error? (do let result ← first; let result' ← second; return write result result') =
      (error? first).or (error? second) := by
  cases first with
  | error _ => rfl
  | ok _ =>
    cases second with
    | error _ => rfl
    | ok _ => rfl

/-! ### One step for each item of a list -/

variable {Source : Type} {step : Source → Except Error Result}

theorem mapM_eq_ok {sources : List Source} {results : List Result} :
    sources.mapM step = .ok results ↔
      List.Forall₂ (fun source result => step source = .ok result) sources results := by
  induction sources generalizing results with
  | nil =>
    rw [List.mapM_nil, pure_eq_ok, List.forall₂_nil_left_iff]
    exact eq_comm
  | cons source sources ih =>
    rw [List.mapM_cons, bind_eq_ok, List.forall₂_cons_left_iff]
    constructor
    · rintro ⟨result, hresult, hrest⟩
      obtain ⟨others, hothers, hboth⟩ := bind_eq_ok.1 hrest
      exact ⟨result, others, hresult, ih.1 hothers, (pure_eq_ok.1 hboth).symm⟩
    · rintro ⟨result, others, hresult, hothers, rfl⟩
      refine ⟨result, hresult, ?_⟩
      rw [ih.2 hothers]
      rfl

/-- Of many steps the first that fails gives the error. -/
theorem error?_mapM (sources : List Source) :
    error? (sources.mapM step) = sources.findSome? fun source => error? (step source) := by
  induction sources with
  | nil => rfl
  | cons source sources ih =>
    rw [List.mapM_cons, error?_both, ih, List.findSome?_cons]
    cases error? (step source) with
    | none => rfl
    | some error => rfl

theorem exists_mapM_eq_ok {sources : List Source} :
    (∃ results, sources.mapM step = .ok results) ↔
      ∀ source ∈ sources, ∃ result, step source = .ok result := by
  rw [← error?_eq_none, error?_mapM, List.findSome?_eq_none_iff]
  simp only [error?_eq_none]

theorem mapM_eq_error {sources : List Source} {error : Error} :
    sources.mapM step = .error error ↔
      ∃ before source after, sources = before ++ source :: after ∧ step source = .error error ∧
        ∀ earlier ∈ before, ∃ result, step earlier = .ok result := by
  rw [← error?_eq_some, error?_mapM, List.findSome?_eq_some_iff]
  simp only [error?_eq_some, error?_eq_none]

/-- Steps of which each succeeds give their results in order. -/
theorem mapM_eq_filterMap {sources : List Source} {result? : Source → Option Result}
    (h : ∀ source ∈ sources, ∃ result, step source = .ok result ∧ result? source = some result) :
    sources.mapM step = .ok (sources.filterMap result?) := by
  induction sources with
  | nil => rfl
  | cons source sources ih =>
    obtain ⟨⟨result, hstep, hresult⟩, hrest⟩ := List.forall_mem_cons.1 h
    rw [List.mapM_cons, hstep, ih hrest, List.filterMap_cons_some hresult]
    rfl

theorem mapM_error {sources : List Source} (hne : sources ≠ []) (error : Error) :
    sources.mapM (fun _ => (.error error : Except Error Result)) = .error error := by
  cases sources with
  | nil => exact absurd rfl hne
  | cons source sources =>
    rw [List.mapM_cons]
    rfl

end FilterQuery.Outcome
