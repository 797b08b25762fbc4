import FilterQuery.CommandLine.Run
import FilterQuery.Proofs.SchemaHistory
import FilterQuery.Proofs.TrimmedText

/-!
# Field overrides

The specs of the arguments override the fields of the settings. A spec names a field before its
first equals sign and a type after it. If all specs do, the last one that names a field gives it its
type, and a field that none names keeps the type of the settings. If not, the first spec that is
malformed is reported, or else the first one whose type is not known. The flags touch no option but
their own.
-/

namespace FilterQuery

open Outcome

namespace FieldSpec

/-- What a spec says: the name before its first equals sign, which is not blank and is taken without
the white space around it, and the text after that sign. -/
inductive Gives : Text → Text → Text → Prop
  | intro {written field typeName : Text} : '=' ∉ written →
    (∃ c ∈ written, Text.isBlank c = false) → Text.Trims written field →
    Gives (written ++ '=' :: typeName) field typeName

def IsMalformed (spec : Text) : Prop := ∀ field typeName, ¬ Gives spec field typeName

def Sets (spec field : Text) (type : FieldType) : Prop :=
  ∃ typeName, Gives spec field typeName ∧ FieldType.Names typeName type

/-- What is wrong with specs: the first malformed one, wherever it stands, or else the first one
whose type is not known. -/
inductive FirstFault (specs : List Text) : Fault → Prop
  | malformed {before after : List Text} {spec : Text} : specs = before ++ spec :: after →
    IsMalformed spec → (∀ earlier ∈ before, ¬ IsMalformed earlier) →
    FirstFault specs (.malformed spec)
  | invalidType {before after : List Text} {spec field typeName : Text} :
    (∀ spec ∈ specs, ¬ IsMalformed spec) → specs = before ++ spec :: after →
    Gives spec field typeName → (∀ type, ¬ FieldType.Names typeName type) →
    (∀ earlier ∈ before, ∃ field type, Sets earlier field type) →
    FirstFault specs (.invalidType ⟨field, typeName⟩)

/-! ### One spec -/

theorem split?_of_gives {spec field typeName : Text} (h : Gives spec field typeName) :
    split? spec = some (field, typeName) := by
  obtain @⟨written, field, typeName, hfirst, hname, htrims⟩ := h
  have hbefore : ∀ c ∈ written, (c != '=') = true := by
    intro c hc
    rw [bne_iff_ne]
    rintro rfl
    exact hfirst hc
  have htake : (written ++ '=' :: typeName).takeWhile (· != '=') = written := by
    rw [List.takeWhile_append_of_pos hbefore]
    simp
  have hdrop : (written ++ '=' :: typeName).dropWhile (· != '=') = '=' :: typeName := by
    rw [List.dropWhile_append_of_pos hbefore]
    simp
  have hne : field ≠ [] := Text.trim_of_trims htrims ▸ Text.trim_ne_nil_iff.2 hname
  simp [split?, htake, hdrop, Text.trim_of_trims htrims, hne]

theorem gives_of_split? {spec field typeName : Text} (h : split? spec = some (field, typeName)) :
    Gives spec field typeName := by
  unfold split? at h
  split at h
  · cases h
  · rename_i sign rest hdrop
    dsimp only at h
    split_ifs at h with hname
    cases h
    have hsign := List.head?_dropWhile_not (· != '=') spec
    rw [hdrop] at hsign
    obtain rfl : sign = '=' := by simpa using hsign
    have hspec : spec.takeWhile (· != '=') ++ '=' :: typeName = spec := by
      rw [← hdrop]
      exact List.takeWhile_append_dropWhile
    have hfirst : '=' ∉ spec.takeWhile (· != '=') := by
      intro hmem
      simpa using List.mem_takeWhile_imp hmem
    have hvisible : ∃ c ∈ spec.takeWhile (· != '='), Text.isBlank c = false :=
      Text.trim_ne_nil_iff.1 (by simpa using hname)
    have hgives : Gives (spec.takeWhile (· != '=') ++ '=' :: typeName) _ typeName :=
      .intro hfirst hvisible (Text.trims_trim _)
    rwa [hspec] at hgives

theorem split?_eq_some_iff {spec field typeName : Text} :
    split? spec = some (field, typeName) ↔ Gives spec field typeName :=
  ⟨gives_of_split?, split?_of_gives⟩

theorem split?_eq_none_iff {spec : Text} : split? spec = none ↔ IsMalformed spec := by
  simp only [Option.eq_none_iff_forall_ne_some, Prod.forall, ne_eq, split?_eq_some_iff, IsMalformed]

/-! ### All specs -/

def splitOne (spec : Text) : Except Fault (Text × Text) :=
  match split? spec with
  | none => .error (.malformed spec)
  | some entry => .ok entry

theorem splitAll_eq_mapM (specs : List Text) : splitAll specs = specs.mapM splitOne := by
  induction specs with
  | nil => rfl
  | cons spec specs ih =>
    rw [splitAll, List.mapM_cons, ih, splitOne]
    cases split? spec with
    | none => rfl
    | some entry =>
      cases specs.mapM splitOne with
      | error _ => rfl
      | ok _ => rfl

theorem exists_splitOne_eq_ok {spec : Text} :
    (∃ entry, splitOne spec = .ok entry) ↔ ¬ IsMalformed spec := by
  rw [← split?_eq_none_iff]
  unfold splitOne
  cases split? spec with
  | none => simp
  | some entry => simp

theorem splitOne_eq_error_iff {spec : Text} {fault : Fault} :
    splitOne spec = .error fault ↔ IsMalformed spec ∧ fault = .malformed spec := by
  rw [← split?_eq_none_iff]
  unfold splitOne
  cases split? spec with
  | none => simp [eq_comm]
  | some entry => simp

theorem splitAll_eq_ok {specs : List Text} (h : ∀ spec ∈ specs, ¬ IsMalformed spec) :
    splitAll specs = .ok (specs.filterMap split?) := by
  rw [splitAll_eq_mapM]
  apply mapM_eq_filterMap
  intro spec hspec
  obtain ⟨entry, hentry⟩ := Option.ne_none_iff_exists'.1 (split?_eq_none_iff.not.2 (h spec hspec))
  exact ⟨entry, by rw [splitOne, hentry], hentry⟩

/-- The first malformed spec is reported. -/
theorem splitAll_eq_error_iff {specs : List Text} {fault : Fault} :
    splitAll specs = .error fault ↔
      ∃ before spec after, specs = before ++ spec :: after ∧ IsMalformed spec ∧
        (∀ earlier ∈ before, ¬ IsMalformed earlier) ∧ fault = .malformed spec := by
  rw [splitAll_eq_mapM, mapM_eq_error]
  simp only [splitOne_eq_error_iff, exists_splitOne_eq_ok]
  constructor
  · rintro ⟨before, spec, after, hspecs, ⟨hmalformed, hfault⟩, hbefore⟩
    exact ⟨before, spec, after, hspecs, hmalformed, hbefore, hfault⟩
  · rintro ⟨before, spec, after, hspecs, hmalformed, hbefore, hfault⟩
    exact ⟨before, spec, after, hspecs, ⟨hmalformed, hfault⟩, hbefore⟩

def setting? (spec : Text) : Option (Text × FieldType) :=
  (split? spec).bind fun entry => (FieldType.ofName? entry.2).map (entry.1, ·)

theorem setting?_eq_some_iff {spec field : Text} {type : FieldType} :
    setting? spec = some (field, type) ↔ Sets spec field type := by
  simp only [setting?, Option.bind_eq_some_iff, Option.map_eq_some_iff, Prod.exists, Prod.mk.injEq,
    split?_eq_some_iff, FieldType.ofName?_eq_some_iff, Sets]
  constructor
  · rintro ⟨_, typeName, hgives, _, htype, rfl, rfl⟩
    exact ⟨typeName, hgives, htype⟩
  · rintro ⟨typeName, hgives, htype⟩
    exact ⟨field, typeName, hgives, type, htype, rfl, rfl⟩

theorem exists_of_filterMap_eq {α β : Type} {read : α → Option β} {items : List α}
    {read₁ read₂ : List β} {result : β} (h : items.filterMap read = read₁ ++ result :: read₂) :
    ∃ before item after, items = before ++ item :: after ∧ read item = some result ∧
      before.filterMap read = read₁ ∧ after.filterMap read = read₂ := by
  obtain ⟨before, rest, rfl, hbefore, hrest⟩ := List.filterMap_eq_append_iff.1 h
  obtain ⟨skipped, item, after, rfl, hskipped, hitem, hafter⟩ := List.filterMap_eq_cons_iff.1 hrest
  refine ⟨before ++ skipped, item, after, by simp, hitem, ?_, hafter⟩
  rw [List.filterMap_append, hbefore, List.filterMap_eq_nil_iff.2 hskipped, List.append_nil]

theorem not_isMalformed_of_sets {spec field : Text} {type : FieldType} (h : Sets spec field type) :
    ¬ IsMalformed spec := by
  obtain ⟨typeName, hgives, -⟩ := h
  exact fun hmalformed => hmalformed field typeName hgives

/-- Of a spec that is not malformed the type name decides whether it sets anything. -/
theorem Gives.exists_sets_iff {spec field typeName : Text} (h : Gives spec field typeName) :
    (∃ other type, Sets spec other type) ↔ ∃ type, FieldType.Names typeName type := by
  constructor
  · rintro ⟨other, type, typeName', hgives, htype⟩
    have hsame := (split?_of_gives h).symm.trans (split?_of_gives hgives)
    cases hsame
    exact ⟨type, htype⟩
  · rintro ⟨type, htype⟩
    exact ⟨field, type, typeName, h, htype⟩

theorem Gives.exists_sets {spec field typeName : Text} (h : Gives spec field typeName)
    (hsets : ∃ other type, Sets spec other type) : ∃ type, Sets spec field type := by
  obtain ⟨type, htype⟩ := h.exists_sets_iff.1 hsets
  exact ⟨type, typeName, h, htype⟩

/-- The last spec that names a field gives it its type. -/
theorem lastType?_settings_eq_some {specs : List Text}
    (h : ∀ spec ∈ specs, ∃ field type, Sets spec field type) {field : Text} {type : FieldType} :
    Schema.lastType? (specs.filterMap setting?) field = some type ↔
      ∃ before spec after, specs = before ++ spec :: after ∧ Sets spec field type ∧
        ∀ later ∈ after, ∀ typeName, ¬ Gives later field typeName := by
  rw [Schema.lastType?_eq_some_iff]
  constructor
  · rintro ⟨settings₁, settings₂, hsettings, hlast⟩
    obtain ⟨before, spec, after, rfl, hspec, -, rfl⟩ := exists_of_filterMap_eq hsettings
    refine ⟨before, spec, after, rfl, setting?_eq_some_iff.1 hspec, ?_⟩
    intro later hlater typeName hgives
    have hmem : later ∈ before ++ spec :: after := by simp [hlater]
    obtain ⟨other, hsets⟩ := hgives.exists_sets (h later hmem)
    have hsetting := List.mem_filterMap.2 ⟨later, hlater, setting?_eq_some_iff.2 hsets⟩
    exact hlast _ hsetting rfl
  · rintro ⟨before, spec, after, rfl, hspec, hlast⟩
    refine ⟨before.filterMap setting?, after.filterMap setting?, ?_, ?_⟩
    · rw [List.filterMap_append, List.filterMap_cons_some (setting?_eq_some_iff.2 hspec)]
    · rintro ⟨name, other⟩ hsetting rfl
      obtain ⟨later, hlater, hlater?⟩ := List.mem_filterMap.1 hsetting
      obtain ⟨typeName, hgives, -⟩ := setting?_eq_some_iff.1 hlater?
      exact hlast later hlater typeName hgives

theorem lastType?_settings_eq_none {specs : List Text}
    (h : ∀ spec ∈ specs, ∃ field type, Sets spec field type) {field : Text} :
    Schema.lastType? (specs.filterMap setting?) field = none ↔
      ∀ spec ∈ specs, ∀ typeName, ¬ Gives spec field typeName := by
  rw [Schema.lastType?_eq_none_iff]
  constructor
  · intro hnever spec hspec typeName hgives
    obtain ⟨type, hsets⟩ := hgives.exists_sets (h spec hspec)
    exact hnever _ (List.mem_filterMap.2 ⟨spec, hspec, setting?_eq_some_iff.2 hsets⟩) rfl
  · rintro hnever ⟨name, type⟩ hsetting rfl
    obtain ⟨spec, hspec, hspec?⟩ := List.mem_filterMap.1 hsetting
    obtain ⟨typeName, hgives, -⟩ := setting?_eq_some_iff.1 hspec?
    exact hnever spec hspec typeName hgives

/-! ### Their schema -/

theorem not_isMalformed_of_splitAll {specs : List Text} {entries : List (Text × Text)}
    (h : splitAll specs = .ok entries) : ∀ spec ∈ specs, ¬ IsMalformed spec := by
  rw [splitAll_eq_mapM] at h
  intro spec hspec
  exact exists_splitOne_eq_ok.1 (exists_mapM_eq_ok.1 ⟨entries, h⟩ spec hspec)

theorem schema_eq_ok {specs : List Text} (h : ∀ spec ∈ specs, ∃ field type, Sets spec field type) :
    schema specs = .ok (.ofEntries (specs.filterMap setting?)) := by
  have hsplit : splitAll specs = .ok (specs.filterMap split?) := by
    apply splitAll_eq_ok
    intro spec hspec
    obtain ⟨field, type, hsets⟩ := h spec hspec
    exact not_isMalformed_of_sets hsets
  have hvalid : ∀ entry ∈ specs.filterMap split?, FieldType.ofName? entry.2 ≠ none := by
    rintro ⟨field, typeName⟩ hentry
    obtain ⟨spec, hspec, hgives⟩ := List.mem_filterMap.1 hentry
    rw [FieldType.ofName?_ne_none_iff]
    exact (gives_of_split? hgives).exists_sets_iff.1 (h spec hspec)
  have hnamed : Schema.named (specs.filterMap split?) = specs.filterMap setting? :=
    List.filterMap_filterMap
  rw [schema, hsplit, ok_bind, Schema.ofTypeNames_eq_named hvalid, hnamed]
  rfl

theorem exists_sets_of_schema {specs : List Text} {overrides : Schema}
    (h : schema specs = .ok overrides) : ∀ spec ∈ specs, ∃ field type, Sets spec field type := by
  obtain ⟨entries, hsplit, htypes⟩ := bind_eq_ok.1 h
  have hformed := not_isMalformed_of_splitAll hsplit
  rw [splitAll_eq_ok hformed] at hsplit
  cases hsplit
  have hvalid := Schema.exists_ofTypeNames_eq_ok.1 ⟨overrides, mapError_eq_ok.1 htypes⟩
  intro spec hspec
  obtain ⟨entry, hentry⟩ :=
    Option.ne_none_iff_exists'.1 (split?_eq_none_iff.not.2 (hformed spec hspec))
  apply (gives_of_split? hentry).exists_sets_iff.2
  exact FieldType.ofName?_ne_none_iff.1 (hvalid entry (List.mem_filterMap.2 ⟨spec, hspec, hentry⟩))

/-- A malformed spec is reported before any type that is not known. -/
theorem schema_eq_error_iff {specs : List Text} {fault : Fault} :
    schema specs = .error fault ↔ FirstFault specs fault := by
  rw [schema, bind_eq_error, splitAll_eq_error_iff]
  constructor
  · rintro (⟨before, spec, after, hspecs, hmalformed, hbefore, rfl⟩ | ⟨entries, hsplit, herror⟩)
    · exact .malformed hspecs hmalformed hbefore
    · have hformed := not_isMalformed_of_splitAll hsplit
      rw [splitAll_eq_ok hformed] at hsplit
      cases hsplit
      obtain ⟨error, htypes, rfl⟩ := mapError_eq_error.1 herror
      obtain ⟨entries₁, entries₂, hentries, hnone, hearlier⟩ :=
        Schema.ofTypeNames_eq_error_iff.1 htypes
      obtain ⟨before, spec, after, rfl, hspec, rfl, -⟩ := exists_of_filterMap_eq hentries
      refine .invalidType hformed rfl (gives_of_split? hspec) hnone ?_
      intro earlier hmem
      have hne := split?_eq_none_iff.not.2 (hformed earlier (List.mem_append_left _ hmem))
      obtain ⟨entry, hentry⟩ := Option.ne_none_iff_exists'.1 hne
      have hvalid := hearlier entry (List.mem_filterMap.2 ⟨earlier, hmem, hentry⟩)
      exact (gives_of_split? hentry).exists_sets_iff.2 hvalid
  · intro h
    cases h with
    | @malformed before after spec hspecs hmalformed hbefore =>
      exact .inl ⟨before, spec, after, hspecs, hmalformed, hbefore, rfl⟩
    | @invalidType before after spec field typeName hformed hspecs hgives hnone hearlier =>
      subst hspecs
      refine .inr ⟨_, splitAll_eq_ok hformed, mapError_eq_error.2 ⟨⟨field, typeName⟩, ?_, rfl⟩⟩
      refine Schema.ofTypeNames_eq_error_iff.2
        ⟨before.filterMap split?, after.filterMap split?, ?_, hnone, ?_⟩
      · rw [List.filterMap_append, List.filterMap_cons_some (split?_of_gives hgives)]
      · rintro ⟨name, other⟩ hentry
        obtain ⟨earlier, hmem, hsplit⟩ := List.mem_filterMap.1 hentry
        exact (gives_of_split? hsplit).exists_sets_iff.1 (hearlier earlier hmem)

end FieldSpec

namespace CommandLine

open FieldSpec

def overridden (arguments : Arguments) (settings : Settings) (overrides : Schema) : Compiler where
  schema := settings.schema.merge overrides
  options := { settings.options with
    coalesceTags := settings.options.coalesceTags || arguments.coalesce
    stripParens := settings.options.stripParens && !arguments.keepParens }

/-- After the settings are loaded only the specs can fail. -/
theorem setUp_of_load {files : Files} {arguments : Arguments} {messages : List Message}
    {settings : Settings} (hload : loadSettings files arguments = (messages, .ok settings)) :
    (setUp files arguments).2 =
      ((schema arguments.fields).map (overridden arguments settings)).mapError .fieldSpec := by
  rw [setUp, hload]
  dsimp only
  rw [override]
  cases schema arguments.fields with
  | error fault => rfl
  | ok overrides => rfl

theorem setUp_eq_ok_iff {files : Files} {arguments : Arguments} {messages : List Message}
    {settings : Settings} (hload : loadSettings files arguments = (messages, .ok settings))
    {compiler : Compiler} :
    (setUp files arguments).2 = .ok compiler ↔
      (∀ spec ∈ arguments.fields, ∃ field type, Sets spec field type) ∧
        compiler = overridden arguments settings
          (.ofEntries (arguments.fields.filterMap setting?)) := by
  rw [setUp_of_load hload, mapError_eq_ok, map_eq_ok]
  constructor
  · rintro ⟨overrides, hschema, rfl⟩
    have hsets := exists_sets_of_schema hschema
    rw [schema_eq_ok hsets] at hschema
    cases hschema
    exact ⟨hsets, rfl⟩
  · rintro ⟨hsets, rfl⟩
    exact ⟨_, schema_eq_ok hsets, rfl⟩

theorem setUp_eq_error_iff {files : Files} {arguments : Arguments} {messages : List Message}
    {settings : Settings} (hload : loadSettings files arguments = (messages, .ok settings))
    {error : SetupError} :
    (setUp files arguments).2 = .error error ↔
      ∃ fault, FirstFault arguments.fields fault ∧ .fieldSpec fault = error := by
  rw [setUp_of_load hload, mapError_eq_error]
  simp only [map_eq_error, schema_eq_error_iff]

/-- With loaded settings the compiler can be set up exactly if every spec sets a field. Then the
last spec that names a field gives it its type, a field that no spec names keeps the type of the
settings, and the flags change their own options only. Otherwise the first fault of the specs is
reported. -/
theorem setUp_overrides (files : Files) (arguments : Arguments) {messages : List Message}
    {settings : Settings} (hload : loadSettings files arguments = (messages, .ok settings)) :
    ((∃ compiler, (setUp files arguments).2 = .ok compiler) ↔
      ∀ spec ∈ arguments.fields, ∃ field type, Sets spec field type) ∧
    (∀ compiler, (setUp files arguments).2 = .ok compiler →
      (∀ field type, compiler.schema.get? field = some type ↔
        (∃ before spec after, arguments.fields = before ++ spec :: after ∧ Sets spec field type ∧
          ∀ later ∈ after, ∀ typeName, ¬ Gives later field typeName) ∨
        (∀ spec ∈ arguments.fields, ∀ typeName, ¬ Gives spec field typeName) ∧
          settings.schema.get? field = some type) ∧
      compiler.options.coalesceTags =
        (if arguments.coalesce then true else settings.options.coalesceTags) ∧
      compiler.options.stripParens =
        (if arguments.keepParens then false else settings.options.stripParens) ∧
      compiler.options.emptyList = settings.options.emptyList ∧
      compiler.options.maxDepth = settings.options.maxDepth) ∧
    ∀ error, (setUp files arguments).2 = .error error ↔
      ∃ fault, FirstFault arguments.fields fault ∧ .fieldSpec fault = error := by
  refine ⟨?_, fun compiler hcompiler => ?_, fun error => setUp_eq_error_iff hload⟩
  · simp only [setUp_eq_ok_iff hload, exists_and_left, exists_eq, and_true]
  · obtain ⟨hsets, rfl⟩ := (setUp_eq_ok_iff hload).1 hcompiler
    refine ⟨fun field type => ?_, ?_, ?_, rfl, rfl⟩
    · rw [overridden, Schema.get?_merge, Schema.get?_ofEntries, Option.or_eq_some_iff,
        lastType?_settings_eq_some hsets, lastType?_settings_eq_none hsets]
    · cases hcoalesce : arguments.coalesce <;> simp [overridden, hcoalesce]
    · cases hkeep : arguments.keepParens <;> simp [overridden, hkeep]

/-- A field of the settings and one given twice, and a malformed spec behind one of unknown type. -/
theorem setUp_overrides_file :
    let files : Files := fun _ =>
      some "fields:\n  age: TAG\n  role: TEXT\noptions:\n  max_depth: 7\n".toList
    let arguments : Arguments := {
      config := some "settings.yaml".toList
      coalesce := true
      fields := ["age=text".toList, "name=TEXT".toList, " age = NUMERIC".toList] }
    let refused : Arguments := { arguments with
      fields := ["loc=GEO".toList, "role".toList, "=TAG".toList] }
    (∃ messages settings, loadSettings files arguments = (messages, .ok settings)) ∧
      (∃ compiler, (setUp files arguments).2 = .ok compiler ∧
        compiler.schema.get? "age".toList = some .numeric ∧
        compiler.schema.get? "role".toList = some .text ∧
        compiler.options.coalesceTags = true ∧ compiler.options.maxDepth = 7) ∧
      (setUp files refused).2 = .error (.fieldSpec (.malformed "role".toList)) := by
  intro files arguments refused
  have hfile : (loadSettings files arguments).2.toOption.map (fun settings =>
      (settings.schema.get? "role".toList, settings.options.maxDepth)) =
      some (some .text, 7) := by
    decide +kernel
  obtain ⟨settings, hsettings, heq⟩ := Option.map_eq_some_iff.1 hfile
  obtain ⟨hrole, hdepth⟩ := Prod.ext_iff.1 heq
  have hload : loadSettings files arguments =
      ((loadSettings files arguments).1, .ok settings) :=
    Prod.ext rfl (toOption_eq_some.1 hsettings)
  have hsets : ∀ spec ∈ arguments.fields, ∃ field type, Sets spec field type := by
    have hsome : arguments.fields.all (fun spec => (setting? spec).isSome) = true := by
      decide +kernel
    intro spec hspec
    obtain ⟨⟨field, type⟩, hsetting⟩ :=
      Option.isSome_iff_exists.1 (List.all_eq_true.1 hsome spec hspec)
    exact ⟨field, type, setting?_eq_some_iff.1 hsetting⟩
  have hnot : ∀ spec ∈ arguments.fields, ∀ typeName, ¬ Gives spec "role".toList typeName := by
    have hnames : arguments.fields.all (fun spec =>
        (split? spec).map Prod.fst != some "role".toList) = true := by
      decide +kernel
    intro spec hspec typeName hgives
    have hname := List.all_eq_true.1 hnames spec hspec
    simp [split?_of_gives hgives] at hname
  obtain ⟨hsetUp, hcompiler, -⟩ := setUp_overrides files arguments hload
  obtain ⟨-, -, herror⟩ := setUp_overrides files refused hload
  obtain ⟨compiler, hok⟩ := hsetUp.2 hsets
  obtain ⟨hfields, hcoalesce, -, -, hmaxDepth⟩ := hcompiler compiler hok
  have hage : Sets " age = NUMERIC".toList "age".toList .numeric :=
    setting?_eq_some_iff.1 (by decide +kernel)
  refine ⟨⟨_, settings, hload⟩, ⟨compiler, hok, ?_, ?_, hcoalesce, hmaxDepth.trans hdepth⟩, ?_⟩
  · have hlast : arguments.fields =
        ["age=text".toList, "name=TEXT".toList] ++ " age = NUMERIC".toList :: [] := rfl
    exact (hfields _ _).2 (.inl ⟨_, _, [], hlast, hage, by simp⟩)
  · exact (hfields _ _).2 (.inr ⟨hnot, hrole⟩)
  · have hspecs : refused.fields = ["loc=GEO".toList] ++ "role".toList :: ["=TAG".toList] := rfl
    refine (herror _).2 ⟨_, .malformed hspecs (split?_eq_none_iff.1 (by decide)) ?_, rfl⟩
    intro earlier hearlier
    obtain rfl := List.mem_singleton.1 hearlier
    exact split?_eq_none_iff.not.1 (by decide)

end CommandLine

end FilterQuery
