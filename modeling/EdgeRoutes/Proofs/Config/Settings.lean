import EdgeRoutes.Config.Reader
import Mathlib.Data.List.Forall2

/-! The settings of a configuration, each with its section and its name, and what a table of
settings makes of a configuration.
-/

set_option autoImplicit false

namespace EdgeRoutes

namespace Toml.Shape

variable {Record State Setting : Type} (shape : Shape Record)

def readEntry (record : Record) (entry : String × Item) : Except Fault Record :=
  match shape.fields.find? (·.name == entry.1) with
  | none => .ok record
  | some field => field.read record entry.2

variable {shape}

/-- Entries that are read as one step each are read as the run of these steps, and the entries
between them that are unknown make no difference. The record may be part of a larger state. -/
theorem byName_eq_ok (view : Record → State) (step : State → Setting → State)
    {knows : String → Bool}
    (unknown : ∀ name, knows name = false → shape.fields.find? (·.name == name) = none)
    {entries : List (String × Item)} {settings : List Setting}
    (reads : List.Forall₂
      (fun entry setting => ∀ record, ∃ next, shape.readEntry record entry = .ok next ∧
        view next = step (view record) setting)
      (entries.filter fun entry => knows entry.1) settings)
    (record : Record) :
    ∃ last, shape.byName record entries = .ok last ∧
      view last = settings.foldl step (view record) := by
  change ∃ last, entries.foldlM shape.readEntry record = .ok last ∧ _
  induction entries generalizing settings record with
  | nil =>
    cases reads
    exact ⟨record, rfl, rfl⟩
  | cons entry entries ih =>
    rw [List.foldlM_cons]
    cases known : knows entry.1 with
    -- An unknown name is passed over, as it is missing among the settings.
    | false =>
      simp only [List.filter_cons, known, Bool.false_eq_true, if_false] at reads
      have kept : shape.readEntry record entry = .ok record := by
        simp [readEntry, unknown entry.1 known]
      rw [kept]
      exact ih reads record
    | true =>
      simp only [List.filter_cons, known, if_true] at reads
      obtain ⟨setting, others, first, more, rfl⟩ := List.forall₂_cons_left_iff.mp reads
      obtain ⟨next, read, same⟩ := first record
      obtain ⟨last, rest, result⟩ := ih more next
      rw [read]
      exact ⟨last, rest, by rw [result, same, List.foldl_cons]⟩

end Toml.Shape

namespace Config

inductive Section where
  | manifest
  | routes
  | matcher
  | minify
  deriving DecidableEq, Repr

def Section.name : Section → String
  | manifest => "manifest"
  | routes => "routes"
  | matcher => "matcher"
  | minify => "minify"

inductive Key where
  | buildDirectory
  | fileName
  | supportedVersion
  | wildcardKey
  | pageKey
  | catchAllMarker
  | pageSuffix
  | rootPage
  | internalPrefix
  | maxProgramBytes
  | enabled
  | mangle
  | compress
  deriving DecidableEq, Repr

namespace Key

def home : Key → Section
  | buildDirectory | fileName | supportedVersion => .manifest
  | wildcardKey | pageKey | catchAllMarker => .routes
  | pageSuffix | rootPage | internalPrefix | maxProgramBytes => .matcher
  | enabled | mangle | compress => .minify

def name : Key → String
  | buildDirectory => "build_dir"
  | fileName => "file_name"
  | supportedVersion => "supported_version"
  | wildcardKey => "wildcard_key"
  | pageKey => "page_key"
  | catchAllMarker => "catch_all_marker"
  | pageSuffix => "page_suffix"
  | rootPage => "root_page"
  | internalPrefix => "internal_prefix"
  | maxProgramBytes => "max_program_bytes"
  | enabled => "enabled"
  | mangle => "mangle"
  | compress => "compress"

def all : List Key := [buildDirectory, fileName, supportedVersion, wildcardKey, pageKey,
  catchAllMarker, pageSuffix, rootPage, internalPrefix, maxProgramBytes, enabled, mangle, compress]

end Key

def Section.knows (found : Section) (name : String) : Bool :=
  Key.all.any fun key => key.home == found && key.name == name

inductive Value where
  | text (value : String)
  | natural (value : Nat)
  | boolean (value : Bool)
  deriving DecidableEq, Repr

def Value.item : Value → Toml.Item
  | text value => .string value
  | natural value => .integer value
  | boolean value => .boolean value

inductive Kind where
  | text
  | natural (bound : Nat)
  | boolean

def Kind.Holds : Kind → Value → Prop
  | text, .text _ => True
  | natural bound, .natural value => value < bound
  | boolean, .boolean _ => True
  | _, _ => False

instance : (kind : Kind) → (value : Value) → Decidable (kind.Holds value)
  | .text, .text _ | .boolean, .boolean _ => inferInstanceAs (Decidable True)
  | .natural bound, .natural value => inferInstanceAs (Decidable (value < bound))
  | .text, .natural _ | .text, .boolean _ | .natural _, .text _ | .natural _, .boolean _
  | .boolean, .text _ | .boolean, .natural _ => inferInstanceAs (Decidable False)

def Key.kind : Key → Kind
  | supportedVersion => .natural (Nat.pow 2 32)
  | maxProgramBytes => .natural (Nat.pow 2 63)
  | enabled | mangle | compress => .boolean
  | _ => .text

def get (config : Config) : Key → Value
  | .buildDirectory => .text config.manifest.buildDirectory
  | .fileName => .text config.manifest.fileName
  | .supportedVersion => .natural config.manifest.supportedVersion
  | .wildcardKey => .text config.routes.wildcardKey
  | .pageKey => .text config.routes.pageKey
  | .catchAllMarker => .text config.routes.catchAllMarker
  | .pageSuffix => .text config.matcher.pageSuffix
  | .rootPage => .text config.matcher.rootPage
  | .internalPrefix => .text config.matcher.internalPrefix
  | .maxProgramBytes => .natural config.matcher.maxProgramBytes
  | .enabled => .boolean config.minify.enabled
  | .mangle => .boolean config.minify.mangle
  | .compress => .boolean config.minify.compress

/-- A value of another kind changes nothing. -/
def set (config : Config) : Key → Value → Config
  | .buildDirectory, .text value =>
    { config with manifest := { config.manifest with buildDirectory := value } }
  | .fileName, .text value =>
    { config with manifest := { config.manifest with fileName := value } }
  | .supportedVersion, .natural value =>
    { config with manifest := { config.manifest with supportedVersion := value } }
  | .wildcardKey, .text value =>
    { config with routes := { config.routes with wildcardKey := value } }
  | .pageKey, .text value => { config with routes := { config.routes with pageKey := value } }
  | .catchAllMarker, .text value =>
    { config with routes := { config.routes with catchAllMarker := value } }
  | .pageSuffix, .text value =>
    { config with matcher := { config.matcher with pageSuffix := value } }
  | .rootPage, .text value =>
    { config with matcher := { config.matcher with rootPage := value } }
  | .internalPrefix, .text value =>
    { config with matcher := { config.matcher with internalPrefix := value } }
  | .maxProgramBytes, .natural value =>
    { config with matcher := { config.matcher with maxProgramBytes := value } }
  | .enabled, .boolean value => { config with minify := { config.minify with enabled := value } }
  | .mangle, .boolean value => { config with minify := { config.minify with mangle := value } }
  | .compress, .boolean value => { config with minify := { config.minify with compress := value } }
  | _, _ => config

/-- A key with a value that it may have. -/
structure Setting where
  key : Key
  value : Value
  fits : key.kind.Holds value

namespace Setting

def entry (setting : Setting) : String × Toml.Item := (setting.key.name, setting.value.item)

theorem get_set_self (setting : Setting) (config : Config) :
    (config.set setting.key setting.value).get setting.key = setting.value := by
  obtain ⟨key, value, fits⟩ := setting
  cases key <;> cases value <;> first | rfl | exact fits.elim

end Setting

theorem get_set_other (config : Config) {key other : Key} (apart : other ≠ key) (value : Value) :
    (config.set key value).get other = config.get other := by
  cases key <;> cases value <;> first | rfl | (cases other <;> first | rfl | exact absurd rfl apart)

theorem eq_of_get {config other : Config} (same : ∀ key, config.get key = other.get key) :
    config = other := by
  obtain ⟨⟨_, _, _⟩, ⟨_, _, _⟩, ⟨_, _, _, _⟩, ⟨_, _, _⟩⟩ := config
  obtain ⟨⟨_, _, _⟩, ⟨_, _, _⟩, ⟨_, _, _, _⟩, ⟨_, _, _⟩⟩ := other
  cases same .buildDirectory
  cases same .fileName
  cases same .supportedVersion
  cases same .wildcardKey
  cases same .pageKey
  cases same .catchAllMarker
  cases same .pageSuffix
  cases same .rootPage
  cases same .internalPrefix
  cases same .maxProgramBytes
  cases same .enabled
  cases same .mangle
  cases same .compress
  rfl

def apply (config : Config) (settings : List Setting) : Config :=
  settings.foldl (fun config setting => config.set setting.key setting.value) config

theorem get_apply_of_absent {settings : List Setting} {key : Key}
    (absent : key ∉ settings.map Setting.key) (config : Config) :
    (config.apply settings).get key = config.get key := by
  induction settings generalizing config with
  | nil => rfl
  | cons setting settings ih =>
    rw [List.map_cons, List.mem_cons, not_or] at absent
    exact (ih absent.2 _).trans (config.get_set_other absent.1 setting.value)

theorem get_apply_of_mem {settings : List Setting} {setting : Setting} (member : setting ∈ settings)
    (agree : ∀ other ∈ settings, other.key = setting.key → other.value = setting.value)
    (config : Config) : (config.apply settings).get setting.key = setting.value := by
  induction settings generalizing setting config with
  | nil => cases member
  | cons first settings ih =>
    have later := fun other inside => agree other (List.mem_cons_of_mem first inside)
    by_cases again : setting.key ∈ settings.map Setting.key
    · obtain ⟨other, inside, same⟩ := List.mem_map.mp again
      have value := later other inside same
      rw [← same, ← value]
      exact ih inside (fun third inside => by rw [same, value]; exact later third inside) _
    · rcases List.mem_cons.mp member with rfl | inside
      · exact (get_apply_of_absent again _).trans (setting.get_set_self config)
      · exact absurd (List.mem_map_of_mem inside) again

/-- A shape reads the keys of one section and no others, where `view` puts the record of the
section into a configuration. -/
structure Presents {Record : Type} (shape : Toml.Shape Record) (view : Record → Config)
    (found : Section) : Prop where
  unknown : ∀ name, found.knows name = false → shape.fields.find? (·.name == name) = none
  known : ∀ key value, key.home = found → key.kind.Holds value → ∀ record, ∃ next,
    shape.readEntry record (key.name, value.item) = .ok next ∧
      view next = (view record).set key value

theorem Presents.byName {Record : Type} {shape : Toml.Shape Record} {view : Record → Config}
    {found : Section} (presents : Presents shape view found) {below : Toml.Entries}
    {settings : List Setting} (inside : ∀ setting ∈ settings, setting.key.home = found)
    (written : (below.filter fun entry => found.knows entry.1) = settings.map Setting.entry)
    (record : Record) :
    ∃ last, shape.byName record below = .ok last ∧ view last = (view record).apply settings := by
  refine Toml.Shape.byName_eq_ok view
    (fun config (setting : Setting) => config.set setting.key setting.value) presents.unknown ?_
    record
  rw [written, List.forall₂_map_left_iff, List.forall₂_same]
  exact fun setting member => presents.known _ _ (inside setting member) setting.fits

theorem natural_eq_ok {limit value : Nat} (fits : value ≤ limit) (kind : String) :
    Toml.Reader.natural limit kind (.integer value) = .ok value := by
  simp [Toml.Reader.natural, fits]

theorem manifest_presents (config : Config) :
    Presents ManifestConfig.shape (fun manifest => { config with manifest }) .manifest where
  unknown name unknown := by
    simp_all [Section.knows, Key.all, Key.home, Key.name, ManifestConfig.shape, Toml.Field.of]
  known key value inside fits record := by
    cases key <;> cases inside <;> cases value <;>
      first | exact fits.elim | exact ⟨_, rfl, rfl⟩ | skip
    next value =>
      have fits : value < Nat.pow 2 32 := fits
      refine ⟨{ record with supportedVersion := value }, ?_, rfl⟩
      exact congrArg (Except.map fun supportedVersion => { record with supportedVersion })
        (natural_eq_ok (Nat.le_sub_one_of_lt fits) "u32")

theorem routes_presents (config : Config) :
    Presents RouteConfig.shape (fun routes => { config with routes }) .routes where
  unknown name unknown := by
    simp_all [Section.knows, Key.all, Key.home, Key.name, RouteConfig.shape, Toml.Field.of]
  known key value inside fits record := by
    cases key <;> cases inside <;> cases value <;> first | exact fits.elim | exact ⟨_, rfl, rfl⟩

theorem matcher_presents (config : Config) :
    Presents MatcherConfig.shape (fun matcher => { config with matcher }) .matcher where
  unknown name unknown := by
    simp_all [Section.knows, Key.all, Key.home, Key.name, MatcherConfig.shape, Toml.Field.of]
  known key value inside fits record := by
    cases key <;> cases inside <;> cases value <;>
      first | exact fits.elim | exact ⟨_, rfl, rfl⟩ | skip
    next value =>
      have fits : value < Nat.pow 2 63 := fits
      have limited : value ≤ Nat.pow 2 64 - 1 := by
        simp only [Nat.pow_eq] at fits ⊢
        omega
      refine ⟨{ record with maxProgramBytes := value }, ?_, rfl⟩
      exact congrArg (Except.map fun maxProgramBytes => { record with maxProgramBytes })
        (natural_eq_ok limited "usize")

theorem minify_presents (config : Config) :
    Presents MinifyConfig.shape (fun minify => { config with minify }) .minify where
  unknown name unknown := by
    simp_all [Section.knows, Key.all, Key.home, Key.name, MinifyConfig.shape, Toml.Field.of]
  known key value inside fits record := by
    cases key <;> cases inside <;> cases value <;> first | exact fits.elim | exact ⟨_, rfl, rfl⟩

/-- Reading the table of a section, with any unknown keys in it, applies its settings. -/
theorem Section.readEntry_table {found : Section} {origin : Toml.Origin} {below : Toml.Entries}
    {settings : List Setting} (inside : ∀ setting ∈ settings, setting.key.home = found)
    (written : (below.filter fun entry => found.knows entry.1) = settings.map Setting.entry)
    (config : Config) :
    Config.shape.readEntry config (found.name, .table origin below) =
      .ok (config.apply settings) := by
  cases found with
  | manifest =>
    obtain ⟨last, read, result⟩ := (manifest_presents config).byName inside written config.manifest
    change (ManifestConfig.shape.byName config.manifest below).map _ = _
    rw [read]
    exact congrArg _ result
  | routes =>
    obtain ⟨last, read, result⟩ := (routes_presents config).byName inside written config.routes
    change (RouteConfig.shape.byName config.routes below).map _ = _
    rw [read]
    exact congrArg _ result
  | matcher =>
    obtain ⟨last, read, result⟩ := (matcher_presents config).byName inside written config.matcher
    change (MatcherConfig.shape.byName config.matcher below).map _ = _
    rw [read]
    exact congrArg _ result
  | minify =>
    obtain ⟨last, read, result⟩ := (minify_presents config).byName inside written config.minify
    change (MinifyConfig.shape.byName config.minify below).map _ = _
    rw [read]
    exact congrArg _ result

end Config

end EdgeRoutes
