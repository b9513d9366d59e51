import EdgeRoutes.Compile.Pipeline
import EdgeRoutes.Proofs.Config.Document
import EdgeRoutes.Proofs.Config.Violations
import Mathlib.Data.List.Nodup

/-! What a configuration file means.

The configuration of a file has the values that the file writes and the defaults elsewhere. It is
accepted if it breaks no rule, and reported with all the rules it breaks otherwise.
-/

set_option autoImplicit false

namespace EdgeRoutes

namespace Config

def settingsUnder (settings : List Setting) (name : String) : List Setting :=
  match Section.ofName? name with
  | none => []
  | some found => settingsOf found settings

theorem field_unknown {name : String} (unknown : (Section.ofName? name).isSome = false) :
    Config.shape.fields.find? (·.name == name) = none := by
  simpa [Section.ofName?, Section.all, Section.name, Config.shape, Toml.Field.of] using unknown

namespace Matches

variable {settings : List Setting} {document bare : Toml.Entries}

theorem readEntry_eq (same : Matches settings document bare) {entry : String × Toml.Item}
    (member : entry ∈ document) (known : (Section.ofName? entry.1).isSome = true)
    (config : Config) :
    Config.shape.readEntry config entry = .ok (config.apply (settingsUnder settings entry.1)) := by
  obtain ⟨found, name⟩ := Option.isSome_iff_exists.mp known
  have inside : entry ∈ Toml.Entries.slot found.name document :=
    List.mem_filter.mpr ⟨member, by simp [Section.name_of_ofName? name]⟩
  have holds := same.sections found
  rw [settingsUnder, name]
  generalize Toml.Entries.slot found.name document = entries at holds inside
  cases holds with
  | nothing => cases inside
  | table written =>
    obtain rfl := List.mem_singleton.mp inside
    refine Section.readEntry_table (fun setting member => ?_) written config
    simpa [settingsOf] using (List.mem_filter.mp member).2

theorem mem_settingsUnder (same : Matches settings document bare) (setting : Setting) :
    (∃ entry ∈ document, (Section.ofName? entry.1).isSome = true ∧
      setting ∈ settingsUnder settings entry.1) ↔ setting ∈ settings := by
  constructor
  · rintro ⟨entry, _, known, member⟩
    obtain ⟨found, name⟩ := Option.isSome_iff_exists.mp known
    rw [settingsUnder, name] at member
    exact (List.mem_filter.mp member).1
  · intro member
    have own : setting ∈ settingsOf setting.key.home settings :=
      List.mem_filter.mpr ⟨member, by simp⟩
    have holds := same.sections setting.key.home
    generalize found : Toml.Entries.slot setting.key.home.name document = entries at holds
    cases holds with
    | nothing none =>
      rw [none] at own
      cases own
    | @table origin below written =>
      have inside : (setting.key.home.name, .table origin below) ∈
          Toml.Entries.slot setting.key.home.name document := found ▸ List.mem_singleton_self _
      refine ⟨_, (List.mem_filter.mp inside).1, ?_, ?_⟩
      · simp [Section.ofName?_name]
      · rw [settingsUnder, Section.ofName?_name]
        exact own

/-- A document is read as the configuration with its settings. -/
theorem byName_eq (same : Matches settings document bare)
    (once : (settings.map Setting.key).Nodup) (config : Config) :
    ∃ last, Config.shape.byName config document = .ok last ∧
      (∀ setting ∈ settings, last.get setting.key = setting.value) ∧
      ∀ key, key ∉ settings.map Setting.key → last.get key = config.get key := by
  let known (name : String) : Bool := (Section.ofName? name).isSome
  let groups := (document.filter fun entry => known entry.1).map
    fun entry => settingsUnder settings entry.1
  have members (setting : Setting) : setting ∈ groups.flatten ↔ setting ∈ settings := by
    rw [← same.mem_settingsUnder]
    simp [groups, known, and_assoc]
  -- Each section of the document applies its own settings, in the order of the document.
  have reads : List.Forall₂ (fun entry group => ∀ config, ∃ next,
      Config.shape.readEntry config entry = .ok next ∧ next = config.apply group)
      (document.filter fun entry => known entry.1) groups := by
    refine List.forall₂_map_right_iff.mpr (List.forall₂_same.mpr fun entry member config => ?_)
    have here := List.mem_filter.mp member
    exact ⟨_, same.readEntry_eq here.1 here.2 config, rfl⟩
  obtain ⟨last, read, result⟩ := Toml.Shape.byName_eq_ok id Config.apply
    (fun name unknown => field_unknown unknown) reads config
  have applied : last = config.apply groups.flatten := by
    rw [apply, List.foldl_flatten]
    exact result
  refine ⟨last, read, fun setting member => ?_, fun key absent => ?_⟩
  · rw [applied]
    refine get_apply_of_mem ((members setting).mpr member) (fun other inside same => ?_) config
    rw [List.inj_on_of_nodup_map once ((members other).mp inside) member same]
  · rw [applied]
    refine get_apply_of_absent (fun inside => absent ?_) config
    obtain ⟨setting, member, rfl⟩ := List.mem_map.mp inside
    exact List.mem_map_of_mem ((members setting).mp member)

end Matches

theorem ofText_eq {source : String} {layout : Layout} (formed : layout.WellFormed)
    (written : layout.WrittenAs source) :
    ∃ config : Config, Config.ofText source = .ok config ∧
      (∀ setting ∈ layout.settings, config.get setting.key = setting.value) ∧
      ∀ key, key ∉ layout.settings.map Setting.key → config.get key = ({} : Config).get key := by
  obtain ⟨document, bare, made, same⟩ := formed.document
  obtain ⟨config, read, values, others⟩ := same.byName_eq formed.once {}
  refine ⟨config, ?_, values, others⟩
  have parsed : Toml.parse? source = some document := by
    rw [Toml.parse?, written.ofText?_eq]
    exact made
  rw [Config.ofText, parsed]
  exact read

end Config

/-- The text of a file gives the configuration with the values that it writes and the defaults
elsewhere, or the report of all rules that this configuration breaks. -/
theorem parseConfig_written {source : String} {layout : Config.Layout}
    (formed : layout.WellFormed) (written : layout.WrittenAs source)
    {given : Config.Key → Option Config.Value}
    (writes : ∀ key value, given key = some value ↔
      ∃ setting ∈ layout.settings, setting.key = key ∧ setting.value = value) :
    ∃ config : Config, (∀ key, config.get key = (given key).getD (({} : Config).get key)) ∧
      parseConfig source =
        (if config.violations = [] then .ok config else .error (.invalid config.violations)) ∧
      config.violations.Nodup ∧
      ∀ violation, violation ∈ config.violations ↔ config.Breaks violation := by
  obtain ⟨config, read, values, others⟩ := Config.ofText_eq formed written
  refine ⟨config, fun key => ?_, ?_, config.violations_nodup, config.mem_violations_iff⟩
  · cases written_value : given key with
    | some value =>
      obtain ⟨setting, member, rfl, rfl⟩ := (writes key value).mp written_value
      exact values setting member
    | none =>
      refine others key fun inside => ?_
      obtain ⟨setting, member, same⟩ := List.mem_map.mp inside
      have found := (writes key setting.value).mpr ⟨setting, member, same, rfl⟩
      rw [written_value] at found
      cases found
  · rw [parseConfig, read]
    cases found : config.violations with
    | nil => simp [found]
    | cons violation more => simp [found]

namespace Config

def clashingStart : String :=
  "version = true\n[routes]\nwildcard_key = \"\\u005F__page\" # as in the manifest\n"

def clashingEnd : String :=
  "[matcher]\nnote = true\nmax_program_bytes = 2_048\n[extra]\nbuild_dir = false"

def clashing : String := clashingStart ++ clashingEnd

def Layout.clashing : Layout where
  leading := [(["version"], .boolean true)]
  blocks := [
    .known .routes [.setting ⟨.wildcardKey, .text "___page", trivial⟩],
    .known .matcher [
      .addition ["note"] (.boolean true),
      .setting ⟨.maxProgramBytes, .natural 2048, by decide⟩],
    .other false ["extra"] [(["build_dir"], .boolean false)]]

def clashingValue? : Key → Option Value
  | .wildcardKey => some (.text "___page")
  | .maxProgramBytes => some (.natural 2048)
  | _ => none

theorem Layout.clashing_wellFormed : Layout.clashing.WellFormed where
  leading := by
    rw [clashing, List.forall_mem_singleton]
    exact .elsewhere fun found => by cases found <;> decide
  blocks := by
    simp only [clashing, List.forall_mem_cons]
    refine ⟨.known ?_, .known ?_, .other ?_, nofun⟩
    · rw [List.forall_mem_singleton]
      exact .setting rfl
    · simp only [List.forall_mem_cons]
      exact ⟨.addition (by decide), .setting rfl, nofun⟩
    · exact .elsewhere fun found => by cases found <;> decide
  once := by decide
  apart := by decide
  additions _ := by decide +kernel

theorem clashing_toList : clashing.toList = clashingStart.toList ++ clashingEnd.toList :=
  String.toList_append

open Toml.Grammar in
theorem Layout.clashing_writtenAs : Layout.clashing.WrittenAs Config.clashing := by
  have feed {rest : List Char} : Trailing ('\n' :: rest) rest := .blanks .none .feed
  have remark {rest : List Char} :
      Trailing (' ' :: '#' :: (" as in the manifest".toList ++ '\n' :: rest)) rest :=
    .remark (.blank (.inl rfl) .none) (.plain (by decide)) .feed
  have version {rest : List Char} : Toml.Grammar.Line (some (.entry ["version"] (.boolean true)))
      ("version".toList ++ ' ' :: '=' :: ' ' :: ("true".toList ++ '\n' :: rest)) rest :=
    .plain_entry (by decide) (by decide) (fun _ => .yes) feed
  have note {rest : List Char} : Toml.Grammar.Line (some (.entry ["note"] (.boolean true)))
      ("note".toList ++ ' ' :: '=' :: ' ' :: ("true".toList ++ '\n' :: rest)) rest :=
    .plain_entry (by decide) (by decide) (fun _ => .yes) feed
  have directory : Toml.Grammar.Line (some (.entry ["build_dir"] (.boolean false)))
      ("build_dir".toList ++ ' ' :: '=' :: ' ' :: ("false".toList ++ [])) [] :=
    .plain_entry (by decide) (by decide) (fun _ => .no) (.blanks .none .last)
  have wildcard {rest : List Char} :
      Quoted ('"' :: '\\' :: 'u' :: (['0', '0', '5', 'F'] ++ ("__page".toList ++ '"' :: rest)))
        ('_' :: ("__page".toList ++ [])) rest :=
    .basic (.escaped (@Escape.numeric 'u' '_'
      [⟨0, false⟩, ⟨0, false⟩, ⟨5, false⟩, ⟨15, true⟩] _ (by decide) (by decide))
      (.append (by decide) .close))
  have canonical : Canonical [⟨2, false⟩, ⟨0, false⟩, ⟨4, false⟩, ⟨8, false⟩] := by
    intro digit head zero
    cases head
    exact absurd zero (by decide)
  have digits {rest : List Char} : Digits 10 ('2' :: '_' :: '0' :: '4' :: '8' :: rest)
      [⟨2, false⟩, ⟨0, false⟩, ⟨4, false⟩, ⟨8, false⟩] rest :=
    @Digits.underscore 10 ⟨2, false⟩ _ _ _ (by decide) <|
      @Digits.next 10 ⟨0, false⟩ _ _ _ (by decide) <|
        @Digits.next 10 ⟨4, false⟩ _ _ _ (by decide) <| @Digits.last 10 ⟨8, false⟩ _ (by decide)
  have budget {rest : List Char} :
      Numeral (.integer 2048) ('2' :: '_' :: '0' :: '4' :: '8' :: rest) rest :=
    .integer (.decimal .none digits canonical) (by decide) (by decide)
  -- The lines first, with the text they make left open, then that this text is the source.
  obtain ⟨body, lines, same⟩ : ∃ body, Lines (Layout.clashing.lines.map Line.expression) body ∧
      Config.clashing.toList = body := by
    refine ⟨_, .cons version <|
      .cons (.plain_header (by decide) (by decide) feed) <|
      .cons (.plain_entry (by decide) (by decide) (fun _ => .string wildcard) remark) <|
      .cons (.plain_header (by decide) (by decide) feed) <|
      .cons note <|
      .cons (.plain_entry (by decide) (by decide) (fun _ => .numeral budget) feed) <|
      .cons (.plain_header (by decide) (by decide) feed) <|
      .cons directory <| .done .none, ?_⟩
    simp only [clashing_toList, clashingStart, clashingEnd, Section.name, Key.name]
    repeat rw [String.toList_ofList]
    rfl
  have plain : '\r' ∉ Config.clashing.toList := by
    simp only [clashing_toList, clashingStart, clashingEnd]
    repeat rw [String.toList_ofList]
    decide +kernel
  have unmarked : Config.clashing.toList.head? ≠ some '\ufeff' := by
    simp only [clashing_toList, clashingStart, clashingEnd]
    repeat rw [String.toList_ofList]
    decide
  exact .lines (.refl plain) (.plain unmarked) (same ▸ lines)

end Config

/-- The wildcard key that a file writes is the page key that it leaves out. -/
theorem parseConfig_written_clash :
    Config.Layout.clashing.WellFormed ∧ Config.Layout.clashing.WrittenAs Config.clashing ∧
    (∀ key value, Config.clashingValue? key = some value ↔
      ∃ setting ∈ Config.Layout.clashing.settings, setting.key = key ∧ setting.value = value) ∧
    parseConfig Config.clashing = .error (.invalid [.reservedKeyClash "___page"]) := by
  have writes : ∀ key value, Config.clashingValue? key = some value ↔
      ∃ setting ∈ Config.Layout.clashing.settings, setting.key = key ∧ setting.value = value := by
    intro key value
    cases key <;>
      simp [Config.clashingValue?, Config.Layout.settings, Config.Layout.clashing,
        Config.Block.settings, Config.Entry.setting?]
  refine ⟨Config.Layout.clashing_wellFormed, Config.Layout.clashing_writtenAs, writes, ?_⟩
  obtain ⟨config, values, read, -, -⟩ := parseConfig_written Config.Layout.clashing_wellFormed
    Config.Layout.clashing_writtenAs writes
  have same : config = {
      routes := { wildcardKey := "___page" }
      matcher := { maxProgramBytes := 2048 } } :=
    Config.eq_of_get fun key => by rw [values]; cases key <;> rfl
  have violations : config.violations = [.reservedKeyClash "___page"] := by
    rw [same]
    decide
  rw [read, violations]
  rfl

end EdgeRoutes
