import EdgeRoutes.Proofs.Config.Layout
import EdgeRoutes.Proofs.Toml.Entries

/-! The document of a configuration file.

The lines of a file are put together beside the same lines without the settings. At every point
both documents are the same, but for the settings in the tables of the sections, and these are
just the ones written so far. So a file makes a document if what is added to its settings does.
-/

set_option autoImplicit false

namespace EdgeRoutes.Config

open Toml (Entries Item)
open Toml.Entries (trim only slot put lookup_eq_slot ActsAt Local Descends)

theorem Key.eq_of_name {key other : Key} (home : key.home = other.home)
    (name : key.name = other.name) : key = other := by
  cases key <;> cases other <;>
    first | rfl | exact absurd home (by decide) | exact absurd name (by decide)

theorem Key.knows_name (key : Key) : key.home.knows key.name = true := by
  cases key <;> decide

namespace Section

def all : List Section := [manifest, routes, matcher, minify]

def ofName? (name : String) : Option Section := all.find? (·.name == name)

theorem ofName?_name (found : Section) : ofName? found.name = some found := by
  cases found <;> decide

theorem name_injective : Function.Injective name := by
  intro first second
  cases first <;> cases second <;> decide

theorem name_of_ofName? {name : String} {found : Section} (known : ofName? name = some found) :
    found.name = name := by
  simpa using List.find?_some known

theorem ofName?_eq_none {name : String} (unknown : ∀ found : Section, found.name ≠ name) :
    ofName? name = none := by
  simp [ofName?, unknown]

def ignores (found : Section) (name : String) : Bool := !found.knows name

end Section

def bareItem (key : String) (item : Item) : Item :=
  match Section.ofName? key, item with
  | some found, .table origin below => .table origin (only found.ignores below)
  | _, _ => item

/-- The document without the settings. -/
def bareDocument (document : Entries) : Entries := trim (fun _ => true) bareItem document

theorem bareItem_elsewhere {key : String} (unknown : ∀ found : Section, found.name ≠ key)
    (item : Item) : bareItem key item = item := by
  simp [bareItem, Section.ofName?_eq_none unknown]

theorem bareItem_table (found : Section) (origin : Toml.Origin) (below : Entries) :
    bareItem found.name (.table origin below) = .table origin (only found.ignores below) := by
  simp [bareItem, Section.ofName?_name]

def settingsOf (found : Section) (settings : List Setting) : List Setting :=
  settings.filter (·.key.home == found)

theorem settingsOf_append (found : Section) (settings added : List Setting) :
    settingsOf found (settings ++ added) = settingsOf found settings ++ settingsOf found added := by
  simp [settingsOf]

theorem settingsOf_home {found : Section} {settings : List Setting}
    (inside : ∀ setting ∈ settings, setting.key.home = found) :
    settingsOf found settings = settings :=
  List.filter_eq_self.mpr fun setting member => by simp [inside setting member]

theorem settingsOf_apart {found other : Section} {settings : List Setting}
    (inside : ∀ setting ∈ settings, setting.key.home = found) (apart : other ≠ found) :
    settingsOf other settings = [] :=
  List.filter_eq_nil_iff.mpr fun setting member => by
    simpa [inside setting member] using apart.symm

/-- What a document has under the name of a section: nothing, or a table with these settings. -/
inductive Holds (found : Section) (settings : List Setting) : Entries → Prop where
  | nothing (none : settings = []) : Holds found settings []
  | table {origin : Toml.Origin} {below : Entries}
      (written : only found.knows below = settings.map Setting.entry) :
      Holds found settings [(found.name, .table origin below)]

theorem Holds.single {found : Section} {settings : List Setting} {entries : Entries}
    (holds : Holds found settings entries) :
    entries = [] ∨ ∃ old, entries = [(found.name, old)] := by
  cases holds with
  | nothing none => exact .inl rfl
  | table written => exact .inr ⟨_, rfl⟩

theorem defineAll_cons (entries : Entries) (entry : List String × Item)
    (others : List (List String × Item)) :
    Toml.Entries.defineAll entries (entry :: others) =
      (Toml.Entries.define entry.2 entry.1 .header false entries).bind
        fun next => Toml.Entries.defineAll next others := by
  simp [Toml.Entries.defineAll]

theorem setting_home {found : Section} {entries : List Entry}
    (placed : ∀ entry ∈ entries, entry.Placed found) :
    ∀ setting ∈ entries.filterMap Entry.setting?, setting.key.home = found := by
  intro setting member
  obtain ⟨entry, inside, is_setting⟩ := List.mem_filterMap.mp member
  cases placed entry inside with
  | setting home =>
    cases is_setting
    exact home
  | addition unknown => cases is_setting

theorem Block.Placed.opened_home {block : Block} (placed : block.Placed) :
    ∀ setting ∈ block.settings, block.opened? = some setting.key.home := by
  cases placed with
  | known placed =>
    intro setting member
    exact congrArg some (setting_home placed setting member).symm
  | other foreign =>
    intro setting member
    cases member

theorem define_setting {found : Section} {written : Setting} (home : written.key.home = found)
    {below : Entries} (fresh : (only found.knows below).lookup written.key.name = none) :
    ∃ next, Toml.Entries.define written.value.item [written.key.name] .header false below =
        some next ∧
      only found.ignores next = only found.ignores below ∧
      only found.knows next = only found.knows below ++ [written.entry] := by
  have known : found.knows written.key.name = true := home ▸ written.key.knows_name
  rw [Toml.Entries.lookup_only known] at fresh
  refine ⟨below ++ [written.entry], Toml.Entries.define_single fresh, ?_, ?_⟩
  · simp [only, Setting.entry, Section.ignores, known]
  · simp [only, Setting.entry, known]

theorem define_addition {found : Section} {key : String} (unknown : found.knows key = false)
    {path : List String} {item : Item} {below bare : Entries}
    (done : Toml.Entries.define item (key :: path) .header false (only found.ignores below) =
      some bare) :
    ∃ next, Toml.Entries.define item (key :: path) .header false below = some next ∧
      only found.ignores next = bare ∧ only found.knows next = only found.knows below := by
  have here := Toml.Entries.define_local item key path .header false
  rw [← here.only_kept (by simp [Section.ignores, unknown])] at done
  obtain ⟨next, read, ignored⟩ := Option.map_eq_some_iff.mp done
  exact ⟨next, read, ignored, here.only_dropped unknown read⟩

/-- The lines below the header of a section. The settings among them come to stand in a row at
the end of the table, whatever stands between them. -/
theorem defineAll_entries {found : Section} {entries : List Entry}
    (placed : ∀ entry ∈ entries, entry.Placed found)
    (distinct : ((entries.filterMap Entry.setting?).map Setting.key).Nodup)
    {below : Entries}
    (fresh : ∀ setting ∈ entries.filterMap Entry.setting?,
      (only found.knows below).lookup setting.key.name = none)
    {bare : Entries}
    (done : Toml.Entries.defineAll (only found.ignores below)
      ((entries.filter Entry.isAddition).map Entry.toml) = some bare) :
    ∃ made, Toml.Entries.defineAll below (entries.map Entry.toml) = some made ∧
      only found.ignores made = bare ∧
      only found.knows made =
        only found.knows below ++ (entries.filterMap Entry.setting?).map Setting.entry := by
  induction entries generalizing below with
  | nil =>
    cases done
    exact ⟨below, rfl, rfl, by simp⟩
  | cons entry entries ih =>
    have placed_later : ∀ entry ∈ entries, entry.Placed found :=
      fun entry member => placed entry (List.mem_cons_of_mem _ member)
    cases placed entry List.mem_cons_self with
    | @setting written home =>
      have settings : (Entry.setting written :: entries).filterMap Entry.setting? =
          written :: entries.filterMap Entry.setting? := rfl
      rw [settings] at distinct fresh ⊢
      rw [List.map_cons, List.nodup_cons] at distinct
      obtain ⟨next, read, ignored, known⟩ := define_setting home (fresh written List.mem_cons_self)
      -- The key just written is another one, so the keys to come are still free.
      have fresh_later : ∀ setting ∈ entries.filterMap Entry.setting?,
          (only found.knows next).lookup setting.key.name = none := by
        intro setting member
        have other : setting.key.name ≠ written.key.name := fun name =>
          distinct.1 (List.mem_map.mpr ⟨setting, member,
            Key.eq_of_name ((setting_home placed_later setting member).trans home.symm) name⟩)
        rw [known, List.lookup_append, fresh setting (List.mem_cons_of_mem _ member)]
        simp [Setting.entry, List.lookup_cons, beq_eq_false_iff_ne.mpr other]
      obtain ⟨made, rest, ignored_all, known_all⟩ :=
        ih placed_later distinct.2 fresh_later (ignored.symm ▸ done)
      refine ⟨made, ?_, ignored_all, ?_⟩
      · rw [List.map_cons, defineAll_cons]
        exact (congrArg (Option.bind · _) read).trans rest
      · rw [known_all, known, List.append_assoc]
        rfl
    | @addition key path item unknown =>
      simp only [List.filter_cons, Entry.isAddition, if_true, List.map_cons, defineAll_cons,
        Entry.toml] at done
      obtain ⟨bare_next, first, others⟩ := Option.bind_eq_some_iff.mp done
      obtain ⟨next, read, rfl, known⟩ := define_addition unknown first
      obtain ⟨made, rest, ignored_all, known_all⟩ :=
        ih placed_later distinct (known.symm ▸ fresh) others
      refine ⟨made, ?_, ignored_all, ?_⟩
      · rw [List.map_cons, defineAll_cons]
        exact (congrArg (Option.bind · _) read).trans rest
      · rw [known_all, known]
        rfl

/-- A document has the settings, and is the other one without them. -/
structure Matches (settings : List Setting) (document bare : Entries) : Prop where
  bare : bareDocument document = bare
  sections : ∀ found : Section,
    Holds found (settingsOf found settings) (slot found.name document)

namespace Matches

variable {settings added : List Setting} {document bare bare' : Entries}

theorem empty : Matches [] [] [] where
  bare := rfl
  sections _ := .nothing rfl

theorem lookup_bare (same : Matches settings document bare) (key : String) :
    bare.lookup key = (document.lookup key).map (bareItem key) := by
  rw [← same.bare]
  exact Toml.Entries.lookup_trim rfl document

theorem lookup_section (same : Matches settings document bare) (found : Section) :
    (document.lookup found.name = none ∧ bare.lookup found.name = none ∧
      settingsOf found settings = []) ∨
    ∃ origin old, document.lookup found.name = some (.table origin old) ∧
      bare.lookup found.name = some (.table origin (only found.ignores old)) ∧
      only found.knows old = (settingsOf found settings).map Setting.entry := by
  have holds := same.sections found
  rw [same.lookup_bare, lookup_eq_slot]
  generalize slot found.name document = entries at holds
  cases holds with
  | nothing none => exact .inl ⟨rfl, rfl, none⟩
  | @table origin old written =>
    refine .inr ⟨origin, old, by simp, ?_, written⟩
    simp [bareItem_table]

theorem elsewhere (same : Matches settings document bare) {key : String}
    (unknown : ∀ found : Section, found.name ≠ key) {operation : Entries → Option Entries}
    (acts : Local key operation) (done : operation bare = some bare') :
    ∃ document', operation document = some document' ∧ Matches settings document' bare' := by
  have trimmed : (operation document).map bareDocument = operation (bareDocument document) :=
    acts.trim_kept rfl (bareItem_elsewhere unknown) document
  rw [same.bare, done] at trimmed
  obtain ⟨document', read, result⟩ := Option.map_eq_some_iff.mp trimmed
  refine ⟨document', read, result, fun found => ?_⟩
  rw [acts.slot_other (unknown found) read]
  exact same.sections found

theorem put_table (same : Matches settings document bare) {found : Section}
    (inside : ∀ setting ∈ added, setting.key.home = found) {made : Entries}
    (written : only found.knows made = (settingsOf found settings ++ added).map Setting.entry)
    (moves : Bool) (origin : Toml.Origin) :
    Matches (settings ++ added) (put found.name moves (.table origin made) document)
      (put found.name moves (.table origin (only found.ignores made)) bare) where
  bare := by
    rw [← same.bare, ← bareItem_table]
    exact Toml.Entries.trim_put_kept rfl moves _ document
  sections other := by
    rw [settingsOf_append]
    by_cases here : other = found
    · subst here
      rw [settingsOf_home inside, Toml.Entries.slot_put (same.sections other).single]
      exact .table written
    · have apart : other.name ≠ found.name := fun equal => here (Section.name_injective equal)
      have kept : slot other.name (put found.name moves (.table origin made) document) =
          slot other.name document :=
        Toml.Entries.only_put_dropped (by simpa using apart.symm) moves _ document
      rw [settingsOf_apart inside here, List.append_nil, kept]
      exact same.sections other

/-- An operation that leads to a key of a section that is no setting does the same to both
documents. -/
theorem inside (same : Matches settings document bare) {found : Section} {key : String}
    (unknown : found.knows key = false) {operation : Entries → Option Entries}
    (descends : Descends found.name key operation) (done : operation bare = some bare') :
    ∃ document', operation document = some document' ∧ Matches settings document' bare' := by
  obtain ⟨change, acts, through⟩ := descends
  -- the table as it is, or the empty one where none is
  obtain ⟨origin, old, below, here, change_document, change_bare, written⟩ :
      ∃ origin old below, Local key below ∧
        change (document.lookup found.name) =
          (below old).map (fun made => (false, .table origin made)) ∧
        change (bare.lookup found.name) =
          (below (only found.ignores old)).map (fun made => (false, .table origin made)) ∧
        only found.knows old = (settingsOf found settings).map Setting.entry := by
    rcases same.lookup_section found with ⟨nothing, nothing_bare, none⟩ |
      ⟨origin, old, table, table_bare, written⟩
    · obtain ⟨origin, below, here, fresh⟩ := through.fresh
      rw [nothing, nothing_bare, none]
      exact ⟨origin, [], below, here, fresh, fresh, rfl⟩
    · obtain ⟨below, here, change_table⟩ := through.table origin
      rw [table, table_bare]
      exact ⟨origin, old, below, here, change_table _, change_table _, written⟩
  rw [acts, change_bare, ← here.only_kept (by simp [Section.ignores, unknown])] at done
  simp only [Option.map_map, Option.map_eq_some_iff] at done
  obtain ⟨made, read, result⟩ := done
  refine ⟨put found.name false (.table origin made) document, ?_, ?_⟩
  · rw [acts, change_document, read]
    rfl
  · rw [← result, ← List.append_nil settings]
    refine same.put_table (by simp) ?_ false origin
    rw [here.only_dropped unknown read, written, List.append_nil]

theorem foreign (same : Matches settings document bare) {path : List String}
    (foreign : Foreign path) (operation : List String → Entries → Option Entries)
    (locals : ∀ key path, Local key (operation (key :: path)))
    (descends : ∀ first second path, Descends first second (operation (first :: second :: path)))
    (done : operation path bare = some bare') :
    ∃ document', operation path document = some document' ∧
      Matches settings document' bare' := by
  cases foreign with
  | elsewhere unknown => exact same.elsewhere unknown (locals _ _) done
  | inside unknown => exact same.inside unknown (descends _ _ _) done

theorem leading {entries : List (List String × Item)} (same : Matches settings document bare)
    (placed : ∀ entry ∈ entries, Foreign entry.1)
    (done : Toml.Entries.defineAll bare entries = some bare') :
    ∃ document', Toml.Entries.defineAll document entries = some document' ∧
      Matches settings document' bare' := by
  induction entries generalizing document bare with
  | nil =>
    cases done
    exact ⟨document, rfl, same⟩
  | cons entry entries ih =>
    rw [defineAll_cons] at done
    obtain ⟨next, first, others⟩ := Option.bind_eq_some_iff.mp done
    obtain ⟨next', read, same'⟩ := same.foreign (placed entry List.mem_cons_self)
      (fun path => Toml.Entries.define entry.2 path .header false)
      (fun key path => Toml.Entries.define_local entry.2 key path .header false)
      (fun first second path =>
        Toml.Entries.define_descends entry.2 first second path .header false)
      first
    obtain ⟨document', rest, matching⟩ :=
      ih same' (fun entry member => placed entry (List.mem_cons_of_mem _ member)) others
    refine ⟨document', ?_, matching⟩
    rw [defineAll_cons, read]
    exact rest

theorem known (same : Matches settings document bare) {found : Section} {entries : List Entry}
    (placed : ∀ entry ∈ entries, entry.Placed found)
    (distinct : ((entries.filterMap Entry.setting?).map Setting.key).Nodup)
    (first : settingsOf found settings = [])
    (done : (Block.known found entries).bare.toml.addTo bare = some bare') :
    ∃ document', (Block.known found entries).toml.addTo document = some document' ∧
      Matches (settings ++ entries.filterMap Entry.setting?) document' bare' := by
  have closes (entries : List Entry) (table : Entries) :
      (Block.known found entries).toml.addTo table =
        (Toml.Entries.closeItem (entries.map Entry.toml) (table.lookup found.name)).map
          fun made => put found.name made.1 made.2 table :=
    Toml.Entries.closeTable_acts found.name (entries.map Entry.toml) table
  rw [Block.bare, closes] at done
  obtain ⟨_, closed, rfl⟩ := Option.map_eq_some_iff.mp done
  -- the table that headers below it implied, or the empty one
  obtain ⟨old, close_document, close_bare, written⟩ :
      ∃ old, (∀ added, Toml.Entries.closeItem added (document.lookup found.name) =
          (Toml.Entries.defineAll old added).map (fun made => (true, .table .header made))) ∧
        (∀ added, Toml.Entries.closeItem added (bare.lookup found.name) =
          (Toml.Entries.defineAll (only found.ignores old) added).map
            (fun made => (true, .table .header made))) ∧
        only found.knows old = [] := by
    rcases same.lookup_section found with ⟨nothing, nothing_bare, _⟩ |
      ⟨origin, old, table, table_bare, written⟩
    · rw [nothing, nothing_bare]
      exact ⟨[], fun _ => rfl, fun _ => rfl, rfl⟩
    · rw [table_bare] at closed
      rw [first] at written
      cases origin with
      | implied =>
        rw [table, table_bare]
        exact ⟨old, fun _ => rfl, fun _ => rfl, written⟩
      | header => cases closed
      | dotted => cases closed
  rw [close_bare] at closed
  obtain ⟨_, defined, rfl⟩ := Option.map_eq_some_iff.mp closed
  obtain ⟨made, read, rfl, kept⟩ :=
    defineAll_entries placed distinct (by simp [written]) defined
  refine ⟨put found.name true (.table .header made) document, ?_, ?_⟩
  · rw [closes, close_document, read]
    rfl
  · refine same.put_table (setting_home placed) ?_ true .header
    rw [kept, written, first, List.nil_append, List.nil_append]

theorem block (same : Matches settings document bare) {block : Block} (placed : block.Placed)
    (distinct : (block.settings.map Setting.key).Nodup)
    (first : ∀ found, block.opened? = some found → settingsOf found settings = [])
    (done : block.bare.toml.addTo bare = some bare') :
    ∃ document', block.toml.addTo document = some document' ∧
      Matches (settings ++ block.settings) document' bare' := by
  cases placed with
  | known placed => exact same.known placed distinct (first _ rfl) done
  | @other isElement path entries foreign =>
    rw [show (Block.other isElement path entries).settings = [] from rfl, List.append_nil]
    exact same.foreign foreign (fun path => (Toml.Section.mk isElement path entries).addTo)
      (fun key path => Toml.Entries.addTo_local isElement key path entries)
      (fun first second path => Toml.Entries.addTo_descends isElement first second path entries)
      done

/-- All blocks, where no section is opened that has settings already. -/
theorem blocks {blocks : List Block} (same : Matches settings document bare)
    (placed : ∀ block ∈ blocks, block.Placed)
    (once : ((blocks.flatMap Block.settings).map Setting.key).Nodup)
    (apart : (blocks.filterMap Block.opened?).Nodup)
    (first : ∀ found ∈ blocks.filterMap Block.opened?, settingsOf found settings = [])
    (done : (blocks.map Block.bare).foldlM (fun entries block => block.toml.addTo entries) bare =
      some bare') :
    ∃ document',
      blocks.foldlM (fun entries block => block.toml.addTo entries) document = some document' ∧
        Matches (settings ++ blocks.flatMap Block.settings) document' bare' := by
  induction blocks generalizing settings document bare with
  | nil =>
    cases done
    exact ⟨document, rfl, by simpa using same⟩
  | cons block blocks ih =>
    rw [List.flatMap_cons, List.map_append, List.nodup_append] at once
    have here := placed block List.mem_cons_self
    obtain ⟨bare_next, added, others⟩ := Option.bind_eq_some_iff.mp done
    obtain ⟨next, read, same_next⟩ := same.block here once.1
      (fun found opened => first found (by simp [opened])) added
    -- A section that is opened later is not the one of this block, which is opened once.
    have first_next : ∀ found ∈ blocks.filterMap Block.opened?,
        settingsOf found (settings ++ block.settings) = [] := by
      intro found later
      have earlier : settingsOf found settings = [] :=
        first found (List.mem_filterMap.mpr (by
          obtain ⟨other, member, opened⟩ := List.mem_filterMap.mp later
          exact ⟨other, List.mem_cons_of_mem _ member, opened⟩))
      rw [settingsOf_append, earlier, List.nil_append]
      refine List.filter_eq_nil_iff.mpr fun setting member home => ?_
      have opened := here.opened_home setting member
      rw [beq_iff_eq.mp home] at opened
      rw [List.filterMap_cons_some opened, List.nodup_cons] at apart
      exact apart.1 later
    obtain ⟨document', rest, matching⟩ := ih same_next
      (fun block member => placed block (List.mem_cons_of_mem _ member)) once.2.1
      (apart.sublist (List.Sublist.filterMap _ (List.sublist_cons_self block blocks)))
      first_next others
    refine ⟨document', ?_, ?_⟩
    · rw [List.foldlM_cons, read]
      exact rest
    · rw [List.flatMap_cons, ← List.append_assoc]
      exact matching

end Matches

theorem bare_blocks_isSome {blocks : List Block} (apart : (blocks.filterMap Block.opened?).Nodup)
    (plain : ∀ block ∈ blocks, ∃ found, block.opened? = some found ∧ block.bare = .known found [])
    {entries : Entries}
    (fresh : ∀ found ∈ blocks.filterMap Block.opened?, entries.lookup found.name = none) :
    ((blocks.map Block.bare).foldlM
      (fun entries (block : Block) => block.toml.addTo entries) entries).isSome := by
  induction blocks generalizing entries with
  | nil => rfl
  | cons block blocks ih =>
    obtain ⟨found, opened, header⟩ := plain block List.mem_cons_self
    rw [List.filterMap_cons_some opened] at apart fresh
    -- Each header opens a table that is not there yet, and leaves those to come missing.
    have missing := fresh found List.mem_cons_self
    have added : block.bare.toml.addTo entries =
        some (entries ++ [(found.name, .table .header [])]) := by
      rw [header]
      change Toml.Entries.closeTable found.name [] entries = _
      rw [Toml.Entries.closeTable_acts, missing]
      exact congrArg some (Toml.Entries.put_new missing _ _)
    rw [List.map_cons, List.foldlM_cons, added]
    refine ih (List.nodup_cons.mp apart).2
      (fun block member => plain block (List.mem_cons_of_mem _ member)) fun other member => ?_
    have different : other.name ≠ found.name := fun same =>
      (List.nodup_cons.mp apart).1 (Section.name_injective same ▸ member)
    rw [List.lookup_append, fresh other (List.mem_cons_of_mem _ member)]
    simp [List.lookup_cons, beq_eq_false_iff_ne.mpr different]

theorem Block.bare_plain {block : Block}
    (settings : ∀ expression, .addition expression ∉ block.lines) :
    ∃ found, block.opened? = some found ∧ block.bare = .known found [] := by
  cases block with
  | known found entries =>
    refine ⟨found, rfl, congrArg (Block.known found) (List.filter_eq_nil_iff.mpr ?_)⟩
    intro entry member
    cases entry with
    | setting written => simp [Entry.isAddition]
    | addition path item =>
      exact absurd (List.mem_cons_of_mem _ (List.mem_map_of_mem member))
        (settings (.entry path item))
  | other isElement path entries => exact absurd List.mem_cons_self (settings _)

namespace Layout

variable {layout : Layout}

theorem WellFormed.bare_isSome (formed : layout.WellFormed) : layout.bare.document?.isSome := by
  by_cases additions : ∃ expression, .addition expression ∈ layout.lines
  · exact formed.additions additions
  · have settings : ∀ expression, .addition expression ∉ layout.lines := by
      simpa using additions
    have leading : layout.leading = [] := by
      refine List.eq_nil_iff_forall_not_mem.mpr fun entry member => ?_
      exact settings _ (List.mem_append_left _ (List.mem_map_of_mem member))
    have plain : ∀ block ∈ layout.blocks,
        ∃ found, block.opened? = some found ∧ block.bare = .known found [] := by
      intro block member
      refine Block.bare_plain fun expression added => settings expression ?_
      exact List.mem_append_right _ (List.mem_flatMap.mpr ⟨block, member, added⟩)
    rw [document?_eq, show layout.bare.leading = [] from leading]
    exact bare_blocks_isSome formed.apart plain fun _ _ => rfl

/-- A file makes a document that has its settings. -/
theorem WellFormed.document (formed : layout.WellFormed) :
    ∃ document bare, layout.document? = some document ∧ Matches layout.settings document bare := by
  obtain ⟨bare, made⟩ := Option.isSome_iff_exists.mp formed.bare_isSome
  rw [document?_eq] at made
  obtain ⟨bare_start, leading, blocks⟩ := Option.bind_eq_some_iff.mp made
  obtain ⟨start, read, same⟩ := Matches.empty.leading formed.leading leading
  obtain ⟨document, rest, matching⟩ :=
    same.blocks formed.blocks formed.once formed.apart (fun _ _ => rfl) blocks
  refine ⟨document, bare, ?_, matching⟩
  rw [document?_eq, read]
  exact rest

end Layout

end EdgeRoutes.Config
