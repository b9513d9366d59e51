import EdgeRoutes.Proofs.Config.Settings
import EdgeRoutes.Proofs.Toml.Lines

/-! Configuration files as their writers lay them out.

A file writes some settings, each on a line of its own below the header of its section, and may
hold any other lines between them that do not touch a setting. Sections and keys come in any
order.
-/

set_option autoImplicit false

namespace EdgeRoutes.Config

/-- A line below the header of a section: a setting, or an entry that is none. -/
inductive Entry where
  | setting (setting : Setting)
  | addition (path : List String) (item : Toml.Item)

/-- A header with the lines below it: the header of a section, or another one. -/
inductive Block where
  | known (found : Section) (entries : List Entry)
  | other (isElement : Bool) (path : List String) (entries : List (List String × Toml.Item))

structure Layout where
  leading : List (List String × Toml.Item)
  blocks : List Block

/-- A key or a header that stands for no setting and for no section: it begins with no name of a
section, or leads to something below one that is no setting of it. -/
inductive Foreign : List String → Prop where
  | elsewhere {key : String} {path : List String} (unknown : ∀ found : Section, found.name ≠ key) :
      Foreign (key :: path)
  | inside {found : Section} {key : String} {path : List String}
      (unknown : found.knows key = false) : Foreign (found.name :: key :: path)

namespace Entry

def setting? : Entry → Option Setting
  | setting written => some written
  | addition _ _ => none

def isAddition : Entry → Bool
  | setting _ => false
  | addition _ _ => true

def toml : Entry → List String × Toml.Item
  | setting written => ([written.key.name], written.value.item)
  | addition path item => (path, item)

inductive Placed (found : Section) : Entry → Prop where
  | setting {written : Setting} (home : written.key.home = found) : Placed found (.setting written)
  | addition {key : String} {path : List String} {item : Toml.Item}
      (unknown : found.knows key = false) : Placed found (.addition (key :: path) item)

end Entry

namespace Block

def settings : Block → List Setting
  | known _ entries => entries.filterMap Entry.setting?
  | other _ _ _ => []

def opened? : Block → Option Section
  | known found _ => some found
  | other _ _ _ => none

def bare : Block → Block
  | known found entries => known found (entries.filter Entry.isAddition)
  | other isElement path entries => other isElement path entries

def toml : Block → Toml.Section
  | known found entries => ⟨false, [found.name], entries.map Entry.toml⟩
  | other isElement path entries => ⟨isElement, path, entries⟩

inductive Placed : Block → Prop where
  | known {found : Section} {entries : List Entry}
      (placed : ∀ entry ∈ entries, entry.Placed found) : Placed (known found entries)
  | other {isElement : Bool} {path : List String} {entries : List (List String × Toml.Item)}
      (foreign : Foreign path) : Placed (other isElement path entries)

end Block

/-- A line of the file that is not empty. -/
inductive Line where
  | setting (setting : Setting)
  | opening (found : Section)
  | addition (expression : Toml.Expression)

def Line.expression : Line → Toml.Expression
  | setting written => .entry [written.key.name] written.value.item
  | opening found => .header [found.name]
  | addition expression => expression

def Entry.line : Entry → Line
  | setting written => .setting written
  | addition path item => .addition (.entry path item)

def Block.lines : Block → List Line
  | known found entries => .opening found :: entries.map Entry.line
  | other isElement path entries =>
    .addition (if isElement then .element path else .header path) ::
      entries.map fun entry => .addition (.entry entry.1 entry.2)

namespace Layout

def lines (layout : Layout) : List Line :=
  layout.leading.map (fun entry => .addition (.entry entry.1 entry.2)) ++
    layout.blocks.flatMap Block.lines

def settings (layout : Layout) : List Setting := layout.blocks.flatMap Block.settings

def opened (layout : Layout) : List Section := layout.blocks.filterMap Block.opened?

def bare (layout : Layout) : Layout := { layout with blocks := layout.blocks.map Block.bare }

def document? (layout : Layout) : Option Toml.Entries :=
  Toml.Entries.ofExpressions? (layout.lines.map Line.expression)

/-- Each line stands where it may, no setting and no section comes twice, and what is added makes
a document on its own. -/
structure WellFormed (layout : Layout) : Prop where
  leading : ∀ entry ∈ layout.leading, Foreign entry.1
  blocks : ∀ block ∈ layout.blocks, block.Placed
  once : (layout.settings.map Setting.key).Nodup
  apart : layout.opened.Nodup
  additions : (∃ expression, .addition expression ∈ layout.lines) → layout.bare.document?.isSome

end Layout

/-- The source holds the lines of the layout in this order, with any number of empty ones between
them. -/
def Layout.WrittenAs (layout : Layout) (source : String) : Prop :=
  Toml.Grammar.Written (layout.lines.map Line.expression) source

theorem Layout.WrittenAs.ofText?_eq {layout : Layout} {source : String}
    (written : layout.WrittenAs source) :
    Toml.Expression.ofText? source = some (layout.lines.map Line.expression) :=
  Toml.Expression.ofText?_eq_some_iff.mpr written

theorem sections_entries (entries : List (List String × Toml.Item))
    (others : List Toml.Expression) :
    Toml.sections (entries.map (fun entry => .entry entry.1 entry.2) ++ others) =
      (entries ++ (Toml.sections others).1, (Toml.sections others).2) := by
  induction entries with
  | nil => rfl
  | cons entry entries ih => rw [List.map_cons, List.cons_append, Toml.sections, ih]; rfl

theorem Block.expressions_eq (block : Block) :
    block.lines.map Line.expression =
      (if block.toml.isElement then .element block.toml.path else .header block.toml.path) ::
        block.toml.entries.map (fun entry => .entry entry.1 entry.2) := by
  cases block with
  | known found entries =>
    have entry_line (entry : Entry) :
        entry.line.expression = .entry entry.toml.1 entry.toml.2 := by
      cases entry <;> rfl
    simp only [Block.lines, Block.toml, List.map_cons, List.map_map, Function.comp_def, entry_line]
    rfl
  | other isElement path entries =>
    cases isElement <;> simp [Block.lines, Block.toml, Line.expression]

theorem sections_blocks (blocks : List Block) :
    Toml.sections ((blocks.flatMap Block.lines).map Line.expression) =
      ([], blocks.map Block.toml) := by
  induction blocks with
  | nil => rfl
  | cons block blocks ih =>
    rw [List.flatMap_cons, List.map_append, block.expressions_eq, List.cons_append, Toml.sections,
      sections_entries, ih, List.append_nil]
    obtain ⟨isElement, path, entries, same⟩ : ∃ isElement path entries,
        block.toml = ⟨isElement, path, entries⟩ := ⟨_, _, _, rfl⟩
    cases isElement <;> simp [same]

theorem Layout.sections_eq (layout : Layout) :
    Toml.sections (layout.lines.map Line.expression) =
      (layout.leading, layout.blocks.map Block.toml) := by
  have leading : (layout.leading.map fun entry => Line.addition (.entry entry.1 entry.2)).map
      Line.expression = layout.leading.map fun entry => .entry entry.1 entry.2 := by
    simp [Line.expression]
  rw [lines, List.map_append, leading, sections_entries, sections_blocks, List.append_nil]

theorem Layout.document?_eq (layout : Layout) :
    layout.document? = (Toml.Entries.defineAll [] layout.leading).bind fun entries =>
      layout.blocks.foldlM (fun entries block => block.toml.addTo entries) entries := by
  simp only [document?, Toml.Entries.ofExpressions?, layout.sections_eq, List.foldlM_map]
  rfl

end EdgeRoutes.Config
