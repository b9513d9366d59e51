import EdgeRoutes.Proofs.Handler.Emission
import EdgeRoutes.Proofs.Table.Size

/-! Fewer routes make a smaller program.

A manifest that has part of the routes of another compiles if the other does. Hole by hole
its data have no longer texts, whatever the style of the literals, and where a route is
missing one of the texts is shorter. All that stands around the holes is the same in both.
-/

set_option autoImplicit false

namespace EdgeRoutes

open Handler (Data Hole piecesOf minifiedTemplate sourceTemplate)
open Template (Piece holes)

/-- The one manifest has some of the routes of the other, and no data routes. -/
structure Manifest.PartOf (part whole : Manifest) : Prop where
  version : part.version = whole.version
  dataRoutes : part.WithoutDataRoutes
  staticPages : part.staticPages.Sublist whole.staticPages
  dynamicPages : ∀ page ∈ part.dynamicPages, page ∈ whole.dynamicPages

def Manifest.Lacks (part whole : Manifest) : Prop :=
  part.staticPages.length < whole.staticPages.length ∨
    ∃ page ∈ whole.dynamicPages, page ∉ part.dynamicPages

namespace Template

variable {Place : Type} (first second : Place → List Char)

theorem utf8Len_flatMap_le (pieces : List (Piece Place))
    (le : ∀ hole, String.utf8Len (first hole) ≤ String.utf8Len (second hole)) :
    String.utf8Len (pieces.flatMap (Piece.text first)) ≤
      String.utf8Len (pieces.flatMap (Piece.text second)) := by
  induction pieces with
  | nil => exact Nat.le_refl _
  | cons piece pieces ih =>
    simp only [List.flatMap_cons, String.utf8Len_append]
    apply Nat.add_le_add _ ih
    cases piece with
    | char => exact Nat.le_refl _
    | hole hole => exact le hole

theorem utf8Len_flatMap_lt {pieces : List (Piece Place)} {hole : Place}
    (member : hole ∈ holes pieces)
    (le : ∀ hole, String.utf8Len (first hole) ≤ String.utf8Len (second hole))
    (less : String.utf8Len (first hole) < String.utf8Len (second hole)) :
    String.utf8Len (pieces.flatMap (Piece.text first)) <
      String.utf8Len (pieces.flatMap (Piece.text second)) := by
  obtain ⟨before, after, rfl⟩ := List.append_of_mem (mem_of_mem_holes member)
  have front := utf8Len_flatMap_le first second before le
  have back := utf8Len_flatMap_le first second after le
  simp only [List.flatMap_append, List.flatMap_cons, String.utf8Len_append, Piece.text]
  omega

end Template

def Json.Style.Visible (style : Json.Style) : Prop := ∀ text, style.text text ≠ []

theorem Json.Style.json_visible : Json.Style.json.Visible := by
  intro text
  simp [Json.quote]

theorem Handler.Literal.style_visible : Handler.Literal.style.Visible := by
  intro text
  simp [Handler.Literal.style, Handler.Literal.between]

namespace Handler.Data

/-- No value of the first data has a longer text. -/
def NoLonger (first second : Data) : Prop :=
  ∀ style : Json.Style, style.Visible → ∀ hole,
    (first.value hole).byteSize style ≤ (second.value hole).byteSize style

/-- A value of the first data has a shorter text. -/
def Shorter (first second : Data) : Prop :=
  ∃ hole, ∀ style : Json.Style, style.Visible →
    (first.value hole).byteSize style < (second.value hole).byteSize style

variable {first second : Data}

theorem NoLonger.fill_le (le : first.NoLonger second) {style : Json.Style}
    (visible : style.Visible) (template : List Char) :
    String.utf8Len (first.fill style template) ≤ String.utf8Len (second.fill style template) := by
  rw [fill_eq_flatMap, fill_eq_flatMap]
  exact Template.utf8Len_flatMap_le _ _ _ (le style visible)

theorem Shorter.fill_lt (shorter : first.Shorter second) (le : first.NoLonger second)
    {style : Json.Style} (visible : style.Visible) {template : List Char}
    (inOrder : holes (piecesOf template) = Hole.inOrder) :
    String.utf8Len (first.fill style template) < String.utf8Len (second.fill style template) := by
  obtain ⟨hole, less⟩ := shorter
  have member : hole ∈ holes (piecesOf template) := by
    rw [inOrder]
    exact hole.mem_inOrder
  rw [fill_eq_flatMap, fill_eq_flatMap]
  exact Template.utf8Len_flatMap_lt _ _ member (le style visible) (less style visible)

theorem NoLonger.text_le (le : first.NoLonger second) (settings : MinifyConfig) :
    (first.text settings).utf8ByteSize ≤ (second.text settings).utf8ByteSize := by
  unfold text
  split
  case isTrue =>
    unfold minified
    split
    · exact Nat.le_refl _
    · rw [String.utf8ByteSize_ofList, String.utf8ByteSize_ofList]
      exact le.fill_le Literal.style_visible _
  case isFalse =>
    rw [source, source, String.utf8ByteSize_ofList, String.utf8ByteSize_ofList]
    exact le.fill_le Json.Style.json_visible _

theorem Shorter.text_lt (shorter : first.Shorter second) (le : first.NoLonger second)
    {settings : MinifyConfig} (uncompressed : settings.compress = false) :
    (first.text settings).utf8ByteSize < (second.text settings).utf8ByteSize := by
  unfold text
  split
  case isTrue =>
    rw [minified, minified, uncompressed, if_neg Bool.false_ne_true, if_neg Bool.false_ne_true,
      String.utf8ByteSize_ofList, String.utf8ByteSize_ofList]
    exact shorter.fill_lt le Literal.style_visible (holes_minifiedTemplate settings.mangle)
  case isFalse =>
    rw [source, source, String.utf8ByteSize_ofList, String.utf8ByteSize_ofList]
    exact shorter.fill_lt le Json.Style.json_visible holes_sourceTemplate

end Handler.Data

theorem Json.byteSize_strings (style : Json.Style) (texts : List String) :
    (Json.strings texts).byteSize style =
      Json.enclosed (texts.map (Json.itemSize style ∘ .string)).sum := by
  rw [Json.strings, Json.byteSize_array, List.map_map]

namespace Manifest.PartOf

variable {config : Config} {part whole : Manifest}

theorem admissible (partOf : part.PartOf whole) (admissible : whole.Admissible config) :
    part.Admissible config where
  version := partOf.version.trans admissible.version
  dataRoutes := partOf.dataRoutes
  unmarked page member := admissible.unmarked page (partOf.dynamicPages page member)
  unreserved page member := admissible.unreserved page (partOf.dynamicPages page member)

theorem unambiguous (partOf : part.PartOf whole) (clear : Unambiguous whole.dynamicPages) :
    Unambiguous part.dynamicPages := by
  intro first firstIn second secondIn
  exact clear first (partOf.dynamicPages first firstIn) second (partOf.dynamicPages second secondIn)

variable {trie next : RouteTrie}

theorem noLonger (partOf : part.PartOf whole) (apart : config.routes.Apart)
    (holds : trie.Holds part.dynamicPages) (more : next.Holds whole.dynamicPages)
    (spared : ∀ page ∈ whole.dynamicPages, config.routes.Spares page) :
    (Data.ofTable config (trie.freeze part.staticPages)).NoLonger
      (Data.ofTable config (next.freeze whole.staticPages)) := by
  intro style visible hole
  cases hole with
  | staticRoutes =>
    have sum := Json.sum_itemSize_sublist style visible partOf.staticPages
    have length := partOf.staticPages.length_le
    simp only [Data.value, Data.ofTable, RouteTrie.freeze, Json.byteSize_strings]
    apply Json.enclosed_le
    omega
  | routeTrie =>
    rcases holds.byteSize_of_subset style apart more partOf.dynamicPages spared with rfl | less
    · exact Nat.le_refl _
    · exact Nat.le_of_lt less
  | _ => exact Nat.le_refl _

theorem shorter (partOf : part.PartOf whole) (lacks : part.Lacks whole)
    (apart : config.routes.Apart)
    (holds : trie.Holds part.dynamicPages) (more : next.Holds whole.dynamicPages)
    (spared : ∀ page ∈ whole.dynamicPages, config.routes.Spares page) :
    (Data.ofTable config (trie.freeze part.staticPages)).Shorter
      (Data.ofTable config (next.freeze whole.staticPages)) := by
  rcases lacks with length | ⟨page, listed, missing⟩
  · refine ⟨.staticRoutes, ?_⟩
    intro style visible
    have sum := Json.sum_itemSize_sublist style visible partOf.staticPages
    simp only [Data.value, Data.ofTable, RouteTrie.freeze, Json.byteSize_strings]
    apply Json.enclosed_lt <;> omega
  · refine ⟨.routeTrie, ?_⟩
    intro style _
    rcases holds.byteSize_of_subset style apart more partOf.dynamicPages spared with rfl | less
    · -- One trie cannot hold the missing page and be without it.
      have found := (more.pageAt?_iff _ page).mpr ⟨listed, rfl⟩
      exact absurd ((holds.pageAt?_iff _ page).mp found).1 missing
    · exact less

end Manifest.PartOf

/-- If a manifest compiles, so does every part of it, to a program that is no larger. The
program is smaller if a page is missing and nothing has been compressed away. -/
theorem compile_size_of_partOf (config : Config) (part whole : Manifest) (program : Program)
    (valid : config.violations = []) (partOf : part.PartOf whole)
    (compiled : (compile config whole).outcome = .ok program) :
    ∃ smaller, (compile config part).outcome = .ok smaller ∧ smaller.size ≤ program.size ∧
      (config.minify.compress = false → part.Lacks whole → smaller.size < program.size) := by
  have apart := (config.violations_eq_nil_iff.mp valid).apart
  obtain ⟨table, built, emitted⟩ := compile_outcome_eq_ok_iff.mp compiled
  have compilable := compilable_of_routeTable built
  obtain ⟨next, more, spared, rfl⟩ := exists_holds_of_routeTable built
  obtain ⟨trie, holds⟩ :=
    RouteTrie.exists_holds_iff.mpr (partOf.unambiguous more.unambiguous)
  have partBuilt := routeTable_of_holds (partOf.admissible compilable.admissible) holds
  obtain ⟨text, fits⟩ := emit_outcome_eq_ok_iff.mp emitted
  -- The part is within the budget because the whole is.
  have noLonger := partOf.noLonger apart holds more spared
  let smaller : Program := ⟨(Data.ofTable config (trie.freeze part.staticPages)).text config.minify⟩
  have le : smaller.size ≤ program.size := by
    rw [Program.size, Program.size, text]
    exact noLonger.text_le config.minify
  refine ⟨smaller, ?_, le, ?_⟩
  · exact compile_outcome_eq_ok_iff.mpr ⟨_, partBuilt,
      emit_outcome_eq_ok_iff.mpr ⟨rfl, Nat.le_trans le fits⟩⟩
  · intro uncompressed lacks
    rw [Program.size, Program.size, text]
    exact (partOf.shorter lacks apart holds more spared).text_lt noLonger uncompressed

/-- A static page, a node's own page and a literal with all below it are left out. -/
theorem compile_size_of_partOf_items :
    ∃ (config : Config) (part whole : Manifest) (program smaller : Program),
      part.dynamicPages = ["/items/[id]"] ∧
      whole.dynamicPages = ["/items", "/users/[name]/new", "/items/[id]"] ∧
      config.violations = [] ∧ part.PartOf whole ∧
      (compile config whole).outcome = .ok program ∧
      (compile config part).outcome = .ok smaller ∧ smaller.size < program.size := by
  let part : Manifest := {
    version := 3, staticRoutes := [{ page := "/" }], dynamicRoutes := [{ page := "/items/[id]" }] }
  let whole : Manifest := {
    version := 3
    staticRoutes := [{ page := "/about" }, { page := "/" }]
    dynamicRoutes :=
      [{ page := "/items" }, { page := "/users/[name]/new" }, { page := "/items/[id]" }]
    dataRoutes := some [] }
  let users : Choices := .wildcard none (.literal "new" (some "/users/[name]/new") .none .none)
  let items : Choices := .wildcard (some "/items/[id]") .none
  let choices : Choices :=
    .literal "items" (some "/items") items (.literal "users" none users .none)
  let table : RouteTable := { staticRoutes := ["/about", "/"], root := { choices } }
  let program : Program := ⟨(Data.ofTable {} table).text {}⟩
  -- The bound on the size is one that the program itself stays below, so nothing is computed.
  obtain ⟨bytes, enough⟩ : ∃ bytes, program.size < bytes := ⟨_, Nat.lt_succ_self _⟩
  let config : Config := { matcher := { maxProgramBytes := bytes } }
  have valid : config.violations = [] := by
    have rules := (Config.violations_eq_nil_iff {}).mp (by decide +kernel)
    rw [Config.violations_eq_nil_iff]
    exact ⟨rules.nonempty, rules.apart, rules.absolute, Nat.zero_lt_of_lt enough⟩
  have partOf : part.PartOf whole := ⟨rfl, Or.inl rfl, by decide, by decide⟩
  have built : (routeTable {} whole).outcome = .ok table := rfl
  rw [routeTable_of_sections whole {} config rfl rfl] at built
  have compiled : (compile config whole).outcome = .ok program :=
    compile_outcome_eq_ok_iff.mpr
      ⟨table, built, emit_outcome_eq_ok_iff.mpr ⟨rfl, Nat.le_of_lt enough⟩⟩
  obtain ⟨smaller, ended, _, less⟩ :=
    compile_size_of_partOf config part whole program valid partOf compiled
  exact ⟨config, part, whole, program, smaller, rfl, rfl, valid, partOf, compiled, ended,
    less rfl (Or.inl (by decide))⟩

end EdgeRoutes
