import EdgeRoutes.Handler.Source
import EdgeRoutes.Proofs.Table.Json
import EdgeRoutes.Proofs.Template

/-! The data of a handler can be read back from its text.

Reading goes along the pieces of the template: a plain character is passed over, and at a
hole one value is taken off the text. As every value ends where the next piece begins, all
the data come back as they went in, and texts with different data differ.
-/

set_option autoImplicit false

namespace EdgeRoutes.Handler

open Template (Piece holes)

theorem texts?_map (values : List String) : texts? (values.map .string) = some values := by
  induction values with
  | nil => rfl
  | cons value values ih => simp [texts?, ih]

namespace Data

theorem ext_value {first second : Data} (same : ∀ hole, first.value hole = second.value hole) :
    first = second := by
  have staticRoutes := same .staticRoutes
  have routeTrie := same .routeTrie
  have pageSuffix := same .pageSuffix
  have rootPage := same .rootPage
  have internalPrefix := same .internalPrefix
  have wildcardKey := same .wildcardKey
  have pageKey := same .pageKey
  cases first
  cases second
  simp_all [value, Json.strings, List.map_inj_right]

theorem store?_value (stored data : Data) {members : List (String × Json)}
    (trie : data.routeTrie = .object members) (hole : Hole) :
    ∃ next, stored.store? hole (data.value hole) = some next ∧
      ∀ other, next.value other =
        if other = hole then data.value other else stored.value other := by
  cases hole <;>
    simp only [value, Json.strings, trie, store?, texts?_map, Option.map_some, Option.some.injEq,
      exists_eq_left'] <;>
    intro other <;> cases other <;> simp

theorem fill_eq_flatMap (data : Data) (style : Json.Style) (template : List Char) :
    data.fill style template =
      (piecesOf template).flatMap (Piece.text fun hole => (data.value hole).chars style) := by
  unfold fill piecesOf
  rw [← Template.fill_eq_flatMap, List.map_map]
  rfl

end Data

variable {data : Data} {style : Json.Style} {read : List Char → Option (Json × List Char)}

theorem readPieces?_text {members : List (String × Json)} (trie : data.routeTrie = .object members)
    {pieces : List (Piece Hole)}
    (reads : ∀ hole ∈ holes pieces, ∀ rest,
      read ((data.value hole).chars style ++ rest) = some (data.value hole, rest))
    (stored : Data) :
    ∃ last, readPieces? read pieces
        (pieces.flatMap (Piece.text fun hole => (data.value hole).chars style)) stored =
          some last ∧
      ∀ hole, last.value hole =
        if hole ∈ holes pieces then data.value hole else stored.value hole := by
  induction pieces generalizing stored with
  | nil => exact ⟨stored, rfl, by simp⟩
  | cons piece pieces ih =>
    cases piece with
    | char char =>
      obtain ⟨last, found, values⟩ := ih reads stored
      exact ⟨last, by simpa [readPieces?, Piece.text] using found, values⟩
    | hole hole =>
      obtain ⟨next, kept, nextValues⟩ := stored.store?_value data trie hole
      obtain ⟨last, found, values⟩ :=
        ih (fun other member => reads other (List.mem_cons_of_mem hole member)) next
      refine ⟨last, ?_, ?_⟩
      · simp [readPieces?, Piece.text, reads hole List.mem_cons_self, kept, found]
      -- A value that is read twice is the same one, so the order does not matter.
      · intro other
        rw [values, nextValues]
        by_cases later : other ∈ holes pieces <;> by_cases here : other = hole <;>
          simp [later, here]

/-- A text that fills every hole gives the data back. -/
theorem readPieces?_fill {members : List (String × Json)} (trie : data.routeTrie = .object members)
    {template : List Char} (every : ∀ hole, hole ∈ holes (piecesOf template))
    (reads : ∀ hole rest,
      read ((data.value hole).chars style ++ rest) = some (data.value hole, rest))
    (stored : Data) :
    readPieces? read (piecesOf template) (data.fill style template) stored = some data := by
  obtain ⟨last, found, values⟩ := readPieces?_text trie (fun hole _ => reads hole) stored
  have same : last = data := Data.ext_value fun hole => by rw [values, if_pos (every hole)]
  rw [data.fill_eq_flatMap, found, same]

def Hole.inOrder : List Hole :=
  [.staticRoutes, .routeTrie, .pageSuffix, .wildcardKey, .pageKey, .internalPrefix, .rootPage]

theorem Hole.mem_inOrder (hole : Hole) : hole ∈ inOrder := by
  cases hole <;> decide

theorem holes_sourceTemplate : holes (piecesOf sourceTemplate) = Hole.inOrder := by
  unfold sourceTemplate sourceLines
  -- Each literal is opened once by a lemma; evaluating it byte by byte takes far longer.
  repeat rw [List.flatMap_cons, String.toList_ofList]
  decide +kernel

namespace Data

variable (config : Config) (table : RouteTable)

theorem textual_value (hole : Hole) : ((ofTable config table).value hole).Textual := by
  cases hole with
  | staticRoutes =>
    refine .array ?_
    intro item member
    obtain ⟨text, _, rfl⟩ := List.mem_map.mp member
    exact .string text
  | routeTrie => exact table.root.textual_toJson config.routes
  | _ => exact .string _

/-- The data come back from any template with all the holes, in any style whose literals are
read back at every depth from their length on. -/
theorem readPieces?_ofTable (style : Json.Style)
    (read : Nat → List Char → Option (Json × List Char)) {template : List Char}
    (inOrder : holes (piecesOf template) = Hole.inOrder)
    (reads : ∀ value : Json, value.Textual → ∀ depth, (value.chars style).length ≤ depth →
      ∀ rest, read depth (value.chars style ++ rest) = some (value, rest)) :
    readPieces? (read (String.ofList ((ofTable config table).fill style template)).length)
      (piecesOf template) ((ofTable config table).fill style template) {} =
        some (ofTable config table) := by
  have every (hole : Hole) : hole ∈ holes (piecesOf template) := by
    rw [inOrder]
    exact hole.mem_inOrder
  refine readPieces?_fill rfl every ?_ {}
  intro hole rest
  apply reads _ (textual_value config table hole)
  rw [String.length_ofList, fill_eq_flatMap]
  exact Template.length_value_le (fun hole => ((ofTable config table).value hole).chars style)
    (Template.mem_of_mem_holes (every hole))

theorem ofSource?_source :
    ofSource? (ofTable config table).source = some (ofTable config table) := by
  unfold ofSource? source
  rw [String.toList_ofList]
  refine readPieces?_ofTable config table .json
    (fun depth text => (Json.Read.value depth text).toOption) holes_sourceTemplate ?_
  intro value textual depth fits rest
  rw [textual.read_chars fits]
  rfl

def text (settings : MinifyConfig) (data : Data) : String :=
  if settings.enabled then data.minified settings else data.source

/-- What has been written for a table is understood, so it is minified. -/
theorem minify_source (settings : MinifyConfig) :
    minify settings (ofTable config table).source = .ok ((ofTable config table).text settings) := by
  unfold minify text
  rw [ofSource?_source]
  split <;> rfl

end Data

/-- Everything that goes into a handler can be read off its text, so two texts are the same
only if the same static pages, the same trie and the same five strings went into them. -/
theorem ofSource?_source_iff (config : Config) (table : RouteTable) :
    Data.ofSource? (Data.ofTable config table).source = some {
      staticRoutes := table.staticRoutes
      routeTrie := table.trieJson config.routes
      pageSuffix := config.matcher.pageSuffix
      rootPage := config.matcher.rootPage
      internalPrefix := config.matcher.internalPrefix
      wildcardKey := config.routes.wildcardKey
      pageKey := config.routes.pageKey } ∧
    ∀ (otherConfig : Config) (otherTable : RouteTable),
      (Data.ofTable config table).source = (Data.ofTable otherConfig otherTable).source ↔
        Data.ofTable config table = Data.ofTable otherConfig otherTable := by
  refine ⟨Data.ofSource?_source config table, ?_⟩
  intro otherConfig otherTable
  constructor
  · intro same
    have read := Data.ofSource?_source config table
    rw [same, Data.ofSource?_source] at read
    exact (Option.some.inj read).symm
  · exact congrArg Data.source

end EdgeRoutes.Handler
