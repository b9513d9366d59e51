import EdgeRoutes.Proofs.Handler.Reading
import EdgeRoutes.Proofs.Template.Splitting

/-! The readable text as its fixed parts with the literals between them.

Where the holes of a template are is settled by the template and its placeholders. That of the
handler has each of its seven placeholders once, so its text is always made of the same eight
parts, with a JSON literal between each of them and the next.
-/

set_option autoImplicit false

namespace EdgeRoutes

open Template (Piece Splits Fills holes fill)

namespace Template

variable {keys values : List (List Char)}

theorem map_zipIdx (paired : values.length = keys.length) :
    (keys.zipIdx.map fun entry => (entry.1, values.getD entry.2 [])) = keys.zip values := by
  apply List.ext_getElem
  · simp [paired]
  · intro position inside _
    have there : position < values.length := by
      rw [paired]
      simpa using inside
    simp [there]

theorem nonempty_zipIdx (nonempty : ∀ key ∈ keys, key ≠ []) :
    ∀ entry ∈ keys.zipIdx, entry.1 ≠ [] :=
  fun entry member => nonempty entry.1 (List.fst_mem_of_mem_zipIdx member)

theorem eq_map_getD {texts : List (List Char)} {count : Nat} (length : texts.length = count) :
    texts = (List.finRange count).map fun position : Fin count => texts.getD position [] := by
  subst length
  apply List.ext_getElem
  · simp
  · intro position _ _
    simp

end Template

namespace Handler

def placeholders : List (List Char × Hole) := Hole.all.map fun hole => (hole.placeholder, hole)

theorem placeholders_nonempty : ∀ entry ∈ placeholders, entry.1 ≠ [] := by
  intro entry member
  obtain ⟨hole, _, rfl⟩ := List.mem_map.mp member
  cases hole <;> decide

theorem splits_sourceTemplate : Splits placeholders sourceTemplate (piecesOf sourceTemplate) :=
  Template.splits_split placeholders_nonempty sourceTemplate

theorem count_holes_sourceTemplate (hole : Hole) :
    (holes (piecesOf sourceTemplate)).count hole = 1 := by
  rw [holes_sourceTemplate]
  cases hole <;> decide

/-- The parts of the readable text that no value changes. -/
def fixedTexts : List (List Char) := Template.plainTexts (piecesOf sourceTemplate)

theorem length_fixedTexts : fixedTexts.length = 8 := by
  unfold fixedTexts
  rw [Template.length_plainTexts, holes_sourceTemplate]
  rfl

def fixedText (position : Fin 8) : List Char :=
  fixedTexts.getD position []

theorem fixedTexts_eq : fixedTexts = (List.finRange 8).map fixedText :=
  Template.eq_map_getD length_fixedTexts

def withTexts (text : Hole → List Char) : List Char :=
  fixedText 0 ++ text .staticRoutes ++ fixedText 1 ++ text .routeTrie ++
    fixedText 2 ++ text .pageSuffix ++ fixedText 3 ++ text .wildcardKey ++
    fixedText 4 ++ text .pageKey ++ fixedText 5 ++ text .internalPrefix ++
    fixedText 6 ++ text .rootPage ++ fixedText 7

theorem flatMap_sourceTemplate (text : Hole → List Char) :
    (piecesOf sourceTemplate).flatMap (Piece.text text) = withTexts text := by
  rw [Template.flatMap_text_eq_interleave, holes_sourceTemplate]
  change Template.interleave fixedTexts _ = _
  rw [fixedTexts_eq]
  simp [List.finRange, Hole.inOrder, Template.interleave, withTexts]

theorem Data.source_toList (data : Data) :
    data.source.toList = withTexts fun hole => (data.value hole).chars .json := by
  rw [source, String.toList_ofList, fill_eq_flatMap, flatMap_sourceTemplate]

theorem sourceTemplate_eq : sourceTemplate = withTexts Hole.placeholder := by
  rw [← flatMap_sourceTemplate]
  refine (splits_sourceTemplate.flatMap_key ?_).symm
  intro entry member
  obtain ⟨hole, _, rfl⟩ := List.mem_map.mp member
  rfl

/-- Going over a template finds the places of its keys without a look at the values, and ends
with a value in each of them. In the template of the handler these places are one for each
hole, so that its text is eight fixed parts with the seven literals between them. -/
theorem fill_by_split (keys : List (List Char)) (nonempty : ∀ key ∈ keys, key ≠ [])
    (template : List Char) :
    (∃ pieces : List (Piece Nat),
      (∀ other, Splits keys.zipIdx template other ↔ other = pieces) ∧
      ∀ values : List (List Char), values.length = keys.length →
        fill (keys.zip values) template =
          pieces.flatMap (Piece.text fun position => values.getD position []) ∧
        ∀ result, Fills (keys.zip values) [] template result ↔
          result = fill (keys.zip values) template) ∧
    Splits placeholders sourceTemplate (piecesOf sourceTemplate) ∧
    (∀ hole, (holes (piecesOf sourceTemplate)).count hole = 1) ∧
    sourceTemplate = withTexts Hole.placeholder ∧
    ∀ (config : Config) (table : RouteTable), (Data.ofTable config table).source.toList =
      withTexts fun hole => ((Data.ofTable config table).value hole).chars .json := by
  have some_key := Template.nonempty_zipIdx nonempty
  have splits := Template.splits_split some_key template
  refine ⟨⟨Template.split keys.zipIdx template, ?_, ?_⟩, splits_sourceTemplate,
    count_holes_sourceTemplate, sourceTemplate_eq, fun config table => Data.source_toList _⟩
  · intro other
    constructor
    · exact fun splits => splits.eq_split some_key
    · rintro rfl
      exact splits
  · intro values paired
    have filled := Template.fill_eq_flatMap (fun position => values.getD position [])
      keys.zipIdx template
    have ends := splits.fills some_key (fun position => values.getD position []) []
    rw [Template.map_zipIdx paired] at filled ends
    rw [List.nil_append, ← filled] at ends
    refine ⟨filled, fun result => ⟨fun other => other.unique ends, ?_⟩⟩
    rintro rfl
    exact ends

/-- The first key in order is taken although a longer one begins there too. Neither the key in
a value nor the one that the end of a value begins is replaced. -/
theorem fill_by_split_overlapping :
    (∀ key ∈ ["ab".toList, "abc".toList], key ≠ []) ∧
    ∃ pieces : List (Piece Nat),
      Splits ["ab".toList, "abc".toList].zipIdx "xabcabb".toList pieces ∧
      fill (["ab".toList, "abc".toList].zip ["abca".toList, []]) "xabcabb".toList =
        pieces.flatMap (Piece.text fun position => ["abca".toList, []].getD position []) ∧
      fill (["ab".toList, "abc".toList].zip ["abca".toList, []]) "xabcabb".toList =
        "xabcacabcab".toList := by
  have nonempty : ∀ key ∈ ["ab".toList, "abc".toList], key ≠ [] := by decide
  obtain ⟨⟨pieces, splits, filled⟩, _⟩ :=
    fill_by_split ["ab".toList, "abc".toList] nonempty "xabcabb".toList
  exact ⟨nonempty, pieces, (splits pieces).mpr rfl, (filled ["abca".toList, []] rfl).1,
    by decide⟩

end Handler

end EdgeRoutes
