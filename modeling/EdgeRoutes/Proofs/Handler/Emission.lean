import EdgeRoutes.Proofs.Compile.RouteTable
import EdgeRoutes.Proofs.Handler.Reading
import EdgeRoutes.Proofs.Script.Constants
import EdgeRoutes.Text.Basic

/-! What an emitted program holds.

A program is the readable text or one of the two minified ones. All three have the same
holes in the same order, and the data come back from each of them: from the readable text
by the rules of JSON, from the minified ones by those of ECMAScript. All three begin with
the handler, and only compression leaves it out.
-/

set_option autoImplicit false

namespace EdgeRoutes

open Handler (Data Hole piecesOf)
open Template (Piece holes)

variable {config : Config} {manifest : Manifest} {table : RouteTable} {program : Program}

/-- Only the budget stands between a table and its program. -/
theorem emit_outcome (config : Config) (table : RouteTable) :
    (emit config table).outcome =
      let program : Program := ⟨(Data.ofTable config table).text config.minify⟩
      if program.size ≤ config.matcher.maxProgramBytes then .ok program
      else .error (.oversize ⟨program.size, config.matcher.maxProgramBytes⟩) := by
  unfold emit
  dsimp only
  rw [Traced.outcome_bind, Data.minify_source]
  change Traced.outcome (ite _ _ _) = _
  split <;> rfl

theorem emit_outcome_eq_ok_iff :
    (emit config table).outcome = .ok program ↔
      program.text = (Data.ofTable config table).text config.minify ∧
      program.size ≤ config.matcher.maxProgramBytes := by
  obtain ⟨text⟩ := program
  rw [emit_outcome]
  by_cases fits : Program.size ⟨(Data.ofTable config table).text config.minify⟩ ≤
      config.matcher.maxProgramBytes
  · simp only [if_pos fits, Except.ok.injEq, Program.mk.injEq]
    constructor
    · rintro rfl
      exact ⟨rfl, fits⟩
    · exact fun same => same.1.symm
  · simp only [if_neg fits, reduceCtorEq, false_iff]
    rintro ⟨rfl, fitting⟩
    exact fits fitting

theorem exists_emit (config : Config) (table : RouteTable) :
    ∃ bytes program, (emit
      { config with matcher := { config.matcher with maxProgramBytes := bytes } } table).outcome =
        .ok program := by
  let program : Program := ⟨(Data.ofTable config table).text config.minify⟩
  exact ⟨program.size, program, emit_outcome_eq_ok_iff.mpr ⟨rfl, Nat.le_refl program.size⟩⟩

theorem compile_outcome_eq_ok_iff :
    (compile config manifest).outcome = .ok program ↔
      ∃ table, (routeTable config manifest).outcome = .ok table ∧
        (emit config table).outcome = .ok program := by
  unfold compile
  rw [Traced.outcome_bind]
  cases (routeTable config manifest).outcome with
  | error fault => simp [bind, Except.bind]
  | ok table => simp [bind, Except.bind]

namespace Handler

theorem holes_minifiedTemplate (mangle : Bool) :
    holes (piecesOf (minifiedTemplate mangle)) = Hole.inOrder := by
  unfold minifiedTemplate
  cases mangle with
  | false =>
    rw [if_neg Bool.false_ne_true, minifiedPieces]
    repeat rw [List.flatMap_cons, String.toList_ofList]
    decide +kernel
  | true =>
    rw [if_pos rfl, mangledPieces]
    repeat rw [List.flatMap_cons, String.toList_ofList]
    decide +kernel

def Data.ofMinified? (mangle : Bool) (minified : String) : Option Data :=
  readPieces? (Script.Scan.constant? minified.length) (piecesOf (minifiedTemplate mangle))
    minified.toList {}

/-- Each literal of a minified program is read back in its place, by the rules for literals in
scripts, and the reading ends where the text goes on. All of them together are the data that
are read from the readable text. -/
theorem ofMinified?_emit (config : Config) (table : RouteTable) (program : Program)
    (enabled : config.minify.enabled = true) (uncompressed : config.minify.compress = false)
    (emitted : (emit config table).outcome = .ok program) :
    Data.ofMinified? config.minify.mangle program.text = some (Data.ofTable config table) ∧
      Data.ofSource? (Data.ofTable config table).source = some (Data.ofTable config table) := by
  refine ⟨?_, Data.ofSource?_source config table⟩
  have text := (emit_outcome_eq_ok_iff.mp emitted).1
  rw [Data.text, enabled, if_pos rfl, Data.minified, uncompressed,
    if_neg Bool.false_ne_true] at text
  unfold Data.ofMinified?
  rw [text, String.toList_ofList]
  exact Data.readPieces?_ofTable config table Literal.style Script.Scan.constant?
    (holes_minifiedTemplate config.minify.mangle)
    fun _ textual _ fits rest => Script.Scan.constant?_chars textual fits rest

/-- Strings with all three marks, the start of an expression, a line feed, the end of the
page's script, a zero before a digit and a line separator. -/
theorem ofMinified?_emit_marks :
    ∃ (config : Config) (program : Program),
      let table : RouteTable := {
        staticRoutes := ["/\x60\"'", "/$\x7bx\x7d\n"]
        root := { choices := .literal "</SCRIPT>" (some "\x001\\\u2028") .none .none } }
      config.minify = {} ∧ (emit config table).outcome = .ok program ∧
      Data.ofMinified? config.minify.mangle program.text = some (Data.ofTable config table) := by
  let table : RouteTable := {
    staticRoutes := ["/\x60\"'", "/$\x7bx\x7d\n"]
    root := { choices := .literal "</SCRIPT>" (some "\x001\\\u2028") .none .none } }
  obtain ⟨bytes, program, emitted⟩ := exists_emit {} table
  exact ⟨_, program, rfl, emitted, (ofMinified?_emit _ table program rfl rfl emitted).1⟩

namespace Data

theorem infix_fill (data : Data) (style : Json.Style) {template chars : List Char}
    (plain : chars.map Piece.char <:+: piecesOf template) :
    chars <:+: data.fill style template := by
  obtain ⟨before, after, whole⟩ := plain
  rw [fill_eq_flatMap, ← whole, List.flatMap_append, List.flatMap_append, List.flatMap_map]
  simp only [Piece.text, List.flatMap_singleton']
  exact ⟨_, _, rfl⟩

end Data

/-- How the handler begins. The runtime calls it by its name. -/
def entryPoint : String := "function handler("

theorem entryPoint_infix_source :
    entryPoint.toList.map Piece.char <:+: piecesOf sourceTemplate := by
  unfold sourceTemplate sourceLines
  repeat rw [List.flatMap_cons, String.toList_ofList]
  decide +kernel

theorem entryPoint_infix_minified (mangle : Bool) :
    entryPoint.toList.map Piece.char <:+: piecesOf (minifiedTemplate mangle) := by
  unfold minifiedTemplate
  cases mangle with
  | false =>
    rw [if_neg Bool.false_ne_true, minifiedPieces]
    repeat rw [List.flatMap_cons, String.toList_ofList]
    decide +kernel
  | true =>
    rw [if_pos rfl, mangledPieces]
    repeat rw [List.flatMap_cons, String.toList_ofList]
    decide +kernel

namespace Data

variable (settings : MinifyConfig) (data : Data)

theorem text_of_compress (dropped : settings.enabled = true ∧ settings.compress = true) :
    data.text settings = "" := by
  rw [text, if_pos dropped.1, minified, if_pos dropped.2]

theorem entryPoint_infix_text (kept : ¬ (settings.enabled = true ∧ settings.compress = true)) :
    entryPoint.toList <:+: (data.text settings).toList := by
  unfold text
  split
  case isTrue enabled =>
    rw [minified, if_neg fun compress => kept ⟨enabled, compress⟩, String.toList_ofList]
    exact data.infix_fill Literal.style (entryPoint_infix_minified settings.mangle)
  case isFalse =>
    rw [source, String.toList_ofList]
    exact data.infix_fill .json entryPoint_infix_source

end Data

/-- Every program that comes out has the handler in it, unless it has been compressed; then
it has no text at all. -/
theorem contains_entryPoint_iff (config : Config) (manifest : Manifest) (program : Program)
    (compiled : (compile config manifest).outcome = .ok program) :
    (Text.contains program.text "function handler(" = true ↔
      ¬ (config.minify.enabled = true ∧ config.minify.compress = true)) ∧
    (config.minify.enabled = true ∧ config.minify.compress = true → program.text = "") := by
  obtain ⟨table, _, emitted⟩ := compile_outcome_eq_ok_iff.mp compiled
  have text := (emit_outcome_eq_ok_iff.mp emitted).1
  have empty (dropped : config.minify.enabled = true ∧ config.minify.compress = true) :
      program.text = "" := text.trans (Data.text_of_compress config.minify _ dropped)
  refine ⟨?_, empty⟩
  rw [Text.contains_iff]
  constructor
  · intro contained dropped
    rw [empty dropped] at contained
    exact absurd (List.infix_nil.mp contained) (by simp)
  · intro kept
    rw [text]
    exact Data.entryPoint_infix_text config.minify _ kept

theorem contains_entryPoint_readable :
    ∃ (config : Config) (manifest : Manifest) (program : Program),
      (compile config manifest).outcome = .ok program ∧
        Text.contains program.text "function handler(" = true := by
  let manifest : Manifest := { version := 3, dynamicRoutes := [{ page := "/items/[id]" }] }
  let table : RouteTable :=
    { root := { choices := .literal "items" none (.wildcard (some "/items/[id]") .none) .none } }
  obtain ⟨bytes, program, emitted⟩ := exists_emit { minify := { enabled := false } } table
  let config : Config := { matcher := { maxProgramBytes := bytes }, minify := { enabled := false } }
  have built : (routeTable {} manifest).outcome = .ok table := rfl
  rw [routeTable_of_sections manifest {} config rfl rfl] at built
  have compiled : (compile config manifest).outcome = .ok program :=
    compile_outcome_eq_ok_iff.mpr ⟨table, built, emitted⟩
  have kept : ¬ (config.minify.enabled = true ∧ config.minify.compress = true) := by simp [config]
  exact ⟨config, manifest, program, compiled,
    (contains_entryPoint_iff config manifest program compiled).1.mpr kept⟩

/-- With compression the compilation of a good manifest under a good configuration ends
without an error and without a handler. -/
theorem compress_drops_entryPoint :
    ∃ (config : Config) (manifest : Manifest) (program : Program),
      config.violations = [] ∧ (compile config manifest).outcome = .ok program ∧
        Text.contains program.text "function handler(" = false := by
  let config : Config := { minify := { compress := true } }
  have valid : ({ minify := { compress := true } } : Config).violations = [] := by decide +kernel
  let manifest : Manifest := { version := 3, dynamicRoutes := [{ page := "/items/[id]" }] }
  let table : RouteTable :=
    { root := { choices := .literal "items" none (.wildcard (some "/items/[id]") .none) .none } }
  have built : (routeTable {} manifest).outcome = .ok table := rfl
  rw [routeTable_of_sections manifest {} config rfl rfl] at built
  have emitted : (emit config table).outcome = .ok ⟨""⟩ :=
    emit_outcome_eq_ok_iff.mpr ⟨rfl, by decide⟩
  have compiled : (compile config manifest).outcome = .ok ⟨""⟩ :=
    compile_outcome_eq_ok_iff.mpr ⟨table, built, emitted⟩
  exact ⟨config, manifest, ⟨""⟩, valid, compiled, by decide⟩

end Handler

end EdgeRoutes
