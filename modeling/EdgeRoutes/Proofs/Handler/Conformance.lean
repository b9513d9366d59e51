import EdgeRoutes.Proofs.Handler.Emission
import EdgeRoutes.Proofs.Handler.Rendering
import EdgeRoutes.Proofs.Script.FifthEdition
import Mathlib.Data.String.Basic

/-! How far the readable text is ECMAScript 5.1.

Its strings are those of the template and those of the data, and the data are written as JSON.
All of them are literals of this edition that denote the strings they were made from, unless
one of them has a line or paragraph separator in it: then there is no such literal, and the
script as a whole cannot be read.
-/

set_option autoImplicit false

namespace EdgeRoutes

open Script.FifthEdition (strings? denoted? denoted?_eq_some_iff denoted?_eq_none_iff Clear Holds
  holds_plain holds_quote holds_of_read)

namespace Json

mutual

/-- The strings of a value and the keys of its objects, in the order of its text. -/
def literals : Json → List String
  | .string text => [text]
  | .array items => itemLiterals items
  | .object members => memberLiterals members
  | _ => []

def itemLiterals : List Json → List String
  | [] => []
  | item :: items => item.literals ++ itemLiterals items

def memberLiterals : List (String × Json) → List String
  | [] => []
  | (key, value) :: members => [key] ++ value.literals ++ memberLiterals members

end

theorem itemLiterals_strings (texts : List String) :
    itemLiterals (texts.map .string) = texts := by
  induction texts with
  | nil => rfl
  | cons text texts ih => simp [itemLiterals, literals, ih]

theorem literals_strings (texts : List String) : (Json.strings texts).literals = texts := by
  rw [strings, literals, itemLiterals_strings]

theorem holds_cons {char : Char} (apart : char ∉ ['"', '\'', '/']) {text : List Char}
    {texts : List String} (holds : Holds text texts) : Holds (char :: text) texts :=
  (holds_plain apart).append holds

theorem holds_itemsChars {items : List Json}
    (each : ∀ item ∈ items, Holds (item.chars .json) item.literals) :
    Holds (itemsChars .json items) (itemLiterals items) := by
  induction items with
  | nil => exact holds_plain (by decide)
  | cons item items ih =>
    exact holds_cons (by decide) ((each item List.mem_cons_self).append
      (ih fun other member => each other (List.mem_cons_of_mem _ member)))

theorem holds_member {key : String} {value : Json}
    (holds : Holds (value.chars .json) value.literals) :
    Holds (quote key ++ ':' :: value.chars .json) ([key] ++ value.literals) :=
  (holds_quote key).append (holds_cons (by decide) holds)

theorem holds_membersChars {members : List (String × Json)}
    (each : ∀ member ∈ members, Holds (member.2.chars .json) member.2.literals) :
    Holds (membersChars .json members) (memberLiterals members) := by
  induction members with
  | nil => exact holds_plain (by decide)
  | cons member members ih =>
    obtain ⟨key, value⟩ := member
    exact holds_cons (by decide) ((holds_member (each (key, value) List.mem_cons_self)).append
      (ih fun other present => each other (List.mem_cons_of_mem _ present)))

theorem Textual.holds {value : Json} (textual : value.Textual) :
    Holds (value.chars .json) value.literals := by
  induction textual with
  | string text => exact holds_quote text
  | @array items each ih =>
    cases items with
    | nil => exact holds_cons (by decide) (holds_plain (by decide))
    | cons item items =>
      exact holds_cons (by decide) ((ih item List.mem_cons_self).append
        (holds_itemsChars fun other member => ih other (List.mem_cons_of_mem _ member)))
  | @object members sorted each ih =>
    cases members with
    | nil => exact holds_cons (by decide) (holds_plain (by decide))
    | cons member members =>
      obtain ⟨key, value⟩ := member
      exact holds_cons (by decide) ((holds_member (ih (key, value) List.mem_cons_self)).append
        (holds_membersChars fun other present => ih other (List.mem_cons_of_mem _ present)))

end Json

namespace Handler

/-- The strings in the fixed parts of the text. -/
def fixedStrings : Fin 8 → List String
  | 5 => ["/"]
  | 6 => [".", "/", ""]
  | 7 => ["object", "/", "", "string"]
  | _ => []

theorem strings?_fixedText : ∀ part : Fin 8,
    strings? 0 (fixedText part) = denoted? (fixedStrings part) := by
  unfold fixedText fixedTexts sourceTemplate sourceLines
  repeat rw [List.flatMap_cons, String.toList_ofList]
  decide +kernel

theorem holds_fixedText (part : Fin 8) : Holds (fixedText part) (fixedStrings part) := by
  refine holds_of_read (strings?_fixedText part) ?_
  revert part
  decide

def Data.strings (data : Data) : List String :=
  data.staticRoutes ++ data.routeTrie.literals ++
    [data.pageSuffix, data.wildcardKey, data.pageKey, "/", data.internalPrefix, ".", "/", "",
      data.rootPage, "object", "/", "", "string"]

theorem Data.holds_source (config : Config) (table : RouteTable) :
    Holds (Data.ofTable config table).source.toList (Data.ofTable config table).strings := by
  have hole (hole : Hole) := (Data.textual_value config table hole).holds
  have texts : (Data.ofTable config table).strings =
      fixedStrings 0 ++ ((Data.ofTable config table).value .staticRoutes).literals ++
      fixedStrings 1 ++ ((Data.ofTable config table).value .routeTrie).literals ++
      fixedStrings 2 ++ ((Data.ofTable config table).value .pageSuffix).literals ++
      fixedStrings 3 ++ ((Data.ofTable config table).value .wildcardKey).literals ++
      fixedStrings 4 ++ ((Data.ofTable config table).value .pageKey).literals ++
      fixedStrings 5 ++ ((Data.ofTable config table).value .internalPrefix).literals ++
      fixedStrings 6 ++ ((Data.ofTable config table).value .rootPage).literals ++
      fixedStrings 7 := by
    simp [Data.strings, Data.value, fixedStrings, Json.literals_strings, Json.literals]
  -- Fixed text and value in turn, from the first placeholder to the last.
  rw [Data.source_toList, texts]
  exact (holds_fixedText 0).append (hole .staticRoutes) |>.append (holds_fixedText 1)
    |>.append (hole .routeTrie) |>.append (holds_fixedText 2)
    |>.append (hole .pageSuffix) |>.append (holds_fixedText 3)
    |>.append (hole .wildcardKey) |>.append (holds_fixedText 4)
    |>.append (hole .pageKey) |>.append (holds_fixedText 5)
    |>.append (hole .internalPrefix) |>.append (holds_fixedText 6)
    |>.append (hole .rootPage) |>.append (holds_fixedText 7)

/-- The strings of a readable program are those of the template and of the data, by the rules
of ECMAScript 5.1, if and only if no separator is in any of them; if there is one, the program
has a string that is no literal. As JSON, a text with a separator is no literal, and every
other is one that denotes this text. -/
theorem strings?_emit_iff (config : Config) (table : RouteTable) (program : Program)
    (readable : config.minify.enabled = false)
    (emitted : (emit config table).outcome = .ok program) :
    (strings? 0 program.text.toList =
        some ((Data.ofTable config table).strings.map Script.Units.ofText) ↔
      ∀ text ∈ (Data.ofTable config table).strings, Clear text) ∧
    (strings? 0 program.text.toList = none ↔
      ∃ text ∈ (Data.ofTable config table).strings, ¬ Clear text) ∧
    ∀ text, strings? 0 (Json.quote text) =
      if Clear text then some [Script.Units.ofText text] else none := by
  have text := (emit_outcome_eq_ok_iff.mp emitted).1
  rw [Data.text, if_neg (by simp [readable])] at text
  have read := (Data.holds_source config table).strings?_eq
  rw [← text] at read
  rw [read]
  refine ⟨denoted?_eq_some_iff _, denoted?_eq_none_iff _, fun text => ?_⟩
  rw [(holds_quote text).strings?_eq]
  simp [denoted?]

theorem strings?_emit_iff_escaped :
    ∃ (config : Config) (program : Program),
      let table : RouteTable := {
        staticRoutes := ["/\"\\\n\x00\x1b"]
        root := { choices := .literal "\r" (some "/'") .none .none } }
      config.minify.enabled = false ∧ (emit config table).outcome = .ok program ∧
      strings? 0 program.text.toList =
        some ((Data.ofTable config table).strings.map Script.Units.ofText) := by
  let table : RouteTable := {
    staticRoutes := ["/\"\\\n\x00\x1b"]
    root := { choices := .literal "\r" (some "/'") .none .none } }
  obtain ⟨bytes, program, emitted⟩ := exists_emit { minify := { enabled := false } } table
  refine ⟨_, program, rfl, emitted, ?_⟩
  have clear : ∀ text ∈ (Data.ofTable { minify := { enabled := false } } table).strings,
      Clear text := by decide
  exact (strings?_emit_iff _ table program rfl emitted).1.mpr clear

/-- A static page with a line separator in its name makes the whole program unreadable. -/
theorem strings?_emit_separator :
    ∃ program : Program,
      let config : Config := { minify := { enabled := false } }
      config.violations = [] ∧
      (emit config { staticRoutes := ["/a\u2028b"], root := {} }).outcome = .ok program ∧
      strings? 0 program.text.toList = none := by
  let config : Config := { minify := { enabled := false } }
  let table : RouteTable := { staticRoutes := ["/a\u2028b"], root := {} }
  have valid : config.violations = [] := by decide +kernel
  have small : Program.size ⟨(Data.ofTable config table).source⟩ ≤ 10240 := by
    unfold Program.size Data.source
    rw [String.utf8ByteSize_ofList]
    unfold sourceTemplate sourceLines
    repeat rw [List.flatMap_cons, String.toList_ofList]
    decide +kernel
  have unclear : ∃ text ∈ (Data.ofTable config table).strings, ¬ Clear text :=
    ⟨"/a\u2028b", by decide, by decide⟩
  refine ⟨⟨(Data.ofTable config table).source⟩, valid,
    emit_outcome_eq_ok_iff.mpr ⟨rfl, small⟩, ?_⟩
  exact (Data.holds_source config table).strings?_eq.trans ((denoted?_eq_none_iff _).mpr unclear)

end Handler

end EdgeRoutes
