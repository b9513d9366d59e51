import EdgeRoutes.Manifest.Reader
import EdgeRoutes.Proofs.Json.Fields

/-! The sources of manifests.

The fields of each record are listed with their keys in the text, the values they have where they
are left out, and the ways to write their values. The readers of manifests serve these lists.
-/

set_option autoImplicit false

namespace EdgeRoutes

open Json Json.Read

def PageRoute.slots : List (Slot PageRoute) := [
  .required "page" .text (·.page) fun route page => { route with page },
  .defaulted "regex" "" .text (·.regex) fun route regex => { route with regex },
  .defaulted "routeKeys" [] (.dictionary .text) (·.routeKeys)
    fun route routeKeys => { route with routeKeys },
  .defaulted "namedRegex" "" .text (·.namedRegex) fun route namedRegex => { route with namedRegex }]

def DataRoute.slots : List (Slot DataRoute) := [
  .defaulted "page" "" .text (·.page) fun route page => { route with page },
  .defaulted "dataRouteRegex" "" .text (·.dataRouteRegex)
    fun route dataRouteRegex => { route with dataRouteRegex }]

def Redirect.slots : List (Slot Redirect) := [
  .required "source" .text (·.source) fun redirect source => { redirect with source },
  .required "destination" .text (·.destination)
    fun redirect destination => { redirect with destination },
  .defaulted "statusCode" 0 (.natural (Nat.pow 2 16 - 1)) (·.statusCode)
    fun redirect statusCode => { redirect with statusCode },
  .defaulted "internal" false .boolean (·.internal)
    fun redirect internal => { redirect with internal },
  .defaulted "regex" "" .text (·.regex) fun redirect regex => { redirect with regex }]

def Rewrite.slots : List (Slot Rewrite) := [
  .required "source" .text (·.source) fun rewrite source => { rewrite with source },
  .required "destination" .text (·.destination)
    fun rewrite destination => { rewrite with destination },
  .defaulted "regex" "" .text (·.regex) fun rewrite regex => { rewrite with regex }]

def Manifest.slots : List (Slot Manifest) := [
  .required "version" (.natural (Nat.pow 2 32 - 1)) (·.version)
    fun manifest version => { manifest with version },
  .defaulted "pages404" false .boolean (·.pages404)
    fun manifest pages404 => { manifest with pages404 },
  .defaulted "basePath" "" .text (·.basePath) fun manifest basePath => { manifest with basePath },
  .defaulted "redirects" [] (.sequence (.record Redirect.slots)) (·.redirects)
    fun manifest redirects => { manifest with redirects },
  .defaulted "rewrites" [] (.sequence (.record Rewrite.slots)) (·.rewrites)
    fun manifest rewrites => { manifest with rewrites },
  .defaulted "headers" [] (.sequence .value) (·.headers)
    fun manifest headers => { manifest with headers },
  .defaulted "staticRoutes" [] (.sequence (.record PageRoute.slots)) (·.staticRoutes)
    fun manifest staticRoutes => { manifest with staticRoutes },
  .defaulted "dynamicRoutes" [] (.sequence (.record PageRoute.slots)) (·.dynamicRoutes)
    fun manifest dynamicRoutes => { manifest with dynamicRoutes },
  .defaulted "dataRoutes" none (.optional (.sequence (.record DataRoute.slots))) (·.dataRoutes)
    fun manifest dataRoutes => { manifest with dataRoutes },
  .defaulted "rsc" .null .value (·.rsc) fun manifest rsc => { manifest with rsc }]

theorem PageRoute.lawful : Slot.Lawful PageRoute.slots where
  names := by decide
  get_set := by simp [slots]
  frame := by simp [slots]
  whole := by simp [slots]

theorem DataRoute.lawful : Slot.Lawful DataRoute.slots where
  names := by decide
  get_set := by simp [slots]
  frame := by simp [slots]
  whole := by simp [slots]

theorem Redirect.lawful : Slot.Lawful Redirect.slots where
  names := by decide
  get_set := by simp [slots]
  frame := by simp [slots]
  whole := by simp [slots]

theorem Rewrite.lawful : Slot.Lawful Rewrite.slots where
  names := by decide
  get_set := by simp [slots]
  frame := by simp [slots]
  whole := by simp [slots]

theorem Manifest.lawful : Slot.Lawful Manifest.slots where
  names := by decide
  get_set := by simp [slots]
  frame := by simp [slots]
  whole := by simp [slots]

theorem PageRoute.serves : PageRoute.shape.Serves PageRoute.slots where
  lawful := lawful
  fields := .cons ⟨_, rfl, text_finds⟩ <| .cons ⟨_, rfl, text_finds⟩ <|
    .cons ⟨_, rfl, dictionary_finds text_finds⟩ <| .cons ⟨_, rfl, text_finds⟩ .nil
  blank := by simp [slots, shape]

theorem DataRoute.serves : DataRoute.shape.Serves DataRoute.slots where
  lawful := lawful
  fields := .cons ⟨_, rfl, text_finds⟩ <| .cons ⟨_, rfl, text_finds⟩ .nil
  blank := by simp [slots, shape]

theorem Redirect.serves : Redirect.shape.Serves Redirect.slots where
  lawful := lawful
  fields := .cons ⟨_, rfl, text_finds⟩ <| .cons ⟨_, rfl, text_finds⟩ <|
    .cons ⟨_, rfl, natural_finds _ _⟩ <| .cons ⟨_, rfl, boolean_finds⟩ <|
    .cons ⟨_, rfl, text_finds⟩ .nil
  blank := by simp [slots, shape]

theorem Rewrite.serves : Rewrite.shape.Serves Rewrite.slots where
  lawful := lawful
  fields := .cons ⟨_, rfl, text_finds⟩ <| .cons ⟨_, rfl, text_finds⟩ <|
    .cons ⟨_, rfl, text_finds⟩ .nil
  blank := by simp [slots, shape]

theorem Manifest.serves : Manifest.shape.Serves Manifest.slots where
  lawful := lawful
  fields := .cons ⟨_, rfl, natural_finds _ _⟩ <| .cons ⟨_, rfl, boolean_finds⟩ <|
    .cons ⟨_, rfl, text_finds⟩ <| .cons ⟨_, rfl, sequence_finds Redirect.serves.finds⟩ <|
    .cons ⟨_, rfl, sequence_finds Rewrite.serves.finds⟩ <|
    .cons ⟨_, rfl, sequence_finds value_finds⟩ <|
    .cons ⟨_, rfl, sequence_finds PageRoute.serves.finds⟩ <|
    .cons ⟨_, rfl, sequence_finds PageRoute.serves.finds⟩ <|
    .cons ⟨_, rfl, optional_finds (sequence_finds DataRoute.serves.finds)⟩ <|
    .cons ⟨_, rfl, value_finds⟩ .nil
  blank := by simp [slots, shape]

namespace Manifest

/-- The document is a way to write the manifest. -/
def WrittenBy (manifest : Manifest) (document : Document) : Prop :=
  Spelling.record slots depthLimit document.content manifest

theorem parse_eq_ok_iff (document : Document) (manifest : Manifest) :
    parse document.text = .ok manifest ↔ manifest.WrittenBy document :=
  whole_iff serves.finds document manifest

end Manifest

end EdgeRoutes
