import EdgeRoutes.Compile.Pipeline
import EdgeRoutes.Manifest.Printer
import EdgeRoutes.Proofs.Json.Printing
import EdgeRoutes.Proofs.Manifest.Spelling

/-! Manifests are read without loss.

A manifest is read from every text that writes it and from no other, and the text that is printed
for it is one of these.
-/

set_option autoImplicit false

namespace EdgeRoutes

open Json Json.Read

theorem PageRoute.printed (depth : Nat) {route : PageRoute}
    (sorted : Members.Sorted route.routeKeys) :
    Printed route.layout (Spelling.record slots (depth + 2) · route) :=
  printed_record lawful <| .cons (printed_text _) <| .cons (printed_text _) <|
    .cons (printed_dictionary sorted fun _ _ => printed_text _) <| .cons (printed_text _) .nil

theorem DataRoute.printed (depth : Nat) (route : DataRoute) :
    Printed route.layout (Spelling.record slots (depth + 1) · route) :=
  printed_record lawful <| .cons (printed_text _) <| .cons (printed_text _) .nil

theorem Redirect.printed (depth : Nat) {redirect : Redirect}
    (small : redirect.statusCode ≤ Nat.pow 2 16 - 1) :
    Printed redirect.layout (Spelling.record slots (depth + 1) · redirect) :=
  printed_record lawful <| .cons (printed_text _) <| .cons (printed_text _) <|
    .cons (printed_natural small (by decide)) <| .cons (printed_flag _) <|
    .cons (printed_text _) .nil

theorem Rewrite.printed (depth : Nat) (rewrite : Rewrite) :
    Printed rewrite.layout (Spelling.record slots (depth + 1) · rewrite) :=
  printed_record lawful <| .cons (printed_text _) <| .cons (printed_text _) <|
    .cons (printed_text _) .nil

namespace Manifest

/-- The numbers of the manifest fit their fields, its objects have their keys in order, and its
free values hold no floating-point numbers and are not nested too deep: two brackets stand around
a header and one around the `rsc` value. -/
structure Storable (manifest : Manifest) : Prop where
  version : manifest.version ≤ Nat.pow 2 32 - 1
  statusCodes : ∀ redirect ∈ manifest.redirects, redirect.statusCode ≤ Nat.pow 2 16 - 1
  staticKeys : ∀ route ∈ manifest.staticRoutes, Members.Sorted route.routeKeys
  dynamicKeys : ∀ route ∈ manifest.dynamicRoutes, Members.Sorted route.routeKeys
  headers : ∀ header ∈ manifest.headers, header.Plain (depthLimit - 2)
  rsc : manifest.rsc.Plain (depthLimit - 1)

theorem printed_dataRoutes (depth : Nat) (routes : Option (List DataRoute)) :
    Printed ((routes.map fun routes => Json.array (routes.map DataRoute.layout)).getD .null)
      (Spelling.optional (.sequence (.record DataRoute.slots)) (depth + 2) · routes) := by
  cases routes with
  | none =>
    obtain ⟨source, text, rfl⟩ := printed_null
    exact ⟨_, text, rfl⟩
  | some routes =>
    -- An empty list is kept apart from none by its brackets.
    apply printed_given
    · cases routes <;> simp [Json.chars]
    · exact printed_sequence fun route _ => DataRoute.printed depth route

theorem Storable.printed {manifest : Manifest} (storable : manifest.Storable) :
    Printed manifest.layout (Spelling.record slots depthLimit · manifest) := by
  have headers : Printed (.array manifest.headers)
      (Spelling.sequence .value (depthLimit - 1) · manifest.headers) := by
    have each := printed_sequence fun header present => (storable.headers header present).printed
    rwa [List.map_id' manifest.headers] at each
  exact printed_record lawful <| .cons (printed_natural storable.version (by decide)) <|
    .cons (printed_flag _) <| .cons (printed_text _) <|
    .cons (printed_sequence fun redirect present =>
      Redirect.printed _ (storable.statusCodes redirect present)) <|
    .cons (printed_sequence fun rewrite _ => Rewrite.printed _ rewrite) <|
    .cons headers <|
    .cons (printed_sequence fun route present =>
      PageRoute.printed _ (storable.staticKeys route present)) <|
    .cons (printed_sequence fun route present =>
      PageRoute.printed _ (storable.dynamicKeys route present)) <|
    .cons (printed_dataRoutes _ _) <| .cons storable.rsc.printed .nil

theorem Storable.exists_document {manifest : Manifest} (storable : manifest.Storable) :
    ∃ document : Document, document.text = manifest.print ∧ manifest.WrittenBy document := by
  obtain ⟨source, chars, written⟩ := storable.printed
  refine ⟨⟨[], source, []⟩, ?_, written⟩
  simp [Document.text, Source.itemChars, Gap.chars, chars, print, compact]

end Manifest

theorem parseManifest_eq_ok_iff (source : String) (manifest : Manifest) :
    parseManifest source = .ok manifest ↔ Manifest.parse source = .ok manifest := by
  unfold parseManifest
  cases Manifest.parse source <;> simp [Except.mapError]

/-- A manifest is read from just the texts that write it, and the text that is printed for it is
one of these. -/
theorem parseManifest_lossless {manifest : Manifest} (storable : manifest.Storable) :
    (∀ document : Document,
      parseManifest document.text = .ok manifest ↔ manifest.WrittenBy document) ∧
    parseManifest manifest.print = .ok manifest := by
  have read (document : Document) :
      parseManifest document.text = .ok manifest ↔ manifest.WrittenBy document :=
    (parseManifest_eq_ok_iff _ _).trans (Manifest.parse_eq_ok_iff document manifest)
  obtain ⟨document, printed, written⟩ := storable.exists_document
  exact ⟨read, printed ▸ (read document).mpr written⟩

theorem parseManifest_lossless_items :
    ∃ (manifest : Manifest) (document : Document), manifest.Storable ∧
      manifest.WrittenBy document ∧ parseManifest document.text = .ok manifest ∧
      parseManifest manifest.print = .ok manifest := by
  let header : Json := .object [("key", .array [.null, .number (.integer (-7))])]
  let manifest : Manifest := {
    version := 4
    redirects := [{ source := "/:path+/", destination := "/:path+", statusCode := 308 }]
    headers := [header]
    dynamicRoutes := [{ page := "/items/[id]", routeKeys := [("nxtPid", "nxtPid")] }]
    dataRoutes := some [] }
  have plain : header.Plain (depthLimit - 2) := by
    refine .object (List.pairwise_singleton _ _) (List.forall_mem_singleton.mpr ?_)
    refine .array (List.forall_mem_cons.mpr ⟨.null, List.forall_mem_singleton.mpr ?_⟩)
    exact .integer (by decide) (by decide)
  have storable : manifest.Storable := {
    version := by decide
    statusCodes := by simp [manifest]
    staticKeys := by simp [manifest]
    dynamicKeys := List.forall_mem_singleton.mpr (List.pairwise_singleton _ _)
    headers := List.forall_mem_singleton.mpr plain
    rsc := .null }
  obtain ⟨document, _, written⟩ := storable.exists_document
  have lossless := parseManifest_lossless storable
  exact ⟨manifest, document, storable, written, (lossless.1 document).mpr written, lossless.2⟩

example :
    let text := "\x7b \"rsc\" : null, \"\\u0076ersion\":3,\"new\":[1e999,\x7b\x7d] \x7d"
    (parseManifest text).toOption.map (·.version) = some 3 := by
  decide +kernel

end EdgeRoutes
