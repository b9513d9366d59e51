import EdgeRoutes.Compile.Pipeline
import EdgeRoutes.Proofs.Table.Members

/-! When a manifest has a route table, and which fault is reported if it has none.

A table comes out of exactly those manifests that are admitted and whose dynamic pages are
unambiguous. Otherwise the error is that of the first check that fails, where a conflict of
pages comes after all refusals.
-/

set_option autoImplicit false

namespace EdgeRoutes

namespace Manifest

structure Compilable (config : Config) (manifest : Manifest) : Prop where
  admissible : manifest.Admissible config
  unambiguous : Unambiguous manifest.dynamicPages

/-- The error for the first check that a manifest fails. -/
inductive FirstFault (config : Config) (manifest : Manifest) : CompileError → Prop where
  | refused {refusal : Refusal} (first : manifest.FirstRefusal config refusal) :
      FirstFault config manifest (.refused refusal)
  | conflict {conflict : Conflict} (admissible : manifest.Admissible config)
      (first : FirstConflict manifest.dynamicPages conflict) :
      FirstFault config manifest (.conflictingRoutes conflict)

end Manifest

variable {config : Config} {manifest : Manifest}

theorem acceptManifest_outcome (config : Config) (manifest : Manifest) :
    (acceptManifest config manifest).outcome = (manifest.accept config).mapError .refused := by
  unfold acceptManifest
  rw [Traced.outcome_bind, Traced.outcome_ofOutcome]
  cases manifest.accept config with
  | error refusal => rfl
  | ok =>
    simp only [Except.mapError, bind, Except.bind]
    split <;> rfl

theorem mergePages_outcome (pages : List String) :
    (mergePages pages).outcome = (RouteTrie.ofPages pages).mapError .conflictingRoutes := by
  unfold mergePages
  rw [Traced.outcome_bind, Traced.outcome_ofOutcome]
  cases RouteTrie.ofPages pages <;> rfl

theorem routeTable_outcome (config : Config) (manifest : Manifest) :
    (routeTable config manifest).outcome =
      match manifest.accept config with
      | .error refusal => .error (.refused refusal)
      | .ok () =>
        match RouteTrie.ofPages manifest.dynamicPages with
        | .error conflict => .error (.conflictingRoutes conflict)
        | .ok trie => .ok (trie.freeze manifest.staticPages) := by
  unfold routeTable
  rw [Traced.outcome_bind, acceptManifest_outcome]
  cases manifest.accept config with
  | error refusal => rfl
  | ok =>
    simp only [Except.mapError, bind, Except.bind]
    change ((mergePages manifest.dynamicPages) >>= _).outcome = _
    rw [Traced.outcome_bind, mergePages_outcome]
    cases RouteTrie.ofPages manifest.dynamicPages <;> rfl

theorem routeTable_of_sections (manifest : Manifest) (first second : Config)
    (sameManifest : first.manifest = second.manifest) (sameRoutes : first.routes = second.routes) :
    routeTable first manifest = routeTable second manifest := by
  unfold routeTable acceptManifest Manifest.accept
  rw [sameManifest, sameRoutes]

theorem routeTable_of_firstRefusal {refusal : Refusal}
    (first : manifest.FirstRefusal config refusal) :
    (routeTable config manifest).outcome = .error (.refused refusal) := by
  rw [routeTable_outcome, first.accept_eq_error]

theorem routeTable_of_admissible (admissible : manifest.Admissible config) :
    (routeTable config manifest).outcome =
      match RouteTrie.ofPages manifest.dynamicPages with
      | .error conflict => .error (.conflictingRoutes conflict)
      | .ok trie => .ok (trie.freeze manifest.staticPages) := by
  rw [routeTable_outcome, admissible.accept_eq_ok]

theorem routeTable_of_holds {trie : RouteTrie} (admissible : manifest.Admissible config)
    (holds : trie.Holds manifest.dynamicPages) :
    (routeTable config manifest).outcome = .ok (trie.freeze manifest.staticPages) := by
  rw [routeTable_of_admissible admissible, RouteTrie.ofPages_eq_ok_iff.mpr holds]

theorem routeTable_of_firstConflict {conflict : Conflict}
    (admissible : manifest.Admissible config)
    (first : FirstConflict manifest.dynamicPages conflict) :
    (routeTable config manifest).outcome = .error (.conflictingRoutes conflict) := by
  rw [routeTable_of_admissible admissible, (RouteTrie.ofPages_eq_error_iff conflict).mpr first]

/-- Every compilation of a table ends in one of these ways. -/
theorem routeTable_cases (config : Config) (manifest : Manifest) :
    (manifest.Compilable config ∧ ∃ trie : RouteTrie, trie.Holds manifest.dynamicPages ∧
      (routeTable config manifest).outcome = .ok (trie.freeze manifest.staticPages)) ∨
    ∃ error, manifest.FirstFault config error ∧
      (routeTable config manifest).outcome = .error error := by
  rcases manifest.admissible_or_firstRefusal config with admissible | ⟨refusal, first⟩
  · rcases RouteTrie.ofPages_cases manifest.dynamicPages with
      ⟨trie, _, holds⟩ | ⟨conflict, _, first⟩
    · exact Or.inl ⟨⟨admissible, holds.unambiguous⟩, trie, holds,
        routeTable_of_holds admissible holds⟩
    · exact Or.inr ⟨_, .conflict admissible first, routeTable_of_firstConflict admissible first⟩
  · exact Or.inr ⟨_, .refused first, routeTable_of_firstRefusal first⟩

theorem compilable_of_routeTable {table : RouteTable}
    (built : (routeTable config manifest).outcome = .ok table) : manifest.Compilable config := by
  rcases routeTable_cases config manifest with ⟨compilable, _⟩ | ⟨fault, _, failed⟩
  · exact compilable
  · cases failed.symm.trans built

theorem exists_holds_of_routeTable {table : RouteTable}
    (built : (routeTable config manifest).outcome = .ok table) :
    ∃ trie : RouteTrie, trie.Holds manifest.dynamicPages ∧
      (∀ page ∈ manifest.dynamicPages, config.routes.Spares page) ∧
      table = trie.freeze manifest.staticPages := by
  rcases routeTable_cases config manifest with ⟨compilable, trie, holds, ended⟩ |
    ⟨fault, _, ended⟩
  · cases ended.symm.trans built
    exact ⟨trie, holds, compilable.admissible.unreserved, rfl⟩
  · cases ended.symm.trans built

theorem separable_of_routeTable {table : RouteTable}
    (built : (routeTable config manifest).outcome = .ok table) :
    table.root.Separable config.routes := by
  obtain ⟨trie, holds, spared, rfl⟩ := exists_holds_of_routeTable built
  exact holds.separable spared

/-- A table comes out of exactly the compilable manifests, and otherwise the error is the one
for the first check that fails. -/
theorem routeTable_outcome_iff (config : Config) (manifest : Manifest) :
    ((∃ table, (routeTable config manifest).outcome = .ok table) ↔
      manifest.Compilable config) ∧
    ∀ error, (routeTable config manifest).outcome = .error error ↔
      manifest.FirstFault config error := by
  refine ⟨⟨?_, ?_⟩, fun error => ⟨?_, ?_⟩⟩
  · rintro ⟨table, built⟩
    exact compilable_of_routeTable built
  · rintro ⟨admissible, unambiguous⟩
    obtain ⟨trie, holds⟩ := RouteTrie.exists_holds_iff.mpr unambiguous
    exact ⟨_, routeTable_of_holds admissible holds⟩
  · intro failed
    rcases routeTable_cases config manifest with ⟨_, _, _, built⟩ | ⟨fault, first, found⟩
    · cases built.symm.trans failed
    · cases found.symm.trans failed
      exact first
  · intro fault
    cases fault with
    | refused first => exact routeTable_of_firstRefusal first
    | conflict admissible first => exact routeTable_of_firstConflict admissible first

end EdgeRoutes
