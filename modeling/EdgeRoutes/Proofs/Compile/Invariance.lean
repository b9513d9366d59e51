import EdgeRoutes.Proofs.Handler.Emission

/-! What a compilation depends on.

Two manifests with the same version, the same number of data routes, the same static pages
and the same set of dynamic pages compile alike: to the same table and the same program, or
to errors of the same kind. Neither the order of the dynamic routes nor a repeated route
makes a difference, and nothing else in a manifest does.
-/

set_option autoImplicit false

namespace EdgeRoutes

/-- The manifests agree on what is compiled; their dynamic pages may come in another order
and more or less often. -/
structure Manifest.SameRoutes (first second : Manifest) : Prop where
  version : first.version = second.version
  dataRoutes : first.dataRouteCount = second.dataRouteCount
  staticPages : first.staticPages = second.staticPages
  dynamicPages : ∀ page, page ∈ first.dynamicPages ↔ page ∈ second.dynamicPages

/-- Errors of one kind, which may name different pages. -/
inductive CompileError.Alike : CompileError → CompileError → Prop where
  | version (found expected : Nat) :
      Alike (.refused (.version found expected)) (.refused (.version found expected))
  | dataRoutes (count : Nat) :
      Alike (.refused (.dataRoutes count)) (.refused (.dataRoutes count))
  | catchAll (first second : String) :
      Alike (.refused (.catchAll first)) (.refused (.catchAll second))
  | reservedSegment (first second firstPart secondPart : String) :
      Alike (.refused (.reservedSegment first firstPart))
        (.refused (.reservedSegment second secondPart))
  | conflictingRoutes (first second : Conflict) :
      Alike (.conflictingRoutes first) (.conflictingRoutes second)
  | oversize (program : Oversize) : Alike (.oversize program) (.oversize program)

/-- The same value, or errors of one kind. -/
inductive Alike {Value : Type} :
    Except CompileError Value → Except CompileError Value → Prop where
  | ok (value : Value) : Alike (.ok value) (.ok value)
  | error {first second : CompileError} (kind : first.Alike second) :
      Alike (.error first) (.error second)

namespace Manifest.SameRoutes

variable {config : Config} {first second : Manifest}

theorem symm (same : first.SameRoutes second) : second.SameRoutes first where
  version := same.version.symm
  dataRoutes := same.dataRoutes.symm
  staticPages := same.staticPages.symm
  dynamicPages page := (same.dynamicPages page).symm

theorem withoutDataRoutes (same : first.SameRoutes second) (without : first.WithoutDataRoutes) :
    second.WithoutDataRoutes := by
  rw [withoutDataRoutes_iff] at without ⊢
  rwa [← same.dataRoutes]

theorem supported (same : first.SameRoutes second)
    (version : first.version = config.manifest.supportedVersion) :
    second.version = config.manifest.supportedVersion :=
  same.version.symm.trans version

theorem forall_dynamicPages (same : first.SameRoutes second) {holds : String → Prop}
    (all : ∀ page ∈ first.dynamicPages, holds page) :
    ∀ page ∈ second.dynamicPages, holds page :=
  fun page member => all page ((same.dynamicPages page).mpr member)

theorem admissible (same : first.SameRoutes second) (admissible : first.Admissible config) :
    second.Admissible config where
  version := same.supported admissible.version
  dataRoutes := same.withoutDataRoutes admissible.dataRoutes
  unmarked := same.forall_dynamicPages admissible.unmarked
  unreserved := same.forall_dynamicPages admissible.unreserved

theorem holds (same : first.SameRoutes second) {trie : RouteTrie}
    (holds : trie.Holds first.dynamicPages) : trie.Holds second.dynamicPages :=
  holds.of_same fun page => (same.dynamicPages page).symm

theorem firstConflict (same : first.SameRoutes second) {conflict : Conflict}
    (found : FirstConflict first.dynamicPages conflict) :
    ∃ other, FirstConflict second.dynamicPages other := by
  rcases RouteTrie.ofPages_cases second.dynamicPages with ⟨trie, _, holds⟩ | ⟨other, _, conflict⟩
  · exact absurd (same.symm.holds holds).unambiguous found.ambiguous
  · exact ⟨other, conflict⟩

theorem firstRefusal (same : first.SameRoutes second) {refusal : Refusal}
    (found : first.FirstRefusal config refusal) :
    ∃ other, second.FirstRefusal config other ∧
      CompileError.Alike (.refused refusal) (.refused other) := by
  cases found with
  | version differs =>
    rw [same.version] at differs ⊢
    exact ⟨_, .version differs, .version _ _⟩
  | @dataRoutes routes version given nonempty =>
    have counted : first.dataRouteCount = routes.length := by
      rw [dataRouteCount, given, Option.getD_some]
    have counts : 0 < second.dataRouteCount := by
      rw [← same.dataRoutes, counted]
      exact List.length_pos_iff.mpr nonempty
    obtain ⟨others, givenToo, nonemptyToo⟩ := second.dataRouteCount_pos_iff.mp counts
    have lengths : routes.length = others.length := by
      rw [← counted, same.dataRoutes, dataRouteCount, givenToo, Option.getD_some]
    refine ⟨_, .dataRoutes (same.supported version) givenToo nonemptyToo, ?_⟩
    rw [lengths]
    exact .dataRoutes _
  -- From here on the page reported may differ, since it is the first in another order.
  | @catchAll _ _ page version without split _ marked =>
    have member : page ∈ first.dynamicPages := by simp [split]
    obtain ⟨other, found⟩ := exists_catchAll (same.supported version)
      (same.withoutDataRoutes without) ⟨page, (same.dynamicPages page).mp member, marked⟩
    exact ⟨_, found, .catchAll _ _⟩
  | @reservedSegment _ _ _ _ page part version without unmarked split _ parts _ reserved =>
    have member : page ∈ first.dynamicPages := by simp [split]
    have taken : ¬ config.routes.Spares page := fun spared =>
      spared part (by simp [parts]) reserved
    obtain ⟨other, otherPart, found⟩ := exists_reservedSegment (same.supported version)
      (same.withoutDataRoutes without) (same.forall_dynamicPages unmarked)
      ⟨page, (same.dynamicPages page).mp member, taken⟩
    exact ⟨_, found, .reservedSegment _ _ _ _⟩

theorem routeTable_alike (config : Config) (same : first.SameRoutes second) :
    Alike (routeTable config first).outcome (routeTable config second).outcome := by
  rcases routeTable_cases config first with ⟨compilable, trie, holds, built⟩ | ⟨_, fault, failed⟩
  · rw [built, routeTable_of_holds (same.admissible compilable.admissible) (same.holds holds),
      same.staticPages]
    exact .ok _
  · rw [failed]
    cases fault with
    | refused found =>
      obtain ⟨other, refused, kind⟩ := same.firstRefusal found
      rw [routeTable_of_firstRefusal refused]
      exact .error kind
    | conflict admissible found =>
      obtain ⟨other, conflict⟩ := same.firstConflict found
      rw [routeTable_of_firstConflict (same.admissible admissible) conflict]
      exact .error (.conflictingRoutes _ _)

end Manifest.SameRoutes

theorem emit_alike (config : Config) (table : RouteTable) :
    Alike (emit config table).outcome (emit config table).outcome := by
  rw [emit_outcome]
  dsimp only
  split
  · exact .ok _
  · exact .error (.oversize _)

/-- Manifests that agree on version, number of data routes, static pages and set of dynamic
pages compile alike. -/
theorem compile_alike (config : Config) (first second : Manifest)
    (same : first.SameRoutes second) :
    Alike (routeTable config first).outcome (routeTable config second).outcome ∧
    Alike (compile config first).outcome (compile config second).outcome := by
  have tables := same.routeTable_alike config
  refine ⟨tables, ?_⟩
  unfold compile
  rw [Traced.outcome_bind, Traced.outcome_bind]
  generalize (routeTable config first).outcome = left at tables ⊢
  generalize (routeTable config second).outcome = right at tables ⊢
  cases tables with
  | ok table => exact emit_alike config table
  | error kind => exact .error kind

theorem compile_alike_reordered :
    ∃ first second : Manifest, first.dynamicPages ≠ second.dynamicPages ∧
      first.SameRoutes second ∧ Alike (compile {} first).outcome (compile {} second).outcome := by
  let first : Manifest := {
    version := 3
    staticRoutes := [{ page := "/about" }, {}]
    dynamicRoutes := [{ page := "/items/[id]" }, { page := "/items/new" }]
    dataRoutes := some [] }
  let second : Manifest := {
    version := 3
    basePath := "/docs"
    staticRoutes := [{ page := "/about", regex := "^/about$" }]
    dynamicRoutes :=
      [{ page := "/items/new" }, { page := "/items/[id]" }, { page := "/items/new" }] }
  have same : first.SameRoutes second := {
    version := rfl
    dataRoutes := rfl
    staticPages := by decide
    dynamicPages := by
      intro page
      simp only [first, second, Manifest.dynamicPages, List.map_cons, List.map_nil,
        List.mem_cons, List.not_mem_nil, or_false]
      constructor
      · rintro (rfl | rfl) <;> simp
      · rintro (rfl | rfl | rfl) <;> simp }
  exact ⟨first, second, by decide, same, (compile_alike {} first second same).2⟩

end EdgeRoutes
