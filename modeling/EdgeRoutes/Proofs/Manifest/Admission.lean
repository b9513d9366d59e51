import EdgeRoutes.Manifest.Admission
import EdgeRoutes.Text.Basic

/-! Which manifests are admitted, and what a refusal names.

A manifest is admitted exactly if it meets four conditions. If it does not, the refusal is
that of the first condition it breaks, and it names the first page of the list that breaks
this condition, whatever later conditions an earlier page may break.
-/

set_option autoImplicit false

namespace EdgeRoutes

def RouteConfig.Marks (keys : RouteConfig) (page : String) : Prop :=
  keys.catchAllMarker.toList <:+: page.toList

def RouteConfig.Reserves (keys : RouteConfig) (part : String) : Prop :=
  part = keys.wildcardKey ∨ part = keys.pageKey ∨ part = prototypeKey

theorem RouteConfig.isReserved_iff (keys : RouteConfig) (part : String) :
    keys.isReserved part = true ↔ keys.Reserves part := by
  simp [isReserved, Reserves, or_assoc]

def RouteConfig.Spares (keys : RouteConfig) (page : String) : Prop :=
  ∀ part ∈ Path.parts page, ¬ keys.Reserves part

namespace Manifest

def WithoutDataRoutes (manifest : Manifest) : Prop :=
  manifest.dataRoutes = none ∨ manifest.dataRoutes = some []

structure Admissible (config : Config) (manifest : Manifest) : Prop where
  version : manifest.version = config.manifest.supportedVersion
  dataRoutes : manifest.WithoutDataRoutes
  unmarked : ∀ page ∈ manifest.dynamicPages, ¬ config.routes.Marks page
  unreserved : ∀ page ∈ manifest.dynamicPages, config.routes.Spares page

/-- The refusal for the first condition that is broken. -/
inductive FirstRefusal (config : Config) (manifest : Manifest) : Refusal → Prop where
  | version (differs : manifest.version ≠ config.manifest.supportedVersion) :
      FirstRefusal config manifest
        (.version manifest.version config.manifest.supportedVersion)
  | dataRoutes {routes : List DataRoute}
      (version : manifest.version = config.manifest.supportedVersion)
      (given : manifest.dataRoutes = some routes) (nonempty : routes ≠ []) :
      FirstRefusal config manifest (.dataRoutes routes.length)
  | catchAll {before after : List String} {page : String}
      (version : manifest.version = config.manifest.supportedVersion)
      (dataRoutes : manifest.WithoutDataRoutes)
      (split : manifest.dynamicPages = before ++ page :: after)
      (earlier : ∀ other ∈ before, ¬ config.routes.Marks other)
      (marked : config.routes.Marks page) :
      FirstRefusal config manifest (.catchAll page)
  | reservedSegment {before after front back : List String} {page part : String}
      (version : manifest.version = config.manifest.supportedVersion)
      (dataRoutes : manifest.WithoutDataRoutes)
      (unmarked : ∀ other ∈ manifest.dynamicPages, ¬ config.routes.Marks other)
      (split : manifest.dynamicPages = before ++ page :: after)
      (earlier : ∀ other ∈ before, config.routes.Spares other)
      (parts : Path.parts page = front ++ part :: back)
      (first : ∀ other ∈ front, ¬ config.routes.Reserves other)
      (reserved : config.routes.Reserves part) :
      FirstRefusal config manifest (.reservedSegment page part)

theorem dataRouteCount_pos_iff (manifest : Manifest) :
    0 < manifest.dataRouteCount ↔ ∃ routes, manifest.dataRoutes = some routes ∧ routes ≠ [] := by
  unfold dataRouteCount
  cases manifest.dataRoutes with
  | none => simp
  | some routes => simp [List.length_pos_iff]

theorem withoutDataRoutes_iff (manifest : Manifest) :
    manifest.WithoutDataRoutes ↔ ¬ 0 < manifest.dataRouteCount := by
  unfold WithoutDataRoutes dataRouteCount
  cases manifest.dataRoutes with
  | none => simp
  | some routes => cases routes <;> simp

theorem catchAllPage?_eq_none_iff (keys : RouteConfig) (pages : List String) :
    catchAllPage? keys pages = none ↔ ∀ page ∈ pages, ¬ keys.Marks page := by
  simp only [catchAllPage?, List.find?_eq_none, Text.contains_iff, RouteConfig.Marks]

theorem catchAllPage?_eq_some_iff (keys : RouteConfig) (pages : List String) (page : String) :
    catchAllPage? keys pages = some page ↔
      keys.Marks page ∧ ∃ before after, pages = before ++ page :: after ∧
        ∀ other ∈ before, ¬ keys.Marks other := by
  simp only [catchAllPage?, List.find?_eq_some_iff_append, Text.contains_iff, RouteConfig.Marks,
    Bool.not_eq_true', ← Bool.not_eq_true]

theorem find?_isReserved_eq_none_iff (keys : RouteConfig) (page : String) :
    (Path.parts page).find? keys.isReserved = none ↔ keys.Spares page := by
  simp only [List.find?_eq_none, RouteConfig.isReserved_iff, RouteConfig.Spares]

theorem find?_isReserved_eq_some_iff (keys : RouteConfig) (page part : String) :
    (Path.parts page).find? keys.isReserved = some part ↔
      keys.Reserves part ∧ ∃ front back, Path.parts page = front ++ part :: back ∧
        ∀ other ∈ front, ¬ keys.Reserves other := by
  simp only [List.find?_eq_some_iff_append, RouteConfig.isReserved_iff, Bool.not_eq_true',
    ← Bool.not_eq_true]

theorem reservedPart?_eq_none_iff (keys : RouteConfig) (pages : List String) :
    reservedPart? keys pages = none ↔ ∀ page ∈ pages, keys.Spares page := by
  simp only [reservedPart?, List.findSome?_eq_none_iff, Option.map_eq_none_iff,
    find?_isReserved_eq_none_iff]

theorem reservedPart?_eq_some_iff (keys : RouteConfig) (pages : List String)
    (page part : String) :
    reservedPart? keys pages = some (page, part) ↔
      ∃ before after, pages = before ++ page :: after ∧
        (∀ other ∈ before, keys.Spares other) ∧ keys.Reserves part ∧
        ∃ front back, Path.parts page = front ++ part :: back ∧
          ∀ other ∈ front, ¬ keys.Reserves other := by
  simp only [reservedPart?, List.findSome?_eq_some_iff, Option.map_eq_some_iff,
    Option.map_eq_none_iff, find?_isReserved_eq_none_iff, find?_isReserved_eq_some_iff,
    Prod.mk.injEq]
  constructor
  · rintro ⟨before, found, after, split, ⟨_, reserved, rfl, rfl⟩, earlier⟩
    exact ⟨before, after, split, earlier, reserved⟩
  · rintro ⟨before, after, split, earlier, reserved⟩
    exact ⟨before, page, after, split, ⟨part, reserved, rfl, rfl⟩, earlier⟩

variable {config : Config} {manifest : Manifest}

theorem Admissible.accept_eq_ok (admissible : manifest.Admissible config) :
    manifest.accept config = .ok () := by
  have version := admissible.version
  have dataRoutes := manifest.withoutDataRoutes_iff.mp admissible.dataRoutes
  have unmarked := (catchAllPage?_eq_none_iff _ _).mpr admissible.unmarked
  have unreserved := (reservedPart?_eq_none_iff _ _).mpr admissible.unreserved
  unfold accept
  rw [if_neg (not_not_intro version), if_neg dataRoutes, unmarked, unreserved]

theorem FirstRefusal.accept_eq_error {refusal : Refusal}
    (first : manifest.FirstRefusal config refusal) :
    manifest.accept config = .error refusal := by
  unfold accept
  cases first with
  | version differs => rw [if_pos differs]
  | @dataRoutes routes version given nonempty =>
    have counted := manifest.dataRouteCount_pos_iff.mpr ⟨_, given, nonempty⟩
    have count : manifest.dataRouteCount = routes.length := by
      rw [dataRouteCount, given, Option.getD_some]
    rw [if_neg (not_not_intro version), if_pos counted, count]
  | catchAll version dataRoutes split earlier marked =>
    have uncounted := manifest.withoutDataRoutes_iff.mp dataRoutes
    have found := (catchAllPage?_eq_some_iff _ _ _).mpr ⟨marked, _, _, split, earlier⟩
    rw [if_neg (not_not_intro version), if_neg uncounted, found]
  | reservedSegment version dataRoutes unmarked split earlier parts first reserved =>
    have uncounted := manifest.withoutDataRoutes_iff.mp dataRoutes
    have passed := (catchAllPage?_eq_none_iff _ _).mpr unmarked
    have found := (reservedPart?_eq_some_iff _ _ _ _).mpr
      ⟨_, _, split, earlier, reserved, _, _, parts, first⟩
    rw [if_neg (not_not_intro version), if_neg uncounted, passed, found]

/-- If some page is marked, a first one is, and it is refused before any part is looked at. -/
theorem exists_catchAll (version : manifest.version = config.manifest.supportedVersion)
    (dataRoutes : manifest.WithoutDataRoutes)
    (marked : ∃ page ∈ manifest.dynamicPages, config.routes.Marks page) :
    ∃ page, manifest.FirstRefusal config (.catchAll page) := by
  cases found : catchAllPage? config.routes manifest.dynamicPages with
  | none =>
    obtain ⟨page, member, marks⟩ := marked
    exact absurd marks ((catchAllPage?_eq_none_iff _ _).mp found page member)
  | some page =>
    obtain ⟨marks, _, _, split, earlier⟩ := (catchAllPage?_eq_some_iff _ _ _).mp found
    exact ⟨page, .catchAll version dataRoutes split earlier marks⟩

theorem exists_reservedSegment (version : manifest.version = config.manifest.supportedVersion)
    (dataRoutes : manifest.WithoutDataRoutes)
    (unmarked : ∀ page ∈ manifest.dynamicPages, ¬ config.routes.Marks page)
    (reserved : ∃ page ∈ manifest.dynamicPages, ¬ config.routes.Spares page) :
    ∃ page part, manifest.FirstRefusal config (.reservedSegment page part) := by
  cases found : reservedPart? config.routes manifest.dynamicPages with
  | none =>
    obtain ⟨page, member, taken⟩ := reserved
    exact absurd ((reservedPart?_eq_none_iff _ _).mp found page member) taken
  | some entry =>
    obtain ⟨_, _, split, earlier, reserved, _, _, parts, first⟩ :=
      (reservedPart?_eq_some_iff _ _ entry.1 entry.2).mp found
    exact ⟨entry.1, entry.2,
      .reservedSegment version dataRoutes unmarked split earlier parts first reserved⟩

theorem admissible_or_firstRefusal (config : Config) (manifest : Manifest) :
    manifest.Admissible config ∨ ∃ refusal, manifest.FirstRefusal config refusal := by
  by_cases version : manifest.version = config.manifest.supportedVersion
  case neg => exact Or.inr ⟨_, .version version⟩
  by_cases dataRoutes : manifest.WithoutDataRoutes
  case neg =>
    rw [withoutDataRoutes_iff, Classical.not_not, dataRouteCount_pos_iff] at dataRoutes
    obtain ⟨routes, given, nonempty⟩ := dataRoutes
    exact Or.inr ⟨_, .dataRoutes version given nonempty⟩
  by_cases marked : ∃ page ∈ manifest.dynamicPages, config.routes.Marks page
  case pos =>
    obtain ⟨page, first⟩ := exists_catchAll version dataRoutes marked
    exact Or.inr ⟨_, first⟩
  have unmarked : ∀ page ∈ manifest.dynamicPages, ¬ config.routes.Marks page :=
    fun page member marks => marked ⟨page, member, marks⟩
  by_cases reserved : ∃ page ∈ manifest.dynamicPages, ¬ config.routes.Spares page
  case pos =>
    obtain ⟨page, part, first⟩ := exists_reservedSegment version dataRoutes unmarked reserved
    exact Or.inr ⟨_, first⟩
  have unreserved : ∀ page ∈ manifest.dynamicPages, config.routes.Spares page :=
    fun page member => Classical.not_not.mp fun taken => reserved ⟨page, member, taken⟩
  exact Or.inl ⟨version, dataRoutes, unmarked, unreserved⟩

theorem accept_eq_ok_iff : manifest.accept config = .ok () ↔ manifest.Admissible config := by
  constructor
  · intro accepted
    rcases admissible_or_firstRefusal config manifest with admissible | ⟨refusal, first⟩
    · exact admissible
    · rw [first.accept_eq_error] at accepted
      cases accepted
  · exact Admissible.accept_eq_ok

theorem accept_eq_error_iff (refusal : Refusal) :
    manifest.accept config = .error refusal ↔ manifest.FirstRefusal config refusal := by
  constructor
  · intro refused
    rcases admissible_or_firstRefusal config manifest with admissible | ⟨other, first⟩
    · rw [admissible.accept_eq_ok] at refused
      cases refused
    · rw [first.accept_eq_error] at refused
      cases refused
      exact first
  · exact FirstRefusal.accept_eq_error

end Manifest

end EdgeRoutes
