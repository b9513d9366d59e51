import EdgeRoutes.Proofs.Path
import EdgeRoutes.Resolution
import EdgeRoutes.Text.Basic

/-! Which step decides a path.

The tests of the steps are restated as relations between texts; a path that passes all of
them is looked up among the dynamic templates.
-/

set_option autoImplicit false

namespace EdgeRoutes

/-- The path of a stored file: it is internal, or its last part has a dot. -/
def MatcherConfig.IsFile (matcher : MatcherConfig) (path : String) : Prop :=
  matcher.internalPrefix.toList <+: path.toList ∨
    ∃ last ∈ (Path.parts path).getLast?, '.' ∈ last.toList

theorem MatcherConfig.isFile_iff (matcher : MatcherConfig) (path : String) :
    matcher.IsFile path ↔
      (Text.startsWith path matcher.internalPrefix || Path.hasExtension path) = true := by
  rw [Bool.or_eq_true, Text.startsWith_iff, Path.hasExtension_iff]
  rfl

instance (matcher : MatcherConfig) (path : String) : Decidable (matcher.IsFile path) :=
  decidable_of_iff _ (matcher.isFile_iff path).symm

theorem MatcherConfig.isFile_concat_slash (matcher : MatcherConfig) (path : String) :
    matcher.IsFile (path ++ "/") ↔ matcher.internalPrefix.toList <+: (path ++ "/").toList := by
  unfold IsFile
  rw [Path.parts_concat_slash, List.getLast?_concat]
  simp

theorem RouteTable.lookUp_cases (table : RouteTable) (matcher : MatcherConfig) (path : String) :
    table.lookUp matcher path = .noMatch ∨
      ∃ page, table.lookUp matcher path = .dynamic page (page ++ matcher.pageSuffix) := by
  unfold lookUp
  split
  · exact Or.inl rfl
  · split
    · exact Or.inr ⟨_, rfl⟩
    · exact Or.inl rfl

/-- The steps in their order. -/
theorem RouteTable.resolve_eq (table : RouteTable) (matcher : MatcherConfig) (path : String) :
    table.resolve matcher path =
      if matcher.IsFile path then .asset
      else if matcher.pageSuffix.toList <:+ (Path.dropTrailingSlash path).toList then
        .alreadyResolved
      else if Path.dropTrailingSlash path = "" then .root matcher.rootPage
      else if Path.dropTrailingSlash path ∈ table.staticRoutes then
        .static (Path.dropTrailingSlash path ++ matcher.pageSuffix)
      else table.lookUp matcher (Path.dropTrailingSlash path) := by
  simp only [resolve, isStatic, matcher.isFile_iff, ← Text.endsWith_iff, String.isEmpty_iff,
    List.contains_iff_mem]

theorem RouteTable.resolve_eq_asset_iff (table : RouteTable) (matcher : MatcherConfig)
    (path : String) : table.resolve matcher path = .asset ↔ matcher.IsFile path := by
  rw [resolve_eq]
  split
  case isTrue file => simp [file]
  case isFalse noFile =>
    rw [iff_false_right noFile]
    split
    · simp
    split
    · simp
    split
    · simp
    rcases table.lookUp_cases matcher (Path.dropTrailingSlash path) with none | ⟨page, found⟩
    · simp [none]
    · simp [found]

/-- No step before the dynamic templates decides the path. -/
structure Undecided (matcher : MatcherConfig) (staticRoutes : List String) (path : String) :
    Prop where
  outside : ¬ matcher.internalPrefix.toList <+: path.toList
  plain : ∀ last ∈ (Path.parts path).getLast?, '.' ∉ last.toList
  unresolved : ¬ matcher.pageSuffix.toList <:+ (Path.dropTrailingSlash path).toList
  nonempty : Path.dropTrailingSlash path ≠ ""
  dynamic : Path.dropTrailingSlash path ∉ staticRoutes

theorem RouteTable.resolve_of_undecided {table : RouteTable} {matcher : MatcherConfig}
    {path : String} (undecided : Undecided matcher table.staticRoutes path) :
    table.resolve matcher path = table.lookUp matcher (Path.dropTrailingSlash path) := by
  have noFile : ¬ matcher.IsFile path := by
    rintro (inside | ⟨last, isLast, dot⟩)
    · exact undecided.outside inside
    · exact undecided.plain last isLast dot
  rw [resolve_eq, if_neg noFile, if_neg undecided.unresolved, if_neg undecided.nonempty,
    if_neg undecided.dynamic]

theorem RouteTable.target?_lookUp (table : RouteTable) (matcher : MatcherConfig)
    (path : String) :
    (table.lookUp matcher path).target? =
      if Path.segments path = [] then none
      else ((table.root.walk? (Path.segments path)).bind (·.page)).map
        (· ++ matcher.pageSuffix) := by
  unfold lookUp
  cases Path.segments path with
  | nil => rfl
  | cons text rest =>
    rw [if_neg (List.cons_ne_nil text rest)]
    cases found : (table.root.walk? (text :: rest)).bind (·.page) with
    | none =>
      simp only [found]
      rfl
    | some page =>
      simp only [found]
      rfl

section

variable {left right : RouteTable} {matcher : MatcherConfig} {path : String}

theorem RouteTable.lookUp_congr (same : (left.root.walk? (Path.segments path)).bind (·.page) =
      (right.root.walk? (Path.segments path)).bind (·.page)) :
    left.lookUp matcher path = right.lookUp matcher path := by
  unfold lookUp
  cases requested : Path.segments path with
  | nil => rfl
  | cons text rest =>
    rw [requested] at same
    simp only [same]

theorem RouteTable.resolve_congr (statics : left.staticRoutes = right.staticRoutes)
    (looked : left.lookUp matcher (Path.dropTrailingSlash path) =
      right.lookUp matcher (Path.dropTrailingSlash path)) :
    left.resolve matcher path = right.resolve matcher path := by
  rw [resolve_eq, resolve_eq, statics, looked]

end

end EdgeRoutes
