import EdgeRoutes.Proofs.Config.Validation
import EdgeRoutes.Proofs.Resolution.Steps

/-! The targets of rewritten paths.

At most two paths are rewritten to a static page: its own, and this with one slash behind it.
A target that ends in the suffix of pages is left alone when it is requested in turn, so
rewriting twice differs from rewriting once only where the root page itself is rewritten.
-/

set_option autoImplicit false

namespace EdgeRoutes

namespace RouteTable

theorem resolve_eq_static_iff (table : RouteTable) (matcher : MatcherConfig)
    (path target : String) :
    table.resolve matcher path = .static target ↔
      ¬ matcher.IsFile path ∧
      ¬ matcher.pageSuffix.toList <:+ (Path.dropTrailingSlash path).toList ∧
      Path.dropTrailingSlash path ≠ "" ∧ Path.dropTrailingSlash path ∈ table.staticRoutes ∧
      target = Path.dropTrailingSlash path ++ matcher.pageSuffix := by
  rw [resolve_eq]
  split
  case isTrue file => simp [file]
  case isFalse noFile =>
    split
    case isTrue resolved => simp [resolved]
    case isFalse unresolved =>
      split
      case isTrue empty => simp [empty]
      case isFalse nonempty =>
        split
        case isTrue listed => simp [noFile, unresolved, nonempty, listed, eq_comm]
        case isFalse unlisted =>
          rcases table.lookUp_cases matcher (Path.dropTrailingSlash path) with none | ⟨page, found⟩
          · simp [none, unlisted]
          · simp [found, unlisted]

theorem target?_cases (table : RouteTable) (matcher : MatcherConfig) (path : String) :
    (table.resolve matcher path).target? = none ∨
      table.resolve matcher path = .root matcher.rootPage ∨
      ∃ page, (table.resolve matcher path).target? = some (page ++ matcher.pageSuffix) := by
  rw [resolve_eq]
  split
  · exact Or.inl rfl
  split
  · exact Or.inl rfl
  split
  · exact Or.inr (Or.inl rfl)
  split
  · exact Or.inr (Or.inr ⟨_, rfl⟩)
  rcases table.lookUp_cases matcher (Path.dropTrailingSlash path) with none | ⟨page, found⟩
  · rw [none]
    exact Or.inl rfl
  · rw [found]
    exact Or.inr (Or.inr ⟨page, rfl⟩)

/-- Under any configuration, no path but the page's own and this with a slash behind it is
rewritten to a static page, and each of the two exactly if no other step decides it. -/
theorem static_requests (table : RouteTable) (matcher : MatcherConfig) (page : String)
    (listed : page ∈ table.staticRoutes) :
    (∀ path, table.resolve matcher path = .static (page ++ matcher.pageSuffix) →
      path = page ∨ path = page ++ "/") ∧
    (table.resolve matcher (page ++ "/") = .static (page ++ matcher.pageSuffix) ↔
      page ≠ "" ∧ ¬ matcher.pageSuffix.toList <:+ page.toList ∧
        ¬ matcher.internalPrefix.toList <+: (page ++ "/").toList) ∧
    (table.resolve matcher page = .static (page ++ matcher.pageSuffix) ↔
      page ≠ "" ∧ ¬ matcher.pageSuffix.toList <:+ page.toList ∧
        ¬ matcher.internalPrefix.toList <+: page.toList ∧ ¬ ['/'] <:+ page.toList ∧
        ∀ last ∈ (Path.parts page).getLast?, '.' ∉ last.toList) := by
  refine ⟨?_, ?_, ?_⟩
  · intro path resolved
    obtain ⟨_, _, _, _, same⟩ := (resolve_eq_static_iff table matcher path _).mp resolved
    have dropped := String.append_left_inj _ |>.mp same
    rcases Path.dropTrailingSlash_cases path with slash | ⟨kept, _⟩
    · exact Or.inr (by rw [dropped]; exact slash)
    · exact Or.inl (by rw [dropped, kept])
  · rw [resolve_eq_static_iff, Path.dropTrailingSlash_concat_slash, matcher.isFile_concat_slash]
    constructor
    · rintro ⟨outside, unresolved, nonempty, _, _⟩
      exact ⟨nonempty, unresolved, outside⟩
    · rintro ⟨nonempty, unresolved, outside⟩
      exact ⟨outside, unresolved, nonempty, listed, rfl⟩
  · have noFile : ¬ matcher.IsFile page ↔ ¬ matcher.internalPrefix.toList <+: page.toList ∧
        ∀ last ∈ (Path.parts page).getLast?, '.' ∉ last.toList := by
      simp only [MatcherConfig.IsFile, not_or, not_exists, not_and]
    rw [resolve_eq_static_iff, noFile]
    constructor
    · rintro ⟨⟨outside, plain⟩, unresolved, nonempty, _, same⟩
      -- The target gives back the page, so the page had no slash to drop.
      have kept : Path.dropTrailingSlash page = page := (String.append_left_inj _ |>.mp same).symm
      rw [kept] at unresolved nonempty
      exact ⟨nonempty, unresolved, outside, Path.dropTrailingSlash_eq_self_iff.mp kept, plain⟩
    · rintro ⟨nonempty, unresolved, outside, bare, plain⟩
      rw [Path.dropTrailingSlash_eq_self_iff.mpr bare]
      exact ⟨⟨outside, plain⟩, unresolved, nonempty, listed, rfl⟩

theorem static_requests_dotted :
    let table : RouteTable := { staticRoutes := ["/about", "/v1.2"] }
    "/v1.2" ∈ table.staticRoutes ∧ table.resolve {} "/v1.2/" = .static "/v1.2.html" ∧
      ∀ path, table.resolve {} path = .static "/v1.2.html" → path = "/v1.2/" := by
  intro table
  have listed : "/v1.2" ∈ table.staticRoutes := by decide
  obtain ⟨only, slash, bare⟩ := static_requests table {} "/v1.2" listed
  refine ⟨listed, slash.mpr (by decide), ?_⟩
  intro path resolved
  rcases only path resolved with rfl | rfl
  · exact absurd (bare.mp resolved) (by decide)
  · rfl

section

variable {matcher : MatcherConfig}

/-- A path with the suffix is left alone if the suffix does not end in a slash. -/
theorem resolve_suffixed (table : RouteTable) (nonempty : matcher.pageSuffix ≠ "")
    (bare : Path.endsInSlash matcher.pageSuffix = false) (page : String) :
    table.resolve matcher (page ++ matcher.pageSuffix) = .asset ∨
      table.resolve matcher (page ++ matcher.pageSuffix) = .alreadyResolved := by
  have kept : Path.dropTrailingSlash (page ++ matcher.pageSuffix) = page ++ matcher.pageSuffix := by
    rw [Path.dropTrailingSlash_eq_self_iff, ← Path.endsInSlash_iff,
      Path.endsInSlash_append page nonempty, bare]
    exact Bool.false_ne_true
  have ends : matcher.pageSuffix.toList <:+ (page ++ matcher.pageSuffix).toList := by
    rw [String.toList_append]
    exact List.suffix_append _ _
  rw [resolve_eq, kept, if_pos ends]
  split
  · exact Or.inl rfl
  · exact Or.inr rfl

theorem rewrite_of_left_alone {table : RouteTable} {path : String}
    (alone : (table.resolve matcher path).target? = none) : table.rewrite matcher path = path := by
  unfold rewrite
  rw [alone]
  rfl

theorem rewrite_empty (table : RouteTable) (inside : matcher.internalPrefix ≠ "")
    (nonempty : matcher.pageSuffix ≠ "") : table.rewrite matcher "" = matcher.rootPage := by
  have noFile : ¬ matcher.IsFile "" := by
    rw [MatcherConfig.IsFile, not_or]
    exact ⟨by simpa using inside, by decide⟩
  have unresolved : ¬ matcher.pageSuffix.toList <:+ (Path.dropTrailingSlash "").toList := by
    simpa [Path.dropTrailingSlash_toList] using nonempty
  unfold rewrite
  rw [resolve_eq, if_neg noFile, if_neg unresolved, if_pos (by decide)]
  rfl

end

/-- Static and dynamic targets are left alone when they are requested; so rewriting is idempotent
exactly if it leaves the root page alone. -/
theorem rewrite_idempotent_iff (config : Config) (valid : config.violations = [])
    (bare : Path.endsInSlash config.matcher.pageSuffix = false) (table : RouteTable) :
    (∀ path target,
      table.resolve config.matcher path = .static target ∨
        (∃ page, table.resolve config.matcher path = .dynamic page target) →
      table.resolve config.matcher target = .asset ∨
        table.resolve config.matcher target = .alreadyResolved) ∧
    ((∀ path, table.rewrite config.matcher (table.rewrite config.matcher path) =
        table.rewrite config.matcher path) ↔
      table.rewrite config.matcher config.matcher.rootPage = config.matcher.rootPage) := by
  have fields := (config.violations_eq_nil_iff.mp valid).nonempty
  have nonempty : config.matcher.pageSuffix ≠ "" :=
    fields ("matcher.page_suffix", config.matcher.pageSuffix) (by simp [Config.mustNotBeEmpty])
  have inside : config.matcher.internalPrefix ≠ "" :=
    fields ("matcher.internal_prefix", config.matcher.internalPrefix)
      (by simp [Config.mustNotBeEmpty])
  have suffixed := resolve_suffixed table nonempty bare
  refine ⟨?_, ?_, ?_⟩
  · intro path target resolved
    have reached : (table.resolve config.matcher path).target? = some target := by
      rcases resolved with static | ⟨page, dynamic⟩
      · rw [static]
        rfl
      · rw [dynamic]
        rfl
    rcases table.target?_cases config.matcher path with none | root | ⟨page, some⟩
    · rw [none] at reached
      cases reached
    · rw [root] at resolved
      simp at resolved
    · cases some.symm.trans reached
      exact suffixed page
  · -- The empty path becomes the root page, which has to stay what it is.
    intro idempotent
    have again := idempotent ""
    rwa [rewrite_empty table inside nonempty] at again
  · intro fixed path
    rcases table.target?_cases config.matcher path with none | root | ⟨page, some⟩
    · rw [rewrite_of_left_alone none, rewrite_of_left_alone none]
    · have once : table.rewrite config.matcher path = config.matcher.rootPage := by
        rw [rewrite, root]
        rfl
      rw [once, fixed]
    · have once : table.rewrite config.matcher path = page ++ config.matcher.pageSuffix := by
        rw [rewrite, some]
        rfl
      rw [once]
      apply rewrite_of_left_alone
      rcases suffixed page with asset | resolved
      · rw [asset]
        rfl
      · rw [resolved]
        rfl

/-- A root page that is a static page itself is rewritten once more. -/
theorem rewrite_idempotent_home :
    let table : RouteTable := { staticRoutes := ["/home"] }
    let config : Config := { matcher := { rootPage := "/home" } }
    config.violations = [] ∧ Path.endsInSlash config.matcher.pageSuffix = false ∧
      (∀ path, table.rewrite {} (table.rewrite {} path) = table.rewrite {} path) ∧
      ¬ ∀ path, table.rewrite config.matcher (table.rewrite config.matcher path) =
        table.rewrite config.matcher path := by
  intro table config
  have valid : config.violations = [] := by decide
  have bare : Path.endsInSlash config.matcher.pageSuffix = false := by decide
  refine ⟨valid, bare, ?_, ?_⟩
  · exact (rewrite_idempotent_iff {} (by decide) (by decide) table).2.mpr (by decide)
  · exact mt (rewrite_idempotent_iff config valid bare table).2.mp (by decide)

end RouteTable

end EdgeRoutes
