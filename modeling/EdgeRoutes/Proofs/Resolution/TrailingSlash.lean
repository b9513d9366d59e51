import EdgeRoutes.Proofs.Resolution.Steps

/-! Paths that differ by a slash at the end.

The tests for files look at the path as it is requested, all others at the path without its
slash. A slash at the end makes no file of a path and hides no dot that was not there, so the two
paths part only where the slash completes the prefix of internal files.
-/

set_option autoImplicit false

namespace EdgeRoutes

theorem Path.prefix_concat_slash_iff (start path : String) :
    start.toList <+: (path ++ "/").toList ↔
      start = path ++ "/" ∨ start.toList <+: path.toList := by
  have slash : (path ++ "/").toList = path.toList ++ ['/'] := String.toList_append
  rw [← String.toList_inj, slash, List.prefix_concat_iff]

theorem MatcherConfig.isFile_of_plain (matcher : MatcherConfig) {path : String}
    (plain : ∀ last ∈ (Path.parts path).getLast?, '.' ∉ last.toList) :
    matcher.IsFile path ↔ matcher.internalPrefix.toList <+: path.toList := by
  refine or_iff_left ?_
  rintro ⟨last, isLast, dot⟩
  exact plain last isLast dot

namespace RouteTable

/-- A path without a slash at the end and without an extension resolves as it does with a slash,
except where the two make up the prefix of internal files: then the path with the slash is an
asset, and the path without it is none. -/
theorem resolve_concat_slash_iff (table : RouteTable) (matcher : MatcherConfig) (path : String)
    (bare : ¬ ['/'] <:+ path.toList)
    (plain : ∀ last ∈ (Path.parts path).getLast?, '.' ∉ last.toList) :
    (table.resolve matcher (path ++ "/") = table.resolve matcher path ↔
      matcher.internalPrefix ≠ path ++ "/") ∧
    (matcher.internalPrefix = path ++ "/" →
      table.resolve matcher (path ++ "/") = .asset ∧ table.resolve matcher path ≠ .asset) := by
  have slashed : matcher.IsFile (path ++ "/") ↔
      matcher.internalPrefix = path ++ "/" ∨ matcher.IsFile path := by
    rw [matcher.isFile_concat_slash, Path.prefix_concat_slash_iff,
      matcher.isFile_of_plain plain]
  have exception (completed : matcher.internalPrefix = path ++ "/") :
      table.resolve matcher (path ++ "/") = .asset ∧ table.resolve matcher path ≠ .asset := by
    rw [resolve_eq_asset_iff, ne_eq, resolve_eq_asset_iff, matcher.isFile_of_plain plain]
    refine ⟨slashed.mpr (Or.inl completed), ?_⟩
    -- The prefix is longer than the path.
    intro inside
    have lengths := inside.length_le
    rw [completed, String.toList_append, List.length_append] at lengths
    exact absurd lengths (by simp)
  refine ⟨⟨?_, ?_⟩, exception⟩
  · intro same completed
    obtain ⟨asset, noAsset⟩ := exception completed
    exact noAsset (same.symm.trans asset)
  · intro apart
    have files : matcher.IsFile (path ++ "/") ↔ matcher.IsFile path := by
      rw [slashed, or_iff_right apart]
    rw [resolve_eq, resolve_eq, Path.dropTrailingSlash_concat_slash,
      Path.dropTrailingSlash_eq_self_iff.mpr bare]
    simp only [files]

/-- A static page with and without the slash, and the same where the slash makes it internal. -/
theorem resolve_concat_slash_about :
    let table : RouteTable := { staticRoutes := ["/about"] }
    ¬ ['/'] <:+ "/about".toList ∧ (∀ last ∈ (Path.parts "/about").getLast?, '.' ∉ last.toList) ∧
      table.resolve {} "/about/" = table.resolve {} "/about" ∧
      table.resolve { internalPrefix := "/about/" } "/about/" = .asset ∧
      table.resolve { internalPrefix := "/about/" } "/about" ≠ .asset := by
  intro table
  have bare : ¬ ['/'] <:+ "/about".toList := by decide
  have plain : ∀ last ∈ (Path.parts "/about").getLast?, '.' ∉ last.toList := by decide
  have same := (resolve_concat_slash_iff table {} "/about" bare plain).1
  have exception :=
    (resolve_concat_slash_iff table { internalPrefix := "/about/" } "/about" bare plain).2
  exact ⟨bare, plain, same.mpr (by decide), exception rfl⟩

end RouteTable

end EdgeRoutes
