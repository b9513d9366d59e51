import EdgeRoutes.Config.Validation

/-! What a configuration without violations is. -/

set_option autoImplicit false

namespace EdgeRoutes

/-- The keys of the embedded tree differ from each other and from the prototype key. -/
structure RouteConfig.Apart (keys : RouteConfig) : Prop where
  wildcard_ne_page : keys.wildcardKey ≠ keys.pageKey
  wildcard_ne_prototype : keys.wildcardKey ≠ prototypeKey
  page_ne_prototype : keys.pageKey ≠ prototypeKey

structure Config.Valid (config : Config) : Prop where
  nonempty : ∀ field ∈ config.mustNotBeEmpty, field.2 ≠ ""
  apart : config.routes.Apart
  absolute : ∀ field ∈ config.mustBeAbsolute, Path.isAbsolute field.2 = true
  budget : 0 < config.matcher.maxProgramBytes

theorem Config.violations_eq_nil_iff (config : Config) :
    config.violations = [] ↔ config.Valid := by
  simp only [violations, List.append_eq_nil_iff, List.map_eq_nil_iff, List.filter_eq_nil_iff,
    ite_eq_right_iff, List.cons_ne_nil, imp_false, Bool.not_eq_true, Bool.not_eq_true',
    Bool.not_eq_false, String.isEmpty_eq_false_iff, beq_eq_false_iff_ne]
  constructor
  · rintro ⟨⟨⟨⟨nonempty, clash⟩, prototype⟩, absolute⟩, budget⟩
    have wildcard :=
      nonempty ("routes.wildcard_key", config.routes.wildcardKey) (by simp [mustNotBeEmpty])
    exact {
      nonempty := nonempty
      apart := {
        wildcard_ne_page := fun same => clash ⟨wildcard, same⟩
        wildcard_ne_prototype :=
          prototype ("routes.wildcard_key", config.routes.wildcardKey) (by simp [treeKeys])
        page_ne_prototype :=
          prototype ("routes.page_key", config.routes.pageKey) (by simp [treeKeys]) }
      absolute := absolute
      budget := Nat.pos_of_ne_zero budget }
  · intro valid
    refine ⟨⟨⟨⟨valid.nonempty, fun clash => valid.apart.wildcard_ne_page clash.2⟩, ?_⟩,
      valid.absolute⟩, Nat.ne_of_gt valid.budget⟩
    intro field member
    simp only [treeKeys, List.mem_cons, List.not_mem_nil, or_false] at member
    rcases member with rfl | rfl
    · exact valid.apart.wildcard_ne_prototype
    · exact valid.apart.page_ne_prototype

end EdgeRoutes
