import EdgeRoutes.Config.Validation
import EdgeRoutes.Proofs.Config.Settings

/-! The rules of a configuration, each by the settings it is about.

The list of violations has one entry for each rule that is broken, and no other.
-/

set_option autoImplicit false

namespace EdgeRoutes.Config

def Key.path (key : Key) : String := key.home.name ++ "." ++ key.name

def Key.required : List Key :=
  [fileName, wildcardKey, pageKey, catchAllMarker, pageSuffix, internalPrefix]

def Key.reserved : List Key := [wildcardKey, pageKey]

def Key.absolute : List Key := [rootPage, internalPrefix]

/-- The configuration breaks a rule, reported as the violation. -/
inductive Breaks (config : Config) : Violation → Prop where
  | empty {key : Key} (required : key ∈ Key.required) (empty : config.get key = .text "") :
      Breaks config (.empty key.path)
  | clash {chars : String} (nonempty : chars ≠ "")
      (wildcard : config.get .wildcardKey = .text chars)
      (page : config.get .pageKey = .text chars) : Breaks config (.reservedKeyClash chars)
  | prototype {key : Key} (reserved : key ∈ Key.reserved)
      (prototype : config.get key = .text "__proto__") : Breaks config (.prototypeKey key.path)
  | relative {key : Key} {chars : String} (absolute : key ∈ Key.absolute)
      (value : config.get key = .text chars) (relative : chars.toList.head? ≠ some '/') :
      Breaks config (.notAbsolute key.path chars)
  | zeroBudget (zero : config.get .maxProgramBytes = .natural 0) : Breaks config .zeroBudget

def field? (config : Config) (key : Key) : Option (String × String) :=
  match config.get key with
  | .text chars => some (key.path, chars)
  | _ => none

theorem field?_eq_some_iff {config : Config} {key : Key} {name chars : String} :
    config.field? key = some (name, chars) ↔ key.path = name ∧ config.get key = .text chars := by
  unfold field?
  cases config.get key <;> simp

theorem mustNotBeEmpty_eq (config : Config) :
    config.mustNotBeEmpty = Key.required.filterMap config.field? := by
  simp [mustNotBeEmpty, Key.required, field?, get, Key.path, Key.home, Key.name, Section.name]

theorem treeKeys_eq (config : Config) :
    config.treeKeys = Key.reserved.filterMap config.field? := by
  simp [treeKeys, Key.reserved, field?, get, Key.path, Key.home, Key.name, Section.name]

theorem mustBeAbsolute_eq (config : Config) :
    config.mustBeAbsolute = Key.absolute.filterMap config.field? := by
  simp [mustBeAbsolute, Key.absolute, field?, get, Key.path, Key.home, Key.name, Section.name]

/-- The list of violations holds just the rules that are broken. -/
theorem mem_violations_iff (config : Config) (violation : Violation) :
    violation ∈ config.violations ↔ config.Breaks violation := by
  simp only [violations, mustNotBeEmpty_eq, treeKeys_eq, mustBeAbsolute_eq, List.mem_append,
    List.mem_map, List.mem_filter, List.mem_filterMap, List.mem_ite_nil_right, List.mem_singleton]
  constructor
  -- The violations are a sum of five lists, and each list is one constructor of `Breaks`.
  · rintro ((((⟨⟨name, chars⟩, ⟨⟨key, required, field⟩, empty⟩, rfl⟩ | ⟨⟨nonempty, same⟩, rfl⟩) |
      ⟨⟨name, chars⟩, ⟨⟨key, reserved, field⟩, prototype⟩, rfl⟩) |
      ⟨⟨name, chars⟩, ⟨⟨key, absolute, field⟩, relative⟩, rfl⟩) | ⟨zero, rfl⟩)
    · obtain ⟨rfl, value⟩ := field?_eq_some_iff.mp field
      obtain rfl : chars = "" := by simpa using empty
      exact .empty required value
    · exact .clash nonempty rfl (congrArg Value.text same.symm)
    · obtain ⟨rfl, value⟩ := field?_eq_some_iff.mp field
      obtain rfl : chars = "__proto__" := by simpa [EdgeRoutes.prototypeKey] using prototype
      exact .prototype reserved value
    · obtain ⟨rfl, value⟩ := field?_eq_some_iff.mp field
      exact .relative absolute value (by simpa [Path.isAbsolute] using relative)
    · exact .zeroBudget (congrArg Value.natural zero)
  · rintro (⟨required, empty⟩ | ⟨nonempty, wildcard, page⟩ | ⟨reserved, prototype⟩ |
      ⟨absolute, value, relative⟩ | ⟨zero⟩)
    · have field := field?_eq_some_iff.mpr ⟨rfl, empty⟩
      exact .inl (.inl (.inl (.inl ⟨_, ⟨⟨_, required, field⟩, by simp⟩, rfl⟩)))
    · cases wildcard
      exact .inl (.inl (.inl (.inr ⟨⟨nonempty, (Value.text.inj page).symm⟩, rfl⟩)))
    · have field := field?_eq_some_iff.mpr ⟨rfl, prototype⟩
      exact .inl (.inl (.inr ⟨_, ⟨⟨_, reserved, field⟩, by simp [EdgeRoutes.prototypeKey]⟩, rfl⟩))
    · have field := field?_eq_some_iff.mpr ⟨rfl, value⟩
      exact .inl (.inr ⟨_, ⟨⟨_, absolute, field⟩, by simpa [Path.isAbsolute] using relative⟩, rfl⟩)
    · exact .inr ⟨Value.natural.inj zero, rfl⟩

theorem violations_nodup (config : Config) : config.violations.Nodup := by
  have empty : (config.mustNotBeEmpty.map fun field => Violation.empty field.1).Nodup := by
    simp [mustNotBeEmpty]
  have prototype : (config.treeKeys.map fun field => Violation.prototypeKey field.1).Nodup := by
    simp [treeKeys]
  have absolute : (config.mustBeAbsolute.map fun field =>
      Violation.notAbsolute field.1 field.2).Nodup := by
    simp [mustBeAbsolute]
  have single (condition : Prop) [Decidable condition] (violation : Violation) :
      (if condition then [violation] else []).Nodup := by
    split <;> simp
  unfold violations
  simp only [List.nodup_append, List.mem_append, List.mem_map, List.mem_ite_nil_right,
    List.mem_singleton]
  refine ⟨⟨⟨⟨empty.sublist (List.filter_sublist.map _), single _ _, ?_⟩,
    prototype.sublist (List.filter_sublist.map _), ?_⟩,
    absolute.sublist (List.filter_sublist.map _), ?_⟩, single _ _, ?_⟩
  -- violations of two rules are never the same
  all_goals grind

end EdgeRoutes.Config
