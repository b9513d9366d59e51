import EdgeRoutes.Proofs.Json.Members
import EdgeRoutes.Proofs.Manifest.Admission
import EdgeRoutes.Proofs.Table.Freezing
import EdgeRoutes.Proofs.Trie.Pages
import EdgeRoutes.Table.Json

/-! What the object of a table node holds under a key.

Literals, wildcard and page share one space of keys. They can be told apart if no literal is
a reserved key and no literal stands twice on one level. The trie of admitted pages is so at
every node: a literal of the trie is a part of some page.
-/

set_option autoImplicit false

namespace EdgeRoutes

namespace Choices

def names : Choices → List String
  | .none => []
  | .wildcard _ _ => []
  | .literal name _ _ others => name :: others.names

theorem literal?_isSome_iff (choices : Choices) (name : String) :
    (choices.literal? name).isSome = true ↔ name ∈ choices.names := by
  induction choices with
  | none => simp [literal?, names]
  | wildcard => simp [literal?, names]
  | literal present page below others _ ih =>
    by_cases same : present = name
    · simp [literal?, names, same]
    · simp [literal?, names, same, ih, Ne.symm same]

theorem literal?_eq_none {choices : Choices} {name : String} (absent : name ∉ choices.names) :
    choices.literal? name = Option.none := by
  rw [← literal?_isSome_iff] at absent
  simpa using absent

variable (keys : RouteConfig)

theorem members_sorted (choices : Choices) {collected : List (String × Json)}
    (sorted : Members.Sorted collected) : Members.Sorted (choices.members keys collected) := by
  induction choices generalizing collected with
  | none => exact sorted
  | wildcard page below => exact Members.insert_sorted _ _ sorted
  | literal name page below others _ ih => exact ih (Members.insert_sorted _ _ sorted)

/-- The child that stands under a key: the wildcard under its own key, else a literal. -/
def under? (choices : Choices) (key : String) : Option TableNode :=
  (if key = keys.wildcardKey then choices.wildcard? else Option.none) <|> choices.literal? key

theorem find?_members {choices : Choices} (distinct : choices.names.Nodup)
    (collected : List (String × Json)) (key : String) :
    Members.find? (choices.members keys collected) key =
      ((choices.under? keys key).map (·.toJson keys) <|> Members.find? collected key) := by
  induction choices generalizing collected with
  | none => simp [members, under?, wildcard?, literal?]
  | wildcard page below =>
    simp only [members, Members.find?_insert, under?, wildcard?, literal?]
    by_cases same : key = keys.wildcardKey
    · simp [same, TableNode.toJson]
    · simp [same, Ne.symm same]
  | literal name page below others _ ih =>
    obtain ⟨fresh, othersDistinct⟩ := List.nodup_cons.mp distinct
    rw [members, ih othersDistinct, Members.find?_insert]
    by_cases same : name = key
    · subst same
      -- No later literal replaces this one; only the wildcard does.
      simp only [under?, wildcard?, literal?, literal?_eq_none fresh, if_true]
      by_cases wild : name = keys.wildcardKey
      · simp [wild]
        cases others.wildcard? <;> rfl
      · simp [wild, TableNode.toJson]
    · simp [under?, wildcard?, literal?, same]

end Choices

namespace TableNode

variable (keys : RouteConfig)

def members (node : TableNode) : List (String × Json) :=
  keys.withPage node.page (node.choices.members keys [])

theorem toJson_eq (node : TableNode) : node.toJson keys = .object (node.members keys) := rfl

theorem members_sorted (node : TableNode) : Members.Sorted (node.members keys) := by
  have below := node.choices.members_sorted keys List.Pairwise.nil
  unfold members RouteConfig.withPage
  cases node.page with
  | none => exact below
  | some page => exact Members.insert_sorted _ _ below

theorem find?_members {node : TableNode} (distinct : node.choices.names.Nodup) (key : String) :
    Members.find? (node.members keys) key =
      ((if key = keys.pageKey then node.page.map .string else none) <|>
        (node.choices.under? keys key).map (·.toJson keys)) := by
  have below : Members.find? (node.choices.members keys []) key =
      (node.choices.under? keys key).map (·.toJson keys) := by
    rw [Choices.find?_members keys distinct]
    simp [Members.find?]
  unfold members RouteConfig.withPage
  cases node.page with
  | none => simpa using below
  | some page =>
    by_cases same : key = keys.pageKey
    · simp [Members.find?_insert, same]
    · simpa [Members.find?_insert, same, Ne.symm same] using below

/-- At no node that a walk reaches does a literal stand twice or is a reserved key. -/
def Separable (node : TableNode) : Prop :=
  ∀ path below, node.walk? path = some below →
    below.choices.names.Nodup ∧ ∀ name ∈ below.choices.names, ¬ keys.Reserves name

variable {keys}

theorem Separable.child {node below : TableNode} (separable : node.Separable keys)
    {text : String} (found : node.child? text = some below) : below.Separable keys := by
  intro path last walked
  apply separable (text :: path) last
  rw [walk?, found]
  exact walked

theorem Separable.walk {node below : TableNode} (separable : node.Separable keys)
    {path : List String} (reached : node.walk? path = some below) : below.Separable keys := by
  induction path generalizing node with
  | nil =>
    cases reached
    exact separable
  | cons text rest ih =>
    rw [walk?, Option.bind_eq_some_iff] at reached
    obtain ⟨next, found, reached⟩ := reached
    exact ih (separable.child found) reached

theorem Separable.literal?_eq_none {node : TableNode} (separable : node.Separable keys)
    {name : String} (reserved : keys.Reserves name) : node.literal? name = none := by
  obtain ⟨_, free⟩ := separable [] node rfl
  exact Choices.literal?_eq_none fun member => free name member reserved

theorem Separable.under?_eq_none {node : TableNode} (separable : node.Separable keys)
    {key : String} (reserved : keys.Reserves key) (differs : key ≠ keys.wildcardKey) :
    node.choices.under? keys key = none := by
  unfold Choices.under?
  rw [if_neg differs]
  exact separable.literal?_eq_none reserved

theorem Separable.under?_wildcardKey {node : TableNode} (separable : node.Separable keys) :
    node.choices.under? keys keys.wildcardKey = node.choices.wildcard? := by
  have literal : node.choices.literal? keys.wildcardKey = none :=
    separable.literal?_eq_none (Or.inl rfl)
  unfold Choices.under?
  rw [if_pos rfl, literal]
  cases node.choices.wildcard? <;> rfl

/-- The child for a segment: what stands under it, or else what stands under the wildcard key.
A segment that is itself the wildcard key finds the wildcard at once. -/
theorem Separable.child?_eq {node : TableNode} (separable : node.Separable keys)
    (text : String) :
    node.child? text =
      (node.choices.under? keys text <|> node.choices.under? keys keys.wildcardKey) := by
  rw [separable.under?_wildcardKey]
  by_cases wild : text = keys.wildcardKey
  · subst wild
    rw [separable.under?_wildcardKey, child?, separable.literal?_eq_none (Or.inl rfl)]
    cases node.choices.wildcard? <;> rfl
  · unfold child? Choices.under?
    rw [if_neg wild]
    rfl

end TableNode

namespace Branches

theorem names_withWildcard (page : Option String) (below choices : Choices) :
    (Choices.withWildcard page below choices).names = choices.names := by
  induction choices with
  | none => rfl
  | wildcard => rfl
  | literal present stored under others _ ih => exact congrArg (present :: ·) ih

theorem mem_names_freeze_iff (branches : Branches) (name : String) :
    name ∈ branches.freeze.names ↔ .literal name ∈ branches.segments := by
  rw [← Choices.literal?_isSome_iff, literal?_freeze, Option.isSome_map, find?_isSome_iff]

theorem names_freeze_nodup {branches : Branches} (ordered : branches.Ordered) :
    branches.freeze.names.Nodup := by
  induction branches with
  | none => exact List.nodup_nil
  | branch segment page below others _ ih =>
    obtain ⟨after, _, othersOrdered⟩ := ordered
    cases segment with
    | wildcard =>
      rw [freeze, names_withWildcard]
      exact ih othersOrdered
    | literal name =>
      refine List.nodup_cons.mpr ⟨?_, ih othersOrdered⟩
      rw [mem_names_freeze_iff]
      exact fun member => Segment.Before.irrefl _ (after _ member)

end Branches

theorem Segment.mem_parts_of_literal {page name : String}
    (member : .literal name ∈ Segment.ofPage page) : name ∈ Path.parts page :=
  (List.mem_filter.mp (mem_segments_of_literal member)).1

theorem RouteTrie.Holds.unreserved {trie : RouteTrie} {pages : List String} {keys : RouteConfig}
    (holds : trie.Holds pages) (spared : ∀ page ∈ pages, keys.Spares page)
    {path : List Segment} {name : String}
    (reached : (trie.root.descend? (path ++ [.literal name])).isSome = true) :
    ¬ keys.Reserves name := by
  rcases (holds.descend?_iff _).mp reached with empty | ⟨page, listed, begins⟩
  · exact absurd empty (by simp)
  · have literal : .literal name ∈ Segment.ofPage page := begins.subset (by simp)
    exact spared page listed name (Segment.mem_parts_of_literal literal)

theorem RouteTrie.Holds.separable {trie : RouteTrie} {pages : List String} {keys : RouteConfig}
    (holds : trie.Holds pages) (spared : ∀ page ∈ pages, keys.Spares page) :
    trie.root.freeze.Separable keys := by
  intro path below walked
  rw [TrieNode.walk?_freeze, Option.map_eq_some_iff] at walked
  obtain ⟨last, followed, rfl⟩ := walked
  obtain ⟨taken, reached⟩ := TrieNode.exists_descend?_of_follow? followed
  refine ⟨Branches.names_freeze_nodup (TrieNode.ordered_descend? trie.ordered reached), ?_⟩
  intro name member
  have child : (last.child? (.literal name)).isSome = true :=
    (Branches.find?_isSome_iff _ _).mpr ((Branches.mem_names_freeze_iff _ _).mp member)
  have node : (trie.root.descend? (taken ++ [.literal name])).isSome = true := by
    rw [TrieNode.descend?_concat, reached]
    exact child
  exact holds.unreserved spared node

end EdgeRoutes
