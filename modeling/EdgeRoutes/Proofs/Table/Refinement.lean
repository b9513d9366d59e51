import EdgeRoutes.Proofs.Table.Freezing

/-! Freezing neither loses nor misplaces a node.

Nodes of a trie and of its table correspond if the same literals and wildcards lead to them.
Every request leads to corresponding nodes or on neither side to any, corresponding nodes have
the same page and the same literals, and no two ordered tries freeze to the same table.
-/

set_option autoImplicit false

namespace EdgeRoutes

/-- The same literals and wildcards lead to the two nodes from the two roots. -/
inductive Corresponds (table : TableNode) (trie : TrieNode) : TableNode → TrieNode → Prop where
  | root : Corresponds table trie table trie
  | literal {last child : TableNode} {node below : TrieNode} {name : String}
      (earlier : Corresponds table trie last node) (found : last.literal? name = some child)
      (present : node.child? (.literal name) = some below) : Corresponds table trie child below
  | wildcard {last child : TableNode} {node below : TrieNode}
      (earlier : Corresponds table trie last node)
      (found : last.choices.wildcard? = some child)
      (present : node.child? .wildcard = some below) : Corresponds table trie child below

namespace Corresponds

variable {root node : TrieNode} {last : TableNode}

theorem eq_freeze (pair : Corresponds root.freeze root last node) : last = node.freeze := by
  induction pair with
  | root => rfl
  | literal _ found present ih =>
    rw [ih, TrieNode.literal?_freeze, present] at found
    exact (Option.some.inj found).symm
  | wildcard _ found present ih =>
    rw [ih, TrieNode.wildcard?_freeze, present] at found
    exact (Option.some.inj found).symm

theorem literal?_rel (pair : Corresponds root.freeze root last node) (name : String) :
    Option.Rel (Corresponds root.freeze root) (last.literal? name)
      (node.child? (.literal name)) := by
  obtain rfl := pair.eq_freeze
  have found := node.literal?_freeze name
  cases present : node.child? (.literal name) with
  | none =>
    rw [found, present]
    exact .none
  | some below =>
    rw [present] at found
    rw [found]
    exact .some (.literal pair found present)

theorem walk?_rel (pair : Corresponds root.freeze root last node) (requested : List String) :
    Option.Rel (Corresponds root.freeze root) (last.walk? requested)
      (node.follow? requested) := by
  induction requested generalizing last node with
  | nil => exact .some pair
  | cons text rest ih =>
    obtain rfl := pair.eq_freeze
    rw [TableNode.walk?, TrieNode.follow?, TrieNode.child?_freeze]
    -- Both sides turn to the wildcard only where the literal is missing.
    cases literal : node.child? (.literal text) with
    | some below =>
      exact ih (.literal pair (by rw [TrieNode.literal?_freeze, literal, Option.map_some]) literal)
    | none =>
      cases wildcard : node.child? .wildcard with
      | some below =>
        exact ih (.wildcard pair
          (by rw [TrieNode.wildcard?_freeze, wildcard, Option.map_some]) wildcard)
      | none => exact .none

end Corresponds

namespace TrieNode

variable {left right : TrieNode}

theorem map_freeze_child? (same : left.freeze = right.freeze) (segment : Segment) :
    (left.child? segment).map freeze = (right.child? segment).map freeze := by
  cases segment with
  | literal name => rw [← literal?_freeze, same, literal?_freeze]
  | wildcard => rw [← wildcard?_freeze, same, wildcard?_freeze]

theorem map_freeze_descend? (same : left.freeze = right.freeze) (path : List Segment) :
    (left.descend? path).map freeze = (right.descend? path).map freeze := by
  induction path generalizing left right with
  | nil => exact congrArg some same
  | cons segment rest ih =>
    have children := map_freeze_child? same segment
    rw [descend?_cons, descend?_cons]
    cases first : left.child? segment with
    | none =>
      cases second : right.child? segment with
      | none => rfl
      | some below => simp [first, second] at children
    | some child =>
      cases second : right.child? segment with
      | none => simp [first, second] at children
      | some below =>
        rw [first, second] at children
        exact ih (Option.some.inj children)

theorem eq_of_freeze_eq (leftOrdered : left.branches.Ordered)
    (rightOrdered : right.branches.Ordered) (same : left.freeze = right.freeze) :
    left = right := by
  apply ext_paths leftOrdered rightOrdered
  · intro path
    simpa using congrArg Option.isSome (map_freeze_descend? same path)
  · intro path
    have pages := congrArg (·.bind TableNode.page) (map_freeze_descend? same path)
    simp only [Option.bind_map] at pages
    exact pages

end TrieNode

/-- A request walks the table to a node exactly if it follows the trie to one, the literal before
the wildcard, and then the two correspond. Corresponding nodes have the same page and have
corresponding literals, and tries that freeze to equal tables are equal. -/
theorem freeze_refines (trie : RouteTrie) (staticRoutes : List String) :
    (∀ requested, Option.Rel (Corresponds (trie.freeze staticRoutes).root trie.root)
      ((trie.freeze staticRoutes).root.walk? requested) (trie.root.follow? requested)) ∧
    (∀ last node, Corresponds (trie.freeze staticRoutes).root trie.root last node →
      last.page = node.page ∧
      ∀ name, Option.Rel (Corresponds (trie.freeze staticRoutes).root trie.root)
        (last.literal? name) (node.child? (.literal name))) ∧
    ∀ other : RouteTrie, other.root.freeze = trie.root.freeze → other.root = trie.root := by
  refine ⟨Corresponds.root.walk?_rel, ?_, ?_⟩
  · intro last node pair
    refine ⟨?_, pair.literal?_rel⟩
    rw [pair.eq_freeze]
    rfl
  · intro other same
    exact TrieNode.eq_of_freeze_eq other.ordered trie.ordered same

/-- A request for the wildcard, and a trie that was offered a page in vain. -/
theorem freeze_refines_items :
    let trie := (RouteTrie.empty.offer "/items/[id]").trie
    let table := trie.freeze ["/about"]
    let other := (trie.offer "/items/[slug]").trie
    (∃ last node, table.root.walk? ["items", "42"] = some last ∧
      trie.root.follow? ["items", "42"] = some node ∧
      Corresponds table.root trie.root last node ∧ last.page = node.page) ∧
    other.root.freeze = trie.root.freeze ∧ other.root = trie.root := by
  intro trie table other
  obtain ⟨walks, pairs, injective⟩ := freeze_refines trie ["/about"]
  have same : other.root.freeze = trie.root.freeze := by decide
  refine ⟨?_, same, injective other same⟩
  obtain ⟨last, walked⟩ : ∃ last, table.root.walk? ["items", "42"] = some last := ⟨_, rfl⟩
  obtain ⟨node, followed⟩ : ∃ node, trie.root.follow? ["items", "42"] = some node := ⟨_, rfl⟩
  have pair := walks ["items", "42"]
  rw [walked, followed] at pair
  cases pair with
  | some pair => exact ⟨last, node, walked, followed, pair, (pairs last node pair).1⟩

end EdgeRoutes
