import EdgeRoutes.Proofs.Trie.Paths
import EdgeRoutes.Table.Basic

/-! Freezing keeps what a trie leads to.

The literals and the wildcard of a frozen node are the frozen children of the trie node,
so a request walks the table as it would follow the trie, literal first.
-/

set_option autoImplicit false

namespace EdgeRoutes

/-- The trie node that request segments lead to: at each step the child for the literal if
there is one, else the child for the wildcard. -/
def TrieNode.follow? (node : TrieNode) : List String → Option TrieNode
  | [] => some node
  | text :: rest =>
    (node.child? (.literal text) <|> node.child? .wildcard).bind (follow? · rest)

namespace TableNode

inductive Reaches : TableNode → TableNode → Prop where
  | self (node : TableNode) : Reaches node node
  | literal {node child last : TableNode} {name : String} (found : node.literal? name = some child)
      (below : Reaches child last) : Reaches node last
  | wildcard {node child last : TableNode} (found : node.choices.wildcard? = some child)
      (below : Reaches child last) : Reaches node last

end TableNode

namespace Choices

@[simp] theorem literal?_withWildcard (page : Option String) (below choices : Choices)
    (name : String) : (withWildcard page below choices).literal? name = choices.literal? name := by
  induction choices with
  | none => rfl
  | wildcard => rfl
  | literal present stored under others _ ih => simp [withWildcard, literal?, ih]

@[simp] theorem wildcard?_withWildcard (page : Option String) (below choices : Choices) :
    (withWildcard page below choices).wildcard? = some { page := page, choices := below } := by
  induction choices with
  | none => rfl
  | wildcard => rfl
  | literal present stored under others _ ih => exact ih

end Choices

namespace Branches

theorem literal?_freeze (branches : Branches) (name : String) :
    branches.freeze.literal? name = (branches.find? (.literal name)).map TrieNode.freeze := by
  induction branches with
  | none => rfl
  | branch segment page below others _ ih =>
    cases segment with
    | wildcard => simp [freeze, find?, ih]
    | literal present =>
      by_cases same : present = name
      · simp [freeze, find?, Choices.literal?, same, TrieNode.freeze]
      · simp [freeze, find?, Choices.literal?, same, ih]

theorem wildcard?_freeze (branches : Branches) :
    branches.freeze.wildcard? = (branches.find? .wildcard).map TrieNode.freeze := by
  induction branches with
  | none => rfl
  | branch segment page below others _ ih =>
    cases segment with
    | wildcard => simp [freeze, find?, TrieNode.freeze]
    | literal present => simpa [freeze, find?, Choices.wildcard?] using ih

end Branches

namespace TrieNode

theorem exists_descend?_of_follow? {node last : TrieNode} {path : List String}
    (followed : node.follow? path = some last) : ∃ taken, node.descend? taken = some last := by
  induction path generalizing node with
  | nil => exact ⟨[], followed⟩
  | cons text rest ih =>
    rw [follow?, Option.bind_eq_some_iff] at followed
    obtain ⟨next, chosen, followed⟩ := followed
    obtain ⟨taken, reached⟩ := ih followed
    simp only [Option.orElse_eq_orElse, Option.orElse_eq_or, Option.or_eq_some_iff] at chosen
    rcases chosen with literal | ⟨_, wildcard⟩
    · exact ⟨.literal text :: taken, by rw [descend?_cons, literal, Option.bind_some, reached]⟩
    · exact ⟨.wildcard :: taken, by rw [descend?_cons, wildcard, Option.bind_some, reached]⟩

theorem literal?_freeze (node : TrieNode) (name : String) :
    node.freeze.literal? name = (node.child? (.literal name)).map freeze :=
  node.branches.literal?_freeze name

theorem wildcard?_freeze (node : TrieNode) :
    node.freeze.choices.wildcard? = (node.child? .wildcard).map freeze :=
  node.branches.wildcard?_freeze

theorem child?_freeze (node : TrieNode) (text : String) :
    node.freeze.child? text =
      (node.child? (.literal text) <|> node.child? .wildcard).map freeze := by
  unfold TableNode.child?
  rw [literal?_freeze, wildcard?_freeze]
  cases node.child? (.literal text) <;> rfl

/-- Walking the frozen table is following the trie. -/
theorem walk?_freeze (node : TrieNode) (path : List String) :
    node.freeze.walk? path = (node.follow? path).map freeze := by
  induction path generalizing node with
  | nil => rfl
  | cons text rest ih =>
    rw [TableNode.walk?, follow?, child?_freeze]
    cases node.child? (.literal text) <|> node.child? .wildcard with
    | none => rfl
    | some child => exact ih child

theorem page_walk?_freeze (node : TrieNode) (path : List String) :
    (node.freeze.walk? path).bind (·.page) = (node.follow? path).bind (·.page) := by
  rw [walk?_freeze]
  cases node.follow? path <;> rfl

theorem reaches_freeze_iff (node : TrieNode) (last : TableNode) :
    node.freeze.Reaches last ↔
      ∃ path below, node.descend? path = some below ∧ below.freeze = last := by
  constructor
  · intro reaches
    -- The frozen node is what the run starts from, so the node has to be found again at each step.
    generalize frozen : node.freeze = start at reaches
    induction reaches generalizing node with
    | self => exact ⟨[], node, rfl, frozen⟩
    | literal found _ ih =>
      subst frozen
      rw [literal?_freeze, Option.map_eq_some_iff] at found
      obtain ⟨child, found, rfl⟩ := found
      obtain ⟨path, below, reached, same⟩ := ih child rfl
      exact ⟨_ :: path, below, by rw [descend?_cons, found, Option.bind_some, reached], same⟩
    | wildcard found _ ih =>
      subst frozen
      rw [wildcard?_freeze, Option.map_eq_some_iff] at found
      obtain ⟨child, found, rfl⟩ := found
      obtain ⟨path, below, reached, same⟩ := ih child rfl
      exact ⟨_ :: path, below, by rw [descend?_cons, found, Option.bind_some, reached], same⟩
  · rintro ⟨path, below, reached, rfl⟩
    induction path generalizing node with
    | nil =>
      cases reached
      exact .self _
    | cons segment path ih =>
      rw [descend?_cons, Option.bind_eq_some_iff] at reached
      obtain ⟨child, found, reached⟩ := reached
      cases segment with
      | literal name =>
        exact .literal (by rw [literal?_freeze, found, Option.map_some]) (ih child reached)
      | wildcard =>
        exact .wildcard (by rw [wildcard?_freeze, found, Option.map_some]) (ih child reached)

end TrieNode

end EdgeRoutes
