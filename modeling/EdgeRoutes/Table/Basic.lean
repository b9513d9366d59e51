import EdgeRoutes.Trie.Basic

/-! The route table that requests are matched against.

Here the literal children of a node stand apart from its wildcard child: choices are a list
of named literals that ends in the wildcard, if there is one. A request segment takes the
literal of its name where there is one, and otherwise the wildcard.
-/

set_option autoImplicit false

namespace EdgeRoutes

inductive Choices where
  | none
  | wildcard (page : Option String) (below : Choices)
  | literal (name : String) (page : Option String) (below others : Choices)
  deriving DecidableEq, Repr

structure TableNode where
  page : Option String := none
  choices : Choices := .none
  deriving DecidableEq, Repr

namespace Choices

def literal? : Choices → String → Option TableNode
  | .none, _ => Option.none
  | .wildcard _ _, _ => Option.none
  | .literal name page below others, wanted =>
    if name = wanted then some { page := page, choices := below } else others.literal? wanted

def wildcard? : Choices → Option TableNode
  | .none => Option.none
  | .wildcard page below => some { page := page, choices := below }
  | .literal _ _ _ others => others.wildcard?

def withWildcard (page : Option String) (below : Choices) : Choices → Choices
  | .none => .wildcard page below
  | .wildcard _ _ => .wildcard page below
  | .literal name stored under others => .literal name stored under (withWildcard page below others)

end Choices

namespace TableNode

def literal? (node : TableNode) (segment : String) : Option TableNode :=
  node.choices.literal? segment

def child? (node : TableNode) (segment : String) : Option TableNode :=
  node.literal? segment <|> node.choices.wildcard?

/-- The node that a list of request segments leads to. No choice is ever taken back. -/
def walk? (node : TableNode) : List String → Option TableNode
  | [] => some node
  | segment :: path => (node.child? segment).bind (walk? · path)

end TableNode

def Branches.freeze : Branches → Choices
  | .none => .none
  | .branch (.literal name) page below others => .literal name page below.freeze others.freeze
  | .branch .wildcard page below others => Choices.withWildcard page below.freeze others.freeze

def TrieNode.freeze (node : TrieNode) : TableNode :=
  { page := node.page, choices := node.branches.freeze }

structure RouteTable where
  staticRoutes : List String := []
  root : TableNode := {}
  deriving DecidableEq, Repr

def RouteTable.isStatic (table : RouteTable) (path : String) : Bool :=
  table.staticRoutes.contains path

def RouteTrie.freeze (trie : RouteTrie) (staticRoutes : List String) : RouteTable :=
  { staticRoutes := staticRoutes, root := trie.root.freeze }

end EdgeRoutes
