import EdgeRoutes.Segment

/-! Tries of page templates.

A node may hold the page of a template that ends there and has one branch for each
segment that leads on. Branches are one inductive type: an entry carries its segment, the
page of the node below, the branches of that node, and the entries that follow. A route
trie keeps its branches in the order of their segments at every level, so that equal
contents are equal values. An insertion changes a trie step by step and may be refused at
the last of them, so what it leaves behind is told apart from its outcome.
-/

set_option autoImplicit false

namespace EdgeRoutes

inductive Branches where
  | none
  | branch (segment : Segment) (page : Option String) (below others : Branches)
  deriving DecidableEq, Repr

structure TrieNode where
  page : Option String := none
  branches : Branches := .none
  deriving DecidableEq, Repr

namespace Branches

def segments : Branches → List Segment
  | .none => []
  | .branch segment _ _ others => segment :: others.segments

def find? : Branches → Segment → Option TrieNode
  | .none, _ => Option.none
  | .branch segment page below others, wanted =>
    if segment = wanted then some { page := page, branches := below } else others.find? wanted

/-- A single branch that leads along the segments to a node with the page, if one is given. -/
def chain (page : Option String) (segment : Segment) : List Segment → Branches → Branches
  | [], others => .branch segment page .none others
  | next :: path, others => .branch segment Option.none (chain page next path .none) others

/-- Adds the nodes that are missing on a path, and changes the page of the node at its end. -/
def alter (change : Option String → Option String) : Branches → Segment → List Segment → Branches
  | .none, segment, path => chain (change Option.none) segment path .none
  | .branch present stored below others, segment, path =>
    if present = segment then
      match path with
      | [] => .branch present (change stored) below others
      | next :: path => .branch present stored (alter change below next path) others
    else if segment.Before present then
      chain (change Option.none) segment path (.branch present stored below others)
    else
      .branch present stored below (alter change others segment path)

def Ordered : Branches → Prop
  | .none => True
  | .branch segment _ below others =>
    (∀ later ∈ others.segments, segment.Before later) ∧ below.Ordered ∧ others.Ordered

theorem chain_ordered (page : Option String) (segment : Segment) (path : List Segment)
    {others : Branches} (after : ∀ later ∈ others.segments, segment.Before later)
    (ordered : others.Ordered) :
    (chain page segment path others).Ordered := by
  induction path generalizing segment others with
  | nil => exact ⟨after, trivial, ordered⟩
  | cons next path ih => exact ⟨after, ih next (by simp [segments]) trivial, ordered⟩

theorem segments_chain (page : Option String) (segment : Segment) (path : List Segment)
    (others : Branches) :
    (chain page segment path others).segments = segment :: others.segments := by
  cases path <;> rfl

theorem mem_segments_alter {change : Option String → Option String} {branches : Branches}
    {segment : Segment} {path : List Segment} {found : Segment}
    (member : found ∈ (branches.alter change segment path).segments) :
    found = segment ∨ found ∈ branches.segments := by
  induction branches generalizing segment path with
  | none => simpa [alter, segments_chain] using member
  | branch present stored below others _ othersIH =>
    unfold alter at member
    split at member
    · rename_i same
      cases path <;> simp only [segments, List.mem_cons] at member ⊢ <;> exact Or.inr member
    · split at member
      · simpa [segments_chain] using member
      · simp only [segments, List.mem_cons] at member ⊢
        rcases member with same | member
        · exact Or.inr (Or.inl same)
        · rcases othersIH member with same | member
          · exact Or.inl same
          · exact Or.inr (Or.inr member)

theorem alter_ordered (change : Option String → Option String) {branches : Branches}
    (segment : Segment) (path : List Segment) (ordered : branches.Ordered) :
    (branches.alter change segment path).Ordered := by
  induction branches generalizing segment path with
  | none => exact chain_ordered _ segment path (by simp [segments]) trivial
  | branch present stored below others belowIH othersIH =>
    obtain ⟨after, belowOrdered, othersOrdered⟩ := ordered
    unfold alter
    split
    · cases path with
      | nil => exact ⟨after, belowOrdered, othersOrdered⟩
      | cons next path => exact ⟨after, belowIH next path belowOrdered, othersOrdered⟩
    -- A new branch stands where it belongs: before the first branch that is behind it.
    · rename_i differ
      split
      · rename_i first
        refine chain_ordered _ segment path ?_ ⟨after, belowOrdered, othersOrdered⟩
        intro later member
        simp only [segments, List.mem_cons] at member
        rcases member with rfl | member
        · exact first
        · exact first.trans (after later member)
      · rename_i notFirst
        refine ⟨?_, belowOrdered, othersIH segment path othersOrdered⟩
        intro later member
        rcases mem_segments_alter member with rfl | member
        · exact (Segment.Before.total differ).resolve_right notFirst
        · exact after later member

end Branches

namespace TrieNode

def child? (node : TrieNode) (segment : Segment) : Option TrieNode :=
  node.branches.find? segment

/-- The node at the end of a path, if the trie has it. -/
def descend? (node : TrieNode) : List Segment → Option TrieNode
  | [] => some node
  | segment :: path => (node.child? segment).bind (descend? · path)

def pageAt? (node : TrieNode) (path : List Segment) : Option String :=
  (node.descend? path).bind (·.page)

/-- Adds the nodes that are missing on a path, and changes the page of the node at its end. -/
def alter (change : Option String → Option String) (node : TrieNode) : List Segment → TrieNode
  | [] => { node with page := change node.page }
  | segment :: path => { node with branches := node.branches.alter change segment path }

theorem alter_ordered (change : Option String → Option String) {node : TrieNode}
    (ordered : node.branches.Ordered) (path : List Segment) :
    (node.alter change path).branches.Ordered := by
  cases path with
  | nil => exact ordered
  | cons segment path => exact Branches.alter_ordered change segment path ordered

def grow (node : TrieNode) (path : List Segment) : TrieNode :=
  node.alter id path

theorem grow_ordered {node : TrieNode} (ordered : node.branches.Ordered) (path : List Segment) :
    (node.grow path).branches.Ordered :=
  alter_ordered id ordered path

def attach (node : TrieNode) (page : String) (path : List Segment) : TrieNode :=
  node.alter (fun _ => some page) path

theorem attach_ordered {node : TrieNode} (ordered : node.branches.Ordered) (page : String)
    (path : List Segment) : (node.attach page path).branches.Ordered :=
  alter_ordered (fun _ => some page) ordered path

end TrieNode

@[ext] structure RouteTrie where
  root : TrieNode := {}
  size : Nat := 0
  ordered : root.branches.Ordered := by exact trivial
  deriving DecidableEq

structure Conflict where
  existing : String
  page : String
  deriving DecidableEq, Repr

namespace RouteTrie

def empty : RouteTrie := {}

def isEmpty (trie : RouteTrie) : Bool := trie.size == 0

def grow (trie : RouteTrie) (path : List Segment) : RouteTrie :=
  { trie with
    root := trie.root.grow path
    ordered := TrieNode.grow_ordered trie.ordered path }

/-- How an insertion ends: the trie as it is left, and the conflict if the page was refused. -/
structure Insertion where
  trie : RouteTrie
  outcome : Except Conflict Unit

/-- Inserts one template into a trie that is changed step by step. The nodes on its path come
first; only then the node at the end is looked at, which takes the page unless it has one. A
template that it has already is no conflict, another template with the same segments is. -/
def offer (trie : RouteTrie) (page : String) : Insertion :=
  let path := Segment.ofPage page
  let grown := trie.grow path
  match grown.root.pageAt? path with
  | some existing => ⟨grown, if existing = page then .ok () else .error ⟨existing, page⟩⟩
  | none =>
    { trie :=
        { root := grown.root.attach page path
          size := grown.size + 1
          ordered := TrieNode.attach_ordered grown.ordered page path }
      outcome := .ok () }

def insert (trie : RouteTrie) (page : String) : Except Conflict RouteTrie :=
  let insertion := trie.offer page
  insertion.outcome.map fun _ => insertion.trie

def ofPages (pages : List String) : Except Conflict RouteTrie :=
  pages.foldlM insert empty

end RouteTrie

end EdgeRoutes
