import EdgeRoutes.Proofs.Json.Size
import EdgeRoutes.Proofs.Table.Lossless

/-! How many bytes a trie takes in the text of a handler.

The bytes are counted along the trie itself, branch by branch. A page at new segments makes
every level on its way larger, and a page that is there already changes nothing. So a run of
insertions leaves the trie as it is or makes its text longer.
-/

set_option autoImplicit false

namespace EdgeRoutes

variable (style : Json.Style) (keys : RouteConfig)

def RouteConfig.keyOf : Segment → String
  | .literal text => text
  | .wildcard => keys.wildcardKey

def RouteConfig.pageSize (page : Option String) : Nat :=
  (page.toList.map fun page => Json.memberSize style (keys.pageKey, .string page)).sum

/-- The bytes of the members that the branches of one level become, with all that lies below. -/
def Branches.byteSize : Branches → Nat
  | .none => 0
  | .branch segment page below others =>
    String.utf8Len (style.key (keys.keyOf segment)) +
      Json.enclosed (keys.pageSize style page + below.byteSize) + 2 + others.byteSize

def TrieNode.byteSize (node : TrieNode) : Nat :=
  Json.enclosed (keys.pageSize style node.page + node.branches.byteSize style keys)

theorem RouteConfig.two_le_pageSize (page : String) : 2 ≤ keys.pageSize style (some page) := by
  simp only [pageSize, Option.toList_some, List.map_cons, List.map_nil, List.sum_cons,
    Json.memberSize]
  omega

namespace TableNode

variable {keys}

theorem byteSize_toJson (apart : keys.Apart) {node : TableNode} (clear : node.choices.Clear keys) :
    (node.toJson keys).byteSize style =
      Json.enclosed (keys.pageSize style node.page +
        ((node.choices.parts keys).map (Json.memberSize style)).sum) := by
  have perm := (members_perm apart clear).map (Json.memberSize style)
  rw [toJson_eq, Json.byteSize_object, perm.sum_eq, List.map_append, List.sum_append,
    List.map_map, Nat.add_comm]
  rfl

end TableNode

namespace Branches

variable {keys}

theorem sum_parts_freeze (apart : keys.Apart) {branches : Branches} (ordered : branches.Ordered)
    (clear : branches.freeze.Clear keys) :
    ((branches.freeze.parts keys).map (Json.memberSize style)).sum =
      branches.byteSize style keys := by
  induction branches with
  | none => rfl
  | branch segment page below others belowIH othersIH =>
    obtain ⟨after, belowOrdered, othersOrdered⟩ := ordered
    -- A part is the object of the node below its segment.
    have part (name : String) (belowClear : below.freeze.Clear keys) :
        Json.memberSize style (name, TableNode.toJson keys ⟨page, below.freeze⟩) =
          String.utf8Len (style.key name) +
            Json.enclosed (keys.pageSize style page + below.byteSize style keys) + 2 := by
      rw [Json.memberSize, TableNode.byteSize_toJson style apart belowClear,
        belowIH belowOrdered belowClear]
    cases segment with
    | literal name =>
      obtain ⟨_, _, belowClear, othersClear⟩ := clear
      simp only [freeze, Choices.parts, List.map_cons, List.sum_cons, part name belowClear,
        othersIH othersOrdered othersClear, byteSize, RouteConfig.keyOf]
    | wildcard =>
      cases others with
      | none =>
        simp only [freeze, Choices.withWildcard, Choices.parts, List.map_cons, List.map_nil,
          List.sum_cons, List.sum_nil, byteSize, RouteConfig.keyOf]
        exact part keys.wildcardKey clear
      | branch next => exact absurd (after next List.mem_cons_self) id

variable (keys)

theorem two_le_byteSize_chain (page : Option String) (segment : Segment) (path : List Segment)
    (others : Branches) :
    others.byteSize style keys + 2 ≤ (chain page segment path others).byteSize style keys := by
  cases path <;> simp only [chain, byteSize] <;> omega

theorem two_le_byteSize {branches : Branches} (filled : 0 < branches.byteSize style keys) :
    2 ≤ branches.byteSize style keys := by
  cases branches with
  | none => cases filled
  | branch segment page below others =>
    simp only [byteSize]
    omega

/-- A page at a path that holds none makes a level larger. -/
theorem Gains.byteSize_lt {page : String} {branches grown : Branches}
    (gains : Gains page branches grown) :
    branches.byteSize style keys < grown.byteSize style keys := by
  induction gains with
  | chain segment path others =>
    have chain := two_le_byteSize_chain style keys (some page) segment path others
    omega
  | fill segment below others =>
    have two := keys.two_le_pageSize style page
    have nothing : keys.pageSize style Option.none = 0 := rfl
    have larger : Json.enclosed (keys.pageSize style Option.none + below.byteSize style keys) <
        Json.enclosed (keys.pageSize style (some page) + below.byteSize style keys) :=
      Json.enclosed_lt (by omega) (by omega)
    simp only [byteSize]
    omega
  -- A larger child makes its node larger, whether or not the node had anything before.
  | under _ stored _ _ ih =>
    have two := two_le_byteSize style keys (Nat.zero_lt_of_lt ih)
    have larger := Json.enclosed_lt (Nat.add_lt_add_left ih (keys.pageSize style stored))
      (by omega)
    simp only [byteSize]
    omega
  | behind _ _ _ _ ih =>
    simp only [byteSize]
    omega

end Branches

theorem TrieNode.byteSize_attach_lt (page : String) {node : TrieNode} {path : List Segment}
    (free : node.pageAt? path = none) :
    node.byteSize style keys < (node.attach page path).byteSize style keys := by
  unfold byteSize attach
  cases path with
  | nil =>
    have empty : node.page = none := free
    have two := keys.two_le_pageSize style page
    have nothing : keys.pageSize style none = 0 := rfl
    apply Json.enclosed_lt <;> simp only [alter, empty] <;> omega
  | cons segment path =>
    have grown := (TrieNode.gains_alter page free).byteSize_lt style keys
    have two := Branches.two_le_byteSize style keys (Nat.zero_lt_of_lt grown)
    apply Json.enclosed_lt <;> simp only [alter] <;> omega

namespace RouteTrie

variable {trie next : RouteTrie}

theorem byteSize_insert {page : String} (inserted : trie.insert page = .ok next) :
    next = trie ∨ trie.root.byteSize style keys < next.root.byteSize style keys := by
  cases found : trie.root.pageAt? (Segment.ofPage page) with
  | some existing =>
    rw [insert_taken found] at inserted
    split at inserted
    · cases inserted
      exact Or.inl rfl
    · cases inserted
  | none =>
    obtain ⟨grown, step, _, root⟩ := exists_insert_free found
    rw [step] at inserted
    cases inserted
    rw [root]
    exact Or.inr (TrieNode.byteSize_attach_lt style keys page found)

theorem byteSize_foldlM_insert {pages : List String} (run : pages.foldlM insert trie = .ok next) :
    next = trie ∨ trie.root.byteSize style keys < next.root.byteSize style keys := by
  induction pages generalizing trie with
  | nil =>
    cases run
    exact Or.inl rfl
  | cons page pages ih =>
    rw [List.foldlM_cons] at run
    cases step : trie.insert page with
    | error conflict =>
      rw [step] at run
      cases run
    | ok middle =>
      rw [step] at run
      rcases byteSize_insert style keys step with rfl | grown
      · exact ih run
      · rcases ih run with rfl | further
        · exact Or.inr grown
        · exact Or.inr (Nat.lt_trans grown further)

variable {few many : List String}

theorem Holds.foldlM_insert_of_subset (holds : trie.Holds few) (more : next.Holds many)
    (subset : ∀ page ∈ few, page ∈ many) : many.foldlM insert trie = .ok next := by
  have same (page : String) : page ∈ few ++ many ↔ page ∈ many := by
    rw [List.mem_append, or_iff_right_iff_imp]
    exact subset page
  rcases holds.foldlM_insert_cases many with ⟨last, run, all⟩ | ⟨conflict, _, first⟩
  · rw [run, (all.of_same fun page => (same page).symm).eq more]
  · exact absurd (more.of_same same).unambiguous first.ambiguous

theorem Holds.byteSize_toJson {keys : RouteConfig} (holds : trie.Holds few) (apart : keys.Apart)
    (spared : ∀ page ∈ few, keys.Spares page) :
    (trie.root.freeze.toJson keys).byteSize style = trie.root.byteSize style keys := by
  have clear := holds.clear spared
  rw [TableNode.byteSize_toJson style apart clear]
  exact congrArg (fun inside => Json.enclosed (keys.pageSize style trie.root.page + inside))
    (Branches.sum_parts_freeze style apart trie.ordered clear)

/-- The object of a trie with fewer pages is the same, or its text is shorter. -/
theorem Holds.byteSize_of_subset {keys : RouteConfig} (apart : keys.Apart)
    (holds : trie.Holds few) (more : next.Holds many) (subset : ∀ page ∈ few, page ∈ many)
    (spared : ∀ page ∈ many, keys.Spares page) :
    next = trie ∨ (trie.root.freeze.toJson keys).byteSize style <
      (next.root.freeze.toJson keys).byteSize style := by
  rw [holds.byteSize_toJson style apart fun page member => spared page (subset page member),
    more.byteSize_toJson style apart spared]
  exact byteSize_foldlM_insert style keys (holds.foldlM_insert_of_subset more subset)

end RouteTrie

end EdgeRoutes
