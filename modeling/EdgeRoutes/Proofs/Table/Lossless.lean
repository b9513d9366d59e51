import EdgeRoutes.Proofs.Config.Validation
import EdgeRoutes.Proofs.Table.Members

/-! The object of a table node loses nothing.

It has one member for each literal, one for the wildcard and one for the page, and none of
them takes the place of another, as long as no literal is a reserved key and none stands
twice on one level. The trie of admitted pages is so at every level. The strings in the
object are then the pages of the nodes, no more and no less.
-/

set_option autoImplicit false

namespace EdgeRoutes

/-- The text is one of the strings in the value, at any depth. -/
inductive Json.Mentions (text : String) : Json → Prop where
  | string : Mentions text (.string text)
  | item {items : List Json} {item : Json} (present : item ∈ items)
      (below : Mentions text item) : Mentions text (.array items)
  | member {members : List (String × Json)} {member : String × Json}
      (present : member ∈ members) (below : Mentions text member.2) :
      Mentions text (.object members)

theorem eq_of_mem_toList {Value : Type} {present : Option Value} {key found : String}
    (member : found ∈ (present.map fun _ => key).toList) : found = key := by
  obtain ⟨_, _, same⟩ := Option.map_eq_some_iff.mp (Option.mem_toList.mp member)
  exact same.symm

namespace Choices

variable (keys : RouteConfig)

/-- At every level the literals come in order, each once, and none is a reserved key. -/
def Clear : Choices → Prop
  | .none => True
  | .wildcard _ below => below.Clear
  | .literal name _ below others =>
    ¬ keys.Reserves name ∧ (∀ later ∈ others.names, Text.Before name later) ∧
      below.Clear ∧ others.Clear

def parts : Choices → List (String × Json)
  | .none => []
  | .wildcard page below => [(keys.wildcardKey, TableNode.toJson keys ⟨page, below⟩)]
  | .literal name page below others =>
    (name, TableNode.toJson keys ⟨page, below⟩) :: others.parts

variable {keys} {choices : Choices}

namespace Clear

theorem unreserved (clear : choices.Clear keys) : ∀ name ∈ choices.names, ¬ keys.Reserves name := by
  induction choices with
  | none => simp [names]
  | wildcard => simp [names]
  | literal name page below others _ ih =>
    intro other member
    rcases List.mem_cons.mp member with rfl | later
    · exact clear.1
    · exact ih clear.2.2.2 other later

theorem names_nodup (clear : choices.Clear keys) : choices.names.Nodup := by
  induction choices with
  | none => exact List.nodup_nil
  | wildcard => exact List.nodup_nil
  | literal name page below others _ ih =>
    obtain ⟨_, before, _, othersClear⟩ := clear
    exact List.nodup_cons.mpr
      ⟨fun member => Text.Before.irrefl name (before name member), ih othersClear⟩

theorem below_literal {child : TableNode} {wanted : String} (clear : choices.Clear keys)
    (found : choices.literal? wanted = some child) : child.choices.Clear keys := by
  induction choices with
  | none => cases found
  | wildcard => cases found
  | literal name page below others _ ih =>
    obtain ⟨_, _, belowClear, othersClear⟩ := clear
    unfold literal? at found
    split at found
    · cases found
      exact belowClear
    · exact ih othersClear found

theorem below_wildcard {child : TableNode} (clear : choices.Clear keys)
    (found : choices.wildcard? = some child) : child.choices.Clear keys := by
  induction choices with
  | none => cases found
  | wildcard page below =>
    cases found
    exact clear
  | literal name page below others _ ih => exact ih clear.2.2.2 found

end Clear

theorem parts_keys (choices : Choices) :
    (choices.parts keys).map (·.1) =
      choices.names ++ (choices.wildcard?.map fun _ => keys.wildcardKey).toList := by
  induction choices with
  | none => rfl
  | wildcard page below => rfl
  | literal name page below others _ ih => exact congrArg (name :: ·) ih

theorem literal_mem_parts {child : TableNode} {wanted : String}
    (found : choices.literal? wanted = some child) :
    (wanted, child.toJson keys) ∈ choices.parts keys := by
  induction choices with
  | none => cases found
  | wildcard => cases found
  | literal name page below others _ ih =>
    unfold literal? at found
    split at found
    case isTrue same =>
      cases found
      subst same
      exact List.mem_cons_self
    case isFalse => exact List.mem_cons_of_mem _ (ih found)

theorem wildcard_mem_parts {child : TableNode} (found : choices.wildcard? = some child) :
    (keys.wildcardKey, child.toJson keys) ∈ choices.parts keys := by
  induction choices with
  | none => cases found
  | wildcard page below =>
    cases found
    exact List.mem_singleton_self _
  | literal name page below others _ ih => exact List.mem_cons_of_mem _ (ih found)

theorem Clear.child_of_mem_parts (clear : choices.Clear keys) {member : String × Json}
    (present : member ∈ choices.parts keys) :
    ∃ child : TableNode, member.2 = child.toJson keys ∧
      (choices.literal? member.1 = some child ∨ choices.wildcard? = some child) := by
  induction choices with
  | none => cases present
  | wildcard page below =>
    obtain rfl := List.mem_singleton.mp present
    exact ⟨_, rfl, Or.inr rfl⟩
  | literal name page below others _ ih =>
    obtain ⟨_, before, _, othersClear⟩ := clear
    rcases List.mem_cons.mp present with rfl | later
    · exact ⟨_, rfl, Or.inl (if_pos rfl)⟩
    · obtain ⟨child, value, literal | wildcard⟩ := ih othersClear later
      · have named : member.1 ∈ others.names := by
          rw [← literal?_isSome_iff, literal]
          rfl
        have differ : name ≠ member.1 := by
          intro same
          rw [← same] at named
          exact Text.Before.irrefl name (before name named)
        exact ⟨child, value, Or.inl ((if_neg differ).trans literal)⟩
      · exact ⟨child, value, Or.inr wildcard⟩

theorem Clear.parts_nodup (clear : choices.Clear keys) :
    ((choices.parts keys).map (·.1)).Nodup := by
  rw [parts_keys, List.nodup_append]
  refine ⟨clear.names_nodup, ?_, ?_⟩
  · cases choices.wildcard? <;> simp
  · rintro name member _ wild rfl
    exact clear.unreserved name member (Or.inl (eq_of_mem_toList wild))

theorem members_perm (choices : Choices) (collected : List (String × Json))
    (distinct : ((choices.parts keys ++ collected).map (·.1)).Nodup) :
    (choices.members keys collected).Perm (choices.parts keys ++ collected) := by
  induction choices generalizing collected with
  | none => exact List.Perm.refl _
  | wildcard page below => exact Members.insert_perm _ (List.nodup_cons.mp distinct).1
  | literal name page below others _ ih =>
    -- The first literal is stored first, but it may stand anywhere among the parts.
    have once := distinct
    rw [parts, List.cons_append, List.map_cons, List.nodup_cons, List.map_append,
      List.mem_append, not_or] at once
    have moved : (others.parts keys ++ Members.insert name (.object (keys.withPage page
        (below.members keys []))) collected).Perm
          ((literal name page below others).parts keys ++ collected) :=
      ((Members.insert_perm _ once.1.2).append_left _).trans List.perm_middle
    exact (ih _ ((moved.map _).nodup_iff.mpr distinct)).trans moved

end Choices

namespace TableNode

/-- The object of a node has one member for each literal, one for the wildcard and one for
the page, with the values of these; no key stands there twice, and none sets a prototype. -/
structure Lossless (keys : RouteConfig) (node : TableNode) : Prop where
  toJson_eq : node.toJson keys = .object (node.members keys)
  keys_perm : ((node.members keys).map (·.1)).Perm (node.choices.names ++
    (node.choices.wildcard?.map fun _ => keys.wildcardKey).toList ++
    (node.page.map fun _ => keys.pageKey).toList)
  keys_nodup : ((node.members keys).map (·.1)).Nodup
  literal_mem : ∀ name child, node.literal? name = some child →
    (name, child.toJson keys) ∈ node.members keys
  wildcard_mem : ∀ child, node.choices.wildcard? = some child →
    (keys.wildcardKey, child.toJson keys) ∈ node.members keys
  page_mem : ∀ page, node.page = some page → (keys.pageKey, .string page) ∈ node.members keys
  object_of_ne_page : ∀ member ∈ node.members keys, member.1 ≠ keys.pageKey →
    ∃ members, member.2 = .object members
  ne_prototype : ∀ member ∈ node.members keys, member.1 ≠ prototypeKey

variable {keys : RouteConfig} {node last : TableNode}

theorem Reaches.clear (reaches : node.Reaches last) (clear : node.choices.Clear keys) :
    last.choices.Clear keys := by
  induction reaches with
  | self => exact clear
  | literal found _ ih => exact ih (clear.below_literal found)
  | wildcard found _ ih => exact ih (clear.below_wildcard found)

theorem members_perm (apart : keys.Apart) (clear : node.choices.Clear keys) :
    (node.members keys).Perm
      (node.choices.parts keys ++
        node.page.toList.map fun page => (keys.pageKey, .string page)) := by
  have children : (node.choices.members keys []).Perm (node.choices.parts keys) := by
    have perm := Choices.members_perm node.choices [] (by simpa using clear.parts_nodup)
    rwa [List.append_nil] at perm
  unfold members RouteConfig.withPage
  cases node.page with
  | none => simpa using children
  | some page =>
    have fresh : keys.pageKey ∉ (node.choices.members keys []).map (·.1) := by
      rw [(children.map _).mem_iff, Choices.parts_keys, List.mem_append]
      rintro (name | wild)
      · exact clear.unreserved _ name (Or.inr (Or.inl rfl))
      · exact apart.wildcard_ne_page (eq_of_mem_toList wild).symm
    exact (Members.insert_perm _ fresh).trans
      ((children.cons _).trans (List.perm_append_singleton _ _).symm)

theorem lossless (apart : keys.Apart) (clear : node.choices.Clear keys) : node.Lossless keys := by
  have perm := members_perm apart clear
  have pageKeys : (node.page.toList.map fun page => (keys.pageKey, Json.string page)).map (·.1) =
      (node.page.map fun _ => keys.pageKey).toList := by
    cases node.page <;> rfl
  have keysPerm := perm.map (·.1)
  rw [List.map_append, Choices.parts_keys, pageKeys] at keysPerm
  have mem_of_part {member : String × Json} (present : member ∈ node.choices.parts keys) :
      member ∈ node.members keys := perm.mem_iff.mpr (List.mem_append_left _ present)
  -- Each field is read off the members as a permutation of what the children contribute.
  constructor
  case toJson_eq => rfl
  case keys_perm => exact keysPerm
  case keys_nodup => exact (node.members_sorted keys).keys_nodup
  case literal_mem => exact fun name child found => mem_of_part (Choices.literal_mem_parts found)
  case wildcard_mem => exact fun child found => mem_of_part (Choices.wildcard_mem_parts found)
  case page_mem =>
    intro page found
    apply perm.mem_iff.mpr
    simp [found]
  case object_of_ne_page =>
    intro member present other
    rcases List.mem_append.mp (perm.mem_iff.mp present) with part | page
    · obtain ⟨child, value, _⟩ := clear.child_of_mem_parts part
      exact ⟨_, value⟩
    · obtain ⟨page, _, rfl⟩ := List.mem_map.mp page
      exact absurd rfl other
  case ne_prototype =>
    intro member present same
    have key := keysPerm.mem_iff.mp (List.mem_map_of_mem present)
    rw [same, List.mem_append, List.mem_append] at key
    rcases key with (name | wild) | page
    · exact clear.unreserved _ name (Or.inr (Or.inr rfl))
    · exact apart.wildcard_ne_prototype (eq_of_mem_toList wild).symm
    · exact apart.page_ne_prototype (eq_of_mem_toList page).symm

/-- The strings in the object of a node are the pages of the nodes that it reaches. -/
theorem mentions_toJson_iff (apart : keys.Apart) (clear : node.choices.Clear keys)
    (text : String) :
    (node.toJson keys).Mentions text ↔ ∃ last, node.Reaches last ∧ last.page = some text := by
  constructor
  · intro mentions
    generalize written : node.toJson keys = value at mentions
    induction mentions generalizing node with
    | string => cases written
    | item => cases written
    | member present below ih =>
      cases written
      -- The string lies in the object of a child, or it is the page of this node.
      rcases List.mem_append.mp ((members_perm apart clear).mem_iff.mp present) with part | page
      · obtain ⟨child, value, literal | wildcard⟩ := clear.child_of_mem_parts part
        · obtain ⟨last, reaches, page⟩ := ih (clear.below_literal literal) value.symm
          exact ⟨last, .literal literal reaches, page⟩
        · obtain ⟨last, reaches, page⟩ := ih (clear.below_wildcard wildcard) value.symm
          exact ⟨last, .wildcard wildcard reaches, page⟩
      · obtain ⟨page, stored, rfl⟩ := List.mem_map.mp page
        cases below
        exact ⟨node, .self node, Option.mem_toList.mp stored⟩
  · rintro ⟨last, reaches, page⟩
    induction reaches with
    | self node => exact .member ((lossless apart clear).page_mem text page) .string
    | literal found _ ih =>
      exact .member ((lossless apart clear).literal_mem _ _ found)
        (ih (clear.below_literal found) page)
    | wildcard found _ ih =>
      exact .member ((lossless apart clear).wildcard_mem _ found)
        (ih (clear.below_wildcard found) page)

end TableNode

theorem RouteTrie.Holds.page_reached_iff {trie : RouteTrie} {pages : List String}
    (holds : trie.Holds pages) (page : String) :
    (∃ last, trie.root.freeze.Reaches last ∧ last.page = some page) ↔ page ∈ pages := by
  simp only [TrieNode.reaches_freeze_iff]
  constructor
  · rintro ⟨_, ⟨path, below, reached, rfl⟩, stored⟩
    have found : trie.root.pageAt? path = some page := by
      rw [TrieNode.pageAt?, reached]
      exact stored
    exact ((holds.pageAt?_iff path page).mp found).1
  · intro listed
    have found := (holds.pageAt?_iff _ page).mpr ⟨listed, rfl⟩
    rw [TrieNode.pageAt?, Option.bind_eq_some_iff] at found
    obtain ⟨below, reached, stored⟩ := found
    exact ⟨below.freeze, ⟨_, below, reached, rfl⟩, stored⟩

theorem TrieNode.descend?_others {segment : Segment} {stored root : Option String}
    {below others : Branches} (ordered : (Branches.branch segment stored below others).Ordered)
    {path : List Segment} (nonempty : path ≠ [])
    (reached : ((⟨root, others⟩ : TrieNode).descend? path).isSome = true) :
    ((⟨root, .branch segment stored below others⟩ : TrieNode).descend? path).isSome = true := by
  cases path with
  | nil => exact absurd rfl nonempty
  | cons first rest =>
    rw [descend?_cons, child?, Branches.find?_others ordered first] at reached
    split at reached
    · cases reached
    · exact reached

theorem TrieNode.freeze_clear {keys : RouteConfig} {node : TrieNode}
    (ordered : node.branches.Ordered)
    (free : ∀ path name, (node.descend? (path ++ [.literal name])).isSome = true →
      ¬ keys.Reserves name) :
    node.freeze.choices.Clear keys := by
  obtain ⟨root, branches⟩ := node
  induction branches generalizing root with
  | none => exact trivial
  | branch segment stored below others belowIH othersIH =>
    have ⟨after, belowOrdered, othersOrdered⟩ := ordered
    have child : (⟨root, .branch segment stored below others⟩ : TrieNode).child? segment =
        some ⟨stored, below⟩ := if_pos rfl
    have belowClear : below.freeze.Clear keys := by
      refine belowIH stored belowOrdered fun path name reached => free (segment :: path) name ?_
      rwa [List.cons_append, descend?_cons, child, Option.bind_some]
    have othersClear : others.freeze.Clear keys :=
      othersIH root othersOrdered fun path name reached =>
        free path name (descend?_others ordered (by simp) reached)
    cases segment with
    | literal name =>
      refine ⟨free [] name ?_, ?_, belowClear, othersClear⟩
      · rw [List.nil_append, descend?_cons, child]
        rfl
      · intro later member
        exact after _ ((Branches.mem_names_freeze_iff others later).mp member)
    | wildcard =>
      -- Nothing comes after the wildcard.
      cases others with
      | none => exact belowClear
      | branch next => exact absurd (after next List.mem_cons_self) id

theorem RouteTrie.Holds.clear {trie : RouteTrie} {pages : List String} {keys : RouteConfig}
    (holds : trie.Holds pages) (spared : ∀ page ∈ pages, keys.Spares page) :
    trie.root.freeze.choices.Clear keys :=
  TrieNode.freeze_clear trie.ordered fun _ _ reached => holds.unreserved spared reached

end EdgeRoutes
