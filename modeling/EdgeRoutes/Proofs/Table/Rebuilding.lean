import EdgeRoutes.Proofs.Compile.RouteTable
import EdgeRoutes.Proofs.Table.Lossless

/-! The table can be rebuilt from its JSON.

Read by the two keys, the members of an object give a node and its children: the string
under the page key is the page, the object under the wildcard key is the wildcard, and
every other member is a literal. For a table that comes out of a compilation this gives back
what has been written.
-/

set_option autoImplicit false

namespace EdgeRoutes

mutual

/-- The node that an object holds: its page is the string under the page key. -/
def TableNode.ofJson (keys : RouteConfig) : Json → TableNode
  | .object members =>
    { page := match Members.find? members keys.pageKey with
        | some (.string page) => some page
        | _ => none
      choices := Choices.ofMembers keys members }
  | _ => {}

/-- The children among the members of an object: the wildcard under its key, and a literal
under every other key but that of the page. -/
def Choices.ofMembers (keys : RouteConfig) : List (String × Json) → Choices
  | [] => .none
  | (key, value) :: members =>
    if key = keys.pageKey then Choices.ofMembers keys members
    else if key = keys.wildcardKey then
      Choices.withWildcard (TableNode.ofJson keys value).page (TableNode.ofJson keys value).choices
        (Choices.ofMembers keys members)
    else
      .literal key (TableNode.ofJson keys value).page (TableNode.ofJson keys value).choices
        (Choices.ofMembers keys members)

end

namespace Choices

variable {keys : RouteConfig} {choices : Choices}

theorem ofMembers_insert_page (value : Json) (members : List (String × Json)) :
    ofMembers keys (Members.insert keys.pageKey value members) = ofMembers keys members := by
  induction members with
  | nil => simp [Members.insert, ofMembers]
  | cons member members ih =>
    obtain ⟨key, stored⟩ := member
    unfold Members.insert
    split
    case isTrue same => simp [ofMembers, same]
    case isFalse differ =>
      split
      · simp [ofMembers]
      · simp only [ofMembers, ih]

def inFront (keys : RouteConfig) (members : List (String × Json)) (others : Choices) : Choices :=
  members.foldr (fun member others => .literal member.1 (TableNode.ofJson keys member.2).page
    (TableNode.ofJson keys member.2).choices others) others

theorem ofMembers_literals {members : List (String × Json)}
    (literals : ∀ member ∈ members, ¬ keys.Reserves member.1) :
    ofMembers keys members = inFront keys members .none := by
  induction members with
  | nil => rfl
  | cons member members ih =>
    have free := literals member List.mem_cons_self
    rw [ofMembers, if_neg fun same => free (Or.inr (Or.inl same)),
      if_neg fun same => free (Or.inl same),
      ih fun later present => literals later (List.mem_cons_of_mem member present)]
    rfl

theorem withWildcard_inFront (page : Option String) (below : Choices)
    (members : List (String × Json)) :
    withWildcard page below (inFront keys members .none) =
      inFront keys members (.wildcard page below) := by
  induction members with
  | nil => rfl
  | cons member members ih => exact congrArg (Choices.literal _ _ _) ih

theorem ofMembers_insert_wildcard (apart : keys.Apart) (child : Json)
    {members : List (String × Json)}
    (literals : ∀ member ∈ members, ¬ keys.Reserves member.1) :
    ofMembers keys (Members.insert keys.wildcardKey child members) =
      inFront keys members (.wildcard (TableNode.ofJson keys child).page
        (TableNode.ofJson keys child).choices) := by
  have first (others : List (String × Json))
      (free : ∀ member ∈ others, ¬ keys.Reserves member.1) :
      ofMembers keys ((keys.wildcardKey, child) :: others) =
        inFront keys others (.wildcard (TableNode.ofJson keys child).page
          (TableNode.ofJson keys child).choices) := by
    rw [ofMembers, if_neg apart.wildcard_ne_page, if_pos rfl, ofMembers_literals free,
      withWildcard_inFront]
  -- The wildcard may be inserted anywhere among the literals, and is found from there.
  induction members with
  | nil => exact first [] literals
  | cons member members ih =>
    have free := literals member List.mem_cons_self
    have later := ih fun other present => literals other (List.mem_cons_of_mem member present)
    rw [Members.insert, if_neg fun same => free (Or.inl same.symm)]
    split
    · exact first _ literals
    · rw [ofMembers, if_neg fun same => free (Or.inr (Or.inl same)),
        if_neg fun same => free (Or.inl same), later]
      rfl

theorem ofJson_toJson_of (apart : keys.Apart) {node : TableNode} (clear : node.choices.Clear keys)
    (children : ofMembers keys (node.choices.members keys []) = node.choices) :
    TableNode.ofJson keys (node.toJson keys) = node := by
  -- No child stands under the page key, so what is found there is the page or nothing.
  have page : Members.find? (node.members keys) keys.pageKey = node.page.map .string := by
    have absent : node.choices.literal? keys.pageKey = Option.none :=
      literal?_eq_none fun member => clear.unreserved _ member (Or.inr (Or.inl rfl))
    rw [TableNode.find?_members keys clear.names_nodup, if_pos rfl, under?,
      if_neg apart.wildcard_ne_page.symm, absent]
    cases node.page <;> rfl
  have choices : ofMembers keys (node.members keys) = node.choices := by
    unfold TableNode.members RouteConfig.withPage
    cases node.page with
    | none => exact children
    | some text => exact (ofMembers_insert_page _ _).trans children
  obtain ⟨stored, below⟩ := node
  rw [TableNode.toJson_eq, TableNode.ofJson, page, choices]
  cases stored <;> rfl

theorem ofMembers_members (apart : keys.Apart) (clear : choices.Clear keys)
    {collected : List (String × Json)}
    (literals : ∀ member ∈ collected, ¬ keys.Reserves member.1)
    (before : ∀ member ∈ collected, ∀ name ∈ choices.names, Text.Before member.1 name) :
    ofMembers keys (choices.members keys collected) = inFront keys collected choices := by
  induction choices generalizing collected with
  | none => exact ofMembers_literals literals
  | wildcard page below ih =>
    have child : TableNode.ofJson keys (TableNode.toJson keys ⟨page, below⟩) = ⟨page, below⟩ :=
      ofJson_toJson_of apart clear (ih clear (by simp) (by simp))
    have read := ofMembers_insert_wildcard apart (TableNode.toJson keys ⟨page, below⟩) literals
    rw [child] at read
    exact read
  | literal name page below others belowIH othersIH =>
    obtain ⟨free, after, belowClear, othersClear⟩ := clear
    have child : TableNode.ofJson keys (TableNode.toJson keys ⟨page, below⟩) = ⟨page, below⟩ :=
      ofJson_toJson_of apart belowClear (belowIH belowClear (by simp) (by simp))
    -- What has been collected comes before the new literal, so this is stored at the end.
    have stored : Members.insert name (TableNode.toJson keys ⟨page, below⟩) collected =
        collected ++ [(name, TableNode.toJson keys ⟨page, below⟩)] :=
      Members.insert_eq_append _ fun member present =>
        before member present name List.mem_cons_self
    have read : ofMembers keys (others.members keys
        (collected ++ [(name, TableNode.toJson keys ⟨page, below⟩)])) =
          inFront keys (collected ++ [(name, TableNode.toJson keys ⟨page, below⟩)]) others := by
      apply othersIH othersClear
      · intro member present
        rcases List.mem_append.mp present with earlier | last
        · exact literals member earlier
        · rwa [List.mem_singleton.mp last]
      · intro member present later named
        rcases List.mem_append.mp present with earlier | last
        · exact before member earlier later (List.mem_cons_of_mem name named)
        · rw [List.mem_singleton.mp last]
          exact after later named
    rw [← stored] at read
    refine read.trans ?_
    rw [stored, inFront, List.foldr_append, List.foldr_cons, List.foldr_nil, child]
    rfl

end Choices

theorem TableNode.ofJson_toJson {keys : RouteConfig} (apart : keys.Apart) {node : TableNode}
    (clear : node.choices.Clear keys) : ofJson keys (node.toJson keys) = node :=
  Choices.ofJson_toJson_of apart clear (Choices.ofMembers_members apart clear (by simp) (by simp))

section

variable {config : Config} {manifest : Manifest} {table : RouteTable}

theorem clear_of_routeTable (built : (routeTable config manifest).outcome = .ok table) :
    table.root.choices.Clear config.routes := by
  obtain ⟨trie, holds, spared, rfl⟩ := exists_holds_of_routeTable built
  exact holds.clear spared

theorem mentions_trieJson_iff (valid : config.violations = [])
    (built : (routeTable config manifest).outcome = .ok table) (page : String) :
    (table.trieJson config.routes).Mentions page ↔ page ∈ manifest.dynamicPages := by
  have apart := (config.violations_eq_nil_iff.mp valid).apart
  have clear := clear_of_routeTable built
  obtain ⟨trie, holds, _, rfl⟩ := exists_holds_of_routeTable built
  exact (TableNode.mentions_toJson_iff apart clear page).trans (holds.page_reached_iff page)

end

/-- The JSON of a table loses nothing: no member of any object takes the place of another, the
nodes can be read back by the two keys, and the dynamic pages are all the strings there are.
So manifests whose tables have the same JSON have the same dynamic pages. -/
theorem trieJson_lossless (config : Config) (manifest : Manifest) (table : RouteTable)
    (valid : config.violations = [])
    (built : (routeTable config manifest).outcome = .ok table) :
    (∀ node, table.root.Reaches node → node.Lossless config.routes) ∧
    TableNode.ofJson config.routes (table.trieJson config.routes) = table.root ∧
    (∀ page, (table.trieJson config.routes).Mentions page ↔ page ∈ manifest.dynamicPages) ∧
    ∀ (otherConfig : Config) (otherManifest : Manifest) (otherTable : RouteTable),
      otherConfig.violations = [] →
      (routeTable otherConfig otherManifest).outcome = .ok otherTable →
      table.trieJson config.routes = otherTable.trieJson otherConfig.routes →
      ∀ page, page ∈ manifest.dynamicPages ↔ page ∈ otherManifest.dynamicPages := by
  have apart := (config.violations_eq_nil_iff.mp valid).apart
  have clear := clear_of_routeTable built
  have mentions := mentions_trieJson_iff valid built
  refine ⟨fun node reaches => TableNode.lossless apart (reaches.clear clear),
    TableNode.ofJson_toJson apart clear, mentions, ?_⟩
  intro otherConfig otherManifest otherTable otherValid otherBuilt same page
  rw [← mentions, same, mentions_trieJson_iff otherValid otherBuilt]

theorem trieJson_lossless_items :
    ∃ (manifest : Manifest) (table : RouteTable),
      manifest.dynamicPages = ["/items/[id]", "/items/new", "/items"] ∧
      (routeTable {} manifest).outcome = .ok table ∧
      (∃ node, table.root.literal? "items" = some node ∧ node.Lossless {}) ∧
      TableNode.ofJson {} (table.trieJson {}) = table.root := by
  let manifest : Manifest := {
    version := 3
    dynamicRoutes := [{ page := "/items/[id]" }, { page := "/items/new" }, { page := "/items" }] }
  let items : TableNode := {
    page := some "/items"
    choices := .literal "new" (some "/items/new") .none (.wildcard (some "/items/[id]") .none) }
  let table : RouteTable :=
    { root := { choices := .literal "items" items.page items.choices .none } }
  have built : (routeTable {} manifest).outcome = .ok table := rfl
  have lossless := trieJson_lossless {} manifest table rfl built
  have found : table.root.literal? "items" = some items := rfl
  exact ⟨manifest, table, rfl, built,
    ⟨items, found, lossless.1 items (.literal found (.self items))⟩, lossless.2.1⟩

end EdgeRoutes
