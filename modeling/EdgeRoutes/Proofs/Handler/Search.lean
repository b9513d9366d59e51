import EdgeRoutes.Proofs.Config.Validation
import EdgeRoutes.Proofs.Handler.Script
import EdgeRoutes.Proofs.Resolution.Steps
import EdgeRoutes.Proofs.Script.Execution
import EdgeRoutes.Proofs.Script.Paths
import EdgeRoutes.Proofs.Table.Members

/-! The loop of the handler walks the table.

The script and the table go side by side: where the walk over the table is at a node, the
variable `node` holds the object of this node, and where the walk has no next node `childOf`
gives `null`. The children that the script finds are those of the node because the reserved
keys are apart and no literal is one of them.
-/

set_option autoImplicit false

namespace EdgeRoutes.Handler

open Script

/-- The variables are filled for a request that came with one path and is now looked up under
another. -/
structure Ready (data : Data) (path uri : String) (state : State) : Prop where
  request : state.read? "request" = some .request
  uri : state.read? "uri" = some (.text (Units.ofText uri))
  staticRoutes : state.read? "staticRoutes" = some (.array (data.staticRoutes.map .string))
  routeTrie : state.read? "routeTrie" = some (.ofJson data.routeTrie)
  suffix : state.read? "suffix" = some (.text (Units.ofText data.pageSuffix))
  wildcardKey : state.read? "wildcardKey" = some (.text (Units.ofText data.wildcardKey))
  pageKey : state.read? "pageKey" = some (.text (Units.ofText data.pageKey))
  path : state.path = Units.ofText path

/-- The script is in the loop, at a node and at a position of the segments. -/
structure AtNode (data : Data) (keys : RouteConfig) (path uri : String) (segments : List String)
    (position : Nat) (node : TableNode) (state : State) : Prop extends
    Ready data path uri state where
  childOf : state.read? "childOf" = some (.function "node" "key" childOf)
  segments : state.read? "segments" = some (.texts (segments.map Units.ofText))
  counter : state.read? "i" = some (.number position)
  node : state.read? "node" = some (.object (node.members keys))

variable {data : Data} {keys : RouteConfig} {path uri : String} {segments : List String}
  {position : Nat} {node : TableNode} {state : State}

namespace Ready

theorem set (ready : Ready data path uri state) {name : String} (value : Value)
    (free : name ∉ ["request", "uri", "staticRoutes", "routeTrie", "suffix", "wildcardKey",
      "pageKey"]) : Ready data path uri (state.set name value) := by
  simp only [List.mem_cons, List.not_mem_nil, or_false, not_or] at free
  obtain ⟨request, uri, staticRoutes, routeTrie, suffix, wildcardKey, pageKey⟩ := free
  exact {
    request := (state.read?_set_of_ne value request).trans ready.request
    uri := (state.read?_set_of_ne value uri).trans ready.uri
    staticRoutes := (state.read?_set_of_ne value staticRoutes).trans ready.staticRoutes
    routeTrie := (state.read?_set_of_ne value routeTrie).trans ready.routeTrie
    suffix := (state.read?_set_of_ne value suffix).trans ready.suffix
    wildcardKey := (state.read?_set_of_ne value wildcardKey).trans ready.wildcardKey
    pageKey := (state.read?_set_of_ne value pageKey).trans ready.pageKey
    path := ready.path }

theorem setUri (ready : Ready data path uri state) (other : String) :
    Ready data path other (state.set "uri" (.text (Units.ofText other))) where
  request := (state.read?_set_of_ne _ (by decide)).trans ready.request
  uri := state.read?_set_self _ _
  staticRoutes := (state.read?_set_of_ne _ (by decide)).trans ready.staticRoutes
  routeTrie := (state.read?_set_of_ne _ (by decide)).trans ready.routeTrie
  suffix := (state.read?_set_of_ne _ (by decide)).trans ready.suffix
  wildcardKey := (state.read?_set_of_ne _ (by decide)).trans ready.wildcardKey
  pageKey := (state.read?_set_of_ne _ (by decide)).trans ready.pageKey
  path := ready.path

theorem returns (ready : Ready data path uri state) (rest : Block) :
    Runs data (Block.giveBack (.name "request") rest) state
      (.gaveBack .request (Units.ofText path)) := by
  rw [← ready.path]
  exact .giveBack ready.request

end Ready

namespace AtNode

theorem setNext (here : AtNode data keys path uri segments position node state) (value : Value) :
    AtNode data keys path uri segments position node (state.set "next" value) where
  toReady := here.toReady.set value (by decide)
  childOf := (state.read?_set_of_ne value (by decide)).trans here.childOf
  segments := (state.read?_set_of_ne value (by decide)).trans here.segments
  counter := (state.read?_set_of_ne value (by decide)).trans here.counter
  node := (state.read?_set_of_ne value (by decide)).trans here.node

theorem setNode (here : AtNode data keys path uri segments position node state)
    (below : TableNode) :
    AtNode data keys path uri segments position below
      (state.set "node" (.object (below.members keys))) where
  toReady := here.toReady.set _ (by decide)
  childOf := (state.read?_set_of_ne _ (by decide)).trans here.childOf
  segments := (state.read?_set_of_ne _ (by decide)).trans here.segments
  counter := (state.read?_set_of_ne _ (by decide)).trans here.counter
  node := state.read?_set_self _ _

theorem setCounter (here : AtNode data keys path uri segments position node state)
    (other : Nat) :
    AtNode data keys path uri segments other node (state.set "i" (.number other)) where
  toReady := here.toReady.set _ (by decide)
  childOf := (state.read?_set_of_ne _ (by decide)).trans here.childOf
  segments := (state.read?_set_of_ne _ (by decide)).trans here.segments
  counter := state.read?_set_self _ _
  node := (state.read?_set_of_ne _ (by decide)).trans here.node

end AtNode

def child : Option Json → Value
  | none => .null
  | some value => if (Value.ofJson value).typeName = "object" then .ofJson value else .null

theorem childOf_runs (members : List (String × Json)) (key path : Units) :
    Runs data childOf ⟨[("node", .object members), ("key", .text key)], path⟩
      (.gaveBack (child (own? members key)) path) := by
  -- The call has only its two arguments in scope.
  let inside : State := ⟨[("node", .object members), ("key", .text key)], path⟩
  have node : inside.read? "node" = some (.object members) := rfl
  have keyed : inside.read? "key" = some (.text key) := rfl
  change Runs data childOf inside (.gaveBack (child (own? members key)) inside.path)
  cases found : own? members key with
  | none =>
    have test : objectTest.value? data inside = some (.boolean false) := by
      simp [objectTest, node, keyed, found]
    exact .skip test rfl (.giveBack rfl)
  | some value =>
    have read : Value.property members key = .ofJson value := by
      simp [Value.property, found]
    have test : objectTest.value? data inside =
        some (.boolean (decide ((Value.ofJson value).typeName = "object"))) := by
      simp [objectTest, node, keyed, found, read]
    by_cases object : (Value.ofJson value).typeName = "object"
    · have given : child (some value) = .ofJson value := if_pos object
      rw [given]
      refine .leave test (decide_eq_true object) (.giveBack ?_)
      simp [node, keyed, read]
    · have given : child (some value) = .null := if_neg object
      rw [given]
      exact .skip test (decide_eq_false object) (.giveBack rfl)

def nodeValue (keys : RouteConfig) : Option TableNode → Value
  | none => .null
  | some node => .object (node.members keys)

theorem own?_members (separable : node.Separable keys) (key : String) :
    own? (node.members keys) (Units.ofText key) =
      if key = prototypeKey then none
      else (if key = keys.pageKey then node.page.map .string else none) <|>
        (node.choices.under? keys key).map (·.toJson keys) := by
  rw [own?_eq (node.members_sorted keys), TableNode.find?_members keys (separable [] node rfl).1]

/-- The script finds the child that stands under a key: neither a page, which is no object,
nor the prototype is taken for one. -/
theorem child_members (apart : keys.Apart) (separable : node.Separable keys) (key : String) :
    child (own? (node.members keys) (Units.ofText key)) =
      nodeValue keys (node.choices.under? keys key) := by
  rw [own?_members separable]
  by_cases prototype : key = prototypeKey
  · -- Nothing is lost where the prototype is hidden: no child stands under its key.
    have none := separable.under?_eq_none (Or.inr (Or.inr prototype))
      (prototype ▸ apart.wildcard_ne_prototype.symm)
    rw [if_pos prototype, none]
    rfl
  rw [if_neg prototype]
  by_cases page : key = keys.pageKey
  · have none := separable.under?_eq_none (Or.inr (Or.inl page))
      (page ▸ apart.wildcard_ne_page.symm)
    rw [if_pos page, none]
    cases node.page <;> rfl
  · rw [if_neg page]
    cases node.choices.under? keys key <;> rfl

theorem missingTest_value (keys : RouteConfig) (found : Option TableNode)
    (next : state.read? "next" = some (nodeValue keys found)) :
    missingTest.value? data state = some (.boolean found.isNone) := by
  cases found <;>
    simp [missingTest, next, nodeValue]

namespace AtNode

theorem call_runs (here : AtNode data keys path uri segments position node state)
    (apart : keys.Apart) (separable : node.Separable keys) {declared : Bool} {key : String}
    {argument : Expression} {rest : Block} {outcome : Outcome}
    (evaluated : argument.value? data state = some (.text (Units.ofText key)))
    (after : Runs data rest (state.set "next" (nodeValue keys (node.choices.under? keys key)))
      outcome) :
    Runs data (Block.store declared "next" (.call "childOf" (.name "node") argument) rest) state
      outcome := by
  have called := @childOf_runs data (node.members keys) (Units.ofText key) state.path
  rw [child_members apart separable] at called
  exact .call here.childOf here.node evaluated called after

theorem choose_runs (here : AtNode data keys path uri segments position node state)
    (wildcardKey : data.wildcardKey = keys.wildcardKey) (apart : keys.Apart)
    (separable : node.Separable keys) {text : String}
    (segment : segments[position]? = some text) :
    ∃ after, AtNode data keys path uri segments position node after ∧
      after.read? "next" = some (nodeValue keys (node.child? text)) ∧
      ∀ (rest : Block) outcome, Runs data rest after outcome →
        Runs data (choose rest) state outcome := by
  have argument : (Expression.item (.name "segments") (.name "i")).value? data state =
      some (.text (Units.ofText text)) := by
    simp [here.segments, here.counter, segment]
  rw [separable.child?_eq]
  cases found : node.choices.under? keys text with
  | some below =>
    refine ⟨_, here.setNext (nodeValue keys (some below)), state.read?_set_self _ _, ?_⟩
    intro rest outcome runs
    apply here.call_runs apart separable argument
    rw [found]
    exact .skip (missingTest_value keys (some below) (state.read?_set_self _ _)) rfl runs
  | none =>
    have chosen := here.setNext (nodeValue keys none)
    -- The segment gave `null`, so `childOf` is called again, for the wildcard key.
    refine ⟨_, chosen.setNext (nodeValue keys (node.choices.under? keys keys.wildcardKey)),
      State.read?_set_self _ _ _, ?_⟩
    intro rest outcome runs
    apply here.call_runs apart separable argument
    rw [found]
    refine .enter (missingTest_value keys none (state.read?_set_self _ _)) rfl ?_ runs
    apply chosen.call_runs apart separable _ (.done _)
    rw [← wildcardKey]
    exact chosen.wildcardKey

theorem turn_runs (here : AtNode data keys path uri segments position node state)
    (wildcardKey : data.wildcardKey = keys.wildcardKey) (apart : keys.Apart)
    (separable : node.Separable keys) {text : String}
    (segment : segments[position]? = some text) {below : TableNode}
    (found : node.child? text = some below) :
    ∃ next, Runs data turn state (.next next) ∧
      AtNode data keys path uri segments position below next := by
  obtain ⟨after, chosen, next, runs⟩ := here.choose_runs wildcardKey apart separable segment
  rw [found] at next
  refine ⟨_, ?_, chosen.setNode below⟩
  apply runs
  exact .skip (missingTest_value keys (some below) next) rfl (.store next (.done _))

theorem turn_returns (here : AtNode data keys path uri segments position node state)
    (wildcardKey : data.wildcardKey = keys.wildcardKey) (apart : keys.Apart)
    (separable : node.Separable keys) {text : String}
    (segment : segments[position]? = some text) (missing : node.child? text = none) :
    Runs data turn state (.gaveBack .request (Units.ofText path)) := by
  obtain ⟨after, chosen, next, runs⟩ := here.choose_runs wildcardKey apart separable segment
  rw [missing] at next
  apply runs
  exact .leave (missingTest_value keys none next) rfl (chosen.returns .done)

theorem bound_value (here : AtNode data keys path uri segments position node state) :
    (Expression.binary (.name "i") .below (.member (.name "segments") "length")).value? data
      state = some (.boolean (decide (position < segments.length))) := by
  simp [here.counter, here.segments]

/-- The rest of the loop walks the table along the segments that are left. -/
theorem turns_run (here : AtNode data keys path uri segments position node state)
    (wildcardKey : data.wildcardKey = keys.wildcardKey) (apart : keys.Apart)
    (separable : node.Separable keys) {left : List String} (split : segments.drop position = left)
    {rest : Block} {answer : Units}
    (ends : ∀ last position state, node.walk? left = some last →
      AtNode data keys path uri segments position last state →
      Runs data rest state (.gaveBack .request answer))
    (stops : node.walk? left = none → answer = Units.ofText path) :
    Runs data (.turns "i" (.member (.name "segments") "length") turn rest) state
      (.gaveBack .request answer) := by
  have test := here.bound_value
  -- The induction is on the segments that are left; the script is at a node throughout.
  induction left generalizing state position node with
  | nil =>
    have finished : ¬ position < segments.length :=
      Nat.not_lt_of_le (List.drop_eq_nil_iff.mp split)
    rw [decide_eq_false finished] at test
    exact .finish test (ends node position state rfl here)
  | cons text others ih =>
    have segment : segments[position]? = some text := by
      rw [← Nat.add_zero position, ← List.getElem?_drop, split]
      rfl
    have further : segments.drop (position + 1) = others := by
      rw [← List.tail_drop, split]
      rfl
    rw [decide_eq_true (List.getElem?_eq_some_iff.mp segment).1] at test
    cases found : node.child? text with
    | none =>
      have stopped : node.walk? (text :: others) = none := by
        rw [TableNode.walk?, found]
        rfl
      rw [stops stopped]
      exact .leaveTurn test (here.turn_returns wildcardKey apart separable segment found)
    | some below =>
      have walked : node.walk? (text :: others) = below.walk? others := by
        rw [TableNode.walk?, found]
        rfl
      obtain ⟨next, turned, there⟩ := here.turn_runs wildcardKey apart separable segment found
      have moved := there.setCounter (position + 1)
      rw [walked] at ends stops
      exact .turn test turned there.counter
        (ih moved (separable.child found) further ends stops moved.bound_value)

end AtNode

def served (path suffix : Units) : Value → Units
  | .text page => page ++ suffix
  | _ => path

theorem servePage_runs (ready : Ready data path uri state) {members : List (String × Json)}
    (node : state.read? "node" = some (.object members)) :
    Runs data servePage state (.gaveBack .request
      (served (Units.ofText path) (Units.ofText data.pageSuffix)
        (Value.property members (Units.ofText data.pageKey)))) := by
  generalize found : Value.property members (Units.ofText data.pageKey) = value
  have test : stringTest.value? data state =
      some (.boolean (decide (value.typeName = "string"))) := by
    simp [stringTest, node, ready.pageKey, found]
  cases value with
  | text page =>
    have joined : (Expression.binary (.item (.name "node") (.name "pageKey")) .plus
        (.name "suffix")).value? data state =
        some (.text (page ++ Units.ofText data.pageSuffix)) := by
      simp [node, ready.pageKey, found, ready.suffix]
    exact .enter test rfl (.assignPath joined (.done _)) (.giveBack ready.request)
  | _ => exact .skip test rfl (ready.returns .done)

theorem served_members (apart : keys.Apart) (separable : node.Separable keys)
    (path suffix : String) :
    served (Units.ofText path) (Units.ofText suffix)
        (Value.property (node.members keys) (Units.ofText keys.pageKey)) =
      Units.ofText ((node.page.map (· ++ suffix)).getD path) := by
  have none := separable.under?_eq_none (Or.inr (Or.inl rfl)) apart.wildcard_ne_page.symm
  have own : own? (node.members keys) (Units.ofText keys.pageKey) = node.page.map .string := by
    rw [own?_members separable, if_neg apart.page_ne_prototype, if_pos rfl, none]
    cases node.page <;> rfl
  unfold Value.property
  rw [own]
  cases node.page with
  | some page => exact (Units.ofText_append page suffix).symm
  | none =>
    simp only [Option.map_none]
    split
    · rfl
    · split <;> rfl

/-- The statements from the segments on look the path up in the table. -/
theorem search_runs {config : Config} {table : RouteTable} (apart : config.routes.Apart)
    (separable : table.root.Separable config.routes)
    (ready : Ready (.ofTable config table) path uri state)
    (known : state.read? "childOf" = some (.function "node" "key" childOf)) :
    Runs (.ofTable config table) search state (.gaveBack .request
      (Units.ofText (((table.lookUp config.matcher uri).target?).getD path))) := by
  have pieces : (Expression.split (.name "uri") (.text "/")).value? (.ofTable config table) state =
      some (.texts ((Units.ofText uri).split Units.slash)) := by
    simp [ready.uri]
    rfl
  have tested (item : Units) : (Expression.binary (.name "segment") .different
      (.text "")).value? (.ofTable config table) (state.set "segment" (.text item)) =
      some (.boolean (item ≠ [])) := by
    have none : Units.ofText "" = [] := rfl
    simp [none]
  refine .keep pieces (fun item _ => tested item) ?_
  rw [Units.segments_ofText]
  have listed : Ready (.ofTable config table) path uri
      (state.set "segments" (.texts ((Path.segments uri).map Units.ofText))) :=
    ready.set _ (by decide)
  have length : emptyTest.value? (.ofTable config table)
      (state.set "segments" (.texts ((Path.segments uri).map Units.ofText))) =
      some (.boolean (decide ((Path.segments uri).length = 0))) := by
    simp [emptyTest]
  rw [RouteTable.target?_lookUp]
  cases segments : Path.segments uri with
  | nil =>
    rw [segments] at listed length
    exact .leave length rfl (listed.returns .done)
  | cons text rest =>
    rw [segments] at listed length
    rw [if_neg (List.cons_ne_nil text rest)]
    refine .skip length rfl (.empty (.remark (.store listed.routeTrie (.loop ?_))))
    have object : Value.ofJson (table.trieJson config.routes) =
        .object (table.root.members config.routes) := by
      rw [RouteTable.trieJson, TableNode.toJson_eq, Value.ofJson]
    -- The loop starts at the root with the whole list of segments before it.
    have here : AtNode (.ofTable config table) config.routes path uri (text :: rest) 0 table.root
        (((state.set "segments" (.texts ((text :: rest).map Units.ofText))).set "node"
          (.ofJson (table.trieJson config.routes))).set "i" (.number 0)) := {
      toReady := (listed.set _ (by decide)).set _ (by decide)
      childOf := by simp [known]
      segments := by simp
      counter := by simp
      node := by simp [object] }
    have start : (text :: rest).drop 0 = text :: rest := rfl
    refine here.turns_run rfl apart separable start ?_ ?_
    · intro last position state walked there
      have ran := servePage_runs there.toReady there.node
      change Runs _ _ _ (.gaveBack .request (served _ (Units.ofText config.matcher.pageSuffix)
        (Value.property _ (Units.ofText config.routes.pageKey)))) at ran
      rw [served_members apart (separable.walk walked)] at ran
      rw [walked]
      exact .empty ran
    · intro stopped
      rw [stopped]
      rfl

end EdgeRoutes.Handler
