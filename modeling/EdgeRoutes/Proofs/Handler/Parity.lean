import EdgeRoutes.Proofs.Compile.RouteTable
import EdgeRoutes.Proofs.Handler.Search

/-! The handler rewrites a request as the table does.

The text of the handler is that of a script, and whatever path a request has when the script
is called, it has the path to which the table rewrites it when the script returns it. The
tests of the script on units come out as those of the table on characters, one by one.
-/

set_option autoImplicit false

namespace EdgeRoutes.Handler

open Script

variable {data : Data} {path uri : String} {state : State}

/-- The test for stored files holds for paths under the internal prefix and paths with an
extension. Its value need not be a truth value: it can be the empty last piece. -/
theorem fileTest_value (ready : Ready data path uri state)
    (last : state.read? "last" =
      some (.text (((Units.ofText uri).split Units.slash).getLastD []))) :
    ∃ value, fileTest.value? data state = some value ∧
      value.truthy = (Text.startsWith uri data.internalPrefix || Path.hasExtension uri) := by
  have starts := Units.indexOf_ofText_eq_zero_iff uri data.internalPrefix
  have extension := Units.extension_iff uri
  generalize ((Units.ofText uri).split Units.slash).getLastD [] = piece at last extension
  have dot : Units.ofText "." = [Units.dot] := rfl
  have hole : Value.ofJson (data.value .internalPrefix) =
    .text (Units.ofText data.internalPrefix) := rfl
  by_cases internal : Text.startsWith uri data.internalPrefix = true
  · refine ⟨.boolean true, ?_, by simp [internal]⟩
    simp [fileTest, ready.uri, hole, starts.mpr internal]
  have outside := mt starts.mp internal
  by_cases empty : piece = []
  · have plain := mt extension.mpr (fun both => both.1 empty)
    -- The empty piece is itself the value of the test, and counts as false.
    refine ⟨.text [], ?_, by simp [internal, plain]⟩
    simp [fileTest, ready.uri, last, hole, outside, empty]
  · rw [and_iff_right empty] at extension
    refine ⟨.boolean (decide (piece.indexOf [Units.dot] ≠ -1)), ?_, ?_⟩
    · simp [fileTest, ready.uri, last, hole, outside, empty, dot]
    · rw [Bool.not_eq_true] at internal
      rw [internal, Bool.false_or, Value.truthy, Bool.eq_iff_iff, decide_eq_true_iff, extension]

theorem slashTest_value (ready : Ready data path uri state) :
    slashTest.value? data state = some (.boolean (decide
      ((Units.ofText uri).charAt ((Units.ofText uri).length - 1) = [Units.slash]))) := by
  have slash : Units.ofText "/" = [Units.slash] := rfl
  simp [slashTest, ready.uri, slash]

theorem endsTest_value (ready : Ready data path uri state) :
    endsTest.value? data state = some (.boolean (Text.endsWith uri data.pageSuffix)) := by
  have ends := Units.ends_ofText_iff uri data.pageSuffix
  by_cases fits : (Units.ofText uri).length ≥ (Units.ofText data.pageSuffix).length
  · rw [and_iff_right fits] at ends
    simp [endsTest, ready.uri, ready.suffix, fits, ends]
  · have short := mt ends.mpr (fun both => fits both.1)
    simp [endsTest, ready.uri, ready.suffix, fits, short]

theorem rootTest_value (ready : Ready data path uri state) :
    rootTest.value? data state = some (.boolean uri.isEmpty) := by
  have none : Units.ofText "" = [] := rfl
  have blank : decide (Units.ofText uri = []) = uri.isEmpty := by
    rw [Bool.eq_iff_iff, decide_eq_true_iff, Units.ofText_eq_nil_iff]
  simp [rootTest, ready.uri, none, blank]

theorem listedTest_value (ready : Ready data path uri state) :
    listedTest.value? data state = some (.boolean (data.staticRoutes.contains uri)) := by
  have listed := positionOf_ne_neg_one_iff data.staticRoutes uri
  by_cases member : uri ∈ data.staticRoutes
  · simp [listedTest, ready.uri, ready.staticRoutes, member, listed.mpr member]
  · have absent := Classical.not_not.mp (mt listed.mp member)
    simp [listedTest, ready.uri, ready.staticRoutes, member, absent]

theorem dropSlash_runs (ready : Ready data path uri state) :
    ∃ after, Ready data path (Path.dropTrailingSlash uri) after ∧
      ∀ (rest : Block) outcome, Runs data rest after outcome →
        Runs data (dropSlash rest) state outcome := by
  have test := slashTest_value ready
  have dropped := Units.ofText_dropTrailingSlash uri
  by_cases ends : (Units.ofText uri).charAt ((Units.ofText uri).length - 1) = [Units.slash]
  · rw [if_pos ends] at dropped
    rw [decide_eq_true ends] at test
    refine ⟨_, ready.setUri (Path.dropTrailingSlash uri), ?_⟩
    intro rest outcome runs
    refine .enter test rfl (.store ?_ (.done _)) runs
    rw [← dropped]
    simp [ready.uri]
  · rw [if_neg ends] at dropped
    rw [decide_eq_false ends] at test
    refine ⟨state, ?_, ?_⟩
    · rw [← Units.ofText_inj.mp dropped]
      exact ready
    · intro rest outcome runs
      exact .skip test rfl runs

variable {config : Config} {table : RouteTable}

theorem pageTests_run (apart : config.routes.Apart)
    (separable : table.root.Separable config.routes)
    (ready : Ready (.ofTable config table) path uri state) :
    Runs (.ofTable config table) pageTests state (.gaveBack .request (Units.ofText
      ((if Text.endsWith uri config.matcher.pageSuffix = true then Resolution.alreadyResolved
        else if uri.isEmpty = true then .root config.matcher.rootPage
        else if table.isStatic uri = true then .static (uri ++ config.matcher.pageSuffix)
        else table.lookUp config.matcher uri).target?.getD path))) := by
  -- The tests in the order of the script, each leaving with the answer of the resolution.
  by_cases ends : Text.endsWith uri config.matcher.pageSuffix = true
  · rw [if_pos ends]
    exact .leave (endsTest_value ready) ends (ready.returns .done)
  rw [if_neg ends]
  refine .skip (endsTest_value ready) (Bool.not_eq_true _ ▸ ends) (.empty ?_)
  by_cases root : uri.isEmpty = true
  · rw [if_pos root]
    exact .leave (rootTest_value ready) root (.assignPath rfl (.giveBack ready.request))
  rw [if_neg root]
  refine .skip (rootTest_value ready) (Bool.not_eq_true _ ▸ root) (.empty ?_)
  by_cases static : table.isStatic uri = true
  · have joined : (Expression.binary (.name "uri") .plus (.name "suffix")).value?
        (.ofTable config table) state =
        some (.text (Units.ofText (uri ++ config.matcher.pageSuffix))) := by
      rw [Units.ofText_append]
      simp [ready.uri, ready.suffix, Data.ofTable]
    rw [if_pos static]
    exact .leave (listedTest_value ready) static (.assignPath joined (.giveBack ready.request))
  rw [if_neg static]
  refine .skip (listedTest_value ready) (Bool.not_eq_true _ ▸ static)
    (.empty (.function (.empty ?_)))
  exact search_runs apart separable (ready.set _ (by decide)) (state.read?_set_self _ _)

theorem tests_run (apart : config.routes.Apart) (separable : table.root.Separable config.routes)
    (ready : Ready (.ofTable config table) path path state) :
    Runs (.ofTable config table) tests state (.gaveBack .request
      (Units.ofText (table.rewrite config.matcher path))) := by
  have piece : (Expression.pop (.split (.name "uri") (.text "/"))).value? (.ofTable config table)
      state = some (.text (((Units.ofText path).split Units.slash).getLastD [])) := by
    have last := Units.getLast?_split_ofText path
    simp only [Expression.value?, ready.uri]
    change (Value.texts ((Units.ofText path).split Units.slash)).pop? = _
    rw [Value.pop?, last]
    rfl
  have split : Ready (.ofTable config table) path path
      (state.set "last" (.text (((Units.ofText path).split Units.slash).getLastD []))) :=
    ready.set _ (by decide)
  -- The script asks for a point in the last piece, the resolution for an extension.
  obtain ⟨value, test, holds⟩ := fileTest_value split (state.read?_set_self _ _)
  unfold RouteTable.rewrite RouteTable.resolve
  refine .remark (.store piece ?_)
  by_cases asset : (Text.startsWith path config.matcher.internalPrefix ||
      Path.hasExtension path) = true
  · rw [if_pos asset]
    exact .leave test (holds.trans asset) (split.returns .done)
  rw [if_neg asset]
  obtain ⟨after, dropped, runs⟩ := dropSlash_runs split
  refine .skip test (holds.trans (Bool.not_eq_true _ ▸ asset)) (.empty (runs _ _ (.empty ?_)))
  exact pageTests_run apart separable dropped

/-- A handler with this body, called for a request with the first path, returns the request
with the second. -/
def Serves (body : Block) (data : Data) (path answer : Units) : Prop :=
  Runs data body ⟨[("event", .event)], path⟩ (.gaveBack .request answer)

/-- The text of the handler is that of the script, and called for any request it returns this
request, with the path to which the table rewrites it and no other. -/
theorem serves_script_iff (config : Config) (manifest : Manifest) (table : RouteTable)
    (valid : config.violations = [])
    (compiled : (routeTable config manifest).outcome = .ok table) :
    sourceLines = handlerLines script ∧
    ∀ (path : String) (answer : Units),
      Serves script (.ofTable config table) (Units.ofText path) answer ↔
        answer = Units.ofText (table.rewrite config.matcher path) := by
  have apart := (config.violations_eq_nil_iff.mp valid).apart
  have separable := separable_of_routeTable compiled
  refine ⟨sourceLines_eq, ?_⟩
  intro path answer
  have served : Serves script (.ofTable config table) (Units.ofText path)
      (Units.ofText (table.rewrite config.matcher path)) := by
    -- Filling the variables depends on nothing in the request but its path.
    refine .store rfl (.store rfl (.empty (.store rfl (.store rfl (.store rfl (.store rfl
      (.store rfl (.empty ?_))))))))
    apply tests_run apart separable
    constructor <;> rfl
  constructor
  · intro serves
    cases serves.deterministic served
    rfl
  · rintro rfl
    exact served

/-- A segment that is the prototype key is no literal, but a wildcard takes it. -/
theorem serves_script_prototype :
    ∃ (manifest : Manifest) (table : RouteTable), manifest.dynamicPages = ["/items/[id]"] ∧
      (routeTable {} manifest).outcome = .ok table ∧
      Serves script (.ofTable {} table) (Units.ofText "/items/__proto__/")
        (Units.ofText "/items/[id].html") := by
  let manifest : Manifest := { version := 3, dynamicRoutes := [{ page := "/items/[id]" }] }
  let table : RouteTable :=
    { root := { choices := .literal "items" none (.wildcard (some "/items/[id]") .none) .none } }
  have compiled : (routeTable {} manifest).outcome = .ok table := rfl
  have serves := (serves_script_iff {} manifest table rfl compiled).2 "/items/__proto__/"
    (Units.ofText "/items/[id].html")
  exact ⟨manifest, table, rfl, compiled, serves.mpr rfl⟩

end EdgeRoutes.Handler
