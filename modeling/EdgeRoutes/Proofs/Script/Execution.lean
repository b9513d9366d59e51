import EdgeRoutes.Proofs.Script.Values

/-! Running a script.

A run carries the variables in scope and the path of the request, which is all that a script
can change. A function sees its two arguments and nothing else. What a run ends in is
determined by what it starts from.
-/

set_option autoImplicit false

namespace EdgeRoutes.Script

structure State where
  scope : List (String × Value)
  path : Units

namespace State

def read? (state : State) (name : String) : Option Value :=
  Members.find? state.scope name

def set (state : State) (name : String) (value : Value) : State :=
  { state with scope := (name, value) :: state.scope }

def setPath (state : State) (path : Units) : State := { state with path := path }

@[simp] theorem read?_set (state : State) (name : String) (value : Value) (other : String) :
    (state.set name value).read? other = if name = other then some value else state.read? other :=
  Members.find?_cons name value state.scope other

theorem read?_set_self (state : State) (name : String) (value : Value) :
    (state.set name value).read? name = some value := by
  rw [read?_set, if_pos rfl]

theorem read?_set_of_ne (state : State) {name other : String} (value : Value)
    (differ : name ≠ other) : (state.set name value).read? other = state.read? other := by
  rw [read?_set, if_neg differ]

end State

/-- A block is run to its end, or it gives back a value on the way. -/
inductive Outcome where
  | next (state : State)
  | gaveBack (value : Value) (path : Units)

namespace Outcome

def value : Outcome → Value
  | .next _ => .undefined
  | .gaveBack value _ => value

def path : Outcome → Units
  | .next state => state.path
  | .gaveBack _ path => path

end Outcome

variable (data : Handler.Data)

@[simp] def Value.member? (path : Units) : Value → String → Option Value
  | .event, "request" => some .request
  | .request, "uri" => some (.text path)
  | .text units, "length" => some (.number units.length)
  | .texts items, "length" => some (.number items.length)
  | _, _ => none

@[simp] def Expression.value? (state : State) : Expression → Option Value
  | .name word => state.read? word
  | .hole place => some (.ofJson (data.value place))
  | .text content => some (.text (Units.ofText content))
  | .number amount => some (.number amount)
  | .null => some .null
  | .group inner => inner.value? state
  | .and left right => do
    let first ← left.value? state
    if first.truthy then right.value? state else some first
  | .or left right => do
    let first ← left.value? state
    if first.truthy then some first else right.value? state
  | .binary left operator right => do
    operator.value? (← left.value? state) (← right.value? state)
  | .typeOf operand => do some (.text (Units.ofText (← operand.value? state).typeName))
  | .member object property => do (← object.value? state).member? state.path property
  | .item object key => do (← object.value? state).item? (← key.value? state)
  | .hasOwn object key => do (← object.value? state).hasOwn? (← key.value? state)
  | .split whole separator => do (← whole.value? state).split? (← separator.value? state)
  | .pop list => do (← list.value? state).pop?
  | .indexOf within part => do (← within.value? state).indexOf? (← part.value? state)
  | .charAt whole position => do (← whole.value? state).charAt? (← position.value? state)
  | .sliceFrom whole start => do (← whole.value? state).sliceFrom? (← start.value? state)
  | .slice whole start stop => do
    (← whole.value? state).slice? (← start.value? state) (← stop.value? state)

/-- What is still to be run: a block, or further turns of a loop with what follows it. -/
inductive Work where
  | block (block : Block)
  | turns (counter : String) (bound : Expression) (body rest : Block)

instance : Coe Block Work := ⟨.block⟩

inductive Runs : Work → State → Outcome → Prop where
  | done (state : State) : Runs Block.done state (.next state)
  | empty {rest : Block} {state : State} {outcome : Outcome} (after : Runs rest state outcome) :
      Runs (Block.empty rest) state outcome
  | remark {text : String} {rest : Block} {state : State} {outcome : Outcome}
      (after : Runs rest state outcome) : Runs (Block.remark text rest) state outcome
  | store {declared : Bool} {name : String} {expression : Expression} {rest : Block}
      {state : State} {outcome : Outcome} {value : Value}
      (evaluated : expression.value? data state = some value)
      (after : Runs rest (state.set name value) outcome) :
      Runs (Block.store declared name (.value expression) rest) state outcome
  | call {declared : Bool} {name function first second : String} {left right : Expression}
      {body rest : Block} {state : State} {ended outcome : Outcome} {one two : Value}
      (callee : state.read? function = some (.function first second body))
      (evaluated : left.value? data state = some one)
      (evaluatedNext : right.value? data state = some two)
      (called : Runs body ⟨[(first, one), (second, two)], state.path⟩ ended)
      (after : Runs rest ((state.setPath ended.path).set name ended.value) outcome) :
      Runs (Block.store declared name (.call function left right) rest) state outcome
  | assignPath {expression : Expression} {rest : Block} {state : State} {outcome : Outcome}
      {path : Units} (evaluated : expression.value? data state = some (.text path))
      (after : Runs rest (state.setPath path) outcome) :
      Runs (Block.assignPath expression rest) state outcome
  | keep {name parameter : String} {list test : Expression} {rest : Block} {state : State}
      {outcome : Outcome} {items : List Units} {passes : Units → Bool}
      (evaluated : list.value? data state = some (.texts items))
      (tested : ∀ item ∈ items,
        test.value? data (state.set parameter (.text item)) = some (.boolean (passes item)))
      (after : Runs rest (state.set name (.texts (items.filter passes))) outcome) :
      Runs (Block.keep name list parameter test rest) state outcome
  | skip {condition : Expression} {body rest : Block} {state : State} {outcome : Outcome}
      {value : Value} (evaluated : condition.value? data state = some value)
      (fails : value.truthy = false) (after : Runs rest state outcome) :
      Runs (Block.branch condition body rest) state outcome
  | enter {condition : Expression} {body rest : Block} {state next : State}
      {outcome : Outcome} {value : Value}
      (evaluated : condition.value? data state = some value) (holds : value.truthy = true)
      (inside : Runs body state (.next next)) (after : Runs rest next outcome) :
      Runs (Block.branch condition body rest) state outcome
  | leave {condition : Expression} {body rest : Block} {state : State} {value given : Value}
      {path : Units} (evaluated : condition.value? data state = some value)
      (holds : value.truthy = true) (inside : Runs body state (.gaveBack given path)) :
      Runs (Block.branch condition body rest) state (.gaveBack given path)
  | loop {counter : String} {bound : Expression} {body rest : Block} {state : State}
      {outcome : Outcome}
      (turns : Runs (.turns counter bound body rest) (state.set counter (.number 0)) outcome) :
      Runs (Block.loop counter bound body rest) state outcome
  | finish {counter : String} {bound : Expression} {body rest : Block} {state : State}
      {outcome : Outcome}
      (fails : (Expression.binary (.name counter) .below bound).value? data state =
        some (.boolean false))
      (after : Runs rest state outcome) : Runs (.turns counter bound body rest) state outcome
  | turn {counter : String} {bound : Expression} {body rest : Block} {state next : State}
      {outcome : Outcome} {count : Int}
      (holds : (Expression.binary (.name counter) .below bound).value? data state =
        some (.boolean true))
      (inside : Runs body state (.next next)) (counted : next.read? counter = some (.number count))
      (after : Runs (.turns counter bound body rest) (next.set counter (.number (count + 1)))
        outcome) :
      Runs (.turns counter bound body rest) state outcome
  | leaveTurn {counter : String} {bound : Expression} {body rest : Block} {state : State}
      {given : Value} {path : Units}
      (holds : (Expression.binary (.name counter) .below bound).value? data state =
        some (.boolean true))
      (inside : Runs body state (.gaveBack given path)) :
      Runs (.turns counter bound body rest) state (.gaveBack given path)
  | function {name first second : String} {body rest : Block} {state : State}
      {outcome : Outcome}
      (after : Runs rest (state.set name (.function first second body)) outcome) :
      Runs (Block.function name first second body rest) state outcome
  | giveBack {expression : Expression} {rest : Block} {state : State} {value : Value}
      (evaluated : expression.value? data state = some value) :
      Runs (Block.giveBack expression rest) state (.gaveBack value state.path)

variable {data}

/-- A run ends in one way only. -/
theorem Runs.deterministic {work : Work} {state : State} {first second : Outcome}
    (left : Runs data work state first) (right : Runs data work state second) :
    first = second := by
  induction left generalizing second with
  | done state => cases right; rfl
  | empty _ ih => cases right with | empty after => exact ih after
  | remark _ ih => cases right with | remark after => exact ih after
  | store evaluated _ ih =>
    cases right with
    | store again after =>
      cases evaluated.symm.trans again
      exact ih after
  | call callee evaluated evaluatedNext _ _ calledIH ih =>
    cases right with
    | call calleeAgain again againNext called after =>
      cases callee.symm.trans calleeAgain
      cases evaluated.symm.trans again
      cases evaluatedNext.symm.trans againNext
      cases calledIH called
      exact ih after
  | assignPath evaluated _ ih =>
    cases right with
    | assignPath again after =>
      cases evaluated.symm.trans again
      exact ih after
  | @keep name parameter list test rest state outcome items passes evaluated tested _ ih =>
    cases right with
    | @keep _ _ _ _ _ _ _ others passesAgain again testedAgain after =>
      cases evaluated.symm.trans again
      -- Only the items of the list are tested, and on these the two tests agree.
      have agree : ∀ item ∈ items, passes item = passesAgain item := by
        intro item member
        have same := (tested item member).symm.trans (testedAgain item member)
        simpa using same
      rw [← List.filter_congr agree] at after
      exact ih after
  -- A condition has one value, so both runs take the same way through a branch or a loop.
  | skip evaluated fails _ ih =>
    cases right with
    | skip _ _ after => exact ih after
    | enter again holds _ _ =>
      cases evaluated.symm.trans again
      cases fails.symm.trans holds
    | leave again holds _ =>
      cases evaluated.symm.trans again
      cases fails.symm.trans holds
  | enter evaluated holds _ _ insideIH ih =>
    cases right with
    | skip again fails _ =>
      cases evaluated.symm.trans again
      cases fails.symm.trans holds
    | enter _ _ inside after =>
      cases insideIH inside
      exact ih after
    | leave _ _ inside => cases insideIH inside
  | leave evaluated holds _ insideIH =>
    cases right with
    | skip again fails _ =>
      cases evaluated.symm.trans again
      cases fails.symm.trans holds
    | enter _ _ inside _ => cases insideIH inside
    | leave _ _ inside => exact insideIH inside
  | loop _ ih => cases right with | loop turns => exact ih turns
  | finish fails _ ih =>
    cases right with
    | finish _ after => exact ih after
    | turn holds _ _ _ => cases fails.symm.trans holds
    | leaveTurn holds _ => cases fails.symm.trans holds
  | turn holds _ counted _ insideIH ih =>
    cases right with
    | finish fails _ => cases fails.symm.trans holds
    | turn _ inside countedAgain after =>
      cases insideIH inside
      cases counted.symm.trans countedAgain
      exact ih after
    | leaveTurn _ inside => cases insideIH inside
  | leaveTurn holds _ insideIH =>
    cases right with
    | finish fails _ => cases fails.symm.trans holds
    | turn _ inside _ _ => cases insideIH inside
    | leaveTurn _ inside => exact insideIH inside
  | function _ ih => cases right with | function after => exact ih after
  | giveBack evaluated =>
    cases right with
    | giveBack again =>
      cases evaluated.symm.trans again
      rfl

end EdgeRoutes.Script
