import EdgeRoutes.Proofs.Json.Members
import EdgeRoutes.Proofs.Script.Syntax
import EdgeRoutes.Proofs.Script.Units

/-! The values of a script.

A JSON text that stands in a script is an expression. Its objects have their members as own
properties, the last of several with one key, save that a member of the prototype key is no
property but sets the prototype. Every object also has the properties that it inherits, and
none of these is a string. Operations that the handler has no use for have no value here.
-/

set_option autoImplicit false

namespace EdgeRoutes.Script

inductive Value where
  | undefined
  | null
  | boolean (value : Bool)
  | number (value : Int)
  | float (value : Float)
  | text (units : Units)
  | texts (items : List Units)
  | array (items : List Json)
  | object (members : List (String × Json))
  | event
  | request
  | method
  | prototype
  | function (first second : String) (body : Block)

def inheritedMethods : List String :=
  ["constructor", "hasOwnProperty", "isPrototypeOf", "propertyIsEnumerable", "toLocaleString",
    "toString", "valueOf", "__defineGetter__", "__defineSetter__", "__lookupGetter__",
    "__lookupSetter__"]

/-- The own property of an object that has the given members. -/
def own? (members : List (String × Json)) (key : Units) : Option Json :=
  (members.reverse.find? fun member =>
    member.1 ≠ prototypeKey ∧ Units.ofText member.1 = key).map (·.2)

def positionOf (items : List Json) (text : Units) : Int :=
  match items.findIdx? fun
      | .string item => Units.ofText item = text
      | _ => false with
  | some position => position
  | none => -1

namespace Value

def ofJson : Json → Value
  | .null => .null
  | .boolean value => .boolean value
  | .number (.integer value) => .number value
  | .number (.float value) => .float value
  | .string value => .text (Units.ofText value)
  | .array items => .array items
  | .object members => .object members

@[simp] def truthy : Value → Bool
  | .undefined | .null => false
  | .boolean value => value
  | .number value => value != 0
  | .float value => value != 0
  | .text units => !units.isEmpty
  | _ => true

def typeName : Value → String
  | .undefined => "undefined"
  | .boolean _ => "boolean"
  | .number _ | .float _ => "number"
  | .text _ => "string"
  | .method | .function _ _ _ => "function"
  | .null | .texts _ | .array _ | .object _ | .event | .request | .prototype => "object"

/-- Strict equality, as far as it does not ask whether two objects are the same. -/
@[simp] def same? : Value → Value → Option Bool
  | .null, .null => some true
  | .null, .object _ | .object _, .null => some false
  | .number first, .number second => some (decide (first = second))
  | .text first, .text second => some (decide (first = second))
  | _, _ => none

/-- A property of an object: its own, or else what it inherits. -/
def property (members : List (String × Json)) (key : Units) : Value :=
  match own? members key with
  | some value => ofJson value
  | none =>
    if key ∈ inheritedMethods.map Units.ofText then .method
    else if key = Units.ofText prototypeKey then .prototype
    else .undefined

@[simp] def item? : Value → Value → Option Value
  | .object members, .text key => some (property members key)
  | .texts items, .number position =>
    if position < 0 then some .undefined
    else some ((items[position.toNat]?).elim .undefined .text)
  | _, _ => none

@[simp] def hasOwn? : Value → Value → Option Value
  | .object members, .text key => some (.boolean (own? members key).isSome)
  | _, _ => none

def split? : Value → Value → Option Value
  | .text whole, .text [separator] => some (.texts (whole.split separator))
  | _, _ => none

def pop? : Value → Option Value
  | .texts items => some (items.getLast?.elim .undefined .text)
  | _ => none

@[simp] def indexOf? : Value → Value → Option Value
  | .text whole, .text part => some (.number (whole.indexOf part))
  | .array items, .text part => some (.number (positionOf items part))
  | _, _ => none

@[simp] def charAt? : Value → Value → Option Value
  | .text whole, .number position => some (.text (whole.charAt position))
  | _, _ => none

@[simp] def sliceFrom? : Value → Value → Option Value
  | .text whole, .number start => some (.text (whole.slice start))
  | _, _ => none

@[simp] def slice? : Value → Value → Value → Option Value
  | .text whole, .number start, .number stop => some (.text (whole.slice start (some stop)))
  | _, _, _ => none

end Value

@[simp] def Operator.value? : Operator → Value → Value → Option Value
  | .same, first, second => (first.same? second).map .boolean
  | .different, first, second => (first.same? second).map fun same => .boolean !same
  | .atLeast, .number first, .number second => some (.boolean (decide (first ≥ second)))
  | .below, .number first, .number second => some (.boolean (decide (first < second)))
  | .plus, .text first, .text second => some (.text (first ++ second))
  | .minus, .number first, .number second => some (.number (first - second))
  | _, _, _ => none

theorem positionOf_ne_neg_one_iff (texts : List String) (text : String) :
    positionOf (texts.map .string) (Units.ofText text) ≠ -1 ↔ text ∈ texts := by
  unfold positionOf
  simp only [List.findIdx?_map, Function.comp_def, Units.ofText_inj]
  split
  · rename_i position found
    obtain ⟨inside, same, _⟩ := List.findIdx?_eq_some_iff_getElem.mp found
    rw [decide_eq_true_eq] at same
    constructor
    · intro _
      rw [← same]
      exact List.getElem_mem inside
    · intro _
      omega
  · rename_i missing
    rw [List.findIdx?_eq_none_iff] at missing
    constructor
    · intro impossible
      exact absurd rfl impossible
    · intro member
      simpa using missing text member

theorem own?_eq {members : List (String × Json)} (sorted : Members.Sorted members)
    (key : String) :
    own? members (Units.ofText key) =
      if key = prototypeKey then none else Members.find? members key := by
  induction members with
  | nil => simp [own?, Members.find?]
  | cons first others ih =>
    obtain ⟨present, stored⟩ := first
    -- Of several members with one key the last counts, but none comes after the first here.
    have later := ih (List.pairwise_cons.mp sorted).2
    have absent : Members.find? others present = none := sorted.find?_tail
    simp only [own?, Units.ofText_inj] at later
    simp only [own?, Units.ofText_inj, List.reverse_cons, List.find?_append, Option.map_or, later,
      Members.find?_cons]
    by_cases same : present = key
    · subst same
      by_cases reserved : present = prototypeKey
      · simp [reserved]
      · simp [reserved, absent]
    · simp [same]

end EdgeRoutes.Script
