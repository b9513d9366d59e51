import EdgeRoutes.Text.Basic

/-! JSON values.

An object is a list of members; the reader and every builder of this library keep it sorted
by key with each key once. Whole numbers stand apart from floating-point numbers, because a
number read from a text is one or the other by the way it is written.
-/

set_option autoImplicit false

namespace EdgeRoutes

inductive Json.Number where
  | integer (value : Int)
  | float (value : Float)
  deriving Repr, Inhabited

inductive Json where
  | null
  | boolean (value : Bool)
  | number (value : Json.Number)
  | string (value : String)
  | array (items : List Json)
  | object (members : List (String × Json))
  deriving Repr, Inhabited

namespace Json

def ofNat (value : Nat) : Json := .number (.integer value)

def strings (values : List String) : Json := .array (values.map .string)

end Json

namespace Members

-- Members are lists of keys with their values, sorted by key.

def insert {Value : Type} (key : String) (value : Value) :
    List (String × Value) → List (String × Value)
  | [] => [(key, value)]
  | (present, stored) :: others =>
    if key = present then (key, value) :: others
    else if Text.Before key present then (key, value) :: (present, stored) :: others
    else (present, stored) :: insert key value others

/-- Stores the entries one after another, so that of two with one key the later stays. -/
def ofEntries {Value : Type} (entries : List (String × Value)) : List (String × Value) :=
  entries.foldl (fun members entry => insert entry.1 entry.2 members) []

end Members

end EdgeRoutes
