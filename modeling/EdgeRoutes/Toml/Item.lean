import EdgeRoutes.Decimal.Layout
import EdgeRoutes.Text.Quoted

/-! TOML documents as trees of items.

A table keeps its entries in the order in which they came to be, and remembers how it came
to be, because that decides how it may be extended: by a header of its own, by a longer
header that goes through it, or by a dotted key. A table in braces is complete as it stands.
-/

set_option autoImplicit false

namespace EdgeRoutes.Toml

inductive Origin where
  | header
  | implied
  | dotted
  deriving DecidableEq, Repr

inductive Item where
  | string (value : String)
  | integer (value : Int)
  | float (value : Float)
  | boolean (value : Bool)
  | datetime
  | array (items : List Item)
  | inline (entries : List (String × Item))
  | table (origin : Origin) (entries : List (String × Item))
  | tables (elements : List (List (String × Item)))
  deriving Repr, Inhabited

abbrev Entries := List (String × Item)

def floatLayout : Decimal.Layout := .always

/-- The kind of an item, with its value if it is a simple one. Dates count as maps. -/
def Item.describe : Item → String
  | .string value => "string " ++ Text.quoted value
  | .integer value => "integer `" ++ toString value ++ "`"
  | .float value => "floating point `" ++ floatLayout.text value ++ "`"
  | .boolean value => "boolean `" ++ (if value then "true" else "false") ++ "`"
  | .array _ | .tables _ => "sequence"
  | .datetime | .inline _ | .table _ _ => "map"

/-- Why a text is no document, or a document not of the expected shape. -/
inductive Fault where
  | malformed
  | invalidType (found : Item) (expected : String)
  | invalidValue (found : Item) (expected : String)

def Fault.message : Fault → String
  | .malformed => "the text is no TOML document"
  | .invalidType found expected =>
    "invalid type: " ++ found.describe ++ ", expected " ++ expected
  | .invalidValue found expected =>
    "invalid value: " ++ found.describe ++ ", expected " ++ expected

end EdgeRoutes.Toml
