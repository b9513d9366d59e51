import EdgeRoutes.Toml.Item

/-! Reading items into values of a known shape.

A record is read from a table, whose unknown keys do not matter, or from a list that holds
the fields in order. What is not written keeps its default. Fields are read in the order of
the document, and the first that does not fit decides.
-/

set_option autoImplicit false

namespace EdgeRoutes.Toml

abbrev Reader (Value : Type) := Item → Except Fault Value

def Reader.text (kind : String) : Reader String
  | .string value => .ok value
  | found => .error (.invalidType found kind)

def Reader.boolean : Reader Bool
  | .boolean value => .ok value
  | found => .error (.invalidType found "a boolean")

def Reader.natural (limit : Nat) (kind : String) : Reader Nat
  | .integer value =>
    if 0 ≤ value ∧ value ≤ limit then .ok value.toNat
    else .error (.invalidValue (.integer value) kind)
  | found => .error (.invalidType found kind)

/-- A key of a record, and how its item changes the record read so far. -/
structure Field (Record : Type) where
  name : String
  read : Record → Reader Record

def Field.of {Record Value : Type} (name : String) (reader : Record → Reader Value)
    (set : Record → Value → Record) : Field Record where
  name := name
  read record item := (reader record item).map (set record)

structure Shape (Record : Type) where
  name : String
  fields : List (Field Record)

namespace Shape

variable {Record : Type}

def byName (shape : Shape Record) (record : Record) (entries : List (String × Item)) :
    Except Fault Record :=
  entries.foldlM (fun record entry =>
    match shape.fields.find? (·.name == entry.1) with
    | none => .ok record
    | some field => field.read record entry.2) record

/-- Items beyond the last field do not matter. -/
def inOrder (shape : Shape Record) (record : Record) (items : List Item) : Except Fault Record :=
  (shape.fields.zip items).foldlM (fun record next => next.1.read record next.2) record

/-- Reads over the given defaults. A date is a table that has none of the fields. -/
def read (shape : Shape Record) (defaults : Record) : Reader Record
  | .table _ entries | .inline entries => shape.byName defaults entries
  | .datetime => .ok defaults
  | .array items => shape.inOrder defaults items
  | .tables elements => shape.inOrder defaults (elements.map (.table .header ·))
  | found => .error (.invalidType found shape.name)

end Shape

end EdgeRoutes.Toml
