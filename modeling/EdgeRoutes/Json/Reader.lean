import EdgeRoutes.Json.Skipper

/-! Reading a JSON text into values of a known shape.

Reading goes from left to right and stops at the first fault. A reader is given how many
brackets may still be opened, and a text; it returns a value and the text behind it. A
record is read from an object, whose unknown members are passed over, or from a list that
holds the fields in order.
-/

set_option autoImplicit false

namespace EdgeRoutes.Json.Read

/-- One value off the start of a text, under a limit on the brackets that may be opened. -/
abbrev Reader (Value : Type) := Nat → List Char → Except Fault (Value × List Char)

/-- The fault of a value of another kind than the expected one. The value is read as far as
its kind requires, so a malformed value is reported as such. -/
def mismatch (expected : String) (text : List Char) : Fault :=
  let unfit (found : Found) (rest : List Char) := Fault.before (.invalidType found expected) rest
  let ofWord (letters : List Char) (found : Found) (rest : List Char) : Fault :=
    match Scan.word letters rest with
    | .error fault => fault
    | .ok rest => unfit found rest
  let ofNumber (positive : Bool) (rest : List Char) : Fault :=
    match Scan.number positive rest with
    | .error fault => fault
    | .ok (value, rest) => unfit value.found rest
  match text with
  | [] => .before .endInValue []
  | 'n' :: rest => ofWord ['u', 'l', 'l'] .null rest
  | 't' :: rest => ofWord ['r', 'u', 'e'] (.boolean true) rest
  | 'f' :: rest => ofWord ['a', 'l', 's', 'e'] (.boolean false) rest
  | '-' :: rest => ofNumber false rest
  | '"' :: rest =>
    match Scan.string rest with
    | .error fault => fault
    | .ok (value, rest) => unfit (.string value) rest
  | '[' :: _ => unfit .sequence text
  | '\x7b' :: _ => unfit .map text
  | char :: _ => if char.isDigit then ofNumber true text else .onNext .expectedValue text

def boolean : Reader Bool := fun _ text =>
  match Scan.skipBlanks text with
  | 't' :: rest => do .ok (true, ← Scan.word ['r', 'u', 'e'] rest)
  | 'f' :: rest => do .ok (false, ← Scan.word ['a', 'l', 's', 'e'] rest)
  | rest => .error (mismatch "a boolean" rest)

def text : Reader String := fun _ source =>
  match Scan.skipBlanks source with
  | '"' :: rest => Scan.string rest
  | rest => .error (mismatch "a string" rest)

def natural (limit : Nat) (kind : String) : Reader Nat := fun _ text =>
  let fit (read : Except Fault (Number × List Char)) : Except Fault (Nat × List Char) := do
    let (value, rest) ← read
    match value with
    | .integer value =>
      if 0 ≤ value ∧ value ≤ limit then .ok (value.toNat, rest)
      else .error (.before (.invalidValue (.integer value) kind) rest)
    | .float value => .error (.before (.invalidType (.float value) kind) rest)
  match Scan.skipBlanks text with
  | [] => .error (.before .endInValue [])
  | '-' :: rest => fit (Scan.number false rest)
  | char :: rest =>
    if char.isDigit then fit (Scan.number true (char :: rest))
    else .error (mismatch kind (char :: rest))

def opening {Value : Type} (depth : Nat) (text : List Char)
    (inside : Nat → Except Fault (Value × List Char)) : Except Fault (Value × List Char) :=
  match depth with
  | 0 => .error (.onNext .nestedTooDeep text)
  | depth + 1 => inside depth

def nextItem (first : Bool) (text : List Char) : Except Fault (Bool × List Char) :=
  match Scan.skipBlanks text with
  | [] => .error (.before .endInList [])
  | ']' :: rest => .ok (false, ']' :: rest)
  | char :: rest =>
    if first then .ok (true, char :: rest)
    else if char = ',' then
      match Scan.skipBlanks rest with
      | [] => .error (.before .endInValue [])
      | ']' :: rest => .error (.onNext .trailingComma (']' :: rest))
      | rest => .ok (true, rest)
    else .error (.onNext .expectedListEnd (char :: rest))

def nextKey (first : Bool) (text : List Char) : Except Fault (Bool × List Char) :=
  let atKey (rest : List Char) : Except Fault (Bool × List Char) :=
    if rest.head? = some '"' then .ok (true, rest) else .error (.onNext .keyNotString rest)
  match Scan.skipBlanks text with
  | [] => .error (.before .endInObject [])
  | '\x7d' :: rest => .ok (false, '\x7d' :: rest)
  | char :: rest =>
    if first then atKey (char :: rest)
    else if char = ',' then
      match Scan.skipBlanks rest with
      | [] => .error (.before .endInValue [])
      | '\x7d' :: rest => .error (.onNext .trailingComma ('\x7d' :: rest))
      | rest => atKey rest
    else .error (.onNext .expectedObjectEnd (char :: rest))

def items {Value : Type} (item : List Char → Except Fault (Value × List Char)) :
    Nat → Bool → List Char → Except Fault (List Value × List Char)
  | 0, _, text => .error (.before .endInList text)
  | bound + 1, first, text => do
    let (more, text) ← nextItem first text
    if more then
      let (value, text) ← item text
      let (values, text) ← items item bound false text
      .ok (value :: values, text)
    else .ok ([], text.drop 1)

/-- The members of an object up to its end, in the order of the text. -/
def entries {Value : Type} (item : List Char → Except Fault (Value × List Char)) :
    Nat → Bool → List Char → Except Fault (List (String × Value) × List Char)
  | 0, _, text => .error (.before .endInObject text)
  | bound + 1, first, text => do
    let (more, text) ← nextKey first text
    if more then
      let (key, text) ← Scan.string (text.drop 1)
      let (value, text) ← item (← Scan.colon text)
      let (values, text) ← entries item bound false text
      .ok ((key, value) :: values, text)
    else .ok ([], text.drop 1)

def sequence {Value : Type} (item : Reader Value) : Reader (List Value) := fun depth text =>
  match Scan.skipBlanks text with
  | '[' :: rest =>
    opening depth ('[' :: rest) fun depth => items (item depth) (rest.length + 1) true rest
  | rest => .error (mismatch "a sequence" rest)

/-- An object whose members are all of one kind; of two with one key the later stays. -/
def dictionary {Value : Type} (item : Reader Value) : Reader (List (String × Value)) :=
  fun depth text =>
    match Scan.skipBlanks text with
    | '\x7b' :: rest =>
      opening depth ('\x7b' :: rest) fun depth => do
        let (found, rest) ← entries (item depth) (rest.length + 1) true rest
        .ok (Members.ofEntries found, rest)
    | rest => .error (mismatch "a map" rest)

def optional {Value : Type} (item : Reader Value) : Reader (Option Value) := fun depth text =>
  match Scan.skipBlanks text with
  | 'n' :: rest => do .ok (none, ← Scan.word ['u', 'l', 'l'] rest)
  | rest => do
    let (value, rest) ← item depth rest
    .ok (some value, rest)

/-- Any value, where `inside` reads the values within a bracket if one may be opened. -/
def valueWith (inside : Option (List Char → Except Fault (Json × List Char)))
    (source : List Char) : Except Fault (Json × List Char) :=
  match Scan.skipBlanks source with
  | [] => .error (.before .endInValue [])
  | 'n' :: rest => do .ok (.null, ← Scan.word ['u', 'l', 'l'] rest)
  | 't' :: rest => do .ok (.boolean true, ← Scan.word ['r', 'u', 'e'] rest)
  | 'f' :: rest => do .ok (.boolean false, ← Scan.word ['a', 'l', 's', 'e'] rest)
  | '-' :: rest => do
    let (value, rest) ← Scan.number false rest
    .ok (.number value, rest)
  | '"' :: rest => do
    let (value, rest) ← Scan.string rest
    .ok (.string value, rest)
  | '[' :: rest =>
    match inside with
    | none => .error (.onNext .nestedTooDeep ('[' :: rest))
    | some item => do
      let (values, rest) ← items item (rest.length + 1) true rest
      .ok (.array values, rest)
  | '\x7b' :: rest =>
    match inside with
    | none => .error (.onNext .nestedTooDeep ('\x7b' :: rest))
    | some item => do
      let (found, rest) ← entries item (rest.length + 1) true rest
      .ok (.object (Members.ofEntries found), rest)
  | char :: rest =>
    if char.isDigit then do
      let (value, rest) ← Scan.number true (char :: rest)
      .ok (.number value, rest)
    else .error (.onNext .expectedValue (char :: rest))

def value : Reader Json
  | 0 => valueWith none
  | depth + 1 => valueWith (some (value depth))

/-- One field of a record: its key, whether it must be there, and how it is read into a
record that holds the fields read so far. -/
structure Field (Record : Type) where
  name : String
  required : Bool
  read : Record → Reader Record

/-- A record type: its name in messages, a record that holds the defaults, and its fields. -/
structure Shape (Record : Type) where
  name : String
  blank : Record
  fields : List (Field Record)

def Field.of {Record Value : Type} (name : String) (required : Bool) (reader : Reader Value)
    (set : Record → Value → Record) : Field Record where
  name := name
  required := required
  read record depth text := do
    let (value, rest) ← reader depth text
    .ok (set record value, rest)

namespace Shape

variable {Record : Type}

def listName (shape : Shape Record) : String :=
  shape.name ++ " with " ++ toString shape.fields.length ++ " elements"

def listEnd (text : List Char) : Except Fault (List Char) :=
  match Scan.skipBlanks text with
  | ']' :: rest => .ok rest
  | ',' :: rest =>
    match Scan.skipBlanks rest with
    | ']' :: rest => .error (.onNext .trailingComma (']' :: rest))
    | rest => .error (.onNext .trailingText rest)
  | [] => .error (.before .endInList [])
  | rest => .error (.onNext .trailingText rest)

/-- Reads fields in their order from a list. Fields at the end may be left out if they are
not required; `position` counts the fields that have been read. -/
def inOrder (shape : Shape Record) (depth : Nat) :
    List (Field Record) → Nat → Record → List Char → Except Fault (Record × List Char)
  | [], _, record, text => do .ok (record, ← listEnd text)
  | field :: fields, position, record, text => do
    let (more, text) ← nextItem (position == 0) text
    if more then
      let (record, text) ← field.read record depth text
      inOrder shape depth fields (position + 1) record text
    else
      match (field :: fields).findIdx? (·.required) with
      | some missing =>
        .error (.before (.invalidLength (position + missing) shape.listName) (text.drop 1))
      | none => .ok (record, text.drop 1)

/-- Where a repeated key is reported: behind the blanks after it, and behind the brace if
the object ends there. -/
def behindKey (text : List Char) : List Char :=
  match Scan.skipBlanks text with
  | '\x7d' :: rest => rest
  | rest => rest

def byName (shape : Shape Record) (depth : Nat) :
    Nat → List String → Record → List Char → Except Fault (Record × List Char)
  | 0, _, _, text => .error (.before .endInObject text)
  | bound + 1, seen, record, text => do
    let (more, text) ← nextKey seen.isEmpty text
    if more then
      let (key, text) ← Scan.string (text.drop 1)
      match shape.fields.find? (·.name == key) with
      | none =>
        let text ← Skip.value (← Scan.colon text)
        byName shape depth bound (key :: seen) record text
      | some field =>
        if seen.contains key then
          .error (.before (.duplicateField key) (behindKey text))
        else
          let (record, text) ← field.read record depth (← Scan.colon text)
          byName shape depth bound (key :: seen) record text
    else
      match shape.fields.find? fun field => field.required && !seen.contains field.name with
      | some field => .error (.before (.missingField field.name) (text.drop 1))
      | none => .ok (record, text.drop 1)

def read (shape : Shape Record) : Reader Record := fun depth text =>
  match Scan.skipBlanks text with
  | '[' :: rest =>
    opening depth ('[' :: rest) fun depth => shape.inOrder depth shape.fields 0 shape.blank rest
  | '\x7b' :: rest =>
    opening depth ('\x7b' :: rest) fun depth =>
      shape.byName depth (rest.length + 1) [] shape.blank rest
  | rest => .error (mismatch shape.name rest)

end Shape

/-- The brackets that may be open at one time. -/
def depthLimit : Nat := 127

def whole {Value : Type} (reader : Reader Value) (text : List Char) : Except Fault Value := do
  let (value, rest) ← reader depthLimit text
  match Scan.skipBlanks rest with
  | [] => .ok value
  | rest => .error (.onNext .trailingText rest)

end EdgeRoutes.Json.Read
