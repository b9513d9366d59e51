import EdgeRoutes.Decimal.Layout
import EdgeRoutes.Json.Basic
import EdgeRoutes.Text.Quoted

/-! Why a JSON text is refused, and where.

A fault holds its cause, the text that was still unread, and how many bytes further the
fault lies. Its position is found from the whole text: lines are counted from one, columns
are the bytes since the last line feed.
-/

set_option autoImplicit false

namespace EdgeRoutes.Json

inductive Found where
  | null
  | boolean (value : Bool)
  | integer (value : Int)
  | float (value : Float)
  | string (value : String)
  | sequence
  | map

/-- Floating-point numbers are written without an exponent from `0.00001` up to `10 ^ 16`. -/
def floatLayout : Decimal.Layout := .between (-5) 15

def Found.describe : Found → String
  | .null => "null"
  | .boolean value => "boolean `" ++ (if value then "true" else "false") ++ "`"
  | .integer value => "integer `" ++ toString value ++ "`"
  | .float value => "floating point `" ++ floatLayout.text value ++ "`"
  | .string value => "string " ++ Text.quoted value
  | .sequence => "sequence"
  | .map => "map"

def Number.found : Number → Found
  | .integer value => .integer value
  | .float value => .float value

inductive Cause where
  | endInValue
  | endInList
  | endInObject
  | endInString
  | expectedValue
  | expectedWord
  | expectedColon
  | expectedListEnd
  | expectedObjectEnd
  | keyNotString
  | trailingComma
  | trailingText
  | invalidNumber
  | numberOutOfRange
  | invalidEscape
  | loneSurrogate
  | unpairedSurrogate
  | controlCharacter
  | nestedTooDeep
  | invalidType (found : Found) (expected : String)
  | invalidValue (found : Found) (expected : String)
  | invalidLength (count : Nat) (expected : String)
  | missingField (name : String)
  | duplicateField (name : String)

/-- The three kinds of fault: the text ends too early, it breaks the grammar, or it is
well formed and says something else than expected. -/
inductive Kind where
  | truncated
  | malformed
  | unfit
  deriving DecidableEq, Repr

def Kind.label : Kind → String
  | .truncated => "Eof"
  | .malformed => "Syntax"
  | .unfit => "Data"

namespace Cause

def kind : Cause → Kind
  | .endInValue | .endInList | .endInObject | .endInString => .truncated
  | .invalidType _ _ | .invalidValue _ _ | .invalidLength _ _ | .missingField _
  | .duplicateField _ => .unfit
  | _ => .malformed

def message : Cause → String
  | .endInValue => "EOF while parsing a value"
  | .endInList => "EOF while parsing a list"
  | .endInObject => "EOF while parsing an object"
  | .endInString => "EOF while parsing a string"
  | .expectedValue => "expected value"
  | .expectedWord => "expected ident"
  | .expectedColon => "expected `:`"
  | .expectedListEnd => "expected `,` or `]`"
  | .expectedObjectEnd => "expected `,` or `\x7d`"
  | .keyNotString => "key must be a string"
  | .trailingComma => "trailing comma"
  | .trailingText => "trailing characters"
  | .invalidNumber => "invalid number"
  | .numberOutOfRange => "number out of range"
  | .invalidEscape => "invalid escape"
  | .loneSurrogate => "lone leading surrogate in hex escape"
  | .unpairedSurrogate => "unexpected end of hex escape"
  | .controlCharacter => "control character (\\u0000-\\u001F) found while parsing a string"
  | .nestedTooDeep => "recursion limit exceeded"
  | .invalidType found expected => "invalid type: " ++ found.describe ++ ", expected " ++ expected
  | .invalidValue found expected => "invalid value: " ++ found.describe ++ ", expected " ++ expected
  | .invalidLength count expected =>
    "invalid length " ++ toString count ++ ", expected " ++ expected
  | .missingField name => "missing field `" ++ name ++ "`"
  | .duplicateField name => "duplicate field `" ++ name ++ "`"

end Cause

structure Position where
  line : Nat
  column : Nat
  deriving DecidableEq, Repr

def byteCount (chars : List Char) : Nat :=
  chars.foldl (fun total char => total + char.utf8Size) 0

/-- The position a number of bytes further on, at most at the end of the text. A position
may fall inside a character. -/
def Position.advance : Position → Nat → List Char → Position
  | position, _, [] => position
  | position, 0, _ :: _ => position
  | ⟨line, column⟩, bytes + 1, char :: rest =>
    if char = '\n' then advance ⟨line + 1, 0⟩ bytes rest
    else if bytes + 1 < char.utf8Size then ⟨line, column + bytes + 1⟩
    else advance ⟨line, column + char.utf8Size⟩ (bytes + 1 - char.utf8Size) rest

structure Fault where
  cause : Cause
  unread : List Char
  ahead : Nat

namespace Fault

def before (cause : Cause) (unread : List Char) : Fault := ⟨cause, unread, 0⟩

def onNext (cause : Cause) (unread : List Char) : Fault := ⟨cause, unread, 1⟩

def position (text : List Char) (fault : Fault) : Position :=
  Position.advance ⟨1, 0⟩ (byteCount text - byteCount fault.unread + fault.ahead) text

end Fault

end EdgeRoutes.Json
