import EdgeRoutes.Handler.Literal
import EdgeRoutes.Handler.MinifiedText
import EdgeRoutes.Handler.SourceText
import EdgeRoutes.Json.Reader

/-! The readable text of a handler, and the minified one that is made from it.

The readable text is read back before it is minified. The characters of its template must be
there one by one, and at each hole a JSON value of the right kind is read. What is read is all
that went into the text, so the minified form can be made from the text alone.
-/

set_option autoImplicit false

namespace EdgeRoutes.Handler

def Data.source (data : Data) : String :=
  String.ofList (data.fill .json sourceTemplate)

/-- The text without blanks and comments. Compression drops every function that the text
does not call, and nothing calls the handler, so nothing is left. -/
def Data.minified (settings : MinifyConfig) (data : Data) : String :=
  if settings.compress then ""
  else String.ofList (data.fill Literal.style (minifiedTemplate settings.mangle))

def texts? : List Json → Option (List String)
  | [] => some []
  | .string value :: items => (texts? items).map (value :: ·)
  | _ :: _ => none

def Data.store? (data : Data) : Hole → Json → Option Data
  | .staticRoutes, .array items => (texts? items).map fun staticRoutes => { data with staticRoutes }
  | .routeTrie, .object members => some { data with routeTrie := .object members }
  | .pageSuffix, .string pageSuffix => some { data with pageSuffix }
  | .rootPage, .string rootPage => some { data with rootPage }
  | .internalPrefix, .string internalPrefix => some { data with internalPrefix }
  | .wildcardKey, .string wildcardKey => some { data with wildcardKey }
  | .pageKey, .string pageKey => some { data with pageKey }
  | _, _ => none

/-- Reads a text along the pieces of its template. At each hole `read` takes a value off the
text, and the text goes on where it stops. -/
def readPieces? (read : List Char → Option (Json × List Char)) :
    List (Template.Piece Hole) → List Char → Data → Option Data
  | [], [], data => some data
  | [], _ :: _, _ => none
  | .char _ :: _, [], _ => none
  | .char char :: pieces, found :: rest, data =>
    if char = found then readPieces? read pieces rest data else none
  | .hole hole :: pieces, text, data => do
    let (value, rest) ← read text
    readPieces? read pieces rest (← data.store? hole value)

def piecesOf (template : List Char) : List (Template.Piece Hole) :=
  Template.split (Hole.all.map fun hole => (hole.placeholder, hole)) template

def Data.ofSource? (source : String) : Option Data :=
  readPieces? (fun text => (Json.Read.value source.length text).toOption)
    (piecesOf sourceTemplate) source.toList {}

/-- Minifies a text if the settings ask for it. Only handlers are understood; any other text is
refused with a cause. -/
def minify (settings : MinifyConfig) (source : String) : Except String String :=
  if settings.enabled then
    match Data.ofSource? source with
    | some data => .ok (data.minified settings)
    | none => .error "the text is no handler"
  else .ok source

end EdgeRoutes.Handler
