import EdgeRoutes.Config.Validation
import EdgeRoutes.FileTree
import EdgeRoutes.Json.Fault
import EdgeRoutes.Manifest.Admission
import EdgeRoutes.Toml.Item
import EdgeRoutes.Trie.Basic

/-! The program that is deployed, and why none comes out of a compilation. -/

set_option autoImplicit false

namespace EdgeRoutes

structure Program where
  text : String
  deriving DecidableEq, Repr

/-- The size that the edge limits: the bytes in UTF-8. -/
def Program.size (program : Program) : Nat := program.text.utf8ByteSize

structure Oversize where
  size : Nat
  limit : Nat
  deriving DecidableEq, Repr

inductive ConfigError where
  | io (fault : FileFault)
  | unreadable (fault : Toml.Fault)
  | invalid (violations : List Violation)

inductive CompileError where
  | missingManifest (path : String)
  | manifestRead (path : String) (fault : FileFault)
  | manifestParse (cause : Json.Cause) (position : Json.Position)
  | refused (reason : Refusal)
  | conflictingRoutes (conflict : Conflict)
  | minify (cause : String)
  | oversize (program : Oversize)
  | config (error : ConfigError)

def ConfigError.label : ConfigError → String
  | .io _ => "Io"
  | .unreadable _ => "Parse"
  | .invalid _ => "Validation"

def Refusal.label : Refusal → String
  | .version _ _ => "UnsupportedManifestVersion"
  | .dataRoutes _ => "UnsupportedDataRoutes"
  | .catchAll _ => "UnsupportedCatchAllRoute"
  | .reservedSegment _ _ => "ReservedRouteSegment"

def CompileError.label : CompileError → String
  | .missingManifest _ => "MissingManifest"
  | .manifestRead _ _ => "ManifestRead"
  | .manifestParse _ _ => "ManifestParse"
  | .refused reason => reason.label
  | .conflictingRoutes _ => "ConflictingDynamicRoutes"
  | .minify _ => "Minify"
  | .oversize _ => "MatcherSizeExceeded"
  | .config error => error.label

def ConfigError.message : ConfigError → String
  | .io fault => "IO error: " ++ fault.message
  | .unreadable fault => "Parse error: " ++ fault.message
  | .invalid violations =>
    "Validation failed: " ++ ", ".intercalate (violations.map (·.message))

def Refusal.message : Refusal → String
  | .version found expected =>
    "route manifest version " ++ toString found ++ " is not supported, it must be " ++
      toString expected
  | .dataRoutes count =>
    toString count ++ " data route(s) detected; incremental static regeneration is not " ++
      "supported, convert them to static pages"
  | .catchAll page =>
    "catch-all route " ++ page ++ " is not supported, convert it to a standard dynamic page"
  | .reservedSegment page segment =>
    "route " ++ page ++ " uses reserved segment " ++ Text.quoted segment

def Conflict.message (conflict : Conflict) : String :=
  "dynamic routes " ++ conflict.existing ++ " and " ++ conflict.page ++ " match the same paths"

def Oversize.message (program : Oversize) : String :=
  "matcher program is " ++ toString program.size ++ " bytes but the edge runtime caps it at " ++
    toString program.limit ++ " bytes; reduce the number of page types"

def CompileError.message : CompileError → String
  | .missingManifest path =>
    "could not find route manifest at " ++ path ++ "; run the static export before compiling"
  | .manifestRead path fault =>
    "failed to read route manifest at " ++ path ++ ": " ++ fault.message
  | .manifestParse cause position =>
    "failed to parse route manifest: " ++ cause.message ++ " at line " ++
      toString position.line ++ " column " ++ toString position.column
  | .refused reason => reason.message
  | .conflictingRoutes conflict => conflict.message
  | .minify cause => "failed to minify matcher program: " ++ cause
  | .oversize program => program.message
  | .config error => "configuration error: " ++ error.message

end EdgeRoutes
