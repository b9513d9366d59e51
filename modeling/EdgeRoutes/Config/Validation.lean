import EdgeRoutes.Config.Basic
import EdgeRoutes.Text.Quoted

/-! The rules that a configuration has to meet. All of them are tried, and every violation
is reported, in a fixed order.
-/

set_option autoImplicit false

namespace EdgeRoutes

inductive Violation where
  | empty (field : String)
  | reservedKeyClash (key : String)
  | prototypeKey (field : String)
  | notAbsolute (field value : String)
  | zeroBudget
  deriving DecidableEq, Repr

def Violation.label : Violation → String
  | .empty _ => "Empty"
  | .reservedKeyClash _ => "ReservedKeyClash"
  | .prototypeKey _ => "PrototypeKey"
  | .notAbsolute _ _ => "NotAbsolute"
  | .zeroBudget => "ZeroBudget"

def Violation.message : Violation → String
  | .empty field => field ++ " must not be empty"
  | .reservedKeyClash key =>
    "routes.wildcard_key and routes.page_key must differ (both are " ++ Text.quoted key ++ ")"
  | .prototypeKey field =>
    field ++ " must not be \"__proto__\", object literals treat it as the prototype"
  | .notAbsolute field value =>
    field ++ " must start with '/' (got " ++ Text.quoted value ++ ")"
  | .zeroBudget => "matcher.max_program_bytes must be greater than zero"

namespace Config

def mustNotBeEmpty (config : Config) : List (String × String) := [
  ("manifest.file_name", config.manifest.fileName),
  ("routes.wildcard_key", config.routes.wildcardKey),
  ("routes.page_key", config.routes.pageKey),
  ("routes.catch_all_marker", config.routes.catchAllMarker),
  ("matcher.page_suffix", config.matcher.pageSuffix),
  ("matcher.internal_prefix", config.matcher.internalPrefix)]

def treeKeys (config : Config) : List (String × String) := [
  ("routes.wildcard_key", config.routes.wildcardKey),
  ("routes.page_key", config.routes.pageKey)]

def mustBeAbsolute (config : Config) : List (String × String) := [
  ("matcher.root_page", config.matcher.rootPage),
  ("matcher.internal_prefix", config.matcher.internalPrefix)]

/-- Two empty keys are reported as empty only. -/
def violations (config : Config) : List Violation :=
  (config.mustNotBeEmpty.filter (·.2.isEmpty)).map (.empty ·.1) ++
  (if config.routes.wildcardKey ≠ "" ∧ config.routes.wildcardKey = config.routes.pageKey then
    [.reservedKeyClash config.routes.wildcardKey] else []) ++
  (config.treeKeys.filter (·.2 == EdgeRoutes.prototypeKey)).map (.prototypeKey ·.1) ++
  (config.mustBeAbsolute.filter fun field => !Path.isAbsolute field.2).map
    (fun field => .notAbsolute field.1 field.2) ++
  (if config.matcher.maxProgramBytes = 0 then [.zeroBudget] else [])

end Config

end EdgeRoutes
