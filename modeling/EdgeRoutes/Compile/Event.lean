/-! The events that a run reports on the way. -/

set_option autoImplicit false

namespace EdgeRoutes

inductive Level where
  | debug
  | info
  | warn
  deriving DecidableEq, Repr

def Level.label : Level → String
  | .debug => "DEBUG"
  | .info => "INFO"
  | .warn => "WARN"

inductive Event where
  | producing (manifest : String)
  | manifestLoaded (path : String) (version staticRoutes dynamicRoutes : Nat)
  | basePathDeclared (basePath : String)
  | trieBuilt (pages : Nat)
  | tableFrozen (staticRoutes : Nat)
  | budgetExceeded (size limit : Nat)
  | programEmitted (size limit rendered staticRoutes : Nat)
  | programWritten (path : String) (bytes : Nat)
  deriving DecidableEq, Repr

namespace Event

def level : Event → Level
  | .trieBuilt _ | .tableFrozen _ => .debug
  | .basePathDeclared _ | .budgetExceeded _ _ => .warn
  | _ => .info

def field (name value : String) : String := " " ++ name ++ "=" ++ value

def count (name : String) (value : Nat) : String := field name (toString value)

def message : Event → String
  | .producing manifest => "Producing matcher program" ++ field "manifest" manifest
  | .manifestLoaded path version staticRoutes dynamicRoutes =>
    "Route manifest loaded" ++ field "path" path ++ count "version" version ++
      count "static_routes" staticRoutes ++ count "dynamic_routes" dynamicRoutes
  | .basePathDeclared basePath =>
    "Manifest declares a base path; request paths are matched without stripping it" ++
      field "base_path" basePath
  | .trieBuilt pages => "Route trie built" ++ count "pages" pages
  | .tableFrozen staticRoutes => "Route table frozen" ++ count "static_routes" staticRoutes
  | .budgetExceeded size limit =>
    "Matcher program exceeds size budget" ++ count "size" size ++ count "limit" limit
  | .programEmitted size limit rendered staticRoutes =>
    "Matcher program emitted" ++ count "size" size ++ count "limit" limit ++
      count "rendered" rendered ++ count "static_routes" staticRoutes
  | .programWritten path bytes =>
    "Matcher program written" ++ field "path" path ++ count "bytes" bytes

def line (event : Event) : String := event.level.label ++ " " ++ event.message

end Event

end EdgeRoutes
