import EdgeRoutes.Path

/-! The configuration of a compilation: four sections with a default for every field. -/

set_option autoImplicit false

namespace EdgeRoutes

structure ManifestConfig where
  buildDirectory : String := "./.next"
  fileName : String := "routes-manifest.json"
  supportedVersion : Nat := 3
  deriving DecidableEq, Repr

/-- The keys of the embedded tree, and the text that marks a route of any depth. -/
structure RouteConfig where
  wildcardKey : String := "*"
  pageKey : String := "___page"
  catchAllMarker : String := "[..."
  deriving DecidableEq, Repr

structure MatcherConfig where
  pageSuffix : String := ".html"
  rootPage : String := "/index.html"
  internalPrefix : String := "/_next"
  maxProgramBytes : Nat := 10240
  deriving DecidableEq, Repr

structure MinifyConfig where
  enabled : Bool := true
  mangle : Bool := true
  compress : Bool := false
  deriving DecidableEq, Repr

structure Config where
  manifest : ManifestConfig := {}
  routes : RouteConfig := {}
  matcher : MatcherConfig := {}
  minify : MinifyConfig := {}
  deriving DecidableEq, Repr

def Config.manifestPath (config : Config) : String :=
  Path.join config.manifest.buildDirectory config.manifest.fileName

/-- A member of this name in an object literal sets the prototype and is no member. -/
def prototypeKey : String := "__proto__"

end EdgeRoutes
