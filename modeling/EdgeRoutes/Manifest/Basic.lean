import EdgeRoutes.Json.Basic

/-! The manifest that a static export leaves behind.

Besides the version every part of it may be missing, so every other field has a default.
Patterns, redirects, rewrites and headers are carried along; no route is matched by them.
-/

set_option autoImplicit false

namespace EdgeRoutes

structure PageRoute where
  page : String := ""
  regex : String := ""
  routeKeys : List (String × String) := []
  namedRegex : String := ""
  deriving DecidableEq, Repr

structure DataRoute where
  page : String := ""
  dataRouteRegex : String := ""
  deriving DecidableEq, Repr

structure Redirect where
  source : String := ""
  destination : String := ""
  statusCode : Nat := 0
  internal : Bool := false
  regex : String := ""
  deriving DecidableEq, Repr

structure Rewrite where
  source : String := ""
  destination : String := ""
  regex : String := ""
  deriving DecidableEq, Repr

structure Manifest where
  version : Nat := 0
  pages404 : Bool := false
  basePath : String := ""
  redirects : List Redirect := []
  rewrites : List Rewrite := []
  headers : List Json := []
  staticRoutes : List PageRoute := []
  dynamicRoutes : List PageRoute := []
  dataRoutes : Option (List DataRoute) := none
  rsc : Json := .null
  deriving Repr

namespace Manifest

/-- A list of data routes that is left out counts as empty. -/
def dataRouteCount (manifest : Manifest) : Nat := (manifest.dataRoutes.getD []).length

def staticPages (manifest : Manifest) : List String :=
  (manifest.staticRoutes.map (·.page)).filter fun page => !page.isEmpty

def dynamicPages (manifest : Manifest) : List String :=
  manifest.dynamicRoutes.map (·.page)

end Manifest

end EdgeRoutes
