import EdgeRoutes.Config.Basic
import EdgeRoutes.Table.Basic
import EdgeRoutes.Text.Basic

/-! What becomes of a request path.

The steps are tried in this order: internal files and files with an extension are left
alone; then one trailing slash is dropped, and the path that remains is already a page file,
the root, a static page, or is looked up among the dynamic templates.
-/

set_option autoImplicit false

namespace EdgeRoutes

inductive Resolution where
  | asset
  | alreadyResolved
  | root (target : String)
  | static (target : String)
  | dynamic (page target : String)
  | noMatch
  deriving DecidableEq, Repr

namespace Resolution

def target? : Resolution → Option String
  | .root target | .static target | .dynamic _ target => some target
  | .asset | .alreadyResolved | .noMatch => none

def kind : Resolution → String
  | .asset => "asset"
  | .alreadyResolved => "already-resolved"
  | .root _ => "root"
  | .static _ => "static"
  | .dynamic _ _ => "dynamic"
  | .noMatch => "no-match"

end Resolution

namespace RouteTable

/-- Looks a path up among the dynamic templates; a path without segments matches none. -/
def lookUp (table : RouteTable) (matcher : MatcherConfig) (path : String) : Resolution :=
  match Path.segments path with
  | [] => .noMatch
  | segments =>
    match (table.root.walk? segments).bind (·.page) with
    | some page => .dynamic page (page ++ matcher.pageSuffix)
    | none => .noMatch

def resolve (table : RouteTable) (matcher : MatcherConfig) (path : String) : Resolution :=
  if Text.startsWith path matcher.internalPrefix || Path.hasExtension path then .asset
  else
    let path := Path.dropTrailingSlash path
    if Text.endsWith path matcher.pageSuffix then .alreadyResolved
    else if path.isEmpty then .root matcher.rootPage
    else if table.isStatic path then .static (path ++ matcher.pageSuffix)
    else table.lookUp matcher path

/-- The path that is served for a request; a request that is left alone keeps its path. -/
def rewrite (table : RouteTable) (matcher : MatcherConfig) (path : String) : String :=
  ((table.resolve matcher path).target?).getD path

end RouteTable

end EdgeRoutes
