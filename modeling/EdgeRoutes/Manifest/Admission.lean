import EdgeRoutes.Config.Basic
import EdgeRoutes.Manifest.Basic
import EdgeRoutes.Text.Basic

/-! Which manifests can be compiled.

The checks are made one after another, each over the whole manifest, and the first that
fails decides: the version, data routes, routes of any depth, and literal segments that the
embedded tree could not tell from its own keys.
-/

set_option autoImplicit false

namespace EdgeRoutes

inductive Refusal where
  | version (found expected : Nat)
  | dataRoutes (count : Nat)
  | catchAll (page : String)
  | reservedSegment (page segment : String)
  deriving DecidableEq, Repr

def RouteConfig.isReserved (keys : RouteConfig) (part : String) : Bool :=
  part == keys.wildcardKey || part == keys.pageKey || part == prototypeKey

namespace Manifest

def catchAllPage? (keys : RouteConfig) (pages : List String) : Option String :=
  pages.find? (Text.contains · keys.catchAllMarker)

/-- The first page with a reserved part, and the first such part of it. -/
def reservedPart? (keys : RouteConfig) (pages : List String) : Option (String × String) :=
  pages.findSome? fun page =>
    ((Path.parts page).find? keys.isReserved).map fun part => (page, part)

def accept (config : Config) (manifest : Manifest) : Except Refusal Unit :=
  if manifest.version ≠ config.manifest.supportedVersion then
    .error (.version manifest.version config.manifest.supportedVersion)
  else if 0 < manifest.dataRouteCount then
    .error (.dataRoutes manifest.dataRouteCount)
  else
    match catchAllPage? config.routes manifest.dynamicPages with
    | some page => .error (.catchAll page)
    | none =>
      match reservedPart? config.routes manifest.dynamicPages with
      | some (page, part) => .error (.reservedSegment page part)
      | none => .ok ()

end Manifest

end EdgeRoutes
