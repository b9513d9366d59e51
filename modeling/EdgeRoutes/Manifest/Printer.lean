import EdgeRoutes.Json.Printer
import EdgeRoutes.Manifest.Basic

/-! Writing a manifest as JSON text.

Every field is written, in the order in which its record has them. The layouts are only there to
be written: unlike other values they do not have their members sorted.
-/

set_option autoImplicit false

namespace EdgeRoutes

def PageRoute.layout (route : PageRoute) : Json :=
  .object [
    ("page", .string route.page),
    ("regex", .string route.regex),
    ("routeKeys", .object (route.routeKeys.map fun entry => (entry.1, .string entry.2))),
    ("namedRegex", .string route.namedRegex)]

def DataRoute.layout (route : DataRoute) : Json :=
  .object [("page", .string route.page), ("dataRouteRegex", .string route.dataRouteRegex)]

def Redirect.layout (redirect : Redirect) : Json :=
  .object [
    ("source", .string redirect.source),
    ("destination", .string redirect.destination),
    ("statusCode", .ofNat redirect.statusCode),
    ("internal", .boolean redirect.internal),
    ("regex", .string redirect.regex)]

def Rewrite.layout (rewrite : Rewrite) : Json :=
  .object [
    ("source", .string rewrite.source),
    ("destination", .string rewrite.destination),
    ("regex", .string rewrite.regex)]

def Manifest.layout (manifest : Manifest) : Json :=
  .object [
    ("version", .ofNat manifest.version),
    ("pages404", .boolean manifest.pages404),
    ("basePath", .string manifest.basePath),
    ("redirects", .array (manifest.redirects.map Redirect.layout)),
    ("rewrites", .array (manifest.rewrites.map Rewrite.layout)),
    ("headers", .array manifest.headers),
    ("staticRoutes", .array (manifest.staticRoutes.map PageRoute.layout)),
    ("dynamicRoutes", .array (manifest.dynamicRoutes.map PageRoute.layout)),
    ("dataRoutes", (manifest.dataRoutes.map fun routes =>
      Json.array (routes.map DataRoute.layout)).getD .null),
    ("rsc", manifest.rsc)]

def Manifest.print (manifest : Manifest) : String := manifest.layout.compact

end EdgeRoutes
