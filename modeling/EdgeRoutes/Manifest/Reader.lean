import EdgeRoutes.Json.Reader
import EdgeRoutes.Manifest.Basic

/-! Reading a manifest from its JSON text. -/

set_option autoImplicit false

namespace EdgeRoutes

open Json.Read

def PageRoute.shape : Shape PageRoute where
  name := "struct PageRoute"
  blank := {}
  fields := [
    .of "page" true text fun route page => { route with page },
    .of "regex" false text fun route regex => { route with regex },
    .of "routeKeys" false (dictionary text) fun route routeKeys => { route with routeKeys },
    .of "namedRegex" false text fun route namedRegex => { route with namedRegex }]

def DataRoute.shape : Shape DataRoute where
  name := "struct DataRoute"
  blank := {}
  fields := [
    .of "page" false text fun route page => { route with page },
    .of "dataRouteRegex" false text fun route dataRouteRegex => { route with dataRouteRegex }]

def Redirect.shape : Shape Redirect where
  name := "struct Redirect"
  blank := {}
  fields := [
    .of "source" true text fun redirect source => { redirect with source },
    .of "destination" true text fun redirect destination => { redirect with destination },
    .of "statusCode" false (natural (Nat.pow 2 16 - 1) "u16")
      fun redirect statusCode => { redirect with statusCode },
    .of "internal" false boolean fun redirect internal => { redirect with internal },
    .of "regex" false text fun redirect regex => { redirect with regex }]

def Rewrite.shape : Shape Rewrite where
  name := "struct Rewrite"
  blank := {}
  fields := [
    .of "source" true text fun rewrite source => { rewrite with source },
    .of "destination" true text fun rewrite destination => { rewrite with destination },
    .of "regex" false text fun rewrite regex => { rewrite with regex }]

namespace Manifest

def shape : Shape Manifest where
  name := "struct RouteManifest"
  blank := {}
  fields := [
    .of "version" true (natural (Nat.pow 2 32 - 1) "u32")
      fun manifest version => { manifest with version },
    .of "pages404" false boolean fun manifest pages404 => { manifest with pages404 },
    .of "basePath" false text fun manifest basePath => { manifest with basePath },
    .of "redirects" false (sequence Redirect.shape.read)
      fun manifest redirects => { manifest with redirects },
    .of "rewrites" false (sequence Rewrite.shape.read)
      fun manifest rewrites => { manifest with rewrites },
    .of "headers" false (sequence value) fun manifest headers => { manifest with headers },
    .of "staticRoutes" false (sequence PageRoute.shape.read)
      fun manifest staticRoutes => { manifest with staticRoutes },
    .of "dynamicRoutes" false (sequence PageRoute.shape.read)
      fun manifest dynamicRoutes => { manifest with dynamicRoutes },
    .of "dataRoutes" false (optional (sequence DataRoute.shape.read))
      fun manifest dataRoutes => { manifest with dataRoutes },
    .of "rsc" false value fun manifest rsc => { manifest with rsc }]

def parse (source : String) : Except Json.Fault Manifest :=
  Json.Read.whole shape.read source.toList

end Manifest

end EdgeRoutes
