import EdgeRoutes.Config.Basic
import EdgeRoutes.Toml.Document
import EdgeRoutes.Toml.Shape

/-! Reading a configuration from a TOML text. What the text leaves out keeps its default. -/

set_option autoImplicit false

namespace EdgeRoutes

open Toml

def ManifestConfig.shape : Shape ManifestConfig where
  name := "struct ManifestConfig"
  fields := [
    .of "build_dir" (fun _ => .text "path string")
      fun config buildDirectory => { config with buildDirectory },
    .of "file_name" (fun _ => .text "a string") fun config fileName => { config with fileName },
    .of "supported_version" (fun _ => .natural (Nat.pow 2 32 - 1) "u32")
      fun config supportedVersion => { config with supportedVersion }]

def RouteConfig.shape : Shape RouteConfig where
  name := "struct RouteConfig"
  fields := [
    .of "wildcard_key" (fun _ => .text "a string")
      fun config wildcardKey => { config with wildcardKey },
    .of "page_key" (fun _ => .text "a string") fun config pageKey => { config with pageKey },
    .of "catch_all_marker" (fun _ => .text "a string")
      fun config catchAllMarker => { config with catchAllMarker }]

def MatcherConfig.shape : Shape MatcherConfig where
  name := "struct MatcherConfig"
  fields := [
    .of "page_suffix" (fun _ => .text "a string")
      fun config pageSuffix => { config with pageSuffix },
    .of "root_page" (fun _ => .text "a string") fun config rootPage => { config with rootPage },
    .of "internal_prefix" (fun _ => .text "a string")
      fun config internalPrefix => { config with internalPrefix },
    .of "max_program_bytes" (fun _ => .natural (Nat.pow 2 64 - 1) "usize")
      fun config maxProgramBytes => { config with maxProgramBytes }]

def MinifyConfig.shape : Shape MinifyConfig where
  name := "struct MinifyConfig"
  fields := [
    .of "enabled" (fun _ => .boolean) fun config enabled => { config with enabled },
    .of "mangle" (fun _ => .boolean) fun config mangle => { config with mangle },
    .of "compress" (fun _ => .boolean) fun config compress => { config with compress }]

namespace Config

def shape : Shape Config where
  name := "struct CompilerConfig"
  fields := [
    .of "manifest" (fun config => ManifestConfig.shape.read config.manifest)
      fun config manifest => { config with manifest },
    .of "routes" (fun config => RouteConfig.shape.read config.routes)
      fun config routes => { config with routes },
    .of "matcher" (fun config => MatcherConfig.shape.read config.matcher)
      fun config matcher => { config with matcher },
    .of "minify" (fun config => MinifyConfig.shape.read config.minify)
      fun config minify => { config with minify }]

/-- The configuration that a text describes, whether it meets the rules or not. -/
def ofText (source : String) : Except Fault Config :=
  match Toml.parse? source with
  | none => .error .malformed
  | some entries => shape.byName {} entries

end Config

end EdgeRoutes
