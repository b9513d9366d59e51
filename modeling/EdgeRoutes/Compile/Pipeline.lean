import EdgeRoutes.Compile.Traced
import EdgeRoutes.Config.Reader
import EdgeRoutes.Handler.Source
import EdgeRoutes.Manifest.Reader
import EdgeRoutes.Trie.Basic

/-! From a manifest to a program.

A manifest is admitted, its dynamic pages are merged into a trie, the trie is frozen with
the static pages into a table, and the table is written into a program. The first step that
fails ends the compilation. The configuration and the manifest come from texts in files.
-/

set_option autoImplicit false

namespace EdgeRoutes

def mergePages (pages : List String) : Traced RouteTrie := do
  let trie ← .ofOutcome ((RouteTrie.ofPages pages).mapError .conflictingRoutes)
  .note (.trieBuilt trie.size)
  return trie

/-- A manifest that is admitted although its base path has no effect is reported. -/
def acceptManifest (config : Config) (manifest : Manifest) : Traced Unit := do
  .ofOutcome ((manifest.accept config).mapError .refused)
  if manifest.basePath.isEmpty then return else .note (.basePathDeclared manifest.basePath)

def routeTable (config : Config) (manifest : Manifest) : Traced RouteTable := do
  acceptManifest config manifest
  let trie ← mergePages manifest.dynamicPages
  let table := trie.freeze manifest.staticPages
  .note (.tableFrozen table.staticRoutes.length)
  return table

/-- The program for a table, if it keeps to the configured budget, with its size and that of the
readable text reported. -/
def emit (config : Config) (table : RouteTable) : Traced Program := do
  let source := (Handler.Data.ofTable config table).source
  let text ← .ofOutcome ((Handler.minify config.minify source).mapError .minify)
  let program : Program := ⟨text⟩
  let limit := config.matcher.maxProgramBytes
  if program.size ≤ limit then
    .note (.programEmitted program.size limit source.utf8ByteSize table.staticRoutes.length)
    return program
  else
    .note (.budgetExceeded program.size limit)
    .ofOutcome (.error (.oversize ⟨program.size, limit⟩))

def compile (config : Config) (manifest : Manifest) : Traced Program := do
  emit config (← routeTable config manifest)

def parseManifest (source : String) : Except CompileError Manifest :=
  (Manifest.parse source).mapError fun fault =>
    .manifestParse fault.cause (fault.position source.toList)

def parseConfig (source : String) : Except ConfigError Config :=
  match Config.ofText source with
  | .error fault => .error (.unreadable fault)
  | .ok config =>
    match config.violations with
    | [] => .ok config
    | violations => .error (.invalid violations)

section

variable {m : Type → Type} [Monad m] [FileSystem m]

def loadConfig (path : String) : m (Except ConfigError Config) := do
  match ← FileSystem.readText path with
  | .error fault => return .error (.io fault)
  | .ok source => return parseConfig source

/-- Reads the manifest at a path. A path that names no file is reported apart, because then
the export has most likely not been run. -/
def loadManifest (path : String) : m (Traced Manifest) := do
  if ← FileSystem.isFile path then
    match ← FileSystem.readText path with
    | .error fault => return .ofOutcome (.error (.manifestRead path fault))
    | .ok source => return do
      let manifest ← .ofOutcome (parseManifest source)
      .note (.manifestLoaded path manifest.version manifest.staticRoutes.length
        manifest.dynamicRoutes.length)
      return manifest
  else return .ofOutcome (.error (.missingManifest path))

/-- Reads and compiles the manifest in the configured directory. -/
def compileBuild (config : Config) : m (Traced Program) := do
  let loaded ← loadManifest config.manifestPath
  return do
    .note (.producing config.manifestPath)
    compile config (← loaded)

end

end EdgeRoutes
