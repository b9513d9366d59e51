import EdgeRoutes.CommandLine.Help
import EdgeRoutes.CommandLine.Invocation
import EdgeRoutes.Compile.Pipeline
import EdgeRoutes.Json.Printer
import EdgeRoutes.Resolution
import EdgeRoutes.Table.Json

/-! Running a command line.

A run reads the configuration and the manifest, computes its whole result, and only then
writes a file, if it was asked to. What is printed is part of the report, so a run that
fails has printed nothing.
-/

set_option autoImplicit false

namespace EdgeRoutes.CommandLine

inductive RunError where
  | config (error : ConfigError)
  | compile (error : CompileError)
  | output (fault : FileFault)

def RunError.label : RunError → String
  | .config error => error.label
  | .compile error => error.label
  | .output _ => "Os"

def RunError.message : RunError → String
  | .config error => error.message
  | .compile error => error.message
  | .output fault => fault.message

inductive Ending where
  | done (output : String)
  | failed (error : RunError)
  | misused

/-- The events of a run in their order, and how it ended. -/
structure Report where
  events : List Event
  ending : Ending

namespace Report

def exitCode (report : Report) : Nat :=
  match report.ending with
  | .done _ => 0
  | .failed _ => 1
  | .misused => 2

def output (report : Report) : String :=
  match report.ending with
  | .done output => output
  | _ => ""

def ofStop : Stop → Report
  | .help topic => ⟨[], .done topic.helpText⟩
  | .misuse => ⟨[], .misused⟩

def ofTraced {Value : Type} (traced : Traced Value) (print : Value → String) : Report :=
  match traced.outcome with
  | .error error => ⟨traced.events, .failed (.compile error)⟩
  | .ok value => ⟨traced.events, .done (print value)⟩

def filtered (verbose : Bool) (report : Report) : Report :=
  { report with events := report.events.filter fun event => verbose || event.level != .debug }

end Report

def resolutionLine (matcher : MatcherConfig) (table : RouteTable) (path : String) : String :=
  let resolution := table.resolve matcher path
  path ++ " -> " ++ resolution.target?.getD path ++ " (" ++ resolution.kind ++ ")\n"

section

variable {m : Type → Type} [Monad m] [FileSystem m]

/-- The configuration of a file or the default one, with the given directory in it. -/
def Invocation.config (invocation : Invocation) : m (Except ConfigError Config) := do
  let loaded ←
    match invocation.configFile with
    | none => pure (.ok {})
    | some path => loadConfig path
  return loaded.map fun config =>
    match invocation.buildDirectory with
    | none => config
    | some buildDirectory => { config with manifest := { config.manifest with buildDirectory } }

def loadTable (config : Config) : m (Traced RouteTable) := do
  let loaded ← loadManifest config.manifestPath
  return loaded >>= routeTable config

/-- Writes a program to a file. -/
def writeProgram (traced : Traced Program) (path : String) : m Report := do
  match traced.outcome with
  | .error error => return ⟨traced.events, .failed (.compile error)⟩
  | .ok program =>
    match ← FileSystem.writeText path program.text with
    | .error fault => return ⟨traced.events, .failed (.output fault)⟩
    | .ok () => return ⟨traced.events ++ [.programWritten path program.size], .done ""⟩

def Command.run (config : Config) : Command → m Report
  | .compile none => do
    return .ofTraced (← compileBuild config) fun program => program.text ++ "\n"
  | .compile (some path) => do writeProgram (← compileBuild config) path
  | .resolve paths => do
    return .ofTraced (← loadTable config) fun table =>
      String.join (paths.map (resolutionLine config.matcher table))
  | .inspect => do
    return .ofTraced (← loadTable config) fun table =>
      (table.toJson config.routes).indented ++ "\n"

def Invocation.run (invocation : Invocation) : m Report := do
  match ← invocation.config with
  | .error error => return ⟨[], .failed (.config error)⟩
  | .ok config => return (← invocation.command.run config).filtered invocation.verbose

def run (arguments : List String) : m Report :=
  match Invocation.ofArguments arguments with
  | .error stop => return .ofStop stop
  | .ok invocation => invocation.run

end

end EdgeRoutes.CommandLine
