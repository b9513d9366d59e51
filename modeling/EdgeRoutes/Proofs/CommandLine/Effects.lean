import EdgeRoutes.CommandLine.Run
import EdgeRoutes.Proofs.CommandLine.Arguments
import EdgeRoutes.Proofs.FileTree.Writing
import EdgeRoutes.Proofs.Handler.Emission

/-! What a run of the command line leaves behind.

All that a run does before it writes is to read, so a failure on the way finds the files as
they were, and nothing has been printed. A run that succeeds has changed at most the file that
it was asked to write, and this file holds the whole program.
-/

set_option autoImplicit false

namespace EdgeRoutes

namespace FileTree

/-- The action leaves every tree as it is. -/
def ReadOnly {Value : Type} (action : StateM FileTree Value) : Prop :=
  ∀ tree, (action.run tree).2 = tree

namespace ReadOnly

variable {First Second : Type}

theorem pure (value : First) : ReadOnly (Pure.pure value) := fun _ => rfl

variable {action : StateM FileTree First} {next : First → StateM FileTree Second}

theorem run_bind (first : ReadOnly action) (tree : FileTree) :
    (action >>= next).run tree = (next (action.run tree).1).run tree := by
  change (next (action.run tree).1).run (action.run tree).2 = _
  rw [first]

theorem bind (first : ReadOnly action) (second : ∀ value, ReadOnly (next value)) :
    ReadOnly (action >>= next) := by
  intro tree
  rw [first.run_bind]
  exact second _ tree

theorem isFile (path : String) : ReadOnly (FileSystem.isFile path) := fun _ => rfl

theorem readText (path : String) : ReadOnly (FileSystem.readText path) := fun _ => rfl

end ReadOnly

theorem run_writeText (tree : FileTree) (path text : String) :
    (FileSystem.writeText path text : StateM FileTree (Except FileFault Unit)).run tree =
      match tree.write path (.text text) with
      | .error fault => (.error fault, tree)
      | .ok after => (.ok (), after) := by
  cases written : tree.write path (.text text) <;> simp [FileSystem.writeText, written] <;> rfl

end FileTree

open FileTree (ReadOnly)

theorem loadManifest_readOnly (path : String) :
    ReadOnly (loadManifest path) := by
  unfold loadManifest
  apply ReadOnly.bind (.isFile path)
  intro file
  split
  · apply ReadOnly.bind (.readText path)
    intro read
    cases read <;> exact .pure _
  · exact .pure _

theorem compileBuild_readOnly (config : Config) : ReadOnly (compileBuild config) := by
  unfold compileBuild
  apply ReadOnly.bind (loadManifest_readOnly _)
  intro loaded
  exact .pure _

namespace CommandLine

theorem loadTable_readOnly (config : Config) : ReadOnly (loadTable config) := by
  unfold loadTable
  apply ReadOnly.bind (loadManifest_readOnly _)
  intro loaded
  exact .pure _

/-- The configuration in effect: what the given file says, or else the default, with the given
build directory in place of its own. -/
def Invocation.configIn (tree : FileTree) (invocation : Invocation) : Except ConfigError Config :=
  let chosen : Except ConfigError Config :=
    match invocation.configFile with
    | none => .ok {}
    | some path =>
      match tree.readText path with
      | .error fault => .error (.io fault)
      | .ok source => parseConfig source
  chosen.map fun config =>
    match invocation.buildDirectory with
    | none => config
    | some buildDirectory => { config with manifest := { config.manifest with buildDirectory } }

def programIn (tree : FileTree) (config : Config) : Except CompileError Program :=
  ((compileBuild config : StateM FileTree (Traced Program)).run tree).1.outcome

def tableIn (tree : FileTree) (config : Config) : Except CompileError RouteTable :=
  ((loadTable config : StateM FileTree (Traced RouteTable)).run tree).1.outcome

/-- What a run has printed and left behind that ends without an error, told from the tree that it
started in and from its arguments. -/
inductive Completed (tree : FileTree) (arguments : List String) : String → FileTree → Prop where
  | helped {topic : Topic} (asked : Words.Help topic arguments) :
      Completed tree arguments topic.helpText tree
  | printed {invocation : Invocation} {config : Config} {program : Program}
      (asked : invocation.Asked arguments) (command : invocation.command = .compile none)
      (effective : invocation.configIn tree = .ok config)
      (compiled : programIn tree config = .ok program)
      (fits : program.size ≤ config.matcher.maxProgramBytes) :
      Completed tree arguments (program.text ++ "\n") tree
  | written {invocation : Invocation} {config : Config} {program : Program} {path : String}
      {names : List String} {after : FileTree} (asked : invocation.Asked arguments)
      (command : invocation.command = .compile (some path))
      (effective : invocation.configIn tree = .ok config)
      (compiled : programIn tree config = .ok program)
      (fits : program.size ≤ config.matcher.maxProgramBytes) (named : tree.NamesFile path names)
      (holds : after.locate path = .ok (.entry names (.file (.text program.text))))
      (others : ∀ other, other ≠ names → after.find? other = tree.find? other) :
      Completed tree arguments "" after
  | resolved {invocation : Invocation} {config : Config} {table : RouteTable}
      {paths : List String} (asked : invocation.Asked arguments)
      (command : invocation.command = .resolve paths)
      (effective : invocation.configIn tree = .ok config)
      (loaded : tableIn tree config = .ok table) :
      Completed tree arguments
        (String.join (paths.map (resolutionLine config.matcher table))) tree
  | inspected {invocation : Invocation} {config : Config} {table : RouteTable}
      (asked : invocation.Asked arguments) (command : invocation.command = .inspect)
      (effective : invocation.configIn tree = .ok config)
      (loaded : tableIn tree config = .ok table) :
      Completed tree arguments ((table.toJson config.routes).indented ++ "\n") tree

/-- Why a run ends with an error, and with which code. -/
inductive Failed (tree : FileTree) (arguments : List String) : Nat → Prop where
  | misused (idle : ∀ invocation : Invocation, ¬ invocation.Asked arguments)
      (helpless : ∀ topic, ¬ Words.Help topic arguments) : Failed tree arguments 2
  | config {invocation : Invocation} {error : ConfigError} (asked : invocation.Asked arguments)
      (failed : invocation.configIn tree = .error error) : Failed tree arguments 1
  | compile {invocation : Invocation} {config : Config} {out : Option String}
      {error : CompileError} (asked : invocation.Asked arguments)
      (command : invocation.command = .compile out)
      (effective : invocation.configIn tree = .ok config)
      (failed : programIn tree config = .error error) : Failed tree arguments 1
  | output {invocation : Invocation} {config : Config} {path : String} {program : Program}
      {fault : FileFault} (asked : invocation.Asked arguments)
      (command : invocation.command = .compile (some path))
      (effective : invocation.configIn tree = .ok config)
      (compiled : programIn tree config = .ok program)
      (failed : tree.write path (.text program.text) = .error fault) : Failed tree arguments 1
  | table {invocation : Invocation} {config : Config} {error : CompileError}
      (asked : invocation.Asked arguments) (command : ∀ out, invocation.command ≠ .compile out)
      (effective : invocation.configIn tree = .ok config)
      (failed : tableIn tree config = .error error) : Failed tree arguments 1

theorem Invocation.run_config (invocation : Invocation) (tree : FileTree) :
    (invocation.config : StateM FileTree (Except ConfigError Config)).run tree =
      (invocation.configIn tree, tree) := by
  unfold Invocation.config configIn
  cases invocation.configFile with
  | none => rfl
  | some path =>
    have loaded : (loadConfig path : StateM FileTree (Except ConfigError Config)).run tree =
        (match tree.readText path with
          | .error fault => .error (.io fault)
          | .ok source => parseConfig source, tree) := by
      unfold loadConfig
      change StateT.run (match tree.readText path with
        | .error fault => Pure.pure (.error (.io fault))
        | .ok source => Pure.pure (parseConfig source)) tree = _
      cases tree.readText path <;> rfl
    rw [StateT.run_bind]
    change (StateT.run (loadConfig path) tree >>= _) = _
    rw [loaded]
    rfl

theorem exists_compile_of_programIn {tree : FileTree} {config : Config} {program : Program}
    (compiled : programIn tree config = .ok program) :
    ∃ manifest, (compile config manifest).outcome = .ok program := by
  rw [programIn, compileBuild, (loadManifest_readOnly _).run_bind] at compiled
  change (Traced.note _ >>= fun _ => _ >>= compile config).outcome = _ at compiled
  rw [Traced.outcome_bind] at compiled
  change (_ >>= compile config).outcome = _ at compiled
  rw [Traced.outcome_bind] at compiled
  -- From here on only the outcome of the loading matters, not the files.
  generalize ((loadManifest config.manifestPath : StateM FileTree _).run tree).1.outcome = loaded
    at compiled
  cases loaded with
  | error fault => cases compiled
  | ok manifest => exact ⟨manifest, compiled⟩

theorem size_le_of_programIn {tree : FileTree} {config : Config} {program : Program}
    (compiled : programIn tree config = .ok program) :
    program.size ≤ config.matcher.maxProgramBytes := by
  obtain ⟨manifest, ended⟩ := exists_compile_of_programIn compiled
  obtain ⟨table, _, emitted⟩ := compile_outcome_eq_ok_iff.mp ended
  exact (emit_outcome_eq_ok_iff.mp emitted).2

/-- How a run ends: if its exit code is not zero, there is a reason, and the run has printed
nothing and left the tree as it was; if it is zero, it has done what the arguments ask for. -/
structure Settled (tree : FileTree) (arguments : List String) (ended : Report × FileTree) :
    Prop where
  harmless : ended.1.exitCode ≠ 0 →
    Failed tree arguments ended.1.exitCode ∧ ended.1.output = "" ∧ ended.2 = tree
  completed : ended.1.exitCode = 0 → Completed tree arguments ended.1.output ended.2

namespace Settled

variable {tree after : FileTree} {arguments : List String} {events : List Event}

theorem of_failed {error : RunError} (failed : Failed tree arguments 1) :
    Settled tree arguments (⟨events, .failed error⟩, tree) where
  harmless _ := ⟨failed, rfl, rfl⟩
  completed code := by cases code

theorem of_done {output : String} (completed : Completed tree arguments output after) :
    Settled tree arguments (⟨events, .done output⟩, after) where
  harmless code := absurd rfl code
  completed _ := completed

theorem ofTraced {Value : Type} {traced : Traced Value} {print : Value → String}
    (failed : ∀ error, traced.outcome = .error error → Failed tree arguments 1)
    (completed : ∀ value, traced.outcome = .ok value →
      Completed tree arguments (print value) tree) :
    Settled tree arguments (.ofTraced traced print, tree) := by
  unfold Report.ofTraced
  split
  case h_1 error ended => exact .of_failed (failed error ended)
  case h_2 value ended => exact .of_done (completed value ended)

theorem filtered {report : Report} (settled : Settled tree arguments (report, after))
    (verbose : Bool) : Settled tree arguments (report.filtered verbose, after) :=
  ⟨settled.harmless, settled.completed⟩

end Settled

variable {tree : FileTree} {arguments : List String} {invocation : Invocation} {config : Config}

theorem run_writeProgram (traced : Traced Program) (path : String) (tree : FileTree) :
    (writeProgram traced path : StateM FileTree Report).run tree =
      match traced.outcome with
      | .error error => (⟨traced.events, .failed (.compile error)⟩, tree)
      | .ok program =>
        match tree.write path (.text program.text) with
        | .error fault => (⟨traced.events, .failed (.output fault)⟩, tree)
        | .ok after =>
          (⟨traced.events ++ [.programWritten path program.size], .done ""⟩, after) := by
  unfold writeProgram
  cases traced.outcome with
  | error error => rfl
  | ok program =>
    simp only [StateT.run_bind, FileTree.run_writeText]
    cases tree.write path (.text program.text) <;> rfl

/-- Only the last step of a compilation writes, and it has the whole program by then. -/
theorem settled_writeProgram {path : String} (asked : invocation.Asked arguments)
    (command : invocation.command = .compile (some path))
    (effective : invocation.configIn tree = .ok config) {traced : Traced Program}
    (same : traced.outcome = programIn tree config) :
    Settled tree arguments ((writeProgram traced path : StateM FileTree Report).run tree) := by
  rw [run_writeProgram]
  cases ended : traced.outcome with
  | error error => exact .of_failed (.compile asked command effective (same.symm.trans ended))
  | ok program =>
    have compiled : programIn tree config = .ok program := same.symm.trans ended
    dsimp only
    cases written : tree.write path (.text program.text) with
    | error fault => exact .of_failed (.output asked command effective compiled written)
    | ok after =>
      obtain ⟨names, named, holds, others⟩ := FileTree.locate_of_write written
      exact .of_done (.written asked command effective compiled (size_le_of_programIn compiled)
        named holds others)

theorem settled_command (asked : invocation.Asked arguments)
    (effective : invocation.configIn tree = .ok config) :
    Settled tree arguments
      ((invocation.command.run config : StateM FileTree Report).run tree) := by
  cases command : invocation.command with
  | compile out =>
    cases out with
    | none =>
      rw [Command.run, (compileBuild_readOnly config).run_bind]
      exact .ofTraced (fun _ failed => .compile asked command effective failed)
        fun program compiled =>
          .printed asked command effective compiled (size_le_of_programIn compiled)
    | some path =>
      rw [Command.run, (compileBuild_readOnly config).run_bind]
      exact settled_writeProgram asked command effective rfl
  | resolve paths =>
    rw [Command.run, (loadTable_readOnly config).run_bind]
    exact .ofTraced (fun _ failed => .table asked (by simp [command]) effective failed)
      fun table loaded => .resolved asked command effective loaded
  | inspect =>
    rw [Command.run, (loadTable_readOnly config).run_bind]
    exact .ofTraced (fun _ failed => .table asked (by simp [command]) effective failed)
      fun table loaded => .inspected asked command effective loaded

/-- A run of the command line, over any files and with any arguments, leaves nothing behind if
it fails; otherwise the only file that it may have changed is the one it was asked to write. -/
theorem run_settled (tree : FileTree) (arguments : List String) :
    Settled tree arguments ((run arguments : StateM FileTree Report).run tree) := by
  unfold run
  cases read : Invocation.ofArguments arguments with
  | error stop =>
    cases stop with
    | help topic => exact .of_done (.helped (Invocation.ofArguments_eq_help_iff.mp read))
    | misuse =>
      have idle (invocation : Invocation) : ¬ invocation.Asked arguments := fun asked => by
        cases read.symm.trans (Invocation.ofArguments_eq_ok_iff.mpr asked)
      have helpless (topic : Topic) : ¬ Words.Help topic arguments := fun asked => by
        cases read.symm.trans (Invocation.ofArguments_eq_help_iff.mpr asked)
      exact ⟨fun _ => ⟨.misused idle helpless, rfl, rfl⟩, fun code => by cases code⟩
  | ok invocation =>
    have asked := Invocation.ofArguments_eq_ok_iff.mp read
    simp only [Invocation.run, StateT.run_bind, Invocation.run_config]
    cases effective : invocation.configIn tree with
    | error error => exact .of_failed (.config asked effective)
    | ok config => exact (settled_command asked effective).filtered invocation.verbose

end CommandLine

end EdgeRoutes
